import PredicateSearch.Proofs.Schema.Gap

namespace PredicateSearch.Schema

/-! How what is written in a form begins, and how long it is at least -/

namespace Form

variable {α β : Type} {f : Form α} {g : α → Form β} {p : Char → Bool}

/-- What is written in the form begins with such a character, but for a gap. -/
def Starts (f : Form α) (start : Char → Bool) : Prop :=
  ∀ s a t, f s a t → ∃ x u, afterGap s = x :: u ∧ start x = true

theorem Starts.stops {start stop : Char → Bool} (hf : f.Starts start)
    (h : ∀ x, start x = true → stop x = false) {s t : List Char} {a : α} (ha : f s a t) :
    Sql.stops stop (afterGap s) = true := by
  obtain ⟨x, u, hu, hx⟩ := hf s a t ha
  simp [hu, Sql.stops, h x hx]

theorem Starts.stops_many1 {start stop : Char → Bool} (hf : f.Starts start)
    (h : ∀ x, start x = true → stop x = false) {s t : List Char} {as : List α} (hs : Many1 f s as t) :
    Sql.stops stop (afterGap s) = true := by
  cases hs with
  | last ha => exact hf.stops h ha
  | cons ha => exact hf.stops h ha

/-- A list may be left out if what comes behind it cannot go on with what stands before it. -/
theorem Starts.stops_many {start stop : Char → Bool} (hf : f.Starts start)
    (h : ∀ x, start x = true → stop x = false) {s t : List Char} {as : List α} (hs : many f s as t)
    (ht : Sql.stops stop (afterGap t) = true) : Sql.stops stop (afterGap s) = true := by
  rcases hs with ⟨-, rfl⟩ | hs
  · exact ht
  · exact hf.stops_many1 h hs

/-- No gap stands before what is written in the form. -/
def IsTight (f : Form α) : Prop := ∀ s a t, f s a t → afterGap s = s

/-- The first character of what is written in the form. -/
def Begins (f : Form α) (p : Char → Bool) : Prop := ∀ s a t, f s a t → ∃ x u, s = x :: u ∧ p x = true

/-- At least so many characters are passed over. -/
def Spends (f : Form α) (n : Nat) : Prop := ∀ s a t, f s a t → t.length + n ≤ s.length

theorem Begins.bind (hf : f.Begins p) : (f >>= g).Begins p := by
  rintro s b t ⟨a, u, ha, -⟩
  exact hf s a u ha

theorem begins_literal (x : Char) (l : List Char) : (literal (x :: l)).Begins (· = x) := by
  rintro s _ t rfl
  exact ⟨x, l ++ t, rfl, by simp⟩

theorem begins_char : (char p).Begins p := by
  rintro s a t ⟨rfl, ha⟩
  exact ⟨a, t, rfl, ha⟩

theorem Begins.isTight (hf : f.Begins p) (hp : ∀ x, p x = true → isSpace x = false ∧ x ≠ '/') :
    f.IsTight := by
  intro s a t h
  obtain ⟨x, u, rfl, hx⟩ := hf s a t h
  exact afterGap_cons (hp x hx).1 (hp x hx).2 u

theorem Begins.starts (hf : f.Begins p) (ht : f.IsTight) : f.Starts p := by
  intro s a t h
  rw [ht s a t h]
  exact hf s a t h

/-- What may be left out leaves the start to what comes next. -/
theorem Starts.optional_gap {q : Char → Bool} {g : Option α → Form β} (hf : f.Starts p)
    (hg : ∀ x, (g x).Starts q) :
    (optional f >>= fun x => gap >>= fun _ => g x).Starts (fun x => p x || q x) := by
  rintro s b t ⟨a, u, ha, _, v, hv, hb⟩
  cases a with
  | none =>
      cases ha
      obtain ⟨x, w, hw, hx⟩ := hg _ v b t hb
      exact ⟨x, w, by rw [hv.afterGap_eq, hw], by simp [hx]⟩
  | some a =>
      obtain ⟨x, w, hw, hx⟩ := hf s a u ha
      exact ⟨x, w, hw, by simp [hx]⟩

theorem Spends.bind {n m : Nat} (hf : f.Spends n) (hg : ∀ a, (g a).Spends m) : (f >>= g).Spends (m + n) := by
  rintro s b t ⟨a, u, ha, hb⟩
  have h₁ := hf s a u ha
  have h₂ := hg a u b t hb
  omega

theorem Spends.mono {n m : Nat} (hf : f.Spends n) (h : m ≤ n) : f.Spends m := by
  intro s a t ha
  have hn := hf s a t ha
  omega

theorem spends_pure (a : α) : (pure a : Form α).Spends 0 := by
  rintro s b t ⟨rfl, rfl⟩
  exact Nat.le_refl _

theorem spends_literal (l : List Char) : (literal l).Spends l.length := by
  rintro s _ t rfl
  simp [Nat.add_comm]

theorem spends_char : (char p).Spends 1 := by
  rintro s a t ⟨rfl, -⟩
  exact Nat.le_refl _

theorem spends_run : (run p).Spends 0 := by
  rintro s a t ⟨rfl, -⟩
  simp

theorem spends_gap : gap.Spends 0 := fun _ _ _ h => h.length_le

theorem Spends.optional {n : Nat} (hf : f.Spends n) : (optional f).Spends 0 := by
  rintro s (_ | a) t h
  · cases h
    exact Nat.le_refl _
  · exact hf.mono (Nat.zero_le n) s a t h

theorem Spends.many1 {n : Nat} (hf : f.Spends n) : (many1 f).Spends n := by
  intro s as t h
  induction h with
  | last ha => exact hf _ _ _ ha
  | cons ha hg _ ih =>
      have h₁ := hf _ _ _ ha
      have h₂ := hg.length_le
      omega

theorem Spends.many {n : Nat} (hf : f.Spends n) : (many f).Spends 0 := by
  rintro s as t (⟨-, rfl⟩ | h)
  · exact Nat.le_refl _
  · exact hf.many1.mono (Nat.zero_le n) s as t h

theorem begins_name : name.Begins isNameStart := begins_char.bind

theorem isNameStart_apart (x : Char) (hx : isNameStart x = true) : isSpace x = false ∧ x ≠ '/' := by
  constructor
  · simp [isSpace, Sql.ne_of_class (x := ' ') hx rfl, Sql.ne_of_class (x := '\t') hx rfl,
      Sql.ne_of_class (x := '\n') hx rfl, Sql.ne_of_class (x := '\r') hx rfl]
  · exact Sql.ne_of_class hx rfl

theorem isTight_name : name.IsTight := begins_name.isTight isNameStart_apart

theorem sign_apart {y : Char} (hy : isSpace y = false ∧ y ≠ '/') (x : Char) (hx : decide (x = y) = true) :
    isSpace x = false ∧ x ≠ '/' := by
  rw [of_decide_eq_true hx]
  exact hy

theorem isTight_literal {x : Char} {l : List Char} (hx : isSpace x = false ∧ x ≠ '/') (g : Unit → Form β) :
    (literal (x :: l) >>= g).IsTight :=
  (begins_literal x l).bind.isTight (sign_apart hx)

theorem starts_literal {x : Char} {l : List Char} (hx : isSpace x = false ∧ x ≠ '/') (g : Unit → Form β) :
    (literal (x :: l) >>= g).Starts (· = x) :=
  (begins_literal x l).bind.starts (isTight_literal hx g)

theorem isTight_documentationLine : documentationLine.IsTight := by
  rintro s a t ⟨_, u, rfl, -⟩
  exact afterGap_stop (by simp [isSpace]) (by rintro _ ⟨⟩; rfl)

theorem starts_documentationLine : documentationLine.Starts (· = '/') :=
  (begins_literal '/' ['/', '/']).bind.starts isTight_documentationLine

theorem starts_documentation : documentation.Starts (· = '/') := by
  rintro s c t ⟨lines, u, h, -⟩
  cases h with
  | last h => exact starts_documentationLine _ _ _ h
  | cons h => exact starts_documentationLine _ _ _ h

theorem starts_mark : mark.Starts (· = '@') := starts_literal (by decide) _

theorem Starts.bind (hf : f.Starts p) : (f >>= g).Starts p := by
  rintro s b t ⟨a, u, ha, -⟩
  exact hf s a u ha

theorem starts_name : name.Starts isNameStart := begins_name.starts isTight_name

theorem starts_column : column.Starts (fun x => x = '/' || isNameStart x) :=
  starts_documentation.optional_gap fun _ => starts_name.bind

theorem starts_modelBody (documentation : Option Documentation) :
    (modelBody documentation).Starts (· = 'm') := starts_literal (by decide) _

theorem starts_model : model.Starts (fun x => x = '/' || x = 'm') :=
  starts_documentation.optional_gap starts_modelBody

theorem spends_name : name.Spends 1 := spends_char.bind fun _ => spends_run.bind fun _ => spends_pure _

theorem spends_documentationLine : documentationLine.Spends 3 :=
  (spends_literal ['/', '/', '/']).bind fun _ => spends_run

theorem spends_documentation : documentation.Spends 3 :=
  spends_documentationLine.many1.bind fun _ => spends_pure _

theorem spends_stringLiteral : stringLiteral.Spends 2 :=
  (spends_literal ['"']).bind fun _ => spends_run.bind fun _ => (spends_literal ['"']).bind fun _ =>
    spends_pure _

theorem spends_markArgument : markArgument.Spends 4 :=
  (spends_literal ['(']).bind fun _ => spends_gap.bind fun _ => spends_stringLiteral.bind fun _ =>
    spends_gap.bind fun _ => (spends_literal [')']).bind fun _ => spends_pure _

theorem spends_mark : mark.Spends 2 :=
  (spends_literal ['@']).bind fun _ => spends_name.bind fun _ => spends_markArgument.optional.bind fun _ =>
    spends_pure _

theorem spends_columnType : columnType.Spends 1 :=
  spends_name.bind fun _ => (spends_literal ['?']).optional.bind fun _ => spends_pure _

theorem spends_column : column.Spends 2 :=
  spends_documentation.optional.bind fun _ => spends_gap.bind fun _ => spends_name.bind fun _ =>
    spends_gap.bind fun _ => spends_columnType.bind fun _ => spends_gap.bind fun _ =>
      spends_mark.many.bind fun _ => spends_pure _

theorem spends_modelBody (documentation : Option Documentation) : (modelBody documentation).Spends 8 :=
  (spends_literal ['m', 'o', 'd', 'e', 'l']).bind fun _ => spends_gap.bind fun _ =>
    spends_name.bind fun _ => spends_gap.bind fun _ => spends_mark.many.bind fun _ =>
      spends_gap.bind fun _ => (spends_literal ['\x7b']).bind fun _ => spends_gap.bind fun _ =>
        spends_column.many.bind fun _ => spends_gap.bind fun _ => (spends_literal ['\x7d']).bind fun _ =>
          spends_pure _

theorem spends_model : model.Spends 8 :=
  spends_documentation.optional.bind fun _ => spends_gap.bind fun _ => spends_modelBody _

theorem Spends.shorter {n : Nat} (hf : f.Spends (n + 1)) {s : List Char} {a : α} {t : List Char}
    (h : f s a t) : t.length < s.length := by
  have hn := hf s a t h
  omega

end Form

end PredicateSearch.Schema

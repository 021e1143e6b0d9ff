import PredicateSearch.Proofs.Schema.Building
import PredicateSearch.Proofs.Schema.Cursor
import PredicateSearch.Proofs.Schema.Syntax

namespace PredicateSearch

def Span.shift (n : Nat) (x : Span) : Span := ⟨x.start + n, x.stop + n⟩

theorem Span.shift_zero : Span.shift 0 = id := rfl

namespace Schema

/-! A rule reads the same of a text that is part of a longer one, as long as it need not look behind its end. -/

/-- The cursor in a longer text, with `n` bytes more in front and `ext` behind. -/
def Cursor.moved (n : Nat) (ext : List Char) (c : Cursor) : Cursor := ⟨c.rest ++ ext, c.offset + n⟩

theorem skip_moved {n : Nat} {ext : List Char} (hext : ext.head? ≠ some '/') (commented : Bool) (m : Nat)
    (s : List Char) (h : (skip commented m s).rest ≠ [] ∨ ext = []) :
    skip commented (m + n) (s ++ ext) = (skip commented m s).moved n ext := by
  fun_induction skip commented m s with
  | case1 commented m =>
      have he : ext = [] := h.resolve_left (not_not_intro rfl)
      subst he
      cases commented <;> rfl
  | case2 m c s ih =>
      rw [List.cons_append, skip_commented, Nat.add_right_comm]
      exact ih h
  | case3 commented m c s hb hc ih =>
      rw [Bool.eq_false_iff.2 hb, List.cons_append, skip_space hc, Nat.add_right_comm]
      exact ih h
  | case4 commented m hb t ht =>
      have hs : (t ++ ext).head? = some '/' := by rw [List.head?_append, ht]; rfl
      rw [Bool.eq_false_iff.2 hb]
      refine skip_stop (by simp [isSpace]) ?_ (m + n)
      rintro _ ⟨⟩
      exact hs
  | case5 commented m hb t ht _ ih =>
      have hs : (t ++ ext).head? ≠ some '/' := by
        cases t with
        | nil => exact hext
        | cons c t => exact ht
      rw [Bool.eq_false_iff.2 hb, List.cons_append, List.cons_append, skip_slashes hs, Nat.add_right_comm]
      exact ih h
  | case6 commented m c s hb hc ht =>
      rw [Bool.eq_false_iff.2 hb]
      refine skip_stop (by simpa using hc) ?_ (m + n)
      rintro t he
      obtain ⟨rfl, hs⟩ := List.cons.inj he
      cases s with
      | nil => exact absurd (by rw [show ext = '/' :: t from hs]; rfl) hext
      | cons d s => exact (ht s rfl (by rw [(List.cons.inj hs).1])).elim

theorem afterGap_append {ext s : List Char} (hext : ext.head? ≠ some '/') (h : afterGap s ≠ []) :
    afterGap (s ++ ext) = afterGap s ++ ext := by
  have hs := congrArg Cursor.rest (skip_moved (n := 0) hext false 0 s (.inl h))
  exact hs

/-- Behind a gap there is still something, and it begins with no such character. -/
def Ahead (stop : Char → Bool) (s : List Char) : Prop := ∃ x u, afterGap s = x :: u ∧ stop x = false

namespace Ahead

variable {stop stop' : Char → Bool} {s : List Char}

theorem mono (h : Ahead stop s) (hs : ∀ x, stop' x = true → stop x = true) : Ahead stop' s := by
  obtain ⟨x, u, hu, hx⟩ := h
  refine ⟨x, u, hu, ?_⟩
  cases hx' : stop' x with
  | false => rfl
  | true => exact (hs x hx').symm.trans hx

theorem ne_nil (h : Ahead stop s) : afterGap s ≠ [] := by
  obtain ⟨x, u, hu, -⟩ := h
  simp [hu]

theorem rest_ne_nil (h : Ahead stop s) : s ≠ [] := by
  rintro rfl
  exact h.ne_nil rfl

theorem of_afterGap (h : Ahead stop (afterGap s)) : Ahead stop s := by
  obtain ⟨x, u, hu, hx⟩ := h
  exact ⟨x, u, afterGap_afterGap s ▸ hu, hx⟩

theorem stops (h : Ahead stop s) : Sql.stops stop (afterGap s) = true := by
  obtain ⟨x, u, hu, hx⟩ := h
  simp [hu, Sql.stops, hx]

theorem append {ext : List Char} (h : Ahead stop s) (hext : ext.head? ≠ some '/') : Ahead stop (s ++ ext) := by
  have hs := afterGap_append hext h.ne_nil
  obtain ⟨x, u, hu, hx⟩ := h
  exact ⟨x, u ++ ext, by rw [hs, hu]; rfl, hx⟩

end Ahead

namespace Rule

variable {α β : Type} {stop stop' start : Char → Bool} {Q Q' : List Char → Prop}

/-- If what is left of the text is as `Q'` says, the text was as `Q` says. -/
def Shows (r : Rule α) (Q Q' : List Char → Prop) : Prop :=
  ∀ c a d, (r c).reading = some (a, d) → Q' d.rest → Q c.rest

/-- What is read begins with such a character, but for a gap. -/
def Opens (r : Rule α) (start : Char → Bool) : Prop :=
  ∀ c a d, (r c).reading = some (a, d) → ∃ x u, afterGap c.rest = x :: u ∧ start x = true

theorem Reads.opens {r : Rule α} {e : α → β} {f : Form β} (hr : Reads r e f) (hf : f.Starts start) :
    Opens r start := fun c a d h => hf _ _ _ (hr c a d h)

theorem Opens.bind {r : Rule α} {k : α → Rule β} (hr : Opens r start) : Opens (r >>= k) start := by
  intro c b e h
  obtain ⟨a, d, ha, -⟩ := reading_bind_eq_some.1 h
  exact hr c a d ha

theorem Opens.spanned {r : Rule α} (hr : Opens r start) : Opens (spanned r) start :=
  fun c x d h => hr c x.1 d (reading_spanned_eq_some.1 h).1

theorem Opens.declines {r : Rule α} (hr : Opens r start) {c : Cursor} (h : Ahead start c.rest) :
    (r c).reading = none := by
  cases hc : (r c).reading with
  | none => rfl
  | some y =>
      obtain ⟨x, u, hu, hx⟩ := h
      obtain ⟨x', u', hu', hx'⟩ := hr c y.1 y.2 hc
      cases hu.symm.trans hu'
      cases hx.symm.trans hx'

theorem Opens.ahead {r : Rule α} (hr : Opens r start) (h : ∀ x, start x = true → stop x = false) {c d : Cursor}
    {a : α} (ha : (r c).reading = some (a, d)) : Ahead stop c.rest := by
  obtain ⟨x, u, hu, hx⟩ := hr c a d ha
  exact ⟨x, u, hu, h x hx⟩

theorem Opens.shows {r : Rule α} (hr : Opens r start) (h : ∀ x, start x = true → stop x = false) :
    Shows r (Ahead stop) Q' := fun _ _ _ ha _ => hr.ahead h ha

/-- What may be left out does not hide what is behind it. -/
theorem Opens.shows_optional {r : Rule α} (hr : Opens r start) (h : ∀ x, start x = true → stop x = false)
    (hs : ∀ x, stop x = true → stop' x = true) : Shows (optional r) (Ahead stop) (Ahead stop') := by
  intro c x d hx hd
  rcases reading_optional_eq_some hx with ⟨-, rfl⟩ | ⟨a, -, ha⟩
  · exact hd.mono hs
  · exact hr.ahead h ha

theorem Opens.shows_many {r : Rule α} (hr : Opens r start) (h : ∀ x, start x = true → stop x = false)
    (hs : ∀ x, stop x = true → stop' x = true) : Shows (many r) (Ahead stop) (Ahead stop') := by
  intro c as d has hd
  rcases repeated_of_many has with ⟨-, rfl⟩ | ⟨a, u, bs, -, ha, -⟩
  · exact hd.mono hs
  · exact hr.ahead h ha

theorem Shows.bind {Q₁ : List Char → Prop} {r : Rule α} {k : α → Rule β} (hr : Shows r Q Q₁)
    (hk : ∀ a, Shows (k a) Q₁ Q') : Shows (r >>= k) Q Q' := by
  intro c b e hb he
  obtain ⟨a, d, ha, hd⟩ := reading_bind_eq_some.1 hb
  exact hr c a d ha (hk a d b e hd he)

theorem Shows.bind_pure {r : Rule α} {h : α → β} (hr : Shows r Q Q') : Shows (r >>= fun a => pure (h a)) Q Q' := by
  refine hr.bind fun a => ?_
  rintro c _ _ ⟨⟩ hc
  exact hc

theorem Shows.gap {r : Rule α} (hr : Shows r (Ahead stop) Q') : Shows (gap >>= fun _ => r) (Ahead stop) Q' := by
  intro c b e hb he
  rw [reading_gap_bind] at hb
  have hc := hr _ b e hb he
  rw [rest_gap] at hc
  exact hc.of_afterGap

/-- What one rule reads the other reads in the longer text, and as `R` says, if what is left is as `Q` says. -/
def Carries (n : Nat) (ext : List Char) (r r' : Rule α) (R : α → α → Prop) (Q : List Char → Prop) : Prop :=
  ∀ c a d, (r c).reading = some (a, d) → Q d.rest →
    ∃ a', (r' (c.moved n ext)).reading = some (a', d.moved n ext) ∧ R a a'

def Becomes (f : α → α) (a a' : α) : Prop := a' = f a

namespace Carries

variable {n : Nat} {ext : List Char} {r r' : Rule α} {f : α → α} {R : α → α → Prop} {k k' : α → Rule β}
  {S : β → β → Prop}

theorem pure {a a' : α} (h : R a a') : Carries n ext (Pure.pure a) (Pure.pure a') R Q := by
  rintro c _ _ ⟨⟩ -
  exact ⟨a', rfl, h⟩

theorem bind_shows (hr : Carries n ext r r' (Becomes f) Q) (hk : ∀ a, Carries n ext (k a) (k' (f a)) S Q')
    (hs : ∀ a, Shows (k a) Q Q') : Carries n ext (r >>= k) (r' >>= k') S Q' := by
  intro c b e h he
  obtain ⟨a, d, ha, hb⟩ := reading_bind_eq_some.1 h
  obtain ⟨_, ha', rfl⟩ := hr c a d ha (hs a d b e hb he)
  obtain ⟨b', hb', hS⟩ := hk a d b e hb he
  exact ⟨b', reading_bind_eq_some.2 ⟨f a, d.moved n ext, ha', hb'⟩, hS⟩

theorem bind (hr : Carries n ext r r' (Becomes f) fun _ => True) (hk : ∀ a, Carries n ext (k a) (k' (f a)) S Q') :
    Carries n ext (r >>= k) (r' >>= k') S Q' := hr.bind_shows hk fun _ _ _ _ _ _ => trivial

theorem bind_pure {h h' : α → β} (hr : Carries n ext r r' R Q) (hS : ∀ a a', R a a' → S (h a) (h' a')) :
    Carries n ext (r >>= fun a => Pure.pure (h a)) (r' >>= fun a => Pure.pure (h' a)) S Q := by
  intro c b e hb he
  obtain ⟨a, d, ha, hd⟩ := reading_bind_eq_some.1 hb
  cases hd
  obtain ⟨a', ha', hR⟩ := hr c a e ha he
  exact ⟨h' a', reading_bind_eq_some.2 ⟨a', e.moved n ext, ha', rfl⟩, hS a a' hR⟩

theorem mono (hr : Carries n ext r r' R Q) (h : ∀ s, Q' s → Q s) : Carries n ext r r' R Q' :=
  fun c a d ha hd => hr c a d ha (h _ hd)

theorem counted (hr : Carries n ext r r' R Q) : Carries n ext (Rule.counted r) (Rule.counted r') R Q := by
  intro c a d h hd
  rw [reading_counted] at h ⊢
  exact hr c a d h hd

theorem spanned (hr : Carries n ext r r' R Q) :
    Carries n ext (Rule.spanned r) (Rule.spanned r') (fun x x' => R x.1 x'.1 ∧ x'.2 = x.2.shift n) Q := by
  intro c x d h hd
  obtain ⟨ha, hs⟩ := reading_spanned_eq_some.1 h
  obtain ⟨a', ha', hR⟩ := hr c x.1 d ha hd
  exact ⟨(a', ⟨c.offset + n, d.offset + n⟩), reading_spanned_eq_some.2 ⟨ha', rfl⟩, hR, by rw [hs]; rfl⟩

theorem literal (l : List Char) : Carries n ext (Rule.literal l) (Rule.literal l) (Becomes id) Q := by
  intro c a d h _
  rw [reading_literal] at h
  obtain ⟨s, hs, hd⟩ := Option.map_eq_some_iff.1 h
  cases hd
  have hl : l ++ s = c.rest := List.isPrefixOf?_eq_some_iff_append_eq.1 hs
  have hm : l.isPrefixOf? (c.moved n ext).rest = some (s ++ ext) := by
    apply List.isPrefixOf?_eq_some_iff_append_eq.2
    rw [Cursor.moved, ← hl, List.append_assoc]
  refine ⟨(), ?_, rfl⟩
  rw [reading_literal, hm, Cursor.moved, Option.map_some, Nat.add_right_comm]
  rfl

theorem char (p : Char → Bool) : Carries n ext (Rule.char p) (Rule.char p) (Becomes id) Q := by
  intro c a d h _
  refine ⟨a, ?_, rfl⟩
  rw [Rule.char] at h
  split at h
  · next b s hc =>
      split at h
      · next hp =>
          cases h
          simp [Rule.char, Cursor.moved, hc, hp, Nat.add_right_comm]
      · cases h
  · cases h

theorem run (p : Char → Bool) : Carries n ext (Rule.run p) (Rule.run p) (Becomes id) (Ahead fun _ => false) := by
  intro c s d h hd
  obtain ⟨hc, ht, hs⟩ : c.rest = s ++ d.rest ∧ (∀ x ∈ s, p x = true) ∧ Sql.stops p d.rest = true :=
    Reads.run p c s d h
  have hs' : Sql.stops p (d.rest ++ ext) = true := by
    cases hr : d.rest with
    | nil => exact absurd hr hd.rest_ne_nil
    | cons x t =>
        rw [hr] at hs
        exact hs
  obtain ⟨h₁, h₂⟩ := Sql.takeWhile_of_stops ht hs'
  rw [← List.append_assoc, ← hc] at h₁ h₂
  cases h
  refine ⟨_, ?_, rfl⟩
  rw [Rule.run, Cursor.moved, h₁, h₂, Nat.add_right_comm]
  rfl

variable (hext : ext.head? ≠ some '/')

include hext

theorem gap : Carries n ext Rule.gap Rule.gap (Becomes id) (Ahead stop) := by
  rintro c _ _ ⟨⟩ hd
  have hs := skip_moved (n := n) hext false c.offset c.rest (.inl hd.rest_ne_nil)
  exact ⟨(), congrArg (fun d => some ((), d)) hs, rfl⟩

theorem bind_gap (hr : Carries n ext r r' (Becomes f) (Ahead stop))
    (hk : ∀ a, Carries n ext (k a) (k' (f a)) S Q') (hs : ∀ a, Shows (k a) (Ahead stop) Q') :
    Carries n ext (r >>= fun a => Rule.gap >>= fun _ => k a) (r' >>= fun a => Rule.gap >>= fun _ => k' a) S Q' :=
  hr.bind_shows (fun a => (gap hext).bind_shows (fun _ => hk a) fun _ => hs a) fun a => (hs a).gap

theorem bind_gap_opens (hr : Carries n ext r r' (Becomes f) (Ahead fun _ => false))
    (hk : ∀ a, Carries n ext (k a) (k' (f a)) S Q') (ho : ∀ a, Opens (k a) start) :
    Carries n ext (r >>= fun a => Rule.gap >>= fun _ => k a) (r' >>= fun a => Rule.gap >>= fun _ => k' a) S Q' :=
  hr.bind_gap hext hk fun a => (ho a).shows fun _ _ => rfl

theorem optional (hr : Carries n ext r r (Becomes f) (Ahead stop)) (ho : Opens r start) :
    Carries n ext (Rule.optional r) (Rule.optional r) (Becomes (Option.map f)) (Ahead fun x => stop x || start x) := by
  intro c x d h hd
  refine ⟨x.map f, ?_, rfl⟩
  rw [reading_optional]
  rcases reading_optional_eq_some h with ⟨rfl, rfl⟩ | ⟨a, rfl, ha⟩
  · have hn : Ahead start (d.moved n ext).rest := (hd.mono (by simp +contextual)).append hext
    rw [ho.declines hn]
    rfl
  · obtain ⟨_, ha', rfl⟩ := hr c a d ha (hd.mono (by simp +contextual))
    rw [ha']
    rfl

end Carries

/-- Behind each of several readings the text is as `Q` says, if it is so behind the last one and wherever another
can begin. -/
theorem Repeated.holds {r : Rule α} (ho : Opens r start) (hQ : ∀ s x u, afterGap s = x :: u → start x = true → Q s)
    {c d : Cursor} {as : List α} (h : Repeated r c as d) (hd : Q d.rest) : Q c.rest := by
  cases h with
  | nil => exact hd
  | cons ha h =>
      obtain ⟨x, u, hu, hx⟩ := ho _ _ _ ha
      rw [rest_gap, afterGap_afterGap] at hu
      exact hQ _ x u hu hx

theorem Repeats.more_of_repeated {r : Rule α} {e : α → β} {f : Form β} (hr : Repeats r e f stop start) {c d : Cursor}
    {as : List α} (h : Repeated r c as d) (hd : Sql.stops start (afterGap d.rest) = true) :
    (Rule.more r c).reading = some (as, d) := by
  induction h with
  | nil c => exact hr.more_nil hd
  | cons ha _ ih =>
      rw [hr.more_cons ha, ih hd]
      rfl

section

variable {n : Nat} {ext : List Char} {r : Rule α} {e : α → β} {f : α → α} {g : Form β}
  (hext : ext.head? ≠ some '/')

include hext

theorem Repeated.moved (hr : Carries n ext r r (Becomes f) Q) (ho : Opens r start)
    (hQ : ∀ s x u, afterGap s = x :: u → start x = true → Q s) {c d : Cursor} {as : List α} (h : Repeated r c as d)
    (hd : Q d.rest) : Repeated r (c.moved n ext) (as.map f) (d.moved n ext) := by
  induction h with
  | nil c => exact .nil _
  | @cons c u d a as ha h ih =>
      obtain ⟨x, t, ht, -⟩ := ho _ _ _ ha
      rw [rest_gap, afterGap_afterGap, ← rest_gap] at ht
      have hs := skip_moved (n := n) hext false c.offset c.rest (.inl (by simp [ht]))
      obtain ⟨_, hu, rfl⟩ := hr _ a u ha (h.holds ho hQ hd)
      rw [← hs] at hu
      exact .cons hu (ih hd)

theorem Carries.many (hr : Carries n ext r r (Becomes f) (Ahead stop)) (h : Repeats r e g stop start) :
    Carries n ext (Rule.many r) (Rule.many r) (Becomes (List.map f)) (Ahead fun x => stop x || start x) := by
  have ho : Opens r start := h.reads.opens h.starts
  intro c as d has hd
  have hstop : Ahead stop d.rest := hd.mono (by simp +contextual)
  have hn : Ahead start (d.moved n ext).rest := (hd.mono (by simp +contextual)).append hext
  refine ⟨as.map f, ?_, rfl⟩
  rw [reading_many]
  rcases repeated_of_many has with ⟨rfl, rfl⟩ | ⟨a, u, bs, rfl, ha, hbs⟩
  · rw [ho.declines hn]
    rfl
  · have hQ : ∀ s x u, afterGap s = x :: u → start x = true → Ahead stop s :=
      fun s x u hu hx => ⟨x, u, hu, h.apart x hx⟩
    obtain ⟨_, ha', rfl⟩ := hr c a u ha (hbs.holds ho hQ hstop)
    rw [ha']
    dsimp only
    rw [h.more_of_repeated (hbs.moved hext hr ho hQ hstop) hn.stops]
    rfl

theorem Carries.many1 (hr : Carries n ext r r (Becomes f) (Ahead stop)) (h : Repeats r e g stop start) :
    Carries n ext (Rule.many1 r) (Rule.many1 r) (Becomes (List.map f)) (Ahead fun x => stop x || start x) := by
  refine hr.bind_gap hext (fun a => (hr.many hext h).bind_pure ?_) fun a => ?_
  · rintro s _ rfl
    rfl
  · exact ((h.reads.opens h.starts).shows_many h.apart (by simp +contextual)).bind_pure

end

/-! The rules of the grammar -/

theorem opens_literal {x : Char} {l : List Char} (hx : isSpace x = false ∧ x ≠ '/') :
    Opens (literal (x :: l)) (· = x) :=
  (Reads.literal (x :: l)).opens
    ((Form.begins_literal x l).starts ((Form.begins_literal x l).isTight (Form.sign_apart hx)))

theorem opens_ident : Opens ident isNameStart := reads_ident.opens Form.starts_name

theorem opens_documentation : Opens documentation (· = '/') := by
  intro c a d h
  obtain ⟨t, ht, -⟩ := reads_documentation c a d h
  exact Form.starts_documentation _ _ _ ht

theorem opens_markArgument : Opens markArgument (· = '(') :=
  reads_markArgument.opens (Form.starts_literal (by decide) _)

theorem opens_questionMark : Opens questionMark (· = '?') := by
  intro c a d h
  rw [questionMark, reading_counted] at h
  exact opens_literal (by decide) c a d h

theorem opens_mark : Opens mark (· = '@') := reads_mark.opens Form.starts_mark

theorem opens_column : Opens column (fun x => x = '/' || isNameStart x) := reads_column.opens Form.starts_column

theorem opens_modelBody : Opens modelBody (· = 'm') :=
  (reads_modelBody none).opens (Form.starts_modelBody _)

theorem opens_columnType : Opens columnType isNameStart := reads_columnType.opens Form.starts_name.bind

section

variable {n : Nat} {ext : List Char} (hext : ext.head? ≠ some '/')

theorem carries_identifier : Carries n ext identifier identifier (Becomes id) (Ahead fun _ => false) := by
  refine Carries.counted ((Carries.char isNameStart).bind fun c => (Carries.run isNamePart).bind_pure ?_)
  rintro s _ rfl
  rfl

theorem carries_ident :
    Carries n ext ident ident (Becomes (Ident.relocate (Span.shift n))) (Ahead fun _ => false) := by
  refine carries_identifier.spanned.bind_pure ?_
  rintro ⟨text, span⟩ ⟨_, _⟩ ⟨⟨⟩, ⟨⟩⟩
  rfl

theorem carries_stringLiteral : Carries n ext stringLiteral stringLiteral (Becomes id) Q := by
  refine Carries.counted ((Carries.literal ['"']).bind fun _ => ?_)
  refine (Carries.run _).bind_shows (fun s => (Carries.literal ['"']).bind fun _ => .pure rfl) fun s => ?_
  exact (opens_literal (by decide)).bind.shows fun _ _ => rfl

theorem carries_documentationLine :
    Carries n ext documentationLine documentationLine (Becomes id) (Ahead fun _ => false) :=
  Carries.counted ((Carries.literal ['/', '/', '/']).bind fun _ => Carries.run _)

include hext

theorem carries_documentation :
    Carries n ext documentation documentation (Becomes (Documentation.relocate (Span.shift n)))
      (Ahead (· = '/')) := by
  refine ((carries_documentationLine.many1 hext repeats_documentationLine).counted.spanned.bind_pure ?_).mono ?_
  · rintro ⟨lines, span⟩ ⟨_, _⟩ ⟨rfl, rfl⟩
    simp [Becomes, Documentation.relocate]
  · exact fun s h => h.mono (by simp)

theorem carries_markArgument : Carries n ext markArgument markArgument (Becomes id) Q := by
  have ho : Opens stringLiteral (· = '"') := reads_stringLiteral.opens (Form.starts_literal (by decide) _)
  refine Carries.counted ((Carries.literal ['(']).bind_gap_opens hext (fun _ => ?_) fun _ => ho.bind)
  refine carries_stringLiteral.bind_gap_opens hext (fun s => ?_) fun s => (opens_literal (by decide)).bind
  exact (Carries.literal [')']).bind fun _ => .pure rfl

theorem carries_mark : Carries n ext mark mark (Becomes id) (Ahead (· = '(')) := by
  have ha : Carries n ext (optional markArgument) (optional markArgument) (Becomes (Option.map id))
      (Ahead (· = '(')) :=
    ((carries_markArgument (Q := Ahead fun _ => false) hext).optional hext opens_markArgument).mono
      fun s h => h.mono (by simp)
  refine Carries.counted ((Carries.literal ['@']).bind fun _ => ?_)
  refine carries_identifier.bind_shows (fun name => ha.bind_pure ?_) fun name => ?_
  · rintro argument _ rfl
    simp [Becomes]
  · exact (opens_markArgument.shows_optional (fun _ _ => rfl) (by simp)).bind_pure

theorem carries_columnType : Carries n ext columnType columnType (Becomes id) (Ahead (· = '?')) := by
  have hq : Carries n ext (optional questionMark) (optional questionMark) (Becomes (Option.map id))
      (Ahead (· = '?')) :=
    ((Carries.literal (Q := Ahead fun _ => false) ['?']).counted.optional hext opens_questionMark).mono
      fun s h => h.mono (by simp)
  refine Carries.counted (carries_identifier.bind_shows (fun name => hq.bind_pure ?_) fun name => ?_)
  · rintro question _ rfl
    simp [Becomes]
  · exact (opens_questionMark.shows_optional (fun _ _ => rfl) (by simp)).bind_pure

theorem carries_documented :
    Carries n ext (optional documentation) (optional documentation)
      (Becomes (Option.map (Documentation.relocate (Span.shift n)))) (Ahead (· = '/')) :=
  ((carries_documentation hext).optional hext opens_documentation).mono fun s h => h.mono (by simp)

/-- The span is not known before all of the body is read, so the bodies are compared at every one. -/
theorem carries_columnBody :
    Carries n ext columnBody columnBody
      (fun make make' => ∀ span, make' (span.shift n) = (make span).relocate (Span.shift n))
      (Ahead fun x => x = '?' || x = '(' || x = '@') := by
  have hm : Carries n ext (many mark) (many mark) (Becomes (List.map id))
      (Ahead fun x => x = '?' || x = '(' || x = '@') :=
    ((carries_mark hext).many hext repeats_mark).mono fun s h => h.mono (by simp +contextual)
  refine Carries.counted ((carries_documented hext).bind_gap hext (fun documentation => ?_) fun documentation => ?_)
  · refine carries_ident.bind_gap_opens hext (fun name => ?_) fun name => opens_columnType.bind
    refine (carries_columnType hext).bind_gap hext (fun type => hm.bind_pure ?_) fun type => ?_
    · rintro marks _ rfl span
      simp [ColumnDeclaration.relocate]
    · exact (opens_mark.shows_many (apart_sign rfl) (by simp +contextual)).bind_pure
  · exact opens_ident.bind.shows fun x hx => apart_name rfl hx

theorem carries_column :
    Carries n ext column column (Becomes (ColumnDeclaration.relocate (Span.shift n)))
      (Ahead fun x => x = '?' || x = '(' || x = '@') := by
  refine (carries_columnBody hext).spanned.bind_pure ?_
  rintro ⟨make, span⟩ ⟨make', _⟩ ⟨hm, rfl⟩
  exact hm span

theorem carries_modelBody :
    Carries n ext modelBody modelBody
      (Becomes fun x => (x.1.relocate (Span.shift n), x.2.1, x.2.2.map (ColumnDeclaration.relocate (Span.shift n))))
      Q := by
  refine Carries.counted ((Carries.literal _).bind_gap_opens hext (fun _ => ?_) fun _ => opens_ident.bind)
  refine carries_ident.bind_gap hext (fun name => ?_) fun name => ?_
  · refine ((carries_mark hext).many hext repeats_mark).bind_gap hext (fun marks => ?_) fun marks => ?_
    · refine (Carries.literal (Q := Ahead fun _ => false) ['\x7b']).bind_gap hext (fun _ => ?_) fun _ => ?_
      · refine ((carries_column hext).many hext repeats_column).bind_gap hext (fun columns => ?_) fun columns => ?_
        · exact (Carries.literal ['\x7d']).bind fun _ => .pure (by simp [Becomes])
        · exact (opens_literal (by decide)).bind.shows (apart_sign rfl)
      · refine (opens_column.shows_many (fun _ _ => rfl) fun _ h => h).bind fun columns => ?_
        exact ((opens_literal (by decide)).bind.shows fun _ _ => rfl).gap
    · exact (opens_literal (by decide)).bind.shows (apart_sign rfl)
  · refine (opens_mark.shows_many (fun _ _ => rfl) fun _ h => h).bind fun marks => ?_
    exact ((opens_literal (by decide)).bind.shows fun _ _ => rfl).gap

theorem carries_model : Carries n ext model model (Becomes (ModelDeclaration.relocate (Span.shift n))) Q := by
  refine (carries_documented hext).bind_gap hext (fun documentation => ?_) fun documentation => ?_
  · refine (carries_modelBody hext).spanned.bind_pure ?_
    rintro ⟨⟨name, marks, columns⟩, span⟩ ⟨_, _⟩ ⟨rfl, rfl⟩
    rfl
  · exact (opens_modelBody.spanned.bind).shows (apart_sign rfl)

end

end Rule

end Schema

end PredicateSearch

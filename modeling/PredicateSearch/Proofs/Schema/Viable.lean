import PredicateSearch.Proofs.Schema.Acceptance
import PredicateSearch.Proofs.Schema.Cursor
import PredicateSearch.Proofs.Schema.Splicing

namespace PredicateSearch.Schema

/-! Wherever a rule is tried in vain, something could have followed that makes good what was read before. -/

/-- The offset, if there is one, stands behind a part of the text that is as `P` says. -/
def Cursor.Marks (c : Cursor) (n : Nat) (P : List Char → Prop) : Prop :=
  n = 0 ∨ ∃ p q, c.rest = p ++ q ∧ n = c.offset + byteLength p ∧ P p

namespace Cursor.Marks

variable {c d : Cursor} {n m : Nat} {P P' : List Char → Prop}

theorem sup (h : c.Marks n P) (h' : c.Marks m P) : c.Marks (max n m) P := by
  rcases Nat.le_total n m with hle | hle
  · rw [Nat.max_eq_right hle]
    exact h'
  · rw [Nat.max_eq_left hle]
    exact h

theorem of_passes {p₁ : List Char} (hp : c.Passes p₁ d) (h : d.Marks n P)
    (hP : ∀ p₂ q, d.rest = p₂ ++ q → P p₂ → P' (p₁ ++ p₂)) : c.Marks n P' := by
  rcases h with h | ⟨p₂, q, hd, hn, h⟩
  · exact .inl h
  · refine .inr ⟨p₁ ++ p₂, q, ?_, ?_, hP p₂ q hd h⟩
    · rw [hp.rest, hd, List.append_assoc]
    · rw [hn, hp.offset, byteLength_append, Nat.add_assoc]

theorem mono (h : c.Marks n P) (hP : ∀ p, P p → P' p) : c.Marks n P' :=
  h.of_passes (.refl c) fun p _ _ => hP p

end Cursor.Marks

namespace Rule

variable {α β γ δ : Type}

theorem reach_bind (r : Rule α) (k : α → Rule β) (c : Cursor) :
    ((r >>= k) c).reach =
      max (r c).reach (match (r c).reading with | none => 0 | some (a, d) => (k a d).reach) := by
  change (Rule.bind r k c).reach = _
  rw [Rule.bind]
  rcases r c with ⟨n, _ | ⟨a, d⟩⟩
  · exact (Nat.max_eq_left (Nat.zero_le n)).symm
  · rfl

theorem reach_gap_bind (r : Rule α) (c : Cursor) :
    ((gap >>= fun _ => r) c).reach = (r (skip false c.offset c.rest)).reach := by
  rw [reach_bind, reading_gap]
  exact Nat.max_eq_right (Nat.zero_le _)

theorem reach_optional (r : Rule α) (c : Cursor) : (optional r c).reach = (r c).reach := by
  rw [optional]
  rcases r c with ⟨n, _ | ⟨a, d⟩⟩ <;> rfl

theorem reach_spanned (r : Rule α) (c : Cursor) : (spanned r c).reach = (r c).reach := by
  rw [spanned]
  rcases r c with ⟨n, _ | ⟨a, d⟩⟩ <;> rfl

theorem reach_counted (r : Rule α) (c : Cursor) :
    (counted r c).reach = (r c).reach ∨ (counted r c).reach = max (r c).reach c.offset := by
  rw [counted]
  rcases r c with ⟨n, _ | ⟨a, d⟩⟩
  · exact .inr rfl
  · exact .inl rfl

theorem reach_literal (l : List Char) (c : Cursor) : (literal l c).reach = 0 := by
  rw [literal]
  cases l.isPrefixOf? c.rest <;> rfl

theorem reach_char (p : Char → Bool) (c : Cursor) : (char p c).reach = 0 := by
  rw [char]
  split
  · split <;> rfl
  · rfl

/-- What is read can be cut out and put in front of another text. -/
def Cuts (r : Rule α) (f : Form β) : Prop :=
  ∀ c a d, (r c).reading = some (a, d) → ∃ p b, c.Passes p d ∧ f.Fits p b d.rest

/-- The same of a rule that may go on over a gap behind the form. -/
def CutsUpToGap (r : Rule α) (f : Form β) : Prop :=
  ∀ c a d, (r c).reading = some (a, d) →
    ∃ p₁ p₂ b, c.Passes (p₁ ++ p₂) d ∧ f.Fits p₁ b (p₂ ++ d.rest) ∧ Form.gap.Fits p₂ () d.rest

theorem Reads.cuts {r : Rule α} {e : α → β} {f : Form β} (hr : Reads r e f) (ha : Advances r) (hf : f.Splices) :
    Cuts r f := by
  intro c a d h
  obtain ⟨p, hp⟩ := ha c a d h
  obtain ⟨p', hc, hq⟩ := hf _ _ _ (hr c a d h)
  cases hp.eq hc
  exact ⟨p, e a, hp, hq⟩

theorem ReadsUpToGap.cuts {r : Rule α} {e : α → β} {f : Form β} (hr : ReadsUpToGap r e f) (ha : Advances r)
    (hf : f.Splices) : CutsUpToGap r f := by
  intro c a d h
  obtain ⟨p, hp⟩ := ha c a d h
  obtain ⟨t, ht, hg⟩ := hr c a d h
  obtain ⟨p₁, hc, h₁⟩ := hf _ _ _ ht
  obtain ⟨p₂, rfl, h₂⟩ := Form.Splices.gap t () d.rest hg
  rw [← List.append_assoc] at hc
  cases hp.eq hc
  exact ⟨p₁, p₂, e a, hp, h₁, h₂⟩

theorem Cuts.upToGap {r : Rule α} {f : Form β} (h : Cuts r f) : CutsUpToGap r f := by
  intro c a d hd
  obtain ⟨p, b, hp, hf⟩ := h c a d hd
  exact ⟨p, [], b, by rwa [List.append_nil], hf, fun q _ => .done q⟩

theorem cut_gap (c : Cursor) :
    ∃ p, c.Passes p (skip false c.offset c.rest) ∧ Form.gap.Fits p () (skip false c.offset c.rest).rest := by
  obtain ⟨p, ⟨⟩, hp, hg⟩ := Reads.gap.cuts Advances.gap Form.Splices.gap c () _ rfl
  exact ⟨p, hp, hg⟩

/-- What is read of a text up to any place where the rule is tried in vain is as `P` says. -/
structure Viable (r : Rule α) (P : List Char → Prop) : Prop where
  start : P []
  marks : ∀ c : Cursor, c.Marks (r c).reach P

namespace Viable

variable {r : Rule α} {k : α → Rule β} {f : Form γ} {g : γ → Form δ} {P P' : List Char → Prop}

theorem mono (hr : Viable r P) (h : ∀ p, P p → P' p) : Viable r P' :=
  ⟨h [] hr.start, fun c => (hr.marks c).mono h⟩

theorem of_silent (hr : ∀ c, (r c).reach = 0) (h : P []) : Viable r P := ⟨h, fun c => .inl (hr c)⟩

theorem pure (a : α) (h : P []) : Viable (Pure.pure a : Rule α) P := of_silent (fun _ => rfl) h

theorem counted (hr : Viable r P) : Viable (Rule.counted r) P := by
  refine ⟨hr.start, fun c => ?_⟩
  rcases reach_counted r c with h | h
  · rw [h]
    exact hr.marks c
  · rw [h]
    exact (hr.marks c).sup (.inr ⟨[], c.rest, rfl, rfl, hr.start⟩)

theorem spanned (hr : Viable r P) : Viable (Rule.spanned r) P :=
  ⟨hr.start, fun c => by rw [reach_spanned]; exact hr.marks c⟩

theorem optional (hr : Viable r f.Leads) : Viable (Rule.optional r) (Form.optional f).LeadsOn :=
  ⟨hr.start.optional, fun c => by rw [reach_optional]; exact (hr.marks c).mono fun _ h => h.optional⟩

theorem leads (hr : Viable r f.LeadsOn) : Viable r f.Leads := hr.mono fun _ h => h.leads

theorem bind_pure {h : α → β} (hr : Viable r P) : Viable (r >>= fun a => Pure.pure (h a)) P := by
  refine ⟨hr.start, fun c => ?_⟩
  rw [reach_bind]
  apply (hr.marks c).sup
  split <;> exact .inl rfl

theorem bind_pure_leads {h : α → β} {h' : γ → δ} (hr : Viable r f.Leads) :
    Viable (r >>= fun a => Pure.pure (h a)) (f >>= fun b => Pure.pure (h' b)).Leads :=
  hr.bind_pure.mono fun _ hp => hp.map h' fun _ b t hb => ⟨b, t, hb, rfl, rfl⟩

theorem bind_pure_leadsOn {h : α → β} {h' : γ → δ} (hr : Viable r f.LeadsOn) :
    Viable (r >>= fun a => Pure.pure (h a)) (f >>= fun b => Pure.pure (h' b)).LeadsOn :=
  hr.bind_pure.mono fun _ hp => hp.map h' fun _ b t hb => ⟨b, t, hb, rfl, rfl⟩

/-- A word may be followed by anything. -/
theorem literal_bind {k : Rule β} {g : Form δ} (l : List Char) (hk : Viable k g.Leads) :
    Viable (Rule.literal l >>= fun _ => k) (Form.literal l >>= fun _ => g).Leads := by
  refine ⟨(Form.leads_literal_bind l hk.start).nil, fun c => ?_⟩
  rw [reach_bind, reach_literal]
  apply Cursor.Marks.sup (.inl rfl)
  split
  · exact .inl rfl
  · next d hd =>
      obtain ⟨p, hp⟩ := Advances.literal l c _ d hd
      cases hp.eq (Reads.literal l c _ d hd)
      exact (hk.marks d).of_passes hp fun p₂ _ _ h => Form.leads_literal_bind l h

theorem gap {k : Rule β} {g : Form δ} (hk : Viable k g.Leads) :
    Viable (Rule.gap >>= fun _ => k) (Form.gap >>= fun _ => g).LeadsOn := by
  have hnil : Form.gap.Fits [] () [] := fun q _ => .done q
  refine ⟨hnil.leadsOn_gap rfl hk.start, fun c => ?_⟩
  rw [reach_gap_bind]
  obtain ⟨p, hp, hg⟩ := cut_gap c
  exact (hk.marks _).of_passes hp fun p₂ q hq h => hg.leadsOn_gap hq h

variable [Nonempty α]

theorem bind (hc : Cuts r f) (hr : Viable r f.Leads) (hk : ∀ a b, Viable (k a) (g b).LeadsOn) :
    Viable (r >>= k) (f >>= g).Leads := by
  have hg : ∀ b, (g b).LeadsOn [] := fun b => (hk (Classical.arbitrary α) b).start
  refine ⟨hr.start.bind hg, fun c => ?_⟩
  rw [reach_bind]
  apply ((hr.marks c).mono fun p h => h.bind hg).sup
  cases hd : (r c).reading with
  | none => exact .inl rfl
  | some x =>
      obtain ⟨p, b, hp, hf⟩ := hc c x.1 x.2 hd
      exact ((hk x.1 b).marks x.2).of_passes hp fun p₂ q hq h => hf.leads_bind hq h

theorem bind_gap (hc : CutsUpToGap r f) (hr : Viable r f.Leads) (hk : ∀ a b, Viable (k a) (g b).Leads) :
    Viable (r >>= fun a => Rule.gap >>= fun _ => k a) (f >>= fun b => Form.gap >>= fun _ => g b).Leads := by
  have hg : ∀ b, (Form.gap >>= fun _ => g b).LeadsOn [] := fun b => (hk (Classical.arbitrary α) b).gap.start
  refine ⟨hr.start.bind hg, fun c => ?_⟩
  rw [reach_bind]
  apply ((hr.marks c).mono fun p h => h.bind hg).sup
  cases hd : (r c).reading with
  | none => exact .inl rfl
  | some x =>
      obtain ⟨p₁, p₂, b, hp, hf, hgap⟩ := hc c x.1 x.2 hd
      obtain ⟨p₃, hp₃, hgap₃⟩ := cut_gap x.2
      rw [hp₃.rest] at hf hgap
      change c.Marks ((Rule.gap >>= fun _ => k x.1) x.2).reach _
      rw [reach_gap_bind]
      refine ((hk x.1 b).marks _).of_passes (hp.trans hp₃) fun p₄ q hq h => ?_
      have hu : p₂ ++ (p₃ ++ (skip false x.2.offset x.2.rest).rest) = p₂ ++ p₃ ++ p₄ ++ q := by simp [hq]
      rw [List.append_assoc p₁, List.append_assoc p₁]
      exact hf.leads_bind hu ((hgap.gap_append hgap₃).leadsOn_gap hq h)

end Viable

section

variable {r : Rule α} {f : Form β}

theorem reach_more (r : Rule α) (c : Cursor) :
    (more r c).reach =
      match (r (skip false c.offset c.rest)).reading with
      | none => (r (skip false c.offset c.rest)).reach
      | some (_, d) =>
        if d.rest.length < c.rest.length then max (r (skip false c.offset c.rest)).reach (more r d).reach
        else (r (skip false c.offset c.rest)).reach := by
  have hb := reading_gap_bind r c
  have hn := reach_gap_bind r c
  rw [more]
  rcases hg : (gap >>= fun _ => r) c with ⟨n, x⟩
  rw [hg] at hb hn
  rw [← hb, ← hn]
  rcases x with _ | ⟨a, d⟩
  · rfl
  · dsimp only
    split <;> rfl

theorem reach_many (r : Rule α) (c : Cursor) :
    (many r c).reach =
      match (r c).reading with
      | none => (r c).reach
      | some (_, d) => max (r c).reach (more r d).reach := by
  rw [many, reach_bind, reach_optional, reading_optional]
  rcases (r c).reading with _ | ⟨a, d⟩
  · exact Nat.max_eq_left (Nat.zero_le _)
  · refine congrArg (max _) ((reach_bind _ _ d).trans ?_)
    apply Nat.max_eq_left
    split <;> exact Nat.zero_le _

theorem marks_more (hc : Cuts r f) (hr : Viable r f.Leads) (c : Cursor) :
    c.Marks (more r c).reach (Form.gap >>= fun _ => Form.many1 f).LeadsOn := by
  induction hn : c.rest.length using Nat.strongRecOn generalizing c with
  | ind n ih =>
      obtain ⟨p, hp, hg⟩ := cut_gap c
      have hfirst : c.Marks (r (skip false c.offset c.rest)).reach (Form.gap >>= fun _ => Form.many1 f).LeadsOn :=
        (hr.marks _).of_passes hp fun p₂ q hq h => hg.leadsOn_gap hq (h.map (fun a => [a]) fun _ _ _ => .last)
      rw [reach_more]
      split
      · exact hfirst
      · next a d hd =>
          split
          · next hlt =>
              obtain ⟨p₁, b, hp₁, hf⟩ := hc _ a d hd
              refine hfirst.sup ((ih _ (hn ▸ hlt) d rfl).of_passes (hp.trans hp₁) fun p₂ q hq h => ?_)
              have hu : (skip false c.offset c.rest).rest = p₁ ++ p₂ ++ q := by
                rw [hp₁.rest, hq, List.append_assoc]
              rw [List.append_assoc]
              exact hg.leadsOn_gap hu (hf.leads_many1 hq h)
          · exact hfirst

/-- Where one more is tried, one more could have come. -/
theorem Viable.many_leads_many1 (hc : Cuts r f) (hr : Viable r f.Leads) :
    Viable (Rule.many r) (Form.many1 f).Leads := by
  have hone : ∀ p, f.Leads p → (Form.many1 f).Leads p := fun p h => h.map (fun a => [a]) fun _ _ _ => .last
  refine ⟨hone [] hr.start, fun c => ?_⟩
  have hfirst := (hr.marks c).mono hone
  rw [reach_many]
  split
  · exact hfirst
  · next a d hd =>
      obtain ⟨p, b, hp, hf⟩ := hc c a d hd
      exact hfirst.sup ((marks_more hc hr d).of_passes hp fun p₂ q hq h => hf.leads_many1 hq h)

theorem Viable.many (hc : Cuts r f) (hr : Viable r f.Leads) : Viable (Rule.many r) (Form.many f).Leads :=
  (hr.many_leads_many1 hc).mono fun _ h => h.map id fun _ _ _ => .inr

theorem Viable.many1 [Nonempty α] (hc : Cuts r f) (hr : Viable r f.Leads) :
    Viable (Rule.many1 r) (Form.many1 f).Leads := by
  have hk : ∀ a b, Viable (Rule.many r >>= fun s => Pure.pure (a :: s))
      (Form.many1 f >>= fun s => Pure.pure (b :: s)).Leads := fun a b =>
    (hr.many_leads_many1 hc).bind_pure_leads
  refine (hr.bind_gap hc.upToGap hk).mono fun p h => h.map id ?_
  rintro s _ r ⟨b, t, hb, ⟨⟩, v, hv, as, _, hm, rfl, rfl⟩
  exact .cons hb hv hm

end

/-! The rules of the grammar -/

instance : Nonempty Ident := ⟨{ text := "" }⟩

theorem reach_bind_silent {r : Rule α} {k : α → Rule β} (hr : ∀ c, (r c).reach = 0) (hk : ∀ a c, (k a c).reach = 0)
    (c : Cursor) : ((r >>= k) c).reach = 0 := by
  rw [reach_bind, hr]
  split
  · rfl
  · rw [hk]
    rfl

theorem viable_identifier : Viable identifier Form.name.Leads := by
  refine (Viable.of_silent (fun c => ?_) Form.leads_name).counted
  exact reach_bind_silent (reach_char isNameStart) (fun _ _ => rfl) c

theorem viable_ident : Viable ident Form.name.Leads := viable_identifier.spanned.bind_pure

theorem viable_stringLiteral : Viable stringLiteral Form.stringLiteral.Leads := by
  refine (Viable.of_silent (fun c => ?_) Form.leads_stringLiteral).counted
  refine reach_bind_silent (reach_literal ['"']) (fun _ c => ?_) c
  refine reach_bind_silent (fun _ => rfl) (fun _ c => ?_) c
  exact reach_bind_silent (reach_literal ['"']) (fun _ _ => rfl) c

theorem viable_documentationLine : Viable documentationLine Form.documentationLine.Leads := by
  refine (Viable.of_silent (fun c => ?_) Form.leads_documentationLine).counted
  exact reach_bind_silent (reach_literal ['/', '/', '/']) (fun _ _ => rfl) c

theorem viable_documentation : Viable documentation Form.documentation.Leads := by
  have hc : Cuts documentationLine Form.documentationLine :=
    reads_documentationLine.cuts advances_documentationLine Form.splices_documentationLine
  exact (viable_documentationLine.many1 hc).counted.spanned.bind_pure_leads

theorem viable_markArgument : Viable markArgument Form.markArgument.Leads := by
  have hc : Cuts stringLiteral Form.stringLiteral :=
    reads_stringLiteral.cuts advances_stringLiteral Form.splices_stringLiteral
  refine (Viable.literal_bind ['('] (Viable.gap ?_).leads).counted
  refine viable_stringLiteral.bind_gap hc.upToGap fun s t => ?_
  exact .literal_bind [')'] (.pure s (Form.leads_pure t))

theorem viable_mark : Viable mark Form.mark.Leads := by
  have hc : Cuts identifier Form.name := reads_identifier.cuts advances_identifier Form.splices_name
  refine (Viable.literal_bind ['@'] ?_).counted
  exact viable_identifier.bind hc fun _ _ => viable_markArgument.optional.bind_pure_leadsOn

theorem viable_columnType : Viable columnType Form.columnType.Leads := by
  have hc : Cuts identifier Form.name := reads_identifier.cuts advances_identifier Form.splices_name
  have hq : Viable questionMark (Form.literal ['?']).Leads :=
    (Viable.of_silent (reach_literal ['?']) ⟨['?'], (), fun _ _ => rfl⟩).counted
  exact (viable_identifier.bind hc fun _ _ => hq.optional.bind_pure_leadsOn).counted

theorem cuts_ident : Cuts ident Form.name := reads_ident.cuts advances_ident Form.splices_name

theorem cuts_documented : CutsUpToGap (optional documentation) (Form.optional Form.documentation) :=
  reads_documentation.optional.cuts advances_documentation.optional Form.splices_documentation.optional

theorem cuts_marks : Cuts (many mark) (Form.many Form.mark) :=
  reads_mark.many.cuts advances_mark.many Form.splices_mark.many

theorem viable_marks : Viable (many mark) (Form.many Form.mark).Leads :=
  viable_mark.many (reads_mark.cuts advances_mark Form.splices_mark)

theorem viable_columnBody : Viable columnBody Form.column.Leads := by
  have hc : Cuts columnType Form.columnType :=
    reads_columnType.cuts advances_columnType Form.splices_columnType
  refine (viable_documentation.optional.leads.bind_gap cuts_documented fun _ _ => ?_).counted
  refine viable_ident.bind_gap cuts_ident.upToGap fun _ _ => ?_
  refine viable_columnType.bind_gap hc.upToGap fun _ _ => ?_
  exact viable_marks.bind_pure_leads

theorem viable_column : Viable column Form.column.Leads := viable_columnBody.spanned.bind_pure

theorem viable_modelBody (documentation : Option Documentation) :
    Viable modelBody (Form.modelBody documentation).Leads := by
  have hc : Cuts column Form.column := reads_column.cuts advances_column Form.splices_column
  have hcs : Cuts (many column) (Form.many Form.column) :=
    reads_column.many.cuts advances_column.many Form.splices_column.many
  refine (Viable.literal_bind _ (Viable.gap ?_).leads).counted
  refine viable_ident.bind_gap cuts_ident.upToGap fun _ _ => ?_
  refine viable_marks.bind_gap cuts_marks.upToGap fun _ _ => ?_
  refine Viable.literal_bind ['\x7b'] (Viable.gap ?_).leads
  refine (viable_column.many hc).bind_gap hcs.upToGap fun _ _ => ?_
  exact .literal_bind ['\x7d'] (.pure _ (Form.leads_pure _))

theorem viable_model : Viable model Form.model.Leads := by
  refine viable_documentation.optional.leads.bind_gap cuts_documented fun _ documentation => ?_
  exact (viable_modelBody documentation).spanned.bind_pure

theorem viable_schema : Viable schema Form.models.Leads := by
  have hc : Cuts model Form.model := reads_model.cuts advances_model Form.splices_model
  have hcs : Cuts (many model) (Form.many Form.model) :=
    reads_model.many.cuts advances_model.many Form.splices_model.many
  have hf : ∀ c, (finish c).reach = 0 := by
    intro c
    rw [finish]
    split <;> rfl
  refine (Viable.gap ?_).leads.counted
  refine (viable_model.many hc).bind_gap hcs.upToGap fun _ models => ?_
  exact (Viable.of_silent hf (Form.leads_pure models)).counted.bind_pure

end Rule

/-- What stands before the place of a syntax error can be completed. -/
theorem exists_declarations_of_error {text : List Char} {n : Nat}
    (h : declarations text = .error (.malformedText n)) :
    ∃ p q, text = p ++ q ∧ n = byteLength p ∧ ∃ t ds, declarations (p ++ t) = .ok ds := by
  have hn : (Rule.schema ⟨text, 0⟩).reach = n := by
    unfold declarations at h
    split at h
    · cases h
    · next hs =>
        cases h
        rw [hs]
  have hp : ∃ p q, text = p ++ q ∧ n = byteLength p ∧ Form.models.Leads p := by
    rcases Rule.viable_schema.marks ⟨text, 0⟩ with h | ⟨p, q, hc, h, hp⟩
    · exact ⟨[], text, rfl, hn.symm.trans h, Rule.viable_schema.start⟩
    · exact ⟨p, q, hc, hn.symm.trans (h.trans (Nat.zero_add _)), hp⟩
  obtain ⟨p, q, hc, hn, t, bs, hp⟩ := hp
  obtain ⟨ds, hd, -⟩ := declarations_iff.2 (Form.schema_of_models (hp ['\n'] (.cons [])))
  exact ⟨p, q, hc, hn, t ++ ['\n'], ds, hd⟩

/-- A syntax error stands between two characters of the text, and what is before it can be completed. -/
theorem parse_error_place {text : String} {n : Nat} (h : parse text = .error (.malformedText n)) :
    n ≤ text.utf8ByteSize ∧ (⟨n⟩ : String.Pos.Raw).IsValid text ∧
      ∃ before after, text = before ++ after ∧ n = before.utf8ByteSize ∧
        ∃ t, ∀ m, parse (before ++ t) ≠ .error (.malformedText m) := by
  obtain ⟨p, q, hc, hn, t, ds, hd⟩ := exists_declarations_of_error (parse_eq_malformedText.1 h)
  have htext : text = String.ofList p ++ String.ofList q := by
    apply String.toList_injective
    simpa using hc
  have hsize : n = (String.ofList p).utf8ByteSize := by
    rw [hn, ← byteLength_toList, String.toList_ofList]
  refine ⟨?_, ?_, String.ofList p, String.ofList q, htext, hsize, String.ofList t, fun m hm => ?_⟩
  · rw [htext, String.utf8ByteSize_append, hsize]
    exact Nat.le_add_right _ _
  · exact String.Pos.Raw.isValid_iff_exists_append.2 ⟨_, _, htext, congrArg _ hsize⟩
  · have hm := parse_eq_malformedText.1 hm
    rw [String.toList_append, String.toList_ofList, String.toList_ofList, hd] at hm
    cases hm

/-- Behind the sign a name is missing. -/
theorem parse_error_place_mark :
    parse "model A @" = .error (.malformedText 9) ∧
      ∃ before after, "model A @" = before ++ after ∧ 9 = before.utf8ByteSize ∧
        ∃ t, ∀ m, parse (before ++ t) ≠ .error (.malformedText m) := by
  have h : parse "model A @" = .error (.malformedText 9) := by
    rw [parse_eq]
    cbv
  exact ⟨h, (parse_error_place h).2.2⟩

end PredicateSearch.Schema

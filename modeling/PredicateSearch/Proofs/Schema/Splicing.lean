import PredicateSearch.Proofs.Schema.Start

namespace PredicateSearch.Schema

open Sql (stops)

/-! What is written in a form does not depend on what follows it, but for the first character. A line break ends
whatever can be ended. -/

def OnNewLine (s : List Char) : Prop := ∃ c t, s = c :: t ∧ isNewline c = true

/-- The second text may follow what the first has followed. -/
def Follows (q q' : List Char) : Prop := q'.head? = q.head? ∨ OnNewLine q'

namespace OnNewLine

variable {s t : List Char}

theorem append (h : OnNewLine s) (t : List Char) : OnNewLine (s ++ t) := by
  obtain ⟨c, u, rfl, hc⟩ := h
  exact ⟨c, u ++ t, rfl, hc⟩

theorem stops {p : Char → Bool} (hp : ∀ c, isNewline c = true → p c = false) (h : OnNewLine s) :
    Sql.stops p s = true := by
  obtain ⟨c, u, rfl, hc⟩ := h
  simp [Sql.stops, hp c hc]

theorem cons (s : List Char) : OnNewLine ('\n' :: s) := ⟨'\n', s, rfl, rfl⟩

end OnNewLine

namespace Follows

variable {q q' : List Char}

theorem append {p : List Char} (h : Follows q q') : Follows (p ++ q) (p ++ q') := by
  cases p with
  | nil => exact h
  | cons c p => exact .inl rfl

/-- If nothing of it is kept, what comes instead must begin on a new line. -/
theorem of_prefix {p r r' : List Char} (h : p = [] → OnNewLine r') : Follows (p ++ r) (p ++ r') := by
  cases p with
  | nil => exact .inr (h rfl)
  | cons c p => exact .inl rfl

theorem stops {p : Char → Bool} (hp : ∀ c, isNewline c = true → p c = false) (h : Follows q q')
    (hq : Sql.stops p q = true) : Sql.stops p q' = true := by
  rcases h with h | h
  · cases q' with
    | nil => rfl
    | cons c s =>
        cases q with
        | nil => cases h
        | cons d t =>
            cases h
            exact hq
  · exact h.stops hp

end Follows

namespace Form

variable {α β : Type} {f : Form α} {g : α → Form β}

/-- The value is written so in front of the text and of all that may follow instead. -/
def Fits (f : Form α) (p : List Char) (a : α) (q : List Char) : Prop := ∀ q', Follows q q' → f (p ++ q') a q'

/-- What is written can be cut out and put in front of another text. -/
def Splices (f : Form α) : Prop := ∀ s a q, f s a q → ∃ p, s = p ++ q ∧ f.Fits p a q

namespace Splices

theorem pure (a : α) : (Pure.pure a : Form α).Splices := by
  rintro s _ _ ⟨rfl, rfl⟩
  exact ⟨[], rfl, fun q' _ => ⟨rfl, rfl⟩⟩

theorem bind (hf : f.Splices) (hg : ∀ a, (g a).Splices) : (f >>= g).Splices := by
  rintro s b q ⟨a, u, ha, hb⟩
  obtain ⟨p₁, rfl, h₁⟩ := hf s a u ha
  obtain ⟨p₂, rfl, h₂⟩ := hg a u b q hb
  refine ⟨p₁ ++ p₂, (List.append_assoc p₁ p₂ q).symm, fun q' hq => ⟨a, p₂ ++ q', ?_, h₂ q' hq⟩⟩
  rw [List.append_assoc]
  exact h₁ _ hq.append

theorem literal (l : List Char) : (Form.literal l).Splices := by
  rintro s _ q rfl
  exact ⟨l, rfl, fun q' _ => rfl⟩

theorem char (p : Char → Bool) : (Form.char p).Splices := by
  rintro s a q ⟨rfl, ha⟩
  exact ⟨[a], rfl, fun q' _ => ⟨rfl, ha⟩⟩

theorem run {p : Char → Bool} (hp : ∀ c, isNewline c = true → p c = false) : (Form.run p).Splices := by
  rintro s t q ⟨rfl, ht, hq⟩
  exact ⟨t, rfl, fun q' h => ⟨rfl, ht, h.stops hp hq⟩⟩

theorem gap : Form.gap.Splices := by
  intro s _ q (h : Gap s q)
  induction h with
  | done s => exact ⟨[], rfl, fun q' _ => .done q'⟩
  | @space c s q hc _ ih =>
      obtain ⟨p, rfl, hp⟩ := ih
      exact ⟨c :: p, rfl, fun q' hq => .space hc (hp q' hq)⟩
  | @comment t s q ht hm hs _ ih =>
      obtain ⟨p, rfl, hp⟩ := ih
      refine ⟨'/' :: '/' :: (t ++ p), by simp, fun q' hq => ?_⟩
      have hs' := hq.append.stops (by simp +contextual) hs
      have hg := Gap.comment ht hm hs' (hp q' hq)
      rw [← List.append_assoc] at hg
      exact hg

theorem optional (hf : f.Splices) : (Form.optional f).Splices := by
  rintro s (_ | a) q h
  · cases h
    exact ⟨[], rfl, fun q' _ => rfl⟩
  · exact hf s a q h

theorem many1 (hf : f.Splices) : (Form.many1 f).Splices := by
  intro s as q (h : Many1 f s as q)
  induction h with
  | @last s a q ha =>
      obtain ⟨p, rfl, hp⟩ := hf s a q ha
      exact ⟨p, rfl, fun q' hq => .last (hp q' hq)⟩
  | @cons s a t u as q ha hg _ ih =>
      obtain ⟨p₁, rfl, h₁⟩ := hf s a t ha
      obtain ⟨p₂, rfl, h₂⟩ := gap t () u hg
      obtain ⟨p₃, rfl, h₃⟩ := ih
      refine ⟨p₁ ++ (p₂ ++ p₃), by simp, fun q' hq => ?_⟩
      rw [List.append_assoc, List.append_assoc]
      exact .cons (h₁ _ hq.append.append) (h₂ _ hq.append) (h₃ q' hq)

theorem many (hf : f.Splices) : (Form.many f).Splices := by
  rintro s as q (⟨rfl, rfl⟩ | h)
  · exact ⟨[], rfl, fun q' _ => .inl ⟨rfl, rfl⟩⟩
  · obtain ⟨p, rfl, hp⟩ := hf.many1 s as q h
    exact ⟨p, rfl, fun q' hq => .inr (hp q' hq)⟩

end Splices

/-- Something written in the form begins so, and may stand at the end of a line. -/
def Leads (f : Form α) (p : List Char) : Prop := ∃ t a, ∀ r, OnNewLine r → f (p ++ (t ++ r)) a r

/-- The same, if nothing is begun yet, without anything on the line before. -/
def LeadsOn (f : Form α) (p : List Char) : Prop :=
  ∃ t a, (p = [] → t = [] ∨ OnNewLine t) ∧ ∀ r, OnNewLine r → f (p ++ (t ++ r)) a r

theorem LeadsOn.leads {p : List Char} (h : f.LeadsOn p) : f.Leads p := by
  obtain ⟨t, a, -, h⟩ := h
  exact ⟨t, a, h⟩

theorem Leads.nil {p : List Char} (h : f.Leads p) : f.Leads [] := by
  obtain ⟨t, a, h⟩ := h
  refine ⟨p ++ t, a, fun r hr => ?_⟩
  rw [List.nil_append, List.append_assoc]
  exact h r hr

theorem Leads.map {f' : Form β} (h : α → β) (hf : ∀ s a r, f s a r → f' s (h a) r) {p : List Char} (hp : f.Leads p) :
    f'.Leads p := by
  obtain ⟨t, a, ha⟩ := hp
  exact ⟨t, h a, fun r hr => hf _ a r (ha r hr)⟩

theorem LeadsOn.map {f' : Form β} (h : α → β) (hf : ∀ s a r, f s a r → f' s (h a) r) {p : List Char}
    (hp : f.LeadsOn p) : f'.LeadsOn p := by
  obtain ⟨t, a, ht, ha⟩ := hp
  exact ⟨t, h a, ht, fun r hr => hf _ a r (ha r hr)⟩

theorem leads_pure (a : α) : (Pure.pure a : Form α).Leads [] := ⟨[], a, fun _ _ => ⟨rfl, rfl⟩⟩

theorem Leads.optional {p : List Char} (h : f.Leads p) : (Form.optional f).LeadsOn p := by
  cases p with
  | nil => exact ⟨[], none, fun _ => .inl rfl, fun _ _ => rfl⟩
  | cons c p =>
      obtain ⟨t, a, ha⟩ := h
      exact ⟨t, some a, by simp, ha⟩

theorem leads_literal_bind {g : Form β} {p : List Char} (l : List Char) (hg : g.Leads p) :
    (literal l >>= fun _ => g).Leads (l ++ p) := by
  obtain ⟨t, b, hb⟩ := hg
  exact ⟨t, b, fun r hr => ⟨(), _, List.append_assoc _ _ _, hb r hr⟩⟩

/-- What stands on a line of its own may be left to come. -/
theorem Leads.bind {p : List Char} (hf : f.Leads p) (hg : ∀ a, (g a).LeadsOn []) : (f >>= g).Leads p := by
  obtain ⟨t, a, ha⟩ := hf
  obtain ⟨u, b, hu, hb⟩ := hg a
  refine ⟨t ++ u, b, fun r hr => ⟨a, u ++ r, ?_, hb r hr⟩⟩
  have hur : OnNewLine (u ++ r) := by
    rcases hu rfl with rfl | hu
    · exact hr
    · exact hu.append r
  rw [List.append_assoc]
  exact ha _ hur

section

variable {p₁ p₂ q u : List Char}

theorem Fits.leads_bind {a : α} (hf : f.Fits p₁ a u) (hu : u = p₂ ++ q) (hg : (g a).LeadsOn p₂) :
    (f >>= g).Leads (p₁ ++ p₂) := by
  obtain ⟨t, b, ht, hb⟩ := hg
  refine ⟨t, b, fun r hr => ⟨a, p₂ ++ (t ++ r), ?_, hb r hr⟩⟩
  rw [List.append_assoc]
  apply hf
  rw [hu]
  apply Follows.of_prefix
  intro hp
  rcases ht hp with rfl | ht
  · exact hr
  · exact ht.append r

/-- Behind a gap one can always break the line. -/
theorem Fits.leadsOn_gap {g : Form β} (hf : gap.Fits p₁ () u) (hu : u = p₂ ++ q) (hg : g.Leads p₂) :
    (gap >>= fun _ => g).LeadsOn (p₁ ++ p₂) := by
  obtain ⟨t, b, hb⟩ := hg
  cases p₂ with
  | nil =>
      refine ⟨'\n' :: t, b, fun _ => .inr (.cons t), fun r hr => ⟨(), t ++ r, ?_, hb r hr⟩⟩
      have hn : Gap (p₁ ++ '\n' :: (t ++ r)) ('\n' :: (t ++ r)) := hf _ (.inr (.cons (t ++ r)))
      rw [List.append_nil]
      exact hn.trans (.space rfl (.done _))
  | cons c p =>
      refine ⟨t, b, by simp, fun r hr => ⟨(), c :: p ++ (t ++ r), ?_, hb r hr⟩⟩
      rw [List.append_assoc]
      exact hf _ (.inl (by rw [hu]; rfl))

theorem Fits.leads_many1 {a : α} (hf : f.Fits p₁ a u) (hu : u = p₂ ++ q)
    (hs : (Form.gap >>= fun _ => many1 f).LeadsOn p₂) : (many1 f).Leads (p₁ ++ p₂) := by
  have hg : (Form.gap >>= fun _ => many1 f >>= fun as => Pure.pure (a :: as)).LeadsOn p₂ := by
    refine hs.map (a :: ·) ?_
    rintro s as r ⟨⟨⟩, t, hg, hm⟩
    exact ⟨(), t, hg, as, r, hm, rfl, rfl⟩
  refine (hf.leads_bind (g := fun a => Form.gap >>= fun _ => many1 f >>= fun as => Pure.pure (a :: as)) hu hg).map id ?_
  rintro s _ r ⟨b, t, hb, ⟨⟩, v, hv, as, _, hm, rfl, rfl⟩
  exact .cons hb hv hm

theorem Fits.gap_append (h₁ : gap.Fits p₁ () (p₂ ++ u)) (h₂ : gap.Fits p₂ () u) : gap.Fits (p₁ ++ p₂) () u := by
  intro q hq
  have hg : Gap (p₁ ++ (p₂ ++ q)) (p₂ ++ q) := h₁ _ hq.append
  rw [List.append_assoc]
  exact hg.trans (h₂ q hq)

end

/-! The forms of the grammar -/

theorem isNamePart_newline (c : Char) (hc : isNewline c = true) : isNamePart c = false := by
  simp only [isNewline, Bool.or_eq_true, decide_eq_true_eq] at hc
  rcases hc with rfl | rfl <;> rfl

theorem splices_name : name.Splices :=
  (Splices.char isNameStart).bind fun _ => (Splices.run isNamePart_newline).bind fun _ => .pure _

theorem leads_name : name.Leads [] :=
  ⟨['a'], "a", fun r hr => ⟨'a', r, ⟨rfl, rfl⟩, [], r, ⟨rfl, by simp, hr.stops isNamePart_newline⟩, rfl, rfl⟩⟩

theorem splices_stringLiteral : stringLiteral.Splices := by
  refine (Splices.literal ['"']).bind fun _ => (Splices.run fun c hc => ?_).bind fun s => ?_
  · simp [hc]
  · exact (Splices.literal ['"']).bind fun _ => .pure _

theorem leads_stringLiteral : stringLiteral.Leads [] :=
  ⟨['"', '"'], "", fun r _ => ⟨(), '"' :: r, rfl, [], '"' :: r, ⟨rfl, by simp, rfl⟩, (), r, rfl, rfl, rfl⟩⟩

theorem splices_documentationLine : documentationLine.Splices :=
  (Splices.literal ['/', '/', '/']).bind fun _ => .run (by simp +contextual)

theorem leads_documentationLine : documentationLine.Leads [] :=
  ⟨['/', '/', '/'], [], fun r hr => ⟨(), r, rfl, rfl, by simp, hr.stops (by simp +contextual)⟩⟩

theorem splices_documentation : documentation.Splices := splices_documentationLine.many1.bind fun _ => .pure _

theorem splices_markArgument : markArgument.Splices := by
  refine (Splices.literal ['(']).bind fun _ => Splices.gap.bind fun _ => ?_
  exact splices_stringLiteral.bind fun s => Splices.gap.bind fun _ => (Splices.literal [')']).bind fun _ => .pure _

theorem splices_mark : mark.Splices := by
  refine (Splices.literal ['@']).bind fun _ => splices_name.bind fun name => ?_
  exact splices_markArgument.optional.bind fun argument => .pure _

theorem splices_columnType : columnType.Splices :=
  splices_name.bind fun _ => (Splices.literal ['?']).optional.bind fun _ => .pure _

theorem splices_column : column.Splices := by
  refine splices_documentation.optional.bind fun documentation => Splices.gap.bind fun _ => ?_
  refine splices_name.bind fun name => Splices.gap.bind fun _ => ?_
  refine splices_columnType.bind fun type => Splices.gap.bind fun _ => ?_
  exact splices_mark.many.bind fun marks => .pure _

theorem splices_modelBody (documentation : Option Documentation) : (modelBody documentation).Splices := by
  refine (Splices.literal _).bind fun _ => Splices.gap.bind fun _ => ?_
  refine splices_name.bind fun name => Splices.gap.bind fun _ => ?_
  refine splices_mark.many.bind fun marks => Splices.gap.bind fun _ => ?_
  refine (Splices.literal ['\x7b']).bind fun _ => Splices.gap.bind fun _ => ?_
  refine splices_column.many.bind fun columns => Splices.gap.bind fun _ => ?_
  exact (Splices.literal ['\x7d']).bind fun _ => .pure _

theorem splices_model : model.Splices :=
  splices_documentation.optional.bind fun documentation => Splices.gap.bind fun _ => splices_modelBody documentation

/-- A schema that need not be all of the text. -/
def models : Form (List ModelDeclaration) := do
  gap
  let models ← many model
  gap
  return models

theorem schema_of_models {s : List Char} {bs : List ModelDeclaration} (h : models s bs ['\n']) : schema s bs [] := by
  obtain ⟨_, t, ht, bs, u, hu, _, v, hv, rfl, rfl⟩ := h
  exact ⟨(), t, ht, bs, u, hu, (), [], hv.trans (.space rfl (.done [])), (), [], ⟨rfl, rfl⟩, rfl, rfl⟩

end Form

end PredicateSearch.Schema

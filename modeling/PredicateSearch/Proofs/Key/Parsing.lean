import Mathlib.Data.Set.Basic
import PredicateSearch.Proofs.Key.Splitting

namespace PredicateSearch

namespace Key

/-! Keys that end in an operator -/

/-- The operators whose ids the text ends in, behind an underscore. -/
def endings (text : String) : Set Operator := {o | ∃ a : String, text = a ++ "_" ++ o.id}

theorem eq_append_iff {text a : String} {o : Operator} :
    text = a ++ "_" ++ o.id ↔ text.toList = a.toList ++ o.suffix := by
  rw [← toList_text, String.toList_inj]

theorem mem_endings {text : String} {o : Operator} : o ∈ endings text ↔ o.suffix <:+ text.toList := by
  constructor
  · rintro ⟨a, ha⟩
    exact ⟨a.toList, (eq_append_iff.1 ha).symm⟩
  · rintro ⟨s, hs⟩
    exact ⟨String.ofList s, eq_append_iff.2 (by rw [String.toList_ofList, hs])⟩

theorem isLongest_iff {text : String} {o : Operator} :
    IsLongest text.toList o ↔ o ∈ endings text ∧ ∀ p ∈ endings text, p.id.length ≤ o.id.length := by
  simp only [IsLongest, mem_endings]
  refine and_congr_right fun ho => forall₂_congr fun p hp => ?_
  rw [← Nat.add_le_add_iff_right (n := 1), ← length_suffix, ← length_suffix]
  exact ⟨List.IsSuffix.length_le, List.suffix_of_suffix_length_le hp ho⟩

theorem exists_isLongest {text : String} (h : (endings text).Nonempty) : ∃ o, IsLongest text.toList o := by
  obtain ⟨p, hp⟩ := h
  cases ho : operator? text.toList with
  | none => exact absurd (mem_endings.1 hp) (operator?_eq_none.1 ho p)
  | some o => exact ⟨o, isLongest_of_operator? ho⟩

theorem parse_of_ending {text a : String} {o : Operator} (h : text = a ++ "_" ++ o.id)
    (ho : IsLongest text.toList o) :
    parse text = if a = "" then .error (.emptyAttribute text) else .ok (ofOperator a o) := by
  rw [parse_of_isLongest (eq_append_iff.1 h) ho, String.ofList_toList]
  simp only [String.toList_eq_nil_iff]

theorem parse_of_no_ending {text : String} (h : endings text = ∅) :
    parse text =
      if text = "" then .error (.emptyAttribute text)
      else if '_' ∈ text.toList then .error (.unknownOperator text) else .ok (ofOperator text .default) := by
  have ho : operator? text.toList = none :=
    operator?_eq_none.2 fun o hs => Set.notMem_empty o (h ▸ mem_endings.2 hs)
  simp only [parse, ho, String.toList_eq_nil_iff]

/-- A key is split before the longest id that it ends in, or at no place at all. -/
theorem parse_cases (text : String) :
    (∃ a o, text = a ++ "_" ++ o.id ∧ IsLongest text.toList o ∧
      parse text = if a = "" then .error (.emptyAttribute text) else .ok (ofOperator a o)) ∨
    endings text = ∅ ∧ parse text =
      if text = "" then .error (.emptyAttribute text)
      else if '_' ∈ text.toList then .error (.unknownOperator text) else .ok (ofOperator text .default) := by
  rcases (endings text).eq_empty_or_nonempty with he | hne
  · exact .inr ⟨he, parse_of_no_ending he⟩
  · obtain ⟨o, ho⟩ := exists_isLongest hne
    obtain ⟨a, ha⟩ := mem_endings.2 ho.1
    exact .inl ⟨a, o, ha, ho, parse_of_ending ha ho⟩

/-- What a key becomes is settled by the longest of the ids that it ends in. -/
theorem parse_longest_ending (text : String) :
    (text = "" → parse text = .error (.emptyAttribute text)) ∧
    ((endings text).Nonempty →
      ∃! o, o ∈ endings text ∧ ∀ p ∈ endings text, p.id.length ≤ o.id.length) ∧
    (∀ a o, text = a ++ "_" ++ o.id → (∀ p ∈ endings text, p.id.length ≤ o.id.length) →
      parse text = if a = "" then .error (.emptyAttribute text) else .ok ⟨a, o, o.isNegated⟩) ∧
    (endings text = ∅ → text ≠ "" →
      parse text =
        if '_' ∈ text.toList then .error (.unknownOperator text)
        else .ok ⟨text, .equality false, false⟩) := by
  refine ⟨?_, ?_, ?_, ?_⟩
  · rintro rfl
    rfl
  · intro hne
    obtain ⟨o, ho⟩ := exists_isLongest hne
    exact ⟨o, isLongest_iff.1 ho, fun p hp => (isLongest_iff.2 hp).unique ho⟩
  · intro a o ha hmax
    exact parse_of_ending ha (isLongest_iff.2 ⟨⟨a, ha⟩, hmax⟩)
  · intro he hne
    rw [parse_of_no_ending he, if_neg hne]
    rfl

theorem parse_longest_ending_not_eq :
    parse "x_not_eq" = .ok ⟨"x", .equality true, true⟩ ∧
      parse "x_noteq" = .error (.unknownOperator "x_noteq") := by
  obtain ⟨-, -, hl, -⟩ := parse_longest_ending "x_not_eq"
  obtain ⟨-, -, -, hn⟩ := parse_longest_ending "x_noteq"
  have hle : ∀ p ∈ Operator.all, p.suffix <:+ "x_not_eq".toList → p.id.length ≤ "not_eq".length := by decide
  have he : ∀ p ∈ Operator.all, ¬ p.suffix <:+ "x_noteq".toList := by decide
  refine ⟨hl "x" (.equality true) (by decide) fun p hp => hle p p.mem_all (mem_endings.1 hp), ?_⟩
  exact hn (Set.eq_empty_of_forall_notMem fun p hp => he p p.mem_all (mem_endings.1 hp)) (by decide)

/-! Keys that were read, written again -/

theorem low_mem_text (k : Key) : '_' ∈ k.text.toList := by simp [text]

/-- A key that was read ends in its operator, or stands for equality without naming it. -/
theorem eq_text_or_bare {text : String} {k : Key} (h : parse text = .ok k) :
    k.subject ≠ "" ∧
      (text = k.text ∧ IsLongest text.toList k.operator ∨
        '_' ∉ text.toList ∧ k = ofOperator text .default) := by
  rcases parse_cases text with ⟨a, o, ht, hl, hp⟩ | ⟨-, hp⟩
  · rw [hp] at h
    split at h
    · cases h
    · next hne =>
        cases h
        exact ⟨hne, .inl ⟨ht, hl⟩⟩
  · rw [hp] at h
    split at h
    · cases h
    · next hne =>
        split at h
        · cases h
        · next hlow =>
            cases h
            exact ⟨hne, .inr ⟨hlow, rfl⟩⟩

theorem exists_eq_append_iff {a : String} : (∃ b, a = b ++ "_not") ↔ "_not".toList <:+ a.toList := by
  constructor
  · rintro ⟨b, rfl⟩
    rw [String.toList_append]
    exact List.suffix_append _ _
  · rintro ⟨s, hs⟩
    exact ⟨String.ofList s, by rw [← String.toList_inj, String.toList_append, String.toList_ofList, hs]⟩

/-- A key is written as it was read, and read as it was written. What ends as a negated id begins is
taken for the negated form. -/
theorem parse_text_inverse :
    (∀ text k, parse text = .ok k →
      k.subject ≠ "" ∧ k.text = (if '_' ∈ text.toList then text else text ++ "_eq") ∧
        parse k.text = .ok k) ∧
    ∀ (a : String) (o : Operator), a ≠ "" →
      (¬ ((∃ b, a = b ++ "_not") ∧ ∃ p : Operator, p.id = "not_" ++ o.id) →
        parse (a ++ "_" ++ o.id) = .ok ⟨a, o, o.isNegated⟩) ∧
      ∀ (b : String) (p : Operator), a = b ++ "_not" → p.id = "not_" ++ o.id →
        parse (a ++ "_" ++ o.id) =
          if b = "" then .error (.emptyAttribute (a ++ "_" ++ o.id)) else .ok ⟨b, p, p.isNegated⟩ := by
  refine ⟨?_, fun a o ha => ⟨?_, ?_⟩⟩
  · intro text k h
    obtain ⟨hne, ⟨ht, -⟩ | ⟨hlow, hk⟩⟩ := eq_text_or_bare h
    · have hmem : '_' ∈ text.toList := ht ▸ k.low_mem_text
      exact ⟨hne, by rw [if_pos hmem, ht], ht ▸ h⟩
    · have htext : k.text = text ++ "_eq" := by
        rw [hk, Key.text, String.append_assoc]
        rfl
      refine ⟨hne, by rw [if_neg hlow, htext], ?_⟩
      subst hk
      exact parse_append hne fun hx => hlow (hx.1.subset (by decide))
  · simp only [exists_eq_append_iff, ← Operator.isNegationOf_iff]
    exact parse_append ha
  · intro b p hb hp
    have hs : a.toList = b.toList ++ "_not".toList := by rw [hb, String.toList_append]
    rw [parse_append_not hs (Operator.isNegationOf_iff.2 hp), String.ofList_toList]
    simp only [String.toList_eq_nil_iff]
    rfl

theorem parse_text_inverse_not :
    parse "awesome_eq" = .ok ⟨"awesome", .equality false, false⟩ ∧
      parse "x_not_not_lt" = .ok ⟨"x_not_not", .comparison .less, false⟩ ∧
      parse "x_not_not_eq" = .ok ⟨"x_not", .equality true, true⟩ ∧
      parse "_not_eq" = .error (.emptyAttribute "_not_eq") := by
  have hall : ∀ p ∈ Operator.all, p.id ≠ "not_lt" := by decide
  have hl : ¬ ∃ p : Operator, p.id = "not_lt" := fun ⟨p, hp⟩ => hall p p.mem_all hp
  refine ⟨(parse_text_inverse.1 "awesome" ⟨"awesome", .equality false, false⟩ rfl).2.2, ?_, ?_, ?_⟩
  · exact (parse_text_inverse.2 "x_not_not" (.comparison .less) (by decide)).1 fun h => hl h.2
  · have hx := parse_text_inverse.2 "x_not_not" (.equality false) (by decide)
    exact hx.2 "x_not" (.equality true) (by decide) (by decide)
  · have hx := parse_text_inverse.2 "_not" (.equality false) (by decide)
    exact hx.2 "" (.equality true) (by decide) (by decide)

/-! Keys of which an operator leaves a subject -/

/-- What stands in front of the operator in the key is a subject. -/
def Leaves (text : String) (o : Operator) (a : String) : Prop := a ≠ "" ∧ text = a ++ "_" ++ o.id

theorem Leaves.mem_endings {text a : String} {o : Operator} (h : Leaves text o a) : o ∈ endings text :=
  ⟨a, h.2⟩

/-- An id that uses up a key of which another operator leaves a subject is the negation of the other's. -/
theorem Leaves.isNegationOf {text a : String} {o p : Operator} (h : Leaves text o a)
    (hp : text = "_" ++ p.id) : p.IsNegationOf o := by
  have hs : p.suffix = a.toList ++ o.suffix := by
    rw [← eq_append_iff.1 h.2, hp, String.toList_append]
    rfl
  refine (Operator.eq_or_isNegationOf ⟨a.toList, hs.symm⟩).resolve_left ?_
  rintro rfl
  exact h.1 (by simpa using hs)

theorem parse_of_eq_suffix {text : String} {o : Operator} (h : text = "_" ++ o.id) :
    parse text = .error (.emptyAttribute text) := by
  have hs : text.toList = o.suffix := by
    rw [h, String.toList_append]
    rfl
  have ha : text = "" ++ "_" ++ o.id := by rw [h, String.empty_append]
  exact parse_of_ending ha ⟨hs ▸ List.suffix_refl _, fun _ hp => hs ▸ hp⟩

theorem parse_eq_emptyAttribute {text t : String} :
    parse text = .error (.emptyAttribute t) ↔
      t = text ∧ (text = "" ∨ ∃ o : Operator, text = "_" ++ o.id) := by
  constructor
  · intro h
    rcases parse_cases text with ⟨a, o, ht, -, hp⟩ | ⟨-, hp⟩
    · rw [hp] at h
      split at h
      · next ha =>
          cases h
          exact ⟨rfl, .inr ⟨o, by rw [ht, ha, String.empty_append]⟩⟩
      · cases h
    · rw [hp] at h
      split at h
      · next he =>
          cases h
          exact ⟨rfl, .inl he⟩
      · split at h <;> cases h
  · rintro ⟨rfl, rfl | ⟨o, ho⟩⟩
    · rfl
    · exact parse_of_eq_suffix ho

/-- A suffix that uses up the key ends the search for one, though a shorter one may leave a subject: of all
keys with a subject just those that are the negation of an operator alone are refused. -/
theorem parse_leaving (text : String) :
    (∀ a o, Leaves text o a → (¬ ∃ p : Operator, p.id = "not_" ++ o.id ∧ text = "_" ++ p.id) →
      ∃ b p, Leaves text p b ∧ (∀ c q, Leaves text q c → q.id.length ≤ p.id.length) ∧
        parse text = .ok ⟨b, p, p.isNegated⟩) ∧
    (∀ t, parse text = .error (.emptyAttribute t) ↔
      t = text ∧ (text = "" ∨ ∃ o : Operator, text = "_" ++ o.id)) ∧
    ((∃ o a, Leaves text o a) ∧ parse text = .error (.emptyAttribute text) ↔
      ∃ o p : Operator, p.id = "not_" ++ o.id ∧ text = "_" ++ p.id) := by
  refine ⟨?_, fun t => parse_eq_emptyAttribute, ?_, ?_⟩
  · intro a o h hx
    obtain ⟨p, hp⟩ := exists_isLongest ⟨o, h.mem_endings⟩
    obtain ⟨b, hb⟩ := mem_endings.2 hp.1
    have hne : b ≠ "" := by
      rintro rfl
      rw [String.empty_append] at hb
      exact hx ⟨p, Operator.isNegationOf_iff.1 (h.isNegationOf hb), hb⟩
    refine ⟨b, p, ⟨hne, hb⟩, fun c q hq => (isLongest_iff.1 hp).2 q hq.mem_endings, ?_⟩
    rw [parse_of_ending hb hp, if_neg hne]
    rfl
  · rintro ⟨⟨o, a, h⟩, he⟩
    obtain ⟨-, rfl | ⟨p, hp⟩⟩ := parse_eq_emptyAttribute.1 he
    · exact absurd (mem_endings.1 h.mem_endings) (by simp [Operator.suffix])
    · exact ⟨o, p, Operator.isNegationOf_iff.1 (h.isNegationOf hp), hp⟩
  · rintro ⟨o, p, hp, ht⟩
    refine ⟨⟨o, "_not", by decide, ?_⟩, parse_of_eq_suffix ht⟩
    rw [ht, hp, ← String.toList_inj]
    simp

theorem parse_leaving_not_lt :
    ∃ b p, Leaves "_not_lt" p b ∧ (∀ c q, Leaves "_not_lt" q c → q.id.length ≤ p.id.length) ∧
      parse "_not_lt" = .ok ⟨b, p, p.isNegated⟩ := by
  have hall : ∀ p ∈ Operator.all, p.id ≠ "not_lt" := by decide
  exact (parse_leaving "_not_lt").1 "_not" (.comparison .less) ⟨by decide, by decide⟩
    fun ⟨p, hp, _⟩ => hall p p.mem_all hp

/-- Equality leaves the subject `_not`, but its negation is tried first and leaves none. -/
theorem parse_refuses_subject :
    ¬ ∀ text a o, Leaves text o a → ∃ k, parse text = .ok k := by
  intro h
  have he : parse "_not_eq" = .error (.emptyAttribute "_not_eq") := by rfl
  obtain ⟨k, hk⟩ := h "_not_eq" "_not" (.equality false) ⟨by decide, by decide⟩
  rw [he] at hk
  cases hk

end Key

end PredicateSearch

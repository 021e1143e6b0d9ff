import Mathlib.Data.List.Infix
import Mathlib.Data.List.Nodup
import PredicateSearch.Key

namespace PredicateSearch

namespace Operator

theorem id_injective : Function.Injective id := fun o p h =>
  List.inj_on_of_nodup_map nodup_ids (mem_all o) (mem_all p) h

theorem suffix_injective : Function.Injective suffix := fun _ _ h =>
  id_injective (String.toList_inj.1 (List.cons.inj h).2)

/-! The order in which suffixes are tried -/

theorem mem_insertLongestFirst {o p : Operator} {os : List Operator} :
    p ∈ insertLongestFirst o os ↔ p = o ∨ p ∈ os := by
  induction os with
  | nil => simp [insertLongestFirst]
  | cons q os ih =>
      rw [insertLongestFirst]
      split
      · exact List.mem_cons
      · rw [List.mem_cons, ih, List.mem_cons, or_left_comm]

theorem mem_longestFirst (o : Operator) : o ∈ longestFirst := by
  have hmem : ∀ os : List Operator, o ∈ os → o ∈ os.foldr insertLongestFirst [] := by
    intro os ho
    induction os with
    | nil => cases ho
    | cons p os ih => exact mem_insertLongestFirst.2 ((List.mem_cons.1 ho).imp_right ih)
  exact hmem all (mem_all o)

/-- No id is tried before a longer one. -/
def NonIncreasing (os : List Operator) : Prop := os.Pairwise fun o p => p.id.length ≤ o.id.length

theorem length_le_of_goesBefore {o p : Operator} (h : o.goesBefore p = true) : p.id.length ≤ o.id.length := by
  simp only [goesBefore, Bool.or_eq_true, Bool.and_eq_true, decide_eq_true_eq] at h
  omega

theorem length_le_of_not_goesBefore {o p : Operator} (h : ¬ o.goesBefore p = true) :
    o.id.length ≤ p.id.length := by
  simp only [goesBefore, Bool.or_eq_true, not_or, decide_eq_true_eq] at h
  omega

theorem nonIncreasing_insertLongestFirst {o : Operator} {os : List Operator} (h : NonIncreasing os) :
    NonIncreasing (insertLongestFirst o os) := by
  induction os with
  | nil => exact List.pairwise_singleton _ _
  | cons p os ih =>
      obtain ⟨hp, hos⟩ := List.pairwise_cons.1 h
      rw [insertLongestFirst]
      split
      · next hb =>
          have hle := length_le_of_goesBefore hb
          refine List.pairwise_cons.2 ⟨fun q hq => ?_, h⟩
          rcases List.mem_cons.1 hq with rfl | hq
          · exact hle
          · exact (hp q hq).trans hle
      · next hb =>
          have hle := length_le_of_not_goesBefore hb
          refine List.pairwise_cons.2 ⟨fun q hq => ?_, ih hos⟩
          rcases mem_insertLongestFirst.1 hq with rfl | hq
          · exact hle
          · exact hp q hq

theorem nonIncreasing_longestFirst : NonIncreasing longestFirst := by
  have hall : ∀ os : List Operator, NonIncreasing (os.foldr insertLongestFirst []) := by
    intro os
    induction os with
    | nil => exact .nil
    | cons o os ih => exact nonIncreasing_insertLongestFirst ih
  exact hall all

/-! Suffixes within suffixes -/

def IsNegationOf (p o : Operator) : Prop := p.suffix = "_not".toList ++ o.suffix

theorem isNegationOf_iff {p o : Operator} : p.IsNegationOf o ↔ p.id = "not_" ++ o.id := by
  rw [IsNegationOf, ← String.toList_inj]
  simp [suffix]

/-- Of two operators with suffixes that fit the same text, the longer one is the negation of the other. -/
theorem eq_or_isNegationOf {o p : Operator} (h : o.suffix <:+ p.suffix) : p = o ∨ p.IsNegationOf o := by
  have hall : ∀ o ∈ all, ∀ p ∈ all, o.suffix.isSuffixOf p.suffix = true →
      p = o ∨ p.suffix = "_not".toList ++ o.suffix := by decide +kernel
  exact hall o (mem_all o) p (mem_all p) (List.isSuffixOf_iff_suffix.2 h)

theorem not_isNegationOf_self {o : Operator} : ¬ o.IsNegationOf o := fun h => by
  have hl := congrArg List.length h
  simp at hl
  omega

theorem not_isNegationOf_twice {o p q : Operator} (hp : p.IsNegationOf o) : ¬ q.IsNegationOf p := by
  have hall : ∀ q ∈ all, "_not_not".toList.isPrefixOf q.suffix = false := by decide +kernel
  intro hq
  have hs : "_not_not".toList <+: q.suffix := ⟨o.suffix, by rw [hq, hp, ← List.append_assoc]; rfl⟩
  have hn := hall q (mem_all q)
  rw [List.isPrefixOf_iff_prefix.2 hs] at hn
  cases hn

end Operator

namespace Key

theorem length_suffix (o : Operator) : o.suffix.length = o.id.length + 1 := by
  rw [Operator.suffix, List.length_cons, String.length_toList]

/-- No other operator's suffix that fits is longer. -/
def IsLongest (s : List Char) (o : Operator) : Prop :=
  o.suffix <:+ s ∧ ∀ p : Operator, p.suffix <:+ s → p.suffix <:+ o.suffix

theorem IsLongest.unique {s : List Char} {o p : Operator} (ho : IsLongest s o) (hp : IsLongest s p) : o = p :=
  Operator.suffix_injective ((hp.2 o ho.1).eq_of_length_le (ho.2 p hp.1).length_le)

theorem operator?_eq_none {s : List Char} : operator? s = none ↔ ∀ o : Operator, ¬ o.suffix <:+ s := by
  simp [operator?, List.find?_eq_none, Operator.mem_longestFirst]

/-- Longer ids are tried first, so the first suffix that fits is the longest. -/
theorem isLongest_of_operator? {s : List Char} {o : Operator} (h : operator? s = some o) : IsLongest s o := by
  obtain ⟨ho, before, after, hl, hb⟩ := List.find?_eq_some_iff_append.1 h
  refine ⟨List.isSuffixOf_iff_suffix.1 ho, fun p hp => ?_⟩
  have hm := Operator.mem_longestFirst p
  have hs := Operator.nonIncreasing_longestFirst
  rw [Operator.NonIncreasing] at hs
  rw [hl] at hm hs
  rcases List.mem_append.1 hm with hm | hm
  · have hn := hb p hm
    rw [List.isSuffixOf_iff_suffix.2 hp] at hn
    cases hn
  · rcases List.mem_cons.1 hm with rfl | hm
    · exact List.suffix_refl _
    · have hlen := (List.pairwise_cons.1 (List.pairwise_append.1 hs).2.1).1 p hm
      refine List.suffix_of_suffix_length_le hp (List.isSuffixOf_iff_suffix.1 ho) ?_
      rw [length_suffix, length_suffix]
      exact Nat.succ_le_succ hlen

theorem operator?_of_isLongest {s : List Char} {o : Operator} (h : IsLongest s o) : operator? s = some o := by
  cases ho : operator? s with
  | none => exact absurd h.1 (operator?_eq_none.1 ho o)
  | some p => rw [(isLongest_of_operator? ho).unique h]

theorem toList_text (subject : String) (o : Operator) :
    (subject ++ "_" ++ o.id).toList = subject.toList ++ o.suffix := by
  simp [Operator.suffix]

theorem parse_of_isLongest {text : String} {subject : List Char} {o : Operator}
    (hs : text.toList = subject ++ o.suffix) (h : IsLongest text.toList o) :
    parse text =
      if subject = [] then .error (.emptyAttribute text) else .ok (ofOperator (String.ofList subject) o) := by
  have hne : text.toList ≠ [] := by
    rw [hs]
    simp [Operator.suffix]
  have ht : text.toList.take (text.toList.length - o.suffix.length) = subject := by
    rw [hs, List.length_append, Nat.add_sub_cancel, List.take_left]
  simp only [parse, if_neg hne, operator?_of_isLongest h, ht]

/-- The longest suffix behind a subject is the operator's own, or that of its negation if the subject ends
like it. -/
theorem isLongest_append {subject : List Char} {o : Operator}
    (h : ∀ p : Operator, p.IsNegationOf o → ¬ "_not".toList <:+ subject) : IsLongest (subject ++ o.suffix) o := by
  refine ⟨List.suffix_append _ _, fun p hp => ?_⟩
  rcases List.suffix_or_suffix_of_suffix hp (List.suffix_append subject o.suffix) with hs | hs
  · exact hs
  · rcases Operator.eq_or_isNegationOf hs with rfl | hn
    · exact hs
    · obtain ⟨t, ht⟩ := hp
      rw [hn, ← List.append_assoc] at ht
      exact absurd ⟨t, List.append_cancel_right ht⟩ (h p hn)

theorem isLongest_negation {subject : List Char} {o p : Operator} (hp : p.IsNegationOf o) :
    IsLongest (subject ++ "_not".toList ++ o.suffix) p := by
  rw [List.append_assoc, ← hp]
  exact isLongest_append fun q hq => absurd hq (Operator.not_isNegationOf_twice hp)

theorem parse_append {subject : String} (hne : subject ≠ "") {o : Operator}
    (h : ¬ ("_not".toList <:+ subject.toList ∧ ∃ p : Operator, p.IsNegationOf o)) :
    parse (subject ++ "_" ++ o.id) = .ok (ofOperator subject o) := by
  have ht := toList_text subject o
  have hl : IsLongest (subject.toList ++ o.suffix) o := isLongest_append fun p hp hs => h ⟨hs, p, hp⟩
  rw [parse_of_isLongest ht (ht ▸ hl), if_neg (by simpa using hne), String.ofList_toList]

theorem parse_append_not {subject : String} {a : List Char} (hs : subject.toList = a ++ "_not".toList)
    {o p : Operator} (hp : p.IsNegationOf o) :
    parse (subject ++ "_" ++ o.id) =
      if a = [] then .error (.emptyAttribute (subject ++ "_" ++ o.id))
      else .ok (ofOperator (String.ofList a) p) := by
  have ht := toList_text subject o
  rw [hs] at ht
  exact parse_of_isLongest (by rw [ht, hp, List.append_assoc]) (ht ▸ isLongest_negation hp)

end Key

end PredicateSearch

import Mathlib
import PredicateSearch.Proofs.Condition.Compile

namespace PredicateSearch

open Decimal

/-- The literals that a column of each type is compared with. A number is never NaN or infinite, and
columns without literals of their own are compared with nothing. -/
def Literal.Suits : ValueType → Literal → Prop
  | .boolean, .bool _ => True
  | .int, .int _ | .bigInt, .int _ => True
  | .float, .float x | .decimal, .float x => isFinite x = true
  | .string, .text _ | .text, .text _ | .uuid, .text _ => True
  | _, _ => False

theorem Literal.isFinite_of_suits {type : ValueType} {x : Float} (h : (float x).Suits type) : isFinite x = true := by
  cases type <;> first | exact h | cases h

/-- The one shape of argument that an operator has on a column of the type. -/
def Argument.Suits (type : ValueType) : Operator → Argument → Prop
  | .nullCheck _, .toggle _ | .presence _, .toggle _ | .truth _ _, .toggle _ => True
  | .pattern _ _, .pattern _ => True
  | .membership _, .literals ls => ls ≠ [] ∧ ∀ l ∈ ls, l.Suits type
  | .equality _, .literal l | .comparison _, .literal l => l.Suits type
  | _, _ => False

namespace Argument

variable {type : ValueType} {a : Argument}

theorem suits_equality {n : Bool} : a.Suits type (.equality n) ↔ ∃ l, a = .literal l ∧ l.Suits type := by
  cases a <;> simp [Suits]

theorem suits_comparison {c : Comparison} : a.Suits type (.comparison c) ↔ ∃ l, a = .literal l ∧ l.Suits type := by
  cases a <;> simp [Suits]

theorem suits_membership {n : Bool} :
    a.Suits type (.membership n) ↔ ∃ ls, a = .literals ls ∧ ls ≠ [] ∧ ∀ l ∈ ls, l.Suits type := by
  cases a <;> simp [Suits]

theorem suits_pattern {anchor : Pattern.Anchor} {n : Bool} :
    a.Suits type (.pattern anchor n) ↔ ∃ s, a = .pattern s := by
  cases a <;> simp [Suits]

end Argument

structure Predicate.WellTyped (p : Predicate) : Prop where
  negated_eq : p.negated = p.operator.isNegated
  admitted : p.operator.appliesTo.admits p.column.type = true
  suited : p.argument.Suits p.column.type p.operator
  unvalued : p.column.type ∈ [.date, .dateTime, .time, .json, .bytes] →
    ∃ n b, p.operator = .nullCheck n ∧ p.argument = .toggle b

namespace Condition

theorem isFinite_of_toFloat? {v : Operand} {x : Float} (h : v.toFloat? = some x) : isFinite x = true :=
  (Option.filter_eq_some_iff.1 h).2

/-- The kinds of literals agree with the types of the columns that equality takes. The check of the
column's type goes first: the kind of a date is text. -/
theorem suits_of_literal? {type : ValueType} {v : Operand} {l : Literal}
    (ht : TypeClass.equatable.admits type = true) (h : type.literalKind.literal? v = some l) :
    l.Suits type := by
  cases type with
  | date | dateTime | time | json | bytes => cases ht
  | boolean | string | text | uuid | int | bigInt =>
      obtain ⟨_, _, rfl⟩ := Option.map_eq_some_iff.1 h
      trivial
  | float | decimal =>
      obtain ⟨x, hx, rfl⟩ := Option.map_eq_some_iff.1 h
      exact isFinite_of_toFloat? hx

theorem suits_of_literals {type : ValueType} {vs : List Operand} {ls : List Literal}
    (ht : TypeClass.equatable.admits type = true)
    (h : List.Forall₂ (fun u l => type.literalKind.literal? u = some l) vs ls) :
    ∀ l ∈ ls, l.Suits type := by
  induction h with
  | nil => simp
  | cons hl _ ih => exact List.forall_mem_cons.2 ⟨suits_of_literal? ht hl, ih⟩

theorem equatable_of_ordered {type : ValueType} (h : TypeClass.ordered.admits type = true) :
    TypeClass.equatable.admits type = true := by
  cases type <;> first | rfl | cases h

theorem suits_of_accepts {type : ValueType} {o : Operator} {v : Operand} {a : Argument}
    (ht : o.appliesTo.admits type = true) (h : Accepts type.literalKind o v a) : a.Suits type o := by
  cases h with
  | nullCheck | presence | truth | pattern => trivial
  | @membership _ ls n hne h =>
      refine ⟨?_, ?_⟩
      · rintro rfl
        exact hne (List.forall₂_nil_right_iff.1 h)
      · exact suits_of_literals ht h
  | equality n h => exact suits_of_literal? ht h
  | comparison c h => exact suits_of_literal? (equatable_of_ordered ht) h

/-- Dates, times, JSON and bytes are in no class of types but the one of all. -/
theorem nullCheck_of_admits {o : Operator} {type : ValueType} (ht : o.appliesTo.admits type = true)
    (h : type ∈ [.date, .dateTime, .time, .json, .bytes]) : ∃ n, o = .nullCheck n := by
  have hc : ∀ c : TypeClass, c ≠ .any → c.admits type = false := by
    intro c hc
    simp only [List.mem_cons, List.not_mem_nil, or_false] at h
    rcases h with rfl | rfl | rfl | rfl | rfl <;> cases c <;> first | rfl | contradiction
  cases o with
  | nullCheck n => exact ⟨n, rfl⟩
  | _ => rw [hc _ (by simp [Operator.appliesTo])] at ht; cases ht

theorem wellTyped_of_compile {column : Attribute} {key : Key} {v : Operand} {ignoreBlank : Bool}
    {p : Predicate} (hk : key.negated = key.operator.isNegated)
    (h : compile column key v ignoreBlank = .ok (predicate p)) :
    p.WellTyped := by
  obtain ⟨_, ht, a, ha, rfl⟩ := compile_eq_predicate.1 h
  refine ⟨hk, ht, suits_of_accepts ht ha, ?_⟩
  intro hu
  obtain ⟨n, hn⟩ := nullCheck_of_admits ht hu
  have hs := suits_of_accepts ht ha
  rw [hn] at hs
  cases a with
  | toggle b => exact ⟨n, b, hn, rfl⟩
  | pattern | literal | literals => cases hs

/-- Whatever the key and the operand, only a well-typed test on the given column goes on to be
written. -/
theorem compile_wellTyped {text : String} {key : Key} (hk : Key.parse text = .ok key) (column : Attribute)
    (v : Operand) (ignoreBlank : Bool) {p : Predicate}
    (h : compile column key v ignoreBlank = .ok (predicate p)) :
    p.column = column ∧ p.operator = key.operator ∧ p.WellTyped := by
  have hp := wellTyped_of_compile (Key.negated_of_parse hk) h
  obtain ⟨_, _, a, _, rfl⟩ := compile_eq_predicate.1 h
  exact ⟨rfl, rfl, hp⟩

theorem compile_wellTyped_notIn :
    (⟨⟨"people", "salary", .bigInt⟩, .membership true, true,
      .literals [.int 1, .int 2]⟩ : Predicate).WellTyped := by
  have hk : Key.parse "salary_not_in" = .ok ⟨"salary", .membership true, true⟩ := by rfl
  have h : compile ⟨"people", "salary", .bigInt⟩ ⟨"salary", .membership true, true⟩
      (.list [.int 1, .null, .text " 2 "]) true = .ok (predicate
        ⟨⟨"people", "salary", .bigInt⟩, .membership true, true, .literals [.int 1, .int 2]⟩) := by cbv
  exact (compile_wellTyped hk _ _ true h).2.2

end Condition

end PredicateSearch

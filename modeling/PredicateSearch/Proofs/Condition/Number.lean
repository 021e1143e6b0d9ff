import Mathlib
import PredicateSearch.Proofs.Condition.Integer
import PredicateSearch.Proofs.Decimal.Shown

namespace PredicateSearch

open Decimal

theorem Literal.sql_float (d : Dialect) {x : Float} {m : Int} (h : floatText x = intText m) :
    (Literal.float x).sql d = toString m := by
  rw [Literal.sql, h]
  exact ofList_intText m

theorem Operand.natAbs_lt (n : Int64) : n.toInt.natAbs < 2 ^ 127 := by
  have hl := n.le_toInt
  have hu := n.toInt_lt
  omega

theorem Operand.toFloat?_int (n : Int64) : toFloat? (.int n) = some (Float.ofInt n.toInt) := by
  have h : isFinite (Float.ofInt n.toInt) = true := isFinite_ofInt ((natAbs_lt n).trans (by norm_num))
  rw [toFloat?, asFloat?, Option.filter_some, if_pos h]

namespace Condition

theorem literalKind_cases {type : ValueType} (h : type.isNumeric = true) :
    type.isIntegral = true ∨ type.literalKind = .number := by
  cases type with
  | int | bigInt => exact .inl rfl
  | float | decimal => exact .inr rfl
  | _ => cases h

variable {column : Attribute} {k : Key} {sign : String}

/-- A column of fractions is compared with the double nearest to the operand. -/
theorem compile_ofInt (hs : k.sign? = some sign) (ht : column.type.isNumeric = true)
    (hk : column.type.literalKind = .number) (n : Int64) (ignoreBlank : Bool) :
    compile column k (.int n) ignoreBlank =
      .ok (predicate ⟨column, k.operator, k.negated, .literal (.float (Float.ofInt n.toInt))⟩) := by
  refine compile_of_sign hs ht (isSuppressed_int ignoreBlank n) ?_
  rw [hk, LiteralKind.literal?, Operand.toFloat?_int]
  rfl

/-- A column of integers is compared with the number supplied. Any other column of numbers is compared with the one
whole number that the double is shown as. That is the number supplied if a double keeps its digits, and also if it is a
double and none with that double ends in more zeros. -/
theorem compile_number (hs : k.sign? = some sign) (ht : column.type.isNumeric = true) (n : Int64)
    (ignoreBlank : Bool) :
    ∃ p, compile column k (.int n) ignoreBlank = .ok (predicate p) ∧ ∃ m : Int,
      (∀ d : Dialect, p.sql d = d.qualify column.table column.column ++ " " ++ sign ++ " " ++ toString m) ∧
      (column.type.isIntegral = true ∨ IsKept n.toInt → m = n.toInt) ∧
      Float.ofInt m = Float.ofInt n.toInt ∧
      (column.type.isIntegral = false →
        IsShown n.toInt m ∧ (∀ m', IsShown n.toInt m' → m' = m) ∧
        (HasDouble n.toInt → (∀ i e, SharesDouble n.toInt i → 10 ^ e ∣ i → 10 ^ e ∣ n.toInt) → m = n.toInt)) := by
  have hb : n.toInt.natAbs < 2 ^ 128 := (Operand.natAbs_lt n).trans (by norm_num)
  rcases literalKind_cases ht with hi | hk
  · refine ⟨_, compile_int hi hs n ignoreBlank, n.toInt, fun d => ?_, fun _ => rfl, rfl, fun hf => ?_⟩
    · rw [Predicate.sql_sign hs, Literal.sql_int]
    · rw [hi] at hf
      cases hf
  · obtain ⟨m, hm, hshown, he⟩ := floatText_ofInt (Operand.natAbs_lt n)
    refine ⟨_, compile_ofInt hs ht hk n ignoreBlank, m, fun d => ?_, ?_, hshown.shares.ofInt_eq, fun _ =>
      ⟨hshown, fun m' h => h.unique hshown hb, fun hd hz => hshown.unique (.self hd hb hz) hb⟩⟩
    · rw [Predicate.sql_sign hs, Literal.sql_float d hm]
    · rintro (hi | hkept)
      · rw [literalKind_of_isIntegral hi] at hk
        cases hk
      · exact he hkept

/-- Fifteen digits before the zeros, and more than 2 ^ 53. -/
theorem compile_number_round :
    ∃ p, compile ⟨"people", "score", .float⟩ ⟨"score", .comparison .less, false⟩ (.int (-9223372036854770000)) true =
        .ok (predicate p) ∧
      p.sql .sqlite = "\"people\".\"score\" < -9223372036854770000" := by
  have hs : (⟨"score", .comparison .less, false⟩ : Key).sign? = some "<" := rfl
  have ht : (⟨"people", "score", .float⟩ : Attribute).type.isNumeric = true := rfl
  have hn : IsKept (-9223372036854770000 : Int64).toInt := .inr ⟨-922337203685477, 4, by decide, by decide⟩
  obtain ⟨p, hp, m, hm, he, -⟩ := compile_number hs ht (-9223372036854770000) true
  refine ⟨p, hp, ?_⟩
  rw [hm, he (.inr hn)]
  rfl

/-- The first whole number without a double of its own: the column is compared with its neighbour. -/
theorem compile_number_inexact :
    ∃ p, compile ⟨"people", "amount", .decimal⟩ ⟨"amount", .equality false, false⟩ (.int 9007199254740993) true =
        .ok (predicate p) ∧
      p.sql .sqlite = "\"people\".\"amount\" = 9007199254740992" ∧
      p.sql .sqlite ≠ "\"people\".\"amount\" = 9007199254740993" := by
  have hs : (⟨"amount", .equality false, false⟩ : Key).sign? = some "=" := rfl
  have hf : floatText (Float.ofInt 9007199254740993) = intText 9007199254740992 := by decide +kernel
  have hsql := Predicate.sql_sign hs .sqlite ⟨"people", "amount", .decimal⟩ (.float (Float.ofInt 9007199254740993))
  rw [Literal.sql_float .sqlite hf] at hsql
  refine ⟨_, compile_ofInt hs rfl rfl 9007199254740993 true, hsql.trans rfl, hsql.trans_ne ?_⟩
  decide

end Condition

end PredicateSearch

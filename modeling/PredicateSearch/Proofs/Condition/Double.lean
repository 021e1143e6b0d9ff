import Mathlib
import PredicateSearch.Proofs.Condition.Integer
import PredicateSearch.Proofs.Decimal.Exact

namespace PredicateSearch

open Decimal

/-- The tests of a column against literals of its own kind. -/
inductive Operator.ComparesLiterals : Operator → Prop
  | equality (n) : ComparesLiterals (.equality n)
  | comparison (c) : ComparesLiterals (.comparison c)
  | membership (n) : ComparesLiterals (.membership n)

theorem Operator.ComparesLiterals.admits {o : Operator} (ho : o.ComparesLiterals) {type : ValueType}
    (ht : type.isNumeric = true) : o.appliesTo.admits type = true := by
  obtain ⟨he, hc⟩ := Condition.admits_of_isNumeric ht
  cases ho with
  | equality | membership => exact he
  | comparison => exact hc

namespace Operand

theorem natAbs_lt_iff (n : Int64) : n.toInt.natAbs < Nat.pow 2 63 ↔ n ≠ Int64.minValue := by
  have hl := n.le_toInt
  have hu := n.toInt_lt
  rw [Ne, ← Int64.toInt_inj, Int64.toInt_minValue, Nat.pow_eq]
  omega

/-- All integers that are doubles are reached but the least. -/
theorem toInt?_float_eq_some {x : Float} {n : Int64} :
    toInt? (.float x) = some n ↔ exactValue? x = some (n.toInt : ℚ) ∧ n ≠ Int64.minValue := by
  simp only [toInt?, wholeInt64?, Option.bind_eq_some_iff, integer?_eq_some, ← natAbs_lt_iff]
  constructor
  · rintro ⟨m, hx, h⟩
    split at h
    · next hm =>
        obtain rfl := int64?_eq_some.1 h
        exact ⟨hx, hm⟩
    · cases h
  · rintro ⟨hx, hn⟩
    exact ⟨n.toInt, hx, by rw [if_pos hn, int64?_toInt]⟩

theorem toInt?_ofInt {n : Int64} (h : HasDouble n.toInt) (hn : n ≠ Int64.minValue) :
    toInt? (.float (Float.ofInt n.toInt)) = some n := by
  have hb := (natAbs_lt_iff n).2 hn
  exact toInt?_float_eq_some.2 ⟨exactValue?_ofInt h (hb.trans (by norm_num)), hn⟩

theorem exactValue?_least : exactValue? (Float.ofInt Int64.minValue.toInt) = some (Int64.minValue.toInt : ℚ) :=
  integer?_eq_some.1 (by decide +kernel)

theorem toInt?_ofInt_least : toInt? (.float (Float.ofInt Int64.minValue.toInt)) = none := by
  rw [Option.eq_none_iff_forall_ne_some]
  intro n h
  obtain ⟨hv, hn⟩ := toInt?_float_eq_some.1 h
  have he : (n.toInt : ℚ) = Int64.minValue.toInt := Option.some_injective _ (hv.symm.trans exactValue?_least)
  exact hn (Int64.toInt_inj.1 (Int.cast_injective he))

/-- Equal, or an integer and the double that it is. -/
inductive Doubled : Operand → Operand → Prop
  | refl (v) : Doubled v v
  | double {n : Int64} (h : HasDouble n.toInt) (hn : n ≠ Int64.minValue) :
      Doubled (.int n) (.float (Float.ofInt n.toInt))

theorem Doubled.sameInteger {u v : Operand} (h : Doubled u v) : SameInteger u v := by
  cases h with
  | refl => exact .refl u
  | double h hn => exact .guises rfl (toInt?_ofInt h hn)

end Operand

namespace Condition

open Operand

variable {column : Attribute} {k : Key} {v : Operand}

theorem isSuppressed_of_toInt? {n : Int64} (hv : toInt? v = some n) (ignoreBlank : Bool) :
    isSuppressed ignoreBlank v = false := by
  cases v with
  | null | list => cases hv
  | bool | int | float => cases ignoreBlank <;> rfl
  | text => exact isSuppressed_text (ne_blank_of_denotes (toInt?_text.1 hv))

theorem members_of_toInt? {n : Int64} (hv : toInt? v = some n) : members v = [v] := by
  cases v with
  | null | list => cases hv
  | bool | int | float | text => rfl

theorem literal?_of_toInt? (ht : column.type.isIntegral = true) {n : Int64} (hv : toInt? v = some n) :
    column.type.literalKind.literal? v = some (.int n) := by
  rw [literalKind_of_isIntegral ht, LiteralKind.literal?, hv, Option.map_some]

/-- On a column of integers all that counts is the integer that an operand stands for. -/
theorem exists_compile_of_toInt? (ho : k.operator.ComparesLiterals) (ht : column.type.isIntegral = true) (n : Int64)
    (ignoreBlank : Bool) :
    ∃ p, ∀ v, toInt? v = some n → compile column k v ignoreBlank = .ok (predicate p) := by
  have ha := ho.admits (isNumeric_of_isIntegral ht)
  suffices h : ∃ a, ∀ v, toInt? v = some n → Accepts column.type.literalKind k.operator v a by
    obtain ⟨a, h⟩ := h
    exact ⟨_, fun v hv => compile_eq_predicate.2 ⟨isSuppressed_of_toInt? hv ignoreBlank, ha, a, h v hv, rfl⟩⟩
  generalize k.operator = o at ho
  cases ho with
  | equality b => exact ⟨_, fun v hv => .equality b (literal?_of_toInt? ht hv)⟩
  | comparison c => exact ⟨_, fun v hv => .comparison c (literal?_of_toInt? ht hv)⟩
  | membership b =>
      refine ⟨.literals [.int n], fun v hv => ?_⟩
      have hm := members_of_toInt? hv
      exact .membership b (by simp [hm]) (hm ▸ .cons (literal?_of_toInt? ht hv) .nil)

theorem compile_float_of_toInt?_eq_none (ho : k.operator.ComparesLiterals) (ht : column.type.isIntegral = true)
    {x : Float} (hx : toInt? (.float x) = none) (ignoreBlank : Bool) :
    compile column k (.float x) ignoreBlank = .error (.invalidValue k .integer (.float x)) := by
  have ha := ho.admits (isNumeric_of_isIntegral ht)
  have hs : isSuppressed ignoreBlank (.float x) = false := by cases ignoreBlank <;> rfl
  have hl : LiteralKind.integer.literal? (.float x) = none := by rw [LiteralKind.literal?, hx, Option.map_none]
  refine compile_eq_error.2 ⟨hs, .inr ⟨ha, .integer, _, ?_, rfl⟩⟩
  rw [literalKind_of_isIntegral ht]
  generalize k.operator = o at ho
  cases ho with
  | equality b => exact .equality b hl
  | comparison c => exact .comparison c hl
  | membership b =>
      have hm : members (.float x) = [] ++ .float x :: [] := rfl
      exact .membership b hm (by simp) hl

/-- An integer that is a double may be given as one, alone and in lists: a column of integers is asked the same. The
least integer of 64 bits is the exception, and its double is refused. -/
theorem compile_integral_double (ht : column.type.isIntegral = true) (ho : k.operator.ComparesLiterals)
    (ignoreBlank : Bool) :
    (∀ n : Int64, HasDouble n.toInt →
      toInt? (.float (Float.ofInt n.toInt)) = (if n = Int64.minValue then none else some n) ∧
      ∃ p, compile column k (.int n) ignoreBlank = .ok (predicate p) ∧
        compile column k (.float (Float.ofInt n.toInt)) ignoreBlank =
          if n = Int64.minValue then .error (.invalidValue k .integer (.float (Float.ofInt n.toInt)))
          else .ok (predicate p)) ∧
    ∀ b, k.operator = .membership b → ∀ us vs, List.Forall₂ Doubled us vs →
      compile column k (.list us) ignoreBlank = compile column k (.list vs) ignoreBlank := by
  refine ⟨fun n h => ?_, fun b hb us vs h =>
    compile_list_of_sameInteger ht hb (h.imp fun _ _ => Doubled.sameInteger) ignoreBlank⟩
  obtain ⟨p, hp⟩ := exists_compile_of_toInt? ho ht n ignoreBlank
  by_cases hn : n = Int64.minValue
  · subst hn
    have hc := compile_float_of_toInt?_eq_none ho ht toInt?_ofInt_least ignoreBlank
    exact ⟨toInt?_ofInt_least.trans (if_pos rfl).symm, p, hp _ rfl, hc.trans (if_pos rfl).symm⟩
  · have hi := toInt?_ofInt h hn
    exact ⟨hi.trans (if_neg hn).symm, p, hp _ rfl, (hp _ hi).trans (if_neg hn).symm⟩

/-- The double below 2 ^ 63. -/
theorem compile_integral_double_greatest :
    toInt? (.float (Float.ofInt (9223372036854774784 : Int64).toInt)) = some 9223372036854774784 ∧
    (∃ p, compile ⟨"people", "salary", .bigInt⟩ ⟨"salary", .membership true, true⟩
        (.int 9223372036854774784) true = .ok (predicate p) ∧
      compile ⟨"people", "salary", .bigInt⟩ ⟨"salary", .membership true, true⟩
        (.float (Float.ofInt (9223372036854774784 : Int64).toInt)) true = .ok (predicate p)) ∧
    compile ⟨"people", "salary", .bigInt⟩ ⟨"salary", .membership true, true⟩
        (.list [.null, .int 9223372036854774784]) true =
      compile ⟨"people", "salary", .bigInt⟩ ⟨"salary", .membership true, true⟩
        (.list [.null, .float (Float.ofInt (9223372036854774784 : Int64).toInt)]) true := by
  have ht : (⟨"people", "salary", .bigInt⟩ : Attribute).type.isIntegral = true := rfl
  have ho : (⟨"salary", .membership true, true⟩ : Key).operator.ComparesLiterals := .membership true
  have hd : HasDouble (9223372036854774784 : Int64).toInt :=
    ⟨Float.ofInt 9223372036854774784, integer?_eq_some.1 (by decide +kernel)⟩
  have hn : (9223372036854774784 : Int64) ≠ Int64.minValue := by decide
  obtain ⟨hc, hl⟩ := compile_integral_double ht ho true
  obtain ⟨hi, p, hp, hf⟩ := hc _ hd
  rw [if_neg hn] at hi hf
  exact ⟨hi, ⟨p, hp, hf⟩, hl true rfl _ _ (.cons (.refl .null) (.cons (.double hd hn) .nil))⟩

/-- The least integer is a double too, and a column takes it as an integer. -/
theorem compile_refuses_least :
    HasDouble Int64.minValue.toInt ∧
    toInt? (.float (Float.ofInt Int64.minValue.toInt)) ≠ some Int64.minValue ∧
    ∃ p, compile ⟨"people", "salary", .bigInt⟩ ⟨"salary", .equality false, false⟩ (.int Int64.minValue) true =
        .ok (predicate p) ∧
      compile ⟨"people", "salary", .bigInt⟩ ⟨"salary", .equality false, false⟩
        (.float (Float.ofInt Int64.minValue.toInt)) true ≠ .ok (predicate p) := by
  have ht : (⟨"people", "salary", .bigInt⟩ : Attribute).type.isIntegral = true := rfl
  have ho : (⟨"salary", .equality false, false⟩ : Key).operator.ComparesLiterals := .equality false
  obtain ⟨p, hp⟩ := exists_compile_of_toInt? ho ht Int64.minValue true
  refine ⟨⟨_, exactValue?_least⟩, toInt?_ofInt_least.trans_ne (Option.some_ne_none _).symm, p, hp _ rfl, ?_⟩
  rw [compile_float_of_toInt?_eq_none ho ht toInt?_ofInt_least]
  exact nofun

end Condition

end PredicateSearch

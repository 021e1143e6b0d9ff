import Mathlib
import PredicateSearch.Proofs.Condition.Membership
import PredicateSearch.Proofs.Decimal.Integer

namespace PredicateSearch

open Decimal

/-- The sign between a column and the one literal that it is compared with. -/
def Key.sign? (k : Key) : Option String :=
  match k.operator with
  | .equality _ => some (Predicate.equalitySign !k.negated)
  | .comparison c => some c.symbol
  | _ => none

theorem Predicate.sql_sign {k : Key} {sign : String} (hs : k.sign? = some sign) (d : Dialect) (column : Attribute)
    (l : Literal) : (⟨column, k.operator, k.negated, .literal l⟩ : Predicate).sql d =
      d.qualify column.table column.column ++ " " ++ sign ++ " " ++ l.sql d := by
  obtain ⟨subject, o, n⟩ := k
  cases o with
  | equality => cases hs; rfl
  | comparison => cases hs; rfl
  | nullCheck | presence | truth | pattern | membership => cases hs

theorem Literal.sql_int (d : Dialect) (n : Int64) : (Literal.int n).sql d = toString n.toInt := ofList_intText n.toInt

namespace Operand

/-- Equal, or an integer and a text that denotes it. -/
inductive Alike : Operand → Operand → Prop
  | refl (v) : Alike v v
  | typed {n s} (h : Denotes (String.toList s) (Int64.toInt n)) : Alike (.int n) (.text s)

theorem toInt?_text {s : String} {n : Int64} : toInt? (.text s) = some n ↔ Denotes s.toList n.toInt := by
  simp only [toInt?, Option.bind_eq_some_iff, readInt?_trim, int64?_eq_some, exists_eq_right']

theorem toInt?_text_eq_some {s : String} {n : Int} : (toInt? (.text s)).map Int64.toInt = some n ↔
    Denotes s.toList n ∧ -2 ^ 63 ≤ n ∧ n ≤ 2 ^ 63 - 1 := by
  simp only [Option.map_eq_some_iff, toInt?_text]
  constructor
  · rintro ⟨m, hm, rfl⟩
    exact ⟨hm, m.le_toInt, Int.le_sub_one_of_lt m.toInt_lt⟩
  · rintro ⟨h, hl, hu⟩
    have hn : (Int64.ofInt n).toInt = n := Int64.toInt_ofInt_of_le (by omega) (by omega)
    exact ⟨Int64.ofInt n, hn.symm ▸ h, hn⟩

theorem ne_blank_of_denotes {s : String} {n : Int} (h : Denotes s.toList n) : s ≠ "" := by
  rintro rfl
  obtain ⟨l, t, r, he, -, -, ht⟩ := h
  have he : l ++ (t ++ r) = [] := he.symm
  simp only [List.append_eq_nil_iff] at he
  exact ht.ne_nil he.2.1

/-- Equal, or the same integer in two guises. -/
inductive SameInteger : Operand → Operand → Prop
  | refl (v) : SameInteger v v
  | guises {u v n} (hu : toInt? u = some n) (hv : toInt? v = some n) : SameInteger u v

theorem Alike.sameInteger {u v : Operand} (h : Alike u v) : SameInteger u v := by
  cases h with
  | refl => exact .refl u
  | typed h => exact .guises rfl (toInt?_text.2 h)

theorem isNull_of_toInt? {v : Operand} {n : Int64} (h : toInt? v = some n) : v.isNull = false := by
  cases v with
  | null => cases h
  | bool | int | float | text | list => rfl

theorem SameInteger.isNull_eq {u v : Operand} (h : SameInteger u v) : u.isNull = v.isNull := by
  cases h with
  | refl => rfl
  | guises hu hv => rw [isNull_of_toInt? hu, isNull_of_toInt? hv]

end Operand

namespace Condition

open Operand

variable {column : Attribute} {k : Key}

/-! Comparing a column of numbers with one literal -/

theorem admits_of_isNumeric {type : ValueType} (h : type.isNumeric = true) :
    TypeClass.equatable.admits type = true ∧ TypeClass.ordered.admits type = true := by
  cases type with
  | int | bigInt | float | decimal => exact ⟨rfl, rfl⟩
  | boolean | string | text | date | dateTime | time | uuid | json | bytes => cases h

theorem compile_of_sign {sign : String} (hs : k.sign? = some sign) (ht : column.type.isNumeric = true) {v : Operand}
    {l : Literal} {ignoreBlank : Bool} (hb : isSuppressed ignoreBlank v = false)
    (hl : column.type.literalKind.literal? v = some l) :
    compile column k v ignoreBlank = .ok (predicate ⟨column, k.operator, k.negated, .literal l⟩) := by
  obtain ⟨he, hc⟩ := admits_of_isNumeric ht
  obtain ⟨subject, o, n⟩ := k
  cases o with
  | equality m => exact compile_eq_predicate.2 ⟨hb, he, _, .equality m hl, rfl⟩
  | comparison c => exact compile_eq_predicate.2 ⟨hb, hc, _, .comparison c hl, rfl⟩
  | nullCheck | presence | truth | pattern | membership => cases hs

theorem literalKind_of_isIntegral {type : ValueType} (h : type.isIntegral = true) :
    type.literalKind = .integer := by
  cases type with
  | int | bigInt => rfl
  | _ => cases h

theorem isNumeric_of_isIntegral {type : ValueType} (h : type.isIntegral = true) : type.isNumeric = true := by
  cases type with
  | int | bigInt => rfl
  | _ => cases h

theorem isSuppressed_int (ignoreBlank : Bool) (n : Int64) : isSuppressed ignoreBlank (.int n) = false := by
  cases ignoreBlank <;> rfl

theorem isSuppressed_text {ignoreBlank : Bool} {s : String} (h : s ≠ "") :
    isSuppressed ignoreBlank (.text s) = false := by
  simp [isSuppressed, isNull, isBlank, h]

theorem compile_int (ht : column.type.isIntegral = true) {sign : String} (hs : k.sign? = some sign) (n : Int64)
    (ignoreBlank : Bool) : compile column k (.int n) ignoreBlank =
      .ok (predicate ⟨column, k.operator, k.negated, .literal (.int n)⟩) := by
  refine compile_of_sign hs (isNumeric_of_isIntegral ht) (isSuppressed_int _ n) ?_
  rw [literalKind_of_isIntegral ht]
  rfl

/-! Asking whether a column of integers is in a list -/

theorem literal_of_sameInteger {u v : Operand} (h : SameInteger u v) :
    literal k .integer u = literal k .integer v := by
  cases h with
  | refl => rfl
  | guises hu hv =>
      rw [literal, literal, LiteralKind.literal?, LiteralKind.literal?, hu, hv]
      rfl

theorem literals_of_sameInteger {us vs : List Operand} (h : List.Forall₂ SameInteger us vs) :
    literals k .integer us = literals k .integer vs := by
  induction h with
  | nil => rfl
  | cons h _ ih => rw [literals, literals, literal_of_sameInteger h, ih]

theorem nonNull_of_sameInteger {us vs : List Operand} (h : List.Forall₂ SameInteger us vs) :
    List.Forall₂ SameInteger (nonNull us) (nonNull vs) := by
  induction h with
  | nil => exact .nil
  | @cons u v us vs h _ ih =>
      simp only [nonNull, List.filter_cons, h.isNull_eq]
      split
      · exact .cons h ih
      · exact ih

theorem compile_list_of_sameInteger (ht : column.type.isIntegral = true) {b : Bool} (ho : k.operator = .membership b)
    {us vs : List Operand} (h : List.Forall₂ SameInteger us vs) (ignoreBlank : Bool) :
    compile column k (.list us) ignoreBlank = compile column k (.list vs) ignoreBlank := by
  have hs : isSuppressed ignoreBlank (.list us) = isSuppressed ignoreBlank (.list vs) := by
    cases h <;> rfl
  have hn := nonNull_of_sameInteger h
  have hl := literals_of_sameInteger (k := k) hn
  have ha : argument k .integer (.list us) = argument k .integer (.list vs) := by
    have hu : members (.list us) = nonNull us := rfl
    have hv : members (.list vs) = nonNull vs := rfl
    simp only [argument, ho, hu, hv]
    generalize nonNull us = us', nonNull vs = vs' at hn hl
    cases hn with
    | nil => rfl
    | cons => simp only [hl]
  rw [compile, compile, hs, literalKind_of_isIntegral ht, ha]

theorem compile_list_of_alike (ht : column.type.isIntegral = true) {b : Bool} (ho : k.operator = .membership b)
    {us vs : List Operand} (h : List.Forall₂ Alike us vs) (ignoreBlank : Bool) :
    compile column k (.list us) ignoreBlank = compile column k (.list vs) ignoreBlank :=
  compile_list_of_sameInteger ht ho (h.imp fun _ _ => Alike.sameInteger) ignoreBlank

/-- Members that stand for integers make a list of their literals. -/
theorem compile_list_of_toInt? (ht : column.type.isIntegral = true) {b : Bool} (ho : k.operator = .membership b)
    {us : List Operand} {ms : List Int64} (hne : nonNull us ≠ [])
    (h : List.Forall₂ (fun u m => toInt? u = some m) (nonNull us) ms) (ignoreBlank : Bool) :
    compile column k (.list us) ignoreBlank =
      .ok (predicate ⟨column, k.operator, k.negated, .literals (ms.map .int)⟩) := by
  have ha : k.operator.appliesTo.admits column.type = true := by
    rw [ho]
    exact (admits_of_isNumeric (isNumeric_of_isIntegral ht)).1
  refine compile_eq_predicate.2 ⟨isSuppressed_list hne, ha, _, ?_, rfl⟩
  rw [ho]
  refine .membership b hne ?_
  rw [List.forall₂_map_right_iff, literalKind_of_isIntegral ht]
  exact h.imp fun u m hm => by rw [LiteralKind.literal?, hm, Option.map_some]

/-- A text is an integer just if it denotes one of 64 signed bits. A column of integers is then asked the same
by the text and by the integer, alone and in lists, and the condition shows the integer. -/
theorem compile_integer :
    (∀ (s : String) (n : Int), (toInt? (.text s)).map Int64.toInt = some n ↔
      Denotes s.toList n ∧ -2 ^ 63 ≤ n ∧ n ≤ 2 ^ 63 - 1) ∧
    ∀ (column : Attribute) (k : Key) (ignoreBlank : Bool), column.type.isIntegral = true →
      (∀ sign, k.sign? = some sign → ∀ (n : Int64) (s : String), Denotes s.toList n.toInt →
        compile column k (.text s) ignoreBlank = compile column k (.int n) ignoreBlank ∧
        ∃ p, compile column k (.int n) ignoreBlank = .ok (predicate p) ∧ p.argument = .literal (.int n) ∧
          ∀ d : Dialect, p.sql d = d.qualify column.table column.column ++ " " ++ sign ++ " " ++ toString n.toInt) ∧
      ∀ b, k.operator = .membership b →
        (∀ (n : Int64) (s : String), Denotes s.toList n.toInt →
          compile column k (.text s) ignoreBlank = compile column k (.int n) ignoreBlank ∧
          compile column k (.int n) ignoreBlank = compile column k (.list [.int n]) ignoreBlank) ∧
        (∀ us vs, List.Forall₂ Alike us vs →
          compile column k (.list us) ignoreBlank = compile column k (.list vs) ignoreBlank) ∧
        ∀ us ms, nonNull us ≠ [] → List.Forall₂ (fun u m => toInt? u = some m) (nonNull us) ms →
          ∃ p, compile column k (.list us) ignoreBlank = .ok (predicate p) ∧ p.argument = .literals (ms.map .int) ∧
            ∀ d : Dialect, p.sql d = d.qualify column.table column.column ++
              (if k.negated then " NOT IN (" else " IN (") ++
              ", ".intercalate (ms.map fun m => toString m.toInt) ++ ")" := by
  refine ⟨fun s n => toInt?_text_eq_some, fun column k ignoreBlank ht => ⟨fun sign hs n s hd => ⟨?_, ?_⟩,
    fun b ho => ⟨fun n s hd => ?_, fun us vs h => compile_list_of_alike ht ho h ignoreBlank, fun us ms hne h => ?_⟩⟩⟩
  · have hl : column.type.literalKind.literal? (.text s) = some (.int n) := by
      rw [literalKind_of_isIntegral ht, LiteralKind.literal?, toInt?_text.2 hd, Option.map_some]
    rw [compile_int ht hs]
    exact compile_of_sign hs (isNumeric_of_isIntegral ht) (isSuppressed_text (ne_blank_of_denotes hd)) hl
  · refine ⟨_, compile_int ht hs n ignoreBlank, rfl, fun d => ?_⟩
    rw [Predicate.sql_sign hs, Literal.sql_int]
  · have hi : compile column k (.int n) ignoreBlank = compile column k (.list [.int n]) ignoreBlank :=
      compile_singleton ho (by simp [AsksNothing]) (by simp [IsList])
    have hx : compile column k (.text s) ignoreBlank = compile column k (.list [.text s]) ignoreBlank :=
      compile_singleton ho (by simp [AsksNothing, ne_blank_of_denotes hd]) (by simp [IsList])
    refine ⟨?_, hi⟩
    rw [hx, hi]
    exact (compile_list_of_alike ht ho (.cons (.typed hd) .nil) ignoreBlank).symm
  · refine ⟨_, compile_list_of_toInt? ht ho hne h ignoreBlank, rfl, fun d => ?_⟩
    rw [ho, Predicate.sql_membership, List.map_map]
    simp only [Function.comp_def, Literal.sql_int]

/-- The text stands between blanks, has zeros in front and denotes the least integer of 64 bits. -/
theorem compile_integer_least :
    compile ⟨"people", "salary", .bigInt⟩ ⟨"salary", .comparison .less, false⟩
        (.text "\u3000-009223372036854775808 ") true =
      compile ⟨"people", "salary", .bigInt⟩ ⟨"salary", .comparison .less, false⟩ (.int Int64.minValue) true ∧
    compile ⟨"people", "salary", .int⟩ ⟨"salary", .membership true, true⟩ (.list [.null, .int 7]) true =
      compile ⟨"people", "salary", .int⟩ ⟨"salary", .membership true, true⟩ (.list [.null, .text "+7"]) true ∧
    ∃ p, compile ⟨"people", "salary", .int⟩ ⟨"salary", .membership true, true⟩ (.list [.null, .text "+7"]) true =
      .ok (predicate p) ∧ p.sql .sqlite = "\"people\".\"salary\" NOT IN (7)" := by
  obtain ⟨-, hc⟩ := compile_integer
  have hm : Denotes "\u3000-009223372036854775808 ".toList Int64.minValue.toInt := readInt?_trim.1 (by decide)
  have h7 : Denotes "+7".toList (7 : Int64).toInt := readInt?_trim.1 (by decide)
  obtain ⟨hs, -⟩ := hc ⟨"people", "salary", .bigInt⟩ ⟨"salary", .comparison .less, false⟩ true rfl
  obtain ⟨-, hl⟩ := hc ⟨"people", "salary", .int⟩ ⟨"salary", .membership true, true⟩ true rfl
  obtain ⟨-, ha, ht⟩ := hl true rfl
  have hn : List.Forall₂ (fun u m => toInt? u = some m) (nonNull [.null, .text "+7"]) [7] :=
    .cons (toInt?_text.2 h7) .nil
  obtain ⟨p, hp, -, hd⟩ := ht [.null, .text "+7"] [7] (List.cons_ne_nil _ _) hn
  exact ⟨(hs "<" rfl Int64.minValue _ hm).1, ha _ _ (.cons (.refl .null) (.cons (.typed h7) .nil)), p, hp, hd _⟩

end Condition

end PredicateSearch

import Mathlib
import PredicateSearch.Proofs.Condition.Pair
import PredicateSearch.Proofs.Sql.Template

namespace PredicateSearch

open Sql

/-! Tests that compare with nothing: the operand only chooses between their two forms. -/

theorem Operator.isToggle_pair (o : Operator) : o.pair.isToggle = o.isToggle := by
  cases o <;> rfl

theorem Operator.isNegated_pair {o : Operator} (ho : o.isToggle = true) : o.pair.isNegated = !o.isNegated := by
  cases o with
  | nullCheck | presence | truth => rfl
  | equality | pattern | comparison | membership => cases ho

theorem Sql.template_toggle {d : Dialect} {o : Operator} (ho : o.isToggle = true) (positive stringLike : Bool)
    (table column : List Char) (argument : List Token) :
    template d o positive stringLike table column argument = template d o positive stringLike table column [] := by
  cases o with
  | nullCheck | presence | truth => rfl
  | equality | pattern | comparison | membership => cases ho

namespace Predicate

def toggled (column : Attribute) (o : Operator) (b : Bool) : Predicate := ⟨column, o, o.isNegated, .toggle b⟩

variable {column : Attribute} {o : Operator} {b : Bool}

theorem isPositive_toggled : (toggled column o b).isPositive = (b != o.isNegated) := rfl

theorem pair_toggled : (toggled column o b).pair = toggled column o.pair b := rfl

theorem toList_sql_toggled (d : Dialect) (ho : o.isToggle = true) :
    ((toggled column o b).sql d).toList =
      write d (template d o (b != o.isNegated) column.type.isStringLike column.table.toList
        column.column.toList []) := by
  rw [toList_sql, layout, isPositive_toggled, toggled, template_toggle ho]

/-- Two negations, of the operator and of the choice, take each other away. -/
theorem sql_toggled_pair (d : Dialect) (ho : o.isToggle = true) :
    (toggled column o.pair (!b)).sql d = (toggled column o b).sql d := by
  have hi : (toggled column o.pair (!b)).isPositive = (toggled column o b).isPositive := by
    simp [isPositive_toggled, Operator.isNegated_pair ho]
  cases o with
  | nullCheck | presence | truth => simp only [sql, hi]; rfl
  | equality | pattern | comparison | membership => cases ho

theorem wellTyped_toggled (ho : o.isToggle = true) (ha : o.appliesTo.admits column.type = true) :
    (toggled column o b).WellTyped := by
  refine ⟨rfl, ha, ?_, fun hu => ?_⟩
  · cases o with
    | nullCheck | presence | truth => trivial
    | equality | pattern | comparison | membership => cases ho
  · obtain ⟨n, hn⟩ := Condition.nullCheck_of_admits ha hu
    exact ⟨n, b, hn, rfl⟩

/-- The other choice asks for the opposite. -/
theorem readTest_toggled_not (d : Dialect) (ho : o.isToggle = true)
    (ha : o.appliesTo.admits column.type = true) :
    d.readTest ((toggled column o (!b)).sql d).toList = some ((toggled column o b).test d).opposite := by
  have hs : (toggled column o.pair (!!b)).sql d = (toggled column o (!b)).sql d := sql_toggled_pair d ho
  have ht : o.pair.isToggle = true := by rw [Operator.isToggle_pair, ho]
  have ha' : o.pair.appliesTo.admits column.type = true := by rw [Operator.appliesTo_pair, ha]
  have hw : (toggled column o b).pair.WellTyped := wellTyped_toggled ht ha'
  rw [Bool.not_not, ← pair_toggled] at hs
  rw [← hs, readTest_sql d hw, test_pair d rfl]

end Predicate

namespace Condition

open Predicate

theorem isSuppressed_of_toBool? {v : Operand} {b : Bool} (h : v.toBool? = some b) (ignoreBlank : Bool) :
    isSuppressed ignoreBlank v = false := by
  have he : Operand.readBool? "" = none := by rfl
  cases v with
  | null | list => cases h
  | bool | int | float => simp [isSuppressed, Operand.isNull, Operand.isBlank]
  | text s =>
      have hne : s ≠ "" := by
        rintro rfl
        cases he.symm.trans h
      simp [isSuppressed, Operand.isNull, Operand.isBlank, hne]

theorem compile_toggle {column : Attribute} {k : Key} (hn : k.negated = k.operator.isNegated)
    (ht : k.operator.isToggle = true) (ha : k.operator.appliesTo.admits column.type = true) {v : Operand}
    {b : Bool} (hv : v.toBool? = some b) (ignoreBlank : Bool) :
    compile column k v ignoreBlank = .ok (predicate (toggled column k.operator b)) := by
  refine compile_eq_predicate.2 ⟨isSuppressed_of_toBool? hv ignoreBlank, ha, .toggle b, ?_, by rw [hn]; rfl⟩
  cases ho : k.operator with
  | nullCheck n => exact .nullCheck n hv
  | presence n => exact .presence n hv
  | truth t n => exact .truth t n hv
  | equality | pattern | comparison | membership => rw [ho] at ht; cases ht

/-- To choose the other form of the other operator of the pair is to choose the same, however the choice is
spelled. -/
theorem compile_toggle_dual {text text' : String} {k k' : Key} (hk : Key.parse text = .ok k)
    (hk' : Key.parse text' = .ok k') (ht : k.operator.isToggle = true) (ho : k'.operator = k.operator.pair)
    (column : Attribute) (ha : k.operator.appliesTo.admits column.type = true) {r r' : Operand} {b : Bool}
    (hr : r.toBool? = some b) (hr' : r'.toBool? = some (!b)) (ignoreBlank : Bool) :
    ∃ p p' q, compile column k r ignoreBlank = .ok (predicate p) ∧
      compile column k' r' ignoreBlank = .ok (predicate p') ∧
      compile column k r' ignoreBlank = .ok (predicate q) ∧
      (∀ d : Dialect, p'.sql d = p.sql d ∧
        (p.sql d).toList = write d (template d k.operator (b != k.operator.isNegated) column.type.isStringLike
          column.table.toList column.column.toList []) ∧
        (q.sql d).toList = write d (template d k.operator (!(b != k.operator.isNegated))
          column.type.isStringLike column.table.toList column.column.toList []) ∧
        ∃ t, d.readTest (p.sql d).toList = some t ∧ d.readTest (q.sql d).toList = some t.opposite) ∧
      ∀ (s : Operand) (ignoreBlank' : Bool), s.toBool? = r.toBool? →
        compile column k s ignoreBlank' = .ok (predicate p) := by
  have hn := Key.negated_of_parse hk
  have ht' : k'.operator.isToggle = true := by rw [ho, Operator.isToggle_pair, ht]
  have ha' : k'.operator.appliesTo.admits column.type = true := by rw [ho, Operator.appliesTo_pair, ha]
  refine ⟨_, _, _, compile_toggle hn ht ha hr ignoreBlank,
    compile_toggle (Key.negated_of_parse hk') ht' ha' hr' ignoreBlank, compile_toggle hn ht ha hr' ignoreBlank,
    fun d => ⟨?_, toList_sql_toggled d ht, ?_, _, readTest_sql d (wellTyped_toggled ht ha),
      readTest_toggled_not d ht ha⟩, ?_⟩
  · rw [ho, sql_toggled_pair d ht]
  · rw [toList_sql_toggled d ht, Bool.not_bne]
  · intro s ignoreBlank' hs
    exact compile_toggle hn ht ha (hs.trans hr) ignoreBlank'

theorem compile_toggle_dual_yes :
    ∃ p p', compile ⟨"people", "name", .string⟩ ⟨"name", .presence false, false⟩ (.text " Yes ") true =
        .ok (predicate p) ∧
      compile ⟨"people", "name", .string⟩ ⟨"name", .presence true, true⟩ (.int 0) true = .ok (predicate p') ∧
      (∀ d, p'.sql d = p.sql d) ∧
      compile ⟨"people", "name", .string⟩ ⟨"name", .presence false, false⟩ (.text "ON") false =
        .ok (predicate p) := by
  have hk : Key.parse "name_present" = .ok ⟨"name", .presence false, false⟩ := by rfl
  have hk' : Key.parse "name_blank" = .ok ⟨"name", .presence true, true⟩ := by rfl
  have hyes : (Operand.text " Yes ").toBool? = some true := by rfl
  have hon : (Operand.text "ON").toBool? = some true := by rfl
  have hno : (Operand.int 0).toBool? = some (!true) := by rfl
  obtain ⟨p, p', q, hp, hp', -, hd, hs⟩ :=
    compile_toggle_dual hk hk' rfl rfl ⟨"people", "name", .string⟩ rfl hyes hno true
  exact ⟨p, p', hp, hp', fun d => (hd d).1, hs (.text "ON") false (hon.trans hyes.symm)⟩

end Condition

end PredicateSearch

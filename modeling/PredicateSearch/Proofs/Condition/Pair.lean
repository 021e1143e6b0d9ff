import Mathlib
import PredicateSearch.Proofs.Condition.Typing
import PredicateSearch.Proofs.Sql.Clause
import PredicateSearch.Proofs.Sql.Template

namespace PredicateSearch

open Sql

/-! The other operator of the pair in place of the one given, and nothing else changed -/

def Key.pair (k : Key) : Key := .ofOperator k.subject k.operator.pair

def Predicate.pair (p : Predicate) : Predicate :=
  { p with operator := p.operator.pair, negated := p.operator.pair.isNegated }

def Condition.pair : Condition → Condition
  | empty => empty
  | predicate p => predicate p.pair

def CompileError.pair : CompileError → CompileError
  | typeMismatch o column => typeMismatch o.pair column
  | invalidValue k expected given => invalidValue k.pair expected given

theorem Operator.appliesTo_pair (o : Operator) : o.pair.appliesTo = o.appliesTo := by
  cases o <;> rfl

namespace Condition

theorem orInvalid_pair {α : Type} (k : Key) (kind : LiteralKind) (v : Operand) (x : Option α) :
    orInvalid k.pair kind v x = (orInvalid k kind v x).mapError CompileError.pair := by
  cases x <;> rfl

theorem literals_pair (k : Key) (kind : LiteralKind) (vs : List Operand) :
    literals k.pair kind vs = (literals k kind vs).mapError CompileError.pair := by
  induction vs with
  | nil => rfl
  | cons v vs ih => simp only [literals, literal, orInvalid_pair, ih, mapError_bind]; rfl

theorem argument_pair (k : Key) (kind : LiteralKind) (v : Operand) :
    argument k.pair kind v = (argument k kind v).mapError CompileError.pair := by
  have hp : k.pair.operator = k.operator.pair := rfl
  cases ho : k.operator with
  | nullCheck | presence | truth | pattern | equality | comparison =>
      simp only [argument, hp, ho, Operator.pair, literal, orInvalid_pair, mapError_bind]
      rfl
  | membership n =>
      simp only [argument, hp, ho, Operator.pair]
      cases members v with
      | nil => rfl
      | cons u us =>
          simp only [literals_pair, mapError_bind]
          rfl

/-- Both operators of a pair take the same operands on the same columns. -/
theorem compile_pair (column : Attribute) (k : Key) (v : Operand) (ignoreBlank : Bool) :
    compile column k.pair v ignoreBlank =
      ((compile column k v ignoreBlank).mapError CompileError.pair).map pair := by
  have hp : k.pair.operator = k.operator.pair := rfl
  rw [compile, compile, hp, Operator.appliesTo_pair, argument_pair]
  cases isSuppressed ignoreBlank v with
  | true => rfl
  | false =>
      cases k.operator.appliesTo.admits column.type with
      | false => rfl
      | true => rcases argument k column.type.literalKind v with e | _ | a <;> rfl

end Condition

namespace Predicate

theorem isPositive_pair {p : Predicate} (hn : p.negated = p.operator.isNegated)
    (h : p.operator.pair.isNegated = !p.operator.isNegated) : p.pair.isPositive = !p.isPositive := by
  rw [isPositive, isPositive, pair, hn, h]
  cases p.argument <;> simp

theorem equality_not (positive : Bool) : equality (!positive) = (equality positive).opposite := by
  cases positive <;> rfl

/-- The other operator of the pair asks for the opposite: by its negated form, or by the opposite sign. -/
theorem test_pair (d : Dialect) {p : Predicate} (hn : p.negated = p.operator.isNegated) :
    p.pair.test d = (p.test d).opposite := by
  have hs : p.pair.subject = p.subject := rfl
  have hm : p.pair.matchedSubject = p.matchedSubject := rfl
  have ha : p.pair.argument = p.argument := rfl
  have hp : p.pair.operator = p.operator.pair := rfl
  cases ho : p.operator with
  | comparison c => simp only [test, hs, ha, hp, ho]; rfl
  | equality | truth | nullCheck | presence | pattern | membership =>
      have hi := isPositive_pair hn (by simp [ho, Operator.pair, Operator.isNegated])
      simp only [test, hs, hm, ha, hp, ho, Operator.pair, hi, equality_not]
      cases p.isPositive <;> rfl

end Predicate

namespace Sql

theorem Test.atoms_opposite (t : Test) :
    t.opposite.atoms.map (fun a => (a.subject, a.literal)) = t.atoms.map fun a => (a.subject, a.literal) := by
  cases t <;> rfl

end Sql

namespace Predicate

/-- A condition tests no column but its own. -/
theorem name_of_mem_atoms {d : Dialect} {p : Predicate} {a : Atom} (h : a ∈ (p.test d).atoms) :
    a.subject.name = (p.column.table.toList, p.column.column.toList) := by
  have hs : p.subject.name = (p.column.table.toList, p.column.column.toList) := rfl
  have hm : p.matchedSubject.name = p.subject.name := by
    rw [matchedSubject]
    split <;> rfl
  cases ho : p.operator with
  | equality | truth | comparison | nullCheck | membership =>
      simp only [test, ho, Test.atoms, List.mem_singleton] at h
      rw [h, hs]
  | presence n =>
      have hb : ∀ b ∈ (p.test d).atoms, b.subject = p.subject := by
        cases hp : p.isPositive <;> simp [test, ho, hp, Test.atoms]
      rw [hb a h, hs]
  | pattern anchor n =>
      simp only [test, ho, Test.atoms, List.mem_singleton] at h
      rw [h, patternAtom, ← hs, ← hm]
      cases d.caseMatching <;> rfl

end Predicate

namespace Condition

/-- The operators of a pair complement each other. They take the same operands and are written with the same argument,
and of the tests that are read back from the whole texts the truth of one is the negation of the other's in every
row. -/
theorem compile_pair_complement {text text' : String} {k k' : Key} (hk : Key.parse text = .ok k)
    (hk' : Key.parse text' = .ok k') (hs : k'.subject = k.subject) (ho : k'.operator = k.operator.pair)
    (column : Attribute) (v : Operand) (ignoreBlank : Bool) :
    compile column k' v ignoreBlank =
        ((compile column k v ignoreBlank).mapError CompileError.pair).map pair ∧
      ∀ p p', compile column k v ignoreBlank = .ok (predicate p) →
        compile column k' v ignoreBlank = .ok (predicate p') → p'.argument = p.argument ∧
        ∀ d : Dialect, (p.sql d).toList = write d (p.layout d) ∧ (p'.sql d).toList = write d (p'.layout d) ∧
          ∃ t t' : Test,
            d.readTest (p.sql d).toList = some t ∧ d.readTest (p'.sql d).toList = some t' ∧
            (∀ a ∈ t.atoms, a.subject.name = (column.table.toList, column.column.toList)) ∧
            t'.atoms.map (fun a => (a.subject, a.literal)) = t.atoms.map (fun a => (a.subject, a.literal)) ∧
            ∀ (α : Type) [LinearOrder α] (M : Meaning α) (row : List Char → List Char → Option α),
              t'.truth M row = (t.truth M row).not := by
  have he : k' = k.pair := by
    rw [Key.pair, Key.ofOperator, ← hs, ← ho, ← Key.negated_of_parse hk']
  refine ⟨he ▸ compile_pair column k v ignoreBlank, ?_⟩
  intro p p' hp hp'
  have hw := wellTyped_of_compile (Key.negated_of_parse hk) hp
  have hw' := wellTyped_of_compile (Key.negated_of_parse hk') hp'
  rw [he, compile_pair, hp] at hp'
  cases hp'
  have hc : p.column = column := by
    obtain ⟨-, -, a, -, rfl⟩ := compile_eq_predicate.1 hp
    rfl
  refine ⟨rfl, fun d => ⟨p.toList_sql d, p.pair.toList_sql d, p.test d, (p.test d).opposite,
    Predicate.readTest_sql d hw, ?_, ?_, (p.test d).atoms_opposite, ?_⟩⟩
  · rw [← Predicate.test_pair d hw.negated_eq]
    exact Predicate.readTest_sql d hw'
  · exact hc ▸ fun a ha => Predicate.name_of_mem_atoms ha
  · intro α _ M row
    exact (p.test d).truth_opposite M row

theorem compile_pair_complement_lt :
    ∃ t t' : Test, Dialect.mysql.readTest "\x60t\x60.\x60x\x60 < 5".toList = some t ∧
      Dialect.mysql.readTest "\x60t\x60.\x60x\x60 >= 5".toList = some t' ∧
      ∀ (α : Type) [LinearOrder α] (M : Meaning α) (row : List Char → List Char → Option α),
        t'.truth M row = (t.truth M row).not := by
  have hk : Key.parse "x_lt" = .ok ⟨"x", .comparison .less, false⟩ := by rfl
  have hk' : Key.parse "x_gteq" = .ok ⟨"x", .comparison .greaterEqual, false⟩ := by rfl
  have h := compile_pair_complement hk hk' rfl rfl ⟨"t", "x", .int⟩ (.text " 5") true
  obtain ⟨-, hd⟩ := h.2 ⟨⟨"t", "x", .int⟩, .comparison .less, false, .literal (.int 5)⟩
    ⟨⟨"t", "x", .int⟩, .comparison .greaterEqual, false, .literal (.int 5)⟩ (by cbv) (by cbv)
  obtain ⟨-, -, t, t', ht, ht', -, -, hn⟩ := hd .mysql
  exact ⟨t, t', ht, ht', hn⟩

end Condition

end PredicateSearch

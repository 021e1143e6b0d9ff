import Mathlib.Order.Lattice
import PredicateSearch.Operator

namespace PredicateSearch.Sql

/-! Three-valued truth: nothing is known of what is NULL. -/

abbrev Truth := Option Bool

namespace Truth

def not (x : Truth) : Truth := x.map (!·)

def and : Truth → Truth → Truth
  | some false, _ | _, some false => some false
  | some true, some true => some true
  | _, _ => none

def or : Truth → Truth → Truth
  | some true, _ | _, some true => some true
  | some false, some false => some false
  | _, _ => none

theorem not_and (x y : Truth) : (x.and y).not = x.not.or y.not := by
  rcases x with _ | _ | _ <;> rcases y with _ | _ | _ <;> rfl

theorem not_or (x y : Truth) : (x.or y).not = x.not.and y.not := by
  rcases x with _ | _ | _ <;> rcases y with _ | _ | _ <;> rfl

end Truth

/-- What is tested: a column, perhaps as a text, perhaps with its case folded. -/
inductive Subject where
  | column (table column : List Char)
  | cast (s : Subject)
  | lower (s : Subject)
  deriving DecidableEq, Repr

/-- The table and the name of the column. -/
def Subject.name : Subject → List Char × List Char
  | .column t c => (t, c)
  | .cast s | .lower s => name s

inductive Relation where
  | equal
  | unequal
  | order (c : Comparison)
  deriving DecidableEq, Repr

/-- What a subject is tested for. But for the test for NULL, something is written behind it. -/
inductive Phrase where
  | compare (r : Relation)
  | like (ignoreCase positive : Bool)
  | member (positive : Bool)
  | null (positive : Bool)
  deriving DecidableEq, Repr

structure Atom where
  subject : Subject
  phrase : Phrase
  literal : List Char
  deriving DecidableEq, Repr

inductive Test where
  | atom (a : Atom)
  | both (a b : Atom)
  | either (a b : Atom)
  deriving DecidableEq, Repr

def Test.atoms : Test → List Atom
  | atom a => [a]
  | both a b | either a b => [a, b]

/-- What the words behind a phrase and the functions of a database mean. None of them makes a value of
NULL, or NULL of a value. -/
structure Meaning (α : Type) where
  value : List Char → α
  members : List Char → List α
  like : Bool → List Char → α → Bool
  cast : α → α
  lower : α → α

section

variable {α : Type} [LinearOrder α] (M : Meaning α) (row : List Char → List Char → Option α)

def Subject.value : Subject → Option α
  | .column t c => row t c
  | .cast s => (value s).map M.cast
  | .lower s => (value s).map M.lower

def Relation.holds (x y : α) : Relation → Bool
  | equal => decide (x = y)
  | unequal => decide (x ≠ y)
  | order .less => decide (x < y)
  | order .lessEqual => decide (x ≤ y)
  | order .greater => decide (x > y)
  | order .greaterEqual => decide (x ≥ y)

def Phrase.truth (literal : List Char) (x : Option α) : Phrase → Truth
  | compare r => x.map fun a => r.holds a (M.value literal)
  | like ignoreCase positive => x.map fun a => M.like ignoreCase literal a == positive
  | member positive => x.map fun a => decide (a ∈ M.members literal) == positive
  | null positive => some (x.isNone == positive)

def Atom.truth (a : Atom) : Truth := a.phrase.truth M a.literal (a.subject.value M row)

/-- The truth of a test in a row, in which any column may be NULL. -/
def Test.truth : Test → Truth
  | atom a => a.truth M row
  | both a b => (a.truth M row).and (b.truth M row)
  | either a b => (a.truth M row).or (b.truth M row)

end

/-! The test that is true where another is false -/

namespace Relation

def opposite : Relation → Relation
  | equal => unequal
  | unequal => equal
  | order c => order c.opposite

theorem holds_opposite {α : Type} [LinearOrder α] (x y : α) (r : Relation) :
    r.opposite.holds x y = !r.holds x y := by
  cases r with
  | equal | unequal => simp [opposite, holds]
  | order c => cases c <;> simp [opposite, holds, Comparison.opposite, ← not_lt]

end Relation

namespace Phrase

def opposite : Phrase → Phrase
  | compare r => compare r.opposite
  | like ignoreCase positive => like ignoreCase !positive
  | member positive => member !positive
  | null positive => null !positive

theorem beq_not : ∀ b c : Bool, (b == !c) = !(b == c) := by decide

theorem truth_opposite {α : Type} [LinearOrder α] (M : Meaning α) (literal : List Char) (x : Option α)
    (p : Phrase) : p.opposite.truth M literal x = (p.truth M literal x).not := by
  cases p with
  | compare r => cases x <;> simp [opposite, truth, Truth.not, r.holds_opposite]
  | like | member => cases x <;> simp [opposite, truth, Truth.not, beq_not]
  | null => simp [opposite, truth, Truth.not, beq_not]

end Phrase

def Atom.opposite (a : Atom) : Atom := { a with phrase := a.phrase.opposite }

def Test.opposite : Test → Test
  | atom a => atom a.opposite
  | both a b => either a.opposite b.opposite
  | either a b => both a.opposite b.opposite

variable {α : Type} [LinearOrder α] (M : Meaning α) (row : List Char → List Char → Option α)

theorem Atom.truth_opposite (a : Atom) : a.opposite.truth M row = (a.truth M row).not :=
  Phrase.truth_opposite M a.literal _ a.phrase

theorem Test.truth_opposite (t : Test) : t.opposite.truth M row = (t.truth M row).not := by
  cases t with
  | atom a => exact a.truth_opposite M row
  | both a b => simp only [opposite, truth, Atom.truth_opposite, Truth.not_and]
  | either a b => simp only [opposite, truth, Atom.truth_opposite, Truth.not_or]

end PredicateSearch.Sql

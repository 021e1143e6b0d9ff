import PredicateSearch.Proofs.Sql.Token
import PredicateSearch.Schema.Grammar

namespace PredicateSearch

def Ident.bare (i : Ident) : Ident := { text := i.text }

def Documentation.bare (c : Documentation) : Documentation := { text := c.text }

namespace Schema

/-- What is declared, whatever the place where it is written. -/
def ColumnDeclaration.bare (d : ColumnDeclaration) : ColumnDeclaration :=
  { d with documentation := d.documentation.map Documentation.bare, name := d.name.bare, span := {} }

def ModelDeclaration.bare (d : ModelDeclaration) : ModelDeclaration :=
  { d with
    documentation := d.documentation.map Documentation.bare, name := d.name.bare,
    columns := d.columns.map ColumnDeclaration.bare, span := {} }

/-- A form of writing: the texts that begin with a value written in it, each with what is left of the
text. Unlike a rule, a form chooses freely between what is optional and what is repeated. -/
def Form (α : Type) := List Char → α → List Char → Prop

namespace Form

variable {α β : Type}

protected def pure (a : α) : Form α := fun s b r => b = a ∧ r = s

protected def bind (f : Form α) (g : α → Form β) : Form β := fun s b r => ∃ a t, f s a t ∧ g a t b r

instance : Monad Form where
  pure := Form.pure
  bind := Form.bind

def literal (l : List Char) : Form Unit := fun s _ r => s = l ++ r

def char (p : Char → Bool) : Form Char := fun s c r => s = c :: r ∧ p c = true

/-- A run is as long as it can be. -/
def run (p : Char → Bool) : Form (List Char) := fun s t r =>
  s = t ++ r ∧ (∀ c ∈ t, p c = true) ∧ Sql.stops p r = true

def finish : Form Unit := fun s _ r => s = [] ∧ r = []

def optional (f : Form α) : Form (Option α) := fun s a r =>
  match a with
  | none => r = s
  | some b => f s b r

/-- White space and comments, as much of them as one likes. Only a comment is as long as it can be. -/
inductive Gap : List Char → List Char → Prop
  | done (s) : Gap s s
  | space {c s r} (hc : isSpace c = true) (h : Gap s r) : Gap (c :: s) r
  | comment {t s r} (ht : ∀ c ∈ t, isNewline c = false) (hm : t.head? ≠ some '/')
      (hs : Sql.stops (fun c => !isNewline c) s = true) (h : Gap s r) : Gap ('/' :: '/' :: (t ++ s)) r

def gap : Form Unit := fun s _ r => Gap s r

/-- One or more, with gaps between them. -/
inductive Many1 (f : Form α) : List Char → List α → List Char → Prop
  | last {s a r} (h : f s a r) : Many1 f s [a] r
  | cons {s a t u as r} (h : f s a t) (hg : Gap t u) (hs : Many1 f u as r) : Many1 f s (a :: as) r

def many1 (f : Form α) : Form (List α) := Many1 f

def many (f : Form α) : Form (List α) := fun s as r => as = [] ∧ r = s ∨ Many1 f s as r

theorem many_nil {f : Form α} {s r : List Char} : many f s [] r ↔ r = s := by
  refine (or_iff_left ?_).trans (and_iff_right rfl)
  rintro ⟨⟩

theorem many_cons {f : Form α} {s r : List Char} {a : α} {as : List α} :
    many f s (a :: as) r ↔ Many1 f s (a :: as) r :=
  or_iff_right (by simp)

def name : Form String := do
  let c ← char isNameStart
  let s ← run isNamePart
  return String.ofList (c :: s)

def stringLiteral : Form String := do
  literal ['"']
  let s ← run fun c => !(c = '"' || isNewline c)
  literal ['"']
  return String.ofList s

def documentationLine : Form (List Char) := do
  literal ['/', '/', '/']
  run fun c => !isNewline c

def documentation : Form Documentation := do
  let lines ← many1 documentationLine
  return { text := documentationText lines }

def markArgument : Form String := do
  literal ['(']
  gap
  let s ← stringLiteral
  gap
  literal [')']
  return s

def mark : Form Mark := do
  literal ['@']
  let name ← name
  let argument ← optional markArgument
  return { name, argument }

def columnType : Form (String × Bool) := do
  let name ← name
  let question ← optional (literal ['?'])
  return (name, question.isSome)

def column : Form ColumnDeclaration := do
  let documentation ← optional documentation
  gap
  let text ← name
  gap
  let (type, optional) ← columnType
  gap
  let marks ← many mark
  return { documentation, name := { text }, type, optional, marks, span := {} }

def modelBody (documentation : Option Documentation) : Form ModelDeclaration := do
  literal ['m', 'o', 'd', 'e', 'l']
  gap
  let text ← name
  gap
  let marks ← many mark
  gap
  literal ['\x7b']
  gap
  let columns ← many column
  gap
  literal ['\x7d']
  return { documentation, name := { text }, marks, columns, span := {} }

def model : Form ModelDeclaration := do
  let documentation ← optional documentation
  gap
  modelBody documentation

def schema : Form (List ModelDeclaration) := do
  gap
  let models ← many model
  gap
  finish
  return models

end Form

end Schema

end PredicateSearch

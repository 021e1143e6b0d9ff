import PredicateSearch.LoadError
import PredicateSearch.Schema.Declaration
import PredicateSearch.Schema.Rule
import PredicateSearch.Text.Blank

namespace PredicateSearch.Schema

open Text

def isNameStart (c : Char) : Bool := c.isAlpha || c = '_'

def isNamePart (c : Char) : Bool := c.isAlphanum || c = '_'

/-- A documentation line may repeat its mark. -/
def stripMarks : List Char → List Char
  | '/' :: '/' :: '/' :: s => stripMarks s
  | s => s

def documentationText (lines : List (List Char)) : String :=
  String.ofList (['\n'].intercalate (lines.map fun s => trim (stripMarks s)))

namespace Rule

/-- A name may follow a word without a gap: `modelA` begins a model called `A`. -/
def identifier : Rule String := counted do
  let c ← char isNameStart
  let s ← run isNamePart
  return String.ofList (c :: s)

def ident : Rule Ident := do
  let (text, span) ← spanned identifier
  return { text, span }

def stringLiteral : Rule String := counted do
  literal ['"']
  let s ← run fun c => !(c = '"' || isNewline c)
  literal ['"']
  return String.ofList s

def documentationLine : Rule (List Char) := counted do
  literal ['/', '/', '/']
  run fun c => !isNewline c

def documentation : Rule Documentation := do
  let (lines, span) ← spanned (counted (many1 documentationLine))
  return { text := documentationText lines, span }

def markArgument : Rule String := counted do
  literal ['(']
  gap
  let s ← stringLiteral
  gap
  literal [')']
  return s

/-- No gap stands before the parenthesis. -/
def mark : Rule Mark := counted do
  literal ['@']
  let name ← identifier
  let argument ← optional markArgument
  return { name, argument }

def questionMark : Rule Unit := counted (literal ['?'])

/-- No gap stands before the mark. -/
def columnType : Rule (String × Bool) := counted do
  let name ← identifier
  let question ← optional questionMark
  return (name, question.isSome)

def columnBody : Rule (Span → ColumnDeclaration) := counted do
  let documentation ← optional documentation
  gap
  let name ← ident
  gap
  let (type, optional) ← columnType
  gap
  let marks ← many mark
  return fun span => { documentation, name, type, optional, marks, span }

def column : Rule ColumnDeclaration := do
  let (make, span) ← spanned columnBody
  return make span

def modelBody : Rule (Ident × List Mark × List ColumnDeclaration) := counted do
  literal ['m', 'o', 'd', 'e', 'l']
  gap
  let name ← ident
  gap
  let marks ← many mark
  gap
  literal ['\x7b']
  gap
  let columns ← many column
  gap
  literal ['\x7d']
  return (name, marks, columns)

def model : Rule ModelDeclaration := do
  let documentation ← optional documentation
  gap
  let ((name, marks, columns), span) ← spanned modelBody
  return { documentation, name, marks, columns, span }

def schema : Rule (List ModelDeclaration) := counted do
  gap
  let models ← many model
  gap
  counted finish
  return models

end Rule

/-- Text that is no schema is refused at the furthest place where something was missing. -/
def declarations (text : List Char) : Except LoadError (List ModelDeclaration) :=
  match Rule.schema ⟨text, 0⟩ with
  | ⟨_, some (models, _)⟩ => .ok models
  | ⟨reach, none⟩ => .error (.malformedText reach)

end PredicateSearch.Schema

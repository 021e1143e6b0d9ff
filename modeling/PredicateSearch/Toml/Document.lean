import PredicateSearch.Toml.Value

namespace PredicateSearch.Toml

open Text Reader

inductive Statement where
  | table (path : List String)
  | element (path : List String)
  | assignment (path : List String) (i : Item)
  deriving Repr

def element : Reader Statement := do
  literal ['[', '[']
  let path ← key
  literal [']', ']']
  return .element path

def table : Reader Statement := do
  literal ['[']
  let path ← key
  literal [']']
  return .table path

def assignment : Reader Statement := do
  let (path, i) ← keyValue (value nestingLimit)
  return .assignment path i

def statement : Reader Statement := element <|> table <|> assignment

/-- A line may hold one statement and a comment. -/
def line : Reader (Option Statement) := do
  blanks
  let s ← optional statement
  blanks
  let _ ← optional comment
  return s

/-- A byte order mark in front is not part of the text. -/
def statements : Reader (List Statement) := do
  let _ ← optional (literal ['\ufeff'])
  let lines ← sepBy1 line newline
  return lines.filterMap id

/-- Carries out statements. Those that assign go to the table of the last header. -/
def fill (current : List String) : List Statement → Entries → Option Entries
  | [], s => some s
  | .table path :: rest, s =>
    (path.getLast?.bind fun k => Entries.openTable path.dropLast k s).bind (fill path rest)
  | .element path :: rest, s =>
    (path.getLast?.bind fun k => Entries.openElement path.dropLast k s).bind (fill path rest)
  | .assignment path i :: rest, s =>
    (Entries.alter .header (Entries.assignPath path i) current .header s).bind (fill current rest)

def parse? (text : String) : Option Entries :=
  (statements.all? text.toList).bind fun s => fill [] s []

end PredicateSearch.Toml

namespace PredicateSearch

abbrev Environment := String → Option String

namespace Expansion

def opening : List Char := ['$', '\x7b']

def reference (name : List Char) : List Char := opening ++ name ++ ['\x7d']

def valueOf (env : Environment) (name : List Char) : List Char :=
  match env (String.ofList name) with
  | some v => v.toList
  | none => reference name

/-- One pass, which does not look into the values that it puts in. Inside a reference the name so far
is kept backwards. -/
def expandFrom (env : Environment) : Option (List Char) → List Char → List Char
  | none, [] => []
  | none, '$' :: '\x7b' :: s => expandFrom env (some []) s
  | none, c :: s => c :: expandFrom env none s
  | some name, [] => opening ++ name.reverse
  | some name, c :: s =>
    if c ≠ '\x7d' then expandFrom env (some (c :: name)) s
    else if name = [] then reference [] ++ expandFrom env none s
    else valueOf env name.reverse ++ expandFrom env none s

end Expansion

/-- Puts the values of variables in place of the references to them. An unset variable, an empty name
and a reference that is not closed stay as they are. -/
def Environment.expand (env : Environment) (text : String) : String :=
  String.ofList (Expansion.expandFrom env none text.toList)

end PredicateSearch

namespace PredicateSearch.Pattern

inductive Anchor where
  | anywhere
  | start
  | finish
  deriving DecidableEq, Repr

def needsEscape (c : Char) : Bool := c = '\\' || c = '%' || c = '.'

/-- A backslash before each backslash, percent sign and full stop. An underscore keeps its meaning of
one arbitrary character. -/
def escape : List Char → List Char
  | [] => []
  | c :: s => if needsEscape c then '\\' :: c :: escape s else c :: escape s

def wrap : Anchor → List Char → List Char
  | .anywhere, p => '%' :: p ++ ['%']
  | .start, p => p ++ ['%']
  | .finish, p => '%' :: p

def ofText (a : Anchor) (s : String) : String := String.ofList (wrap a (escape s.toList))

end PredicateSearch.Pattern

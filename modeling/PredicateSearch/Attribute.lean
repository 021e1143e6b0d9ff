import PredicateSearch.ValueType

namespace PredicateSearch

structure Attribute where
  table : String
  column : String
  type : ValueType
  deriving DecidableEq, Repr

def Attribute.text (a : Attribute) : String := a.table ++ "." ++ a.column

/-- Finds the column that a path of names leads to. -/
abbrev Resolver := List String → Option Attribute

end PredicateSearch

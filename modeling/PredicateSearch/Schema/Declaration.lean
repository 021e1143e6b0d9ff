import PredicateSearch.Schema.Span

namespace PredicateSearch.Schema

/-- A mark on a model or a column: `@map("people")`. -/
structure Mark where
  name : String
  argument : Option String := none
  deriving DecidableEq, Repr

def Mark.known : List String := ["map"]

/-- A column as it is written. Neither its type nor its marks need be known. -/
structure ColumnDeclaration where
  documentation : Option Documentation
  name : Ident
  type : String
  optional : Bool
  marks : List Mark
  span : Span
  deriving DecidableEq, Repr

/-- A model as it is written. The span leaves out the documentation. -/
structure ModelDeclaration where
  documentation : Option Documentation
  name : Ident
  marks : List Mark
  columns : List ColumnDeclaration
  span : Span
  deriving DecidableEq, Repr

end PredicateSearch.Schema

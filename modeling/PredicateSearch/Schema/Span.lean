namespace PredicateSearch

/-- A stretch of a text in bytes, its end excluded. -/
structure Span where
  start : Nat := 0
  stop : Nat := 0
  deriving DecidableEq, Repr

namespace Span

def length (s : Span) : Nat := s.stop - s.start

def isEmpty (s : Span) : Bool := s.start = s.stop

end Span

/-- A name, and where it was read. Names that no text holds have the empty span. -/
structure Ident where
  text : String
  span : Span := {}
  deriving DecidableEq, Repr

structure Documentation where
  text : String
  span : Span := {}
  deriving DecidableEq, Repr

end PredicateSearch

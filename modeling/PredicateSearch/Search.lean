import PredicateSearch.Condition.Sql
import PredicateSearch.Operand.Document
import PredicateSearch.Search.Error
import PredicateSearch.Search.Options
import PredicateSearch.Settings

namespace PredicateSearch

def Resolver.compile (resolver : Resolver) (key : String) (v : Operand) (ignoreBlank : Bool) :
    Except SearchError Condition := do
  let k ← (Key.parse key).mapError .key
  match resolver k.path with
  | none => .error (.unknownAttribute k.subject)
  | some column => (Condition.compile column k v ignoreBlank).mapError .compile

/-- Predicates in the order in which they were added. -/
structure Search where
  resolver : Resolver
  dialect : Dialect
  options : Search.Options := {}
  entries : List (String × Operand) := []

namespace Search

def ofSettings (resolver : Resolver) (s : Settings) : Search where
  resolver := resolver
  dialect := s.dialect
  options := s.searchOptions

def add (s : Search) (key : String) (v : Operand) : Search := { s with entries := s.entries ++ [(key, v)] }

def withOptions (s : Search) (options : Options) : Search := { s with options }

def operands : List (String × Json) → Except SearchError (List (String × Operand))
  | [] => .ok []
  | (k, d) :: s => do
    match Operand.ofJson? d with
    | none => .error (.params .nestedObject)
    | some v =>
      let vs ← operands s
      return (k, v) :: vs

def ofParams (resolver : Resolver) (dialect : Dialect) : Json → Except SearchError Search
  | .object members => do
    let entries ← operands members
    return { resolver, dialect, entries }
  | _ => .error (.params .notAnObject)

def size (s : Search) : Nat := s.entries.length

def isEmpty (s : Search) : Bool := s.entries.isEmpty

def compileAll (resolver : Resolver) (ignoreBlank : Bool) :
    List (String × Operand) → Except SearchError (List Condition)
  | [] => .ok []
  | (k, v) :: s => do
    let c ← resolver.compile k v ignoreBlank
    let cs ← compileAll resolver ignoreBlank s
    return c :: cs

/-- Stops at the first predicate that is at fault. -/
def conditions (s : Search) : Except SearchError (List Condition) :=
  compileAll s.resolver s.options.ignoreBlank s.entries

def fragments (s : Search) : Except SearchError (List String) := do
  let cs ← s.conditions
  return (cs.filter fun c => !c.isEmpty).map (Condition.sql s.dialect)

def sql (s : Search) : Except SearchError (Option String) := do
  match ← s.fragments with
  | [] => return none
  | fs => return some ((" " ++ s.options.combinator.keyword ++ " ").intercalate fs)

def whereClause (s : Search) : Except SearchError (Option String) := do
  let c ← s.sql
  return c.map ("WHERE " ++ ·)

end Search

end PredicateSearch

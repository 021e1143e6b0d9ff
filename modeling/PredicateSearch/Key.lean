import PredicateSearch.Operator

namespace PredicateSearch

/-- A predicate key taken apart: `name_cont` asks `cont` of the subject `name`. Whether the negated form
of the test is meant is noted beside the operator. -/
structure Key where
  subject : String
  operator : Operator
  negated : Bool
  deriving DecidableEq, Repr

inductive KeyError where
  | unknownOperator (key : String)
  | emptyAttribute (key : String)
  deriving DecidableEq, Repr

def KeyError.message : KeyError → String
  | unknownOperator key => "unknown operator in predicate `" ++ key ++ "`"
  | emptyAttribute key => "predicate `" ++ key ++ "` has no attribute"

namespace Key

def ofOperator (subject : String) (o : Operator) : Key := ⟨subject, o, o.isNegated⟩

/-- The first operator, in the order of trial, with a suffix that the key ends in. -/
def operator? (key : List Char) : Option Operator :=
  Operator.longestFirst.find? fun o => o.suffix.isSuffixOf key

/-- A key is split at the first suffix that fits, and one with no underscore asks for equality. -/
def parse (key : String) : Except KeyError Key :=
  let s := key.toList
  if s = [] then .error (.emptyAttribute key)
  else
    match operator? s with
    | some o =>
      let subject := s.take (s.length - o.suffix.length)
      if subject = [] then .error (.emptyAttribute key) else .ok (ofOperator (String.ofList subject) o)
    | none => if '_' ∈ s then .error (.unknownOperator key) else .ok (ofOperator key .default)

theorem negated_of_parse {key : String} {k : Key} (h : parse key = .ok k) :
    k.negated = k.operator.isNegated := by
  simp only [parse] at h
  split at h
  · cases h
  · split at h
    · split at h <;> cases h
      rfl
    · split at h <;> cases h
      rfl

def text (k : Key) : String := k.subject ++ "_" ++ k.operator.id

def consFirst (c : Char) : List (List Char) → List (List Char)
  | [] => [[c]]
  | s :: ss => (c :: s) :: ss

def splitDots : List Char → List (List Char)
  | [] => [[]]
  | c :: s => if c = '.' then [] :: splitDots s else consFirst c (splitDots s)

def splitLows : List Char → List (List Char)
  | '_' :: '_' :: s => [] :: splitLows s
  | c :: s => consFirst c (splitLows s)
  | [] => [[]]

/-- The names on the way to the attribute, parted by a full stop or two underscores. -/
def path (k : Key) : List String :=
  (splitDots k.subject.toList).flatMap splitLows |>.map String.ofList

end Key

end PredicateSearch

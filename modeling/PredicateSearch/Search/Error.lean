import PredicateSearch.Condition
import PredicateSearch.LoadError

namespace PredicateSearch

inductive ParamsFault where
  | notAnObject
  | nestedObject
  deriving DecidableEq, Repr

def ParamsFault.message : ParamsFault → String
  | notAnObject => "expected an object of predicates"
  | nestedObject => "nested objects are not predicate values"

inductive SearchError where
  | key (e : KeyError)
  | unknownAttribute (subject : String)
  | compile (e : CompileError)
  | params (fault : ParamsFault)
  | load (e : LoadError)
  deriving Repr

inductive ErrorCode where
  | unknownOperator
  | emptyAttribute
  | unknownAttribute
  | typeMismatch
  | invalidValue
  | invalidParams
  | load
  deriving DecidableEq, Repr

namespace ErrorCode

def all : List ErrorCode :=
  [unknownOperator, emptyAttribute, unknownAttribute, typeMismatch, invalidValue, invalidParams, load]

def text : ErrorCode → String
  | unknownOperator => "S1001"
  | emptyAttribute => "S1002"
  | unknownAttribute => "S2001"
  | typeMismatch => "S2002"
  | invalidValue => "S2003"
  | invalidParams => "S2004"
  | load => "S7001"

def description : ErrorCode → String
  | unknownOperator => "Unknown predicate operator"
  | emptyAttribute => "Predicate has no attribute"
  | unknownAttribute => "Unknown attribute"
  | typeMismatch => "Operator not applicable to attribute type"
  | invalidValue => "Value cannot be coerced"
  | invalidParams => "Invalid search parameters"
  | load => "Schema error"

end ErrorCode

namespace SearchError

def message : SearchError → String
  | key e => e.message
  | unknownAttribute subject => "unknown attribute `" ++ subject ++ "`"
  | compile e => e.message
  | params fault => "invalid search parameters: " ++ fault.message
  | load e => e.message

def code : SearchError → ErrorCode
  | key (.unknownOperator _) => .unknownOperator
  | key (.emptyAttribute _) => .emptyAttribute
  | unknownAttribute _ => .unknownAttribute
  | compile (.typeMismatch _ _) => .typeMismatch
  | compile (.invalidValue _ _ _) => .invalidValue
  | params _ => .invalidParams
  | load _ => .load

def diagnostic : SearchError → String
  | key (.unknownOperator _) => "sift::predicate::unknown_operator"
  | key (.emptyAttribute _) => "sift::predicate::empty_attribute"
  | unknownAttribute _ => "sift::compile::unknown_attribute"
  | compile (.typeMismatch _ _) => "sift::compile::type_mismatch"
  | compile (.invalidValue _ _ _) => "sift::compile::invalid_value"
  | params _ => "sift::search::invalid_params"
  | load e => e.diagnostic

def help? : SearchError → Option String
  | key (.unknownOperator _) =>
    some "predicate keys end in an operator such as `_eq`, `_cont`, `_null` or `_present`"
  | load e => e.help?
  | _ => none

end SearchError

end PredicateSearch

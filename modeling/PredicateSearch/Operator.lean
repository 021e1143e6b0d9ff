import PredicateSearch.Pattern
import PredicateSearch.ValueType

namespace PredicateSearch

inductive Comparison where
  | less
  | lessEqual
  | greater
  | greaterEqual
  deriving DecidableEq, Repr

namespace Comparison

def symbol : Comparison → String
  | less => "<"
  | lessEqual => "<="
  | greater => ">"
  | greaterEqual => ">="

def opposite : Comparison → Comparison
  | less => greaterEqual
  | lessEqual => greater
  | greater => lessEqual
  | greaterEqual => less

def id : Comparison → String
  | less => "lt"
  | lessEqual => "lteq"
  | greater => "gt"
  | greaterEqual => "gteq"

end Comparison

inductive Arity where
  | value
  | toggle
  | list
  deriving DecidableEq, Repr

inductive TypeClass where
  | any
  | equatable
  | stringLike
  | boolean
  | textual
  | ordered
  deriving DecidableEq, Repr

def TypeClass.admits : TypeClass → ValueType → Bool
  | any, _ => true
  | equatable, t => !(t.isTemporal || t = .json || t = .bytes)
  | stringLike, t => t.isStringLike
  | boolean, t => t.isBoolean
  | textual, t => t.isStringLike || t.isNumeric
  | ordered, t => t.isStringLike || t.isNumeric

/-- A test on a column. All but the comparisons come in a plain and a negated form. -/
inductive Operator where
  | equality (negated : Bool)
  | nullCheck (negated : Bool)
  | presence (negated : Bool)
  | truth (target negated : Bool)
  | pattern (anchor : Pattern.Anchor) (negated : Bool)
  | comparison (order : Comparison)
  | membership (negated : Bool)
  deriving DecidableEq, Repr

namespace Operator

def all : List Operator :=
  [equality false, equality true, nullCheck false, nullCheck true, presence false, presence true,
   truth true false, truth true true, truth false false, truth false true,
   pattern .anywhere false, pattern .anywhere true, pattern .start false, pattern .start true,
   pattern .finish false, pattern .finish true, comparison .less, comparison .lessEqual,
   comparison .greater, comparison .greaterEqual, membership false, membership true]

def id : Operator → String
  | equality false => "eq"
  | equality true => "not_eq"
  | nullCheck false => "null"
  | nullCheck true => "not_null"
  | presence false => "present"
  | presence true => "blank"
  | truth true false => "true"
  | truth true true => "not_true"
  | truth false false => "false"
  | truth false true => "not_false"
  | pattern .anywhere false => "cont"
  | pattern .anywhere true => "not_cont"
  | pattern .start false => "start"
  | pattern .start true => "not_start"
  | pattern .finish false => "end"
  | pattern .finish true => "not_end"
  | comparison c => c.id
  | membership false => "in"
  | membership true => "not_in"

def ofId? (s : String) : Option Operator := all.find? fun o => o.id = s

/-- Taken for a key that names no operator. -/
def default : Operator := equality false

def isNegated : Operator → Bool
  | equality n | nullCheck n | presence n | truth _ n | pattern _ n | membership n => n
  | comparison _ => false

def pair : Operator → Operator
  | equality n => equality !n
  | nullCheck n => nullCheck !n
  | presence n => presence !n
  | truth t n => truth t !n
  | pattern a n => pattern a !n
  | comparison c => comparison c.opposite
  | membership n => membership !n

def arity : Operator → Arity
  | nullCheck _ | presence _ | truth _ _ => .toggle
  | membership _ => .list
  | equality _ | pattern _ _ | comparison _ => .value

def appliesTo : Operator → TypeClass
  | equality _ | membership _ => .equatable
  | nullCheck _ => .any
  | presence _ => .stringLike
  | truth _ _ => .boolean
  | pattern _ _ => .textual
  | comparison _ => .ordered

def isToggle (o : Operator) : Bool := o.arity = .toggle

theorem mem_all : ∀ o : Operator, o ∈ all
  | equality n | nullCheck n | presence n | membership n => by cases n <;> decide
  | truth t n => by cases t <;> cases n <;> decide
  | pattern a n => by cases a <;> cases n <;> decide
  | comparison c => by cases c <;> decide

theorem nodup_ids : (all.map id).Nodup := by decide

theorem pair_pair (o : Operator) : o.pair.pair = o := by
  cases o with
  | comparison c => cases c <;> rfl
  | _ => simp [pair]

def suffix (o : Operator) : List Char := '_' :: o.id.toList

/-- Longer ids go first, and those of one length in alphabetical order. -/
def goesBefore (o p : Operator) : Bool :=
  p.id.length < o.id.length || (p.id.length = o.id.length && o.id ≤ p.id)

def insertLongestFirst (o : Operator) : List Operator → List Operator
  | [] => [o]
  | p :: ps => if o.goesBefore p then o :: p :: ps else p :: insertLongestFirst o ps

/-- All operators in the order in which their suffixes are tried. -/
def longestFirst : List Operator := all.foldr insertLongestFirst []

end Operator

end PredicateSearch

import PredicateSearch.Attribute
import PredicateSearch.Key
import PredicateSearch.Operand

namespace PredicateSearch

inductive Literal where
  | bool (b : Bool)
  | int (n : Int64)
  | float (x : Float)
  | text (s : String)
  deriving DecidableEq, Repr

inductive LiteralKind where
  | boolean
  | integer
  | number
  | string
  deriving DecidableEq, Repr

def LiteralKind.name : LiteralKind → String
  | boolean => "boolean"
  | integer => "integer"
  | number => "number"
  | string => "string"

def ValueType.literalKind (t : ValueType) : LiteralKind :=
  if t.isBoolean then .boolean
  else if t.isIntegral then .integer
  else if t.isNumeric then .number
  else .string

/-- The literal that an operand becomes where one of the given kind is wanted. -/
def LiteralKind.literal? : LiteralKind → Operand → Option Literal
  | boolean, v => v.toBool?.map .bool
  | integer, v => v.toInt?.map .int
  | number, v => v.toFloat?.map .float
  | string, v => v.toText?.map .text

/-- What stands on the other side of the test. A toggle chooses between the two forms of a test that
compares with nothing. -/
inductive Argument where
  | toggle (b : Bool)
  | pattern (p : String)
  | literal (l : Literal)
  | literals (ls : List Literal)
  deriving DecidableEq, Repr

structure Predicate where
  column : Attribute
  operator : Operator
  negated : Bool
  argument : Argument
  deriving DecidableEq, Repr

/-- Whether the plain form of the test is meant. -/
def Predicate.isPositive (p : Predicate) : Bool :=
  match p.argument with
  | .toggle b => b != p.negated
  | _ => !p.negated

/-- A test on a column, or nothing. -/
inductive Condition where
  | empty
  | predicate (p : Predicate)
  deriving DecidableEq, Repr

def Condition.isEmpty : Condition → Bool
  | empty => true
  | predicate _ => false

inductive CompileError where
  | typeMismatch (operator : Operator) (column : Attribute)
  | invalidValue (key : Key) (expected : LiteralKind) (given : Operand)
  deriving Repr

def CompileError.message : CompileError → String
  | typeMismatch o a =>
    "operator `" ++ o.id ++ "` cannot be applied to `" ++ a.text ++ "` of type " ++ a.type.name
  | invalidValue k e v =>
    "cannot use " ++ String.ofList v.display ++ " as " ++ e.name ++ " for `" ++ k.text ++ "`"

namespace Condition

/-- Asks for nothing: null always, and on request an empty text or list too. -/
def isSuppressed (ignoreBlank : Bool) (v : Operand) : Bool := v.isNull || (ignoreBlank && v.isBlank)

def orInvalid {α : Type} (key : Key) (expected : LiteralKind) (given : Operand) : Option α → Except CompileError α
  | some a => .ok a
  | none => .error (.invalidValue key expected given)

def literal (key : Key) (kind : LiteralKind) (v : Operand) : Except CompileError Literal :=
  orInvalid key kind v (kind.literal? v)

def literals (key : Key) (kind : LiteralKind) : List Operand → Except CompileError (List Literal)
  | [] => .ok []
  | v :: vs => do
    let l ← literal key kind v
    let ls ← literals key kind vs
    return l :: ls

/-- A lone operand counts as a list of one. -/
def members : Operand → List Operand
  | .list items => items.filter fun v => !v.isNull
  | v => [v]

/-- The argument of a test, or `none` where a list has no members to test for. -/
def argument (key : Key) (kind : LiteralKind) (v : Operand) : Except CompileError (Option Argument) :=
  match key.operator with
  | .nullCheck _ | .presence _ | .truth _ _ => do
    let b ← orInvalid key .boolean v v.toBool?
    return some (.toggle b)
  | .pattern a _ => do
    let s ← orInvalid key .string v v.toText?
    return some (.pattern (Pattern.ofText a s))
  | .membership _ =>
    match members v with
    | [] => .ok none
    | vs => do
      let ls ← literals key kind vs
      return some (.literals ls)
  | .equality _ | .comparison _ => do
    let l ← literal key kind v
    return some (.literal l)

/-- Suppression goes before the check of the column's type, and that before the operand's. -/
def compile (column : Attribute) (key : Key) (v : Operand) (ignoreBlank : Bool) :
    Except CompileError Condition :=
  if isSuppressed ignoreBlank v then .ok empty
  else if !key.operator.appliesTo.admits column.type then .error (.typeMismatch key.operator column)
  else do
    match ← argument key column.type.literalKind v with
    | none => return empty
    | some a => return predicate ⟨column, key.operator, key.negated, a⟩

end Condition

end PredicateSearch

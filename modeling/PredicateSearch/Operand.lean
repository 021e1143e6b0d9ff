import PredicateSearch.Decimal.Numeral
import PredicateSearch.Text.Blank
import PredicateSearch.Text.Quoted

namespace PredicateSearch

open Text Decimal

/-- What a caller supplies for a predicate. `null` asks for nothing. -/
inductive Operand where
  | null
  | bool (b : Bool)
  | int (n : Int64)
  | float (x : Float)
  | text (s : String)
  | list (items : List Operand)
  deriving Repr

namespace Operand

def isNull : Operand → Bool
  | null => true
  | _ => false

def isBlank : Operand → Bool
  | text s => s = ""
  | list items => items.isEmpty
  | _ => false

def kind : Operand → String
  | null => "null"
  | bool _ => "boolean"
  | int _ => "integer"
  | float _ => "float"
  | text _ => "string"
  | list _ => "list"

def trueWords : List String := ["1", "t", "true", "y", "yes", "on"]

def falseWords : List String := ["0", "f", "false", "n", "no", "off"]

/-- Blanks around the word and the case of its ASCII letters do not matter. -/
def readBool? (s : String) : Option Bool :=
  let word := String.ofList ((trim s.toList).map Char.toLower)
  if word ∈ trueWords then some true else if word ∈ falseWords then some false else none

def toBool? : Operand → Option Bool
  | bool b => some b
  | int n => if n = 1 then some true else if n = 0 then some false else none
  | text s => readBool? s
  | _ => none

/-- A double stands for an integer below 2 ^ 63 in size, so the least 64-bit integer is out of its reach. -/
def wholeInt64? (x : Float) : Option Int64 :=
  (integer? x).bind fun n => if n.natAbs < Nat.pow 2 63 then int64? n else none

def toInt? : Operand → Option Int64
  | int n => some n
  | float x => wholeInt64? x
  | text s => (readInt? (trim s.toList)).bind int64?
  | _ => none

/-- The double meant, whether finite or not. -/
def asFloat? : Operand → Option Float
  | int n => some (Float.ofInt n.toInt)
  | float x => some x
  | text s => readFloat? (trim s.toList)
  | _ => none

def toFloat? (v : Operand) : Option Float := v.asFloat?.filter isFinite

def boolText (b : Bool) : String := if b then "true" else "false"

def toText? : Operand → Option String
  | bool b => some (boolText b)
  | int n => some (String.ofList (intText n.toInt))
  | float x => some (String.ofList (floatText x))
  | text s => some s
  | null | list _ => none

mutual

def display : Operand → List Char
  | null => ['n', 'i', 'l']
  | bool b => (boolText b).toList
  | int n => intText n.toInt
  | float x => floatText x
  | text s => quoted s.toList
  | list items => '[' :: displayItems items ++ [']']

def displayItems : List Operand → List Char
  | [] => []
  | [v] => display v
  | v :: w :: vs => display v ++ ',' :: ' ' :: displayItems (w :: vs)

end

end Operand

end PredicateSearch

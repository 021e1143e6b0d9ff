namespace PredicateSearch

inductive ValueType where
  | boolean
  | string
  | text
  | int
  | bigInt
  | float
  | decimal
  | date
  | dateTime
  | time
  | uuid
  | json
  | bytes
  deriving DecidableEq, Repr

namespace ValueType

def all : List ValueType :=
  [boolean, string, text, int, bigInt, float, decimal, date, dateTime, time, uuid, json, bytes]

def name : ValueType → String
  | boolean => "Boolean"
  | string => "String"
  | text => "Text"
  | int => "Int"
  | bigInt => "BigInt"
  | float => "Float"
  | decimal => "Decimal"
  | date => "Date"
  | dateTime => "DateTime"
  | time => "Time"
  | uuid => "Uuid"
  | json => "Json"
  | bytes => "Bytes"

/-- Two types have a second spelling. -/
def ofName? (s : String) : Option ValueType :=
  if s = "Bool" then some boolean
  else if s = "UUID" then some uuid
  else all.find? fun t => t.name = s

theorem ofName?_name (t : ValueType) : ofName? t.name = some t := by cases t <;> decide

def isStringLike : ValueType → Bool
  | string | text => true
  | _ => false

def isIntegral : ValueType → Bool
  | int | bigInt => true
  | _ => false

def isNumeric : ValueType → Bool
  | int | bigInt | float | decimal => true
  | _ => false

def isBoolean : ValueType → Bool
  | boolean => true
  | _ => false

def isTemporal : ValueType → Bool
  | date | dateTime | time => true
  | _ => false

end ValueType

end PredicateSearch

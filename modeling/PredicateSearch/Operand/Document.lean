import PredicateSearch.Json
import PredicateSearch.Operand

namespace PredicateSearch.Operand

open Decimal

/-- An integer beyond 64 signed bits is kept as the nearest double. -/
def ofInt (n : Int) : Operand :=
  match int64? n with
  | some m => int m
  | none => float (Float.ofInt n)

mutual

/-- The operand a JSON document stands for. One that holds an object stands for none. -/
def ofJson? : Json → Option Operand
  | .null => some null
  | .bool b => some (bool b)
  | .int n => some (ofInt n)
  | .float x => some (float x)
  | .string s => some (text s)
  | .array items => (ofJsonItems? items).map list
  | .object _ => none

def ofJsonItems? : List Json → Option (List Operand)
  | [] => some []
  | d :: ds => (ofJson? d).bind fun v => (ofJsonItems? ds).map (v :: ·)

end

def nullOf? : Json → Option Operand
  | .null => some null
  | _ => none

def boolOf? : Json → Option Operand
  | .bool b => some (bool b)
  | _ => none

def intOf? : Json → Option Operand
  | .int n => (int64? n).map int
  | _ => none

def floatOf? : Json → Option Operand
  | .int n => some (float (Float.ofInt n))
  | .float x => some (float x)
  | _ => none

def textOf? : Json → Option Operand
  | .string s => some (text s)
  | _ => none

/-- The first kind of scalar that the document fits. -/
def scalarOf? (d : Json) : Option Operand :=
  nullOf? d <|> boolOf? d <|> intOf? d <|> floatOf? d <|> textOf? d

mutual

/-- The first kind of operand that the document fits, lists last. -/
def firstFit? : Json → Option Operand
  | .array items => scalarOf? (.array items) <|> (firstFitItems? items).map list
  | d => scalarOf? d

def firstFitItems? : List Json → Option (List Operand)
  | [] => some []
  | d :: ds => (firstFit? d).bind fun v => (firstFitItems? ds).map (v :: ·)

end

mutual

/-- JSON has no NaN and no infinities: they become null. -/
def toJson : Operand → Json
  | null => .null
  | bool b => .bool b
  | int n => .int n.toInt
  | float x => if isFinite x then .float x else .null
  | text s => .string s
  | list items => .array (toJsonItems items)

def toJsonItems : List Operand → List Json
  | [] => []
  | v :: vs => toJson v :: toJsonItems vs

end

end PredicateSearch.Operand

import PredicateSearch.Decimal.Shortest
import PredicateSearch.Json
import PredicateSearch.Text.Quoted

namespace PredicateSearch.Json

open Text Decimal

def fourDigits (n : Nat) : List Char :=
  let ds := hexDigits n
  List.replicate (4 - ds.length) '0' ++ ds

/-- Only what must be escaped is: the quote, the backslash and the controls below the blank. -/
def escapeChar (c : Char) : List Char :=
  match c with
  | '"' => ['\\', '"']
  | '\\' => ['\\', '\\']
  | '\x08' => ['\\', 'b']
  | '\x0c' => ['\\', 'f']
  | '\n' => ['\\', 'n']
  | '\r' => ['\\', 'r']
  | '\t' => ['\\', 't']
  | c => if c.toNat < 0x20 then '\\' :: 'u' :: fourDigits c.toNat else [c]

def stringText (s : String) : List Char := '"' :: s.toList.flatMap escapeChar ++ ['"']

/-- A double shows a point. There is no text for NaN and the infinities, which are written as null. -/
def doubleText (x : Float) : List Char :=
  if isFinite x then
    let s := floatText x
    if '.' ∈ s then s else s ++ ['.', '0']
  else ['n', 'u', 'l', 'l']

mutual

/-- The text without blanks. -/
def text : Json → List Char
  | null => ['n', 'u', 'l', 'l']
  | bool true => ['t', 'r', 'u', 'e']
  | bool false => ['f', 'a', 'l', 's', 'e']
  | int n => intText n
  | float x => doubleText x
  | string s => stringText s
  | array items => '[' :: itemsText items ++ [']']
  | object members => '\x7b' :: membersText members ++ ['\x7d']

def itemsText : List Json → List Char
  | [] => []
  | [d] => text d
  | d :: e :: s => text d ++ ',' :: itemsText (e :: s)

def membersText : List (String × Json) → List Char
  | [] => []
  | [(k, d)] => stringText k ++ ':' :: text d
  | (k, d) :: m :: s => stringText k ++ ':' :: (text d ++ ',' :: membersText (m :: s))

end

end PredicateSearch.Json

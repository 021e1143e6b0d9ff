import PredicateSearch.Decimal.Numeral
import PredicateSearch.Json
import PredicateSearch.Text.Reader

namespace PredicateSearch.Json

open Text Decimal Reader

def blanks : Reader (List Char) := run fun c => c = ' ' || c = '\t' || c = '\n' || c = '\r'

def fourDigit : Reader Nat := do
  let ds ← times (char isHexDigit) 4
  return ofHexDigits 16 ds

def isLeadSurrogate (n : Nat) : Bool := 0xD800 ≤ n && n < 0xDC00

def isTrailSurrogate (n : Nat) : Bool := 0xDC00 ≤ n && n < 0xE000

/-- A code point beyond the first plane is written as two surrogates. -/
def codePoint : Reader Char := do
  let n ← fourDigit
  if isLeadSurrogate n then
    literal ['\\', 'u']
    let m ← fourDigit
    if isTrailSurrogate m then ofOption (charOfNat? (0x10000 + (n - 0xD800) * 0x400 + (m - 0xDC00)))
    else failure
  else ofOption (charOfNat? n)

def escapeLetter? : Char → Option Char
  | '"' => some '"'
  | '\\' => some '\\'
  | '/' => some '/'
  | 'b' => some '\x08'
  | 'f' => some '\x0c'
  | 'n' => some '\n'
  | 'r' => some '\r'
  | 't' => some '\t'
  | _ => none

def stringChar : Reader Char := do
  let c ← char fun c => c ≠ '"' && 0x20 ≤ c.toNat
  if c = '\\' then
    let e ← char fun _ => true
    if e = 'u' then codePoint else ofOption (escapeLetter? e)
  else return c

def stringReader (fuel : Nat) : Reader String := do
  literal ['"']
  let s ← upTo stringChar fuel
  literal ['"']
  return String.ofList s

/-- No zero stands in front of other digits. -/
def wholeDigits : Reader (List Char) := do
  let ds ← run1 Char.isDigit
  if ds.head? = some '0' ∧ ds ≠ ['0'] then failure else return ds

def fractionDigits : Reader (List Char) := do
  literal ['.']
  run1 Char.isDigit

def exponentDigits : Reader (List Char) := do
  let _ ← char fun c => c = 'e' || c = 'E'
  let sign ← optional (char fun c => c = '+' || c = '-')
  let ds ← run1 Char.isDigit
  return sign.toList ++ ds

/-- A zero with a sign in front is no integer and is read as a double. -/
def number : Reader Json := do
  let sign ← optional (literal ['-'])
  let whole ← wholeDigits
  let fraction ← optional fractionDigits
  let exponent ← optional exponentDigits
  let n := Nat.ofDigitChars 10 whole 0
  if fraction.isNone ∧ exponent.isNone ∧ ¬ (sign.isSome ∧ n = 0) then
    return int (if sign.isSome then -(n : Int) else n)
  else
    let fraction := fraction.getD []
    let e ← ofOption (readInt? (exponent.getD ['0']))
    let x := nearest (Nat.ofDigitChars 10 (whole ++ fraction) 0) (e - fraction.length)
    return float (if sign.isSome then -x else x)

def member (fuel : Nat) (value : Reader Json) : Reader (String × Json) := do
  let k ← stringReader fuel
  let _ ← blanks
  literal [':']
  let _ ← blanks
  let d ← value
  return (k, d)

/-- The fuel bounds the depth and the length of what is read. -/
def value : Nat → Reader Json
  | 0 => failure
  | fuel + 1 => do
    match ← peek with
    | some 'n' => literal ['n', 'u', 'l', 'l'] *> pure null
    | some 't' => literal ['t', 'r', 'u', 'e'] *> pure (bool true)
    | some 'f' => literal ['f', 'a', 'l', 's', 'e'] *> pure (bool false)
    | some '"' => string <$> stringReader fuel
    | some '[' => do
      literal ['[']
      let _ ← blanks
      let items ← sepByUpTo fuel (value fuel <* blanks) (literal [','] *> blanks)
      literal [']']
      return array items
    | some '\x7b' => do
      literal ['\x7b']
      let _ ← blanks
      let members ← sepByUpTo fuel (member fuel (value fuel) <* blanks) (literal [','] *> blanks)
      literal ['\x7d']
      return object members
    | _ => number

def parse? (s : List Char) : Option Json :=
  (blanks *> value (s.length + 1) <* blanks).all? s

end PredicateSearch.Json

import PredicateSearch.Decimal.Numeral
import PredicateSearch.Text.Reader

namespace PredicateSearch.Toml

open Text Reader Decimal

/-- Digits between which single low lines may stand. -/
def digits (p : Char → Bool) : Reader (List Char) := do
  let d ← char p
  let ds ← many (optional (literal ['_']) *> char p)
  return d :: ds

def sign : Reader (List Char) := do
  let c ← optional (char fun c => c = '+' || c = '-')
  return c.toList

/-- Without a zero in front of other digits. -/
def wholeDigits : Reader (List Char) := do
  let d ← char Char.isDigit
  if d = '0' then return ['0']
  else
    let ds ← many (optional (literal ['_']) *> char Char.isDigit)
    return d :: ds

def ofRange (n : Int) : Reader Int :=
  if Int64.minValue.toInt ≤ n ∧ n ≤ Int64.maxValue.toInt then pure n else failure

def based (letter : Char) (base : Nat) : Reader Int := do
  literal ['0', letter]
  let ds ← digits fun c => (hexValue? c).any (· < base)
  ofRange (ofHexDigits base ds)

def integer : Reader Int := do
  let s ← sign
  let ds ← wholeDigits
  ofRange (← ofOption (readInt? (s ++ ds)))

def exponent : Reader (List Char) := do
  let _ ← char fun c => c = 'e' || c = 'E'
  let s ← sign
  let ds ← digits Char.isDigit
  return 'e' :: s ++ ds

def fraction : Reader (List Char) := do
  literal ['.']
  let ds ← digits Char.isDigit
  let e ← optional exponent
  return '.' :: ds ++ e.getD []

/-- A number too large for a double is refused, unless it is negative. -/
def decimal : Reader Float := do
  let s ← sign
  let ds ← wholeDigits
  let rest ← fraction <|> exponent
  let x ← ofOption (readFloat? (s ++ ds ++ rest))
  if x = infinity then failure else return x

def special : Reader Float := do
  let s ← sign
  let word ← (literal ['i', 'n', 'f'] *> pure infinity) <|> (literal ['n', 'a', 'n'] *> pure notANumber)
  return if s = ['-'] then -word else word

def float : Reader Float := decimal <|> special

end PredicateSearch.Toml

import PredicateSearch.Text.Reader

namespace PredicateSearch.Toml

open Text Reader

/-- A number of so many digits between two bounds. -/
def bounded (count low high : Nat) : Reader (List Char) := do
  let ds ← times (char Char.isDigit) count
  let n := Nat.ofDigitChars 10 ds 0
  if low ≤ n ∧ n ≤ high then return ds else failure

def isLeapYear (y : Nat) : Bool := y % 4 = 0 && (y % 100 ≠ 0 || y % 400 = 0)

def daysInMonth (y m : Nat) : Nat :=
  if m = 2 then if isLeapYear y then 29 else 28
  else if m ∈ [4, 6, 9, 11] then 30 else 31

def date : Reader (List Char) := do
  let y ← times (char Char.isDigit) 4
  literal ['-']
  let m ← bounded 2 1 12
  literal ['-']
  let d ← bounded 2 1 (daysInMonth (Nat.ofDigitChars 10 y 0) (Nat.ofDigitChars 10 m 0))
  return y ++ '-' :: m ++ '-' :: d

def secondFraction : Reader (List Char) := do
  literal ['.']
  let ds ← run1 Char.isDigit
  return '.' :: ds

/-- A minute may have a leap second. -/
def time : Reader (List Char) := do
  let h ← bounded 2 0 23
  literal [':']
  let m ← bounded 2 0 59
  literal [':']
  let s ← bounded 2 0 60
  let f ← optional secondFraction
  return h ++ ':' :: m ++ ':' :: s ++ f.getD []

def numericOffset : Reader (List Char) := do
  let s ← char fun c => c = '+' || c = '-'
  let h ← bounded 2 0 23
  literal [':']
  let m ← bounded 2 0 59
  return s :: h ++ ':' :: m

def offset : Reader (List Char) := (([·]) <$> char fun c => c = 'Z' || c = 'z') <|> numericOffset

def timeOfDate : Reader (List Char) := do
  let d ← char fun c => c = 'T' || c = 't' || c = ' '
  let t ← time
  let o ← optional offset
  return d :: t ++ o.getD []

def instant : Reader (List Char) :=
  (do
    let d ← date
    let t ← optional timeOfDate
    return d ++ t.getD []) <|> time

end PredicateSearch.Toml

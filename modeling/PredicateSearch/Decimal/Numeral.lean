import PredicateSearch.Decimal.Shortest

namespace PredicateSearch.Decimal

def splitSign : List Char → Bool × List Char
  | '-' :: s => (true, s)
  | '+' :: s => (false, s)
  | s => (false, s)

/-- One sign at most, then ASCII digits only. -/
def readInt? (s : List Char) : Option Int :=
  let (negative, ds) := splitSign s
  if ds ≠ [] ∧ ds.all Char.isDigit then
    let n := Nat.ofDigitChars 10 ds 0
    some (if negative then -(n : Int) else n)
  else none

def int64? (n : Int) : Option Int64 :=
  if Int64.minValue.toInt ≤ n ∧ n ≤ Int64.maxValue.toInt then some (Int64.ofInt n) else none

theorem toInt_of_int64? {n : Int} {m : Int64} (h : int64? n = some m) : m.toInt = n := by
  unfold int64? at h
  split at h
  · next hn =>
    rw [Int64.toInt_minValue, Int64.toInt_maxValue] at hn
    cases h
    exact Int64.toInt_ofInt_of_le (by omega) (by omega)
  · cases h

theorem int64?_toInt (m : Int64) : int64? m.toInt = some m := by
  rw [int64?, if_pos ⟨m.minValue_le_toInt, m.toInt_le⟩, Int64.ofInt_toInt]

def infinity : Float := Float.ofBits 0x7FF0000000000000

def notANumber : Float := Float.ofBits 0x7FF8000000000000

/-- The double nearest to m · 10 ^ e. The cuts lie outside the doubles, so they only keep the power of
ten small. -/
def nearest (m : Nat) (e : Int) : Float :=
  let scale := e + digitCount m
  if m = 0 ∨ scale < -330 then 0
  else if 310 < scale then infinity
  else Float.ofScientific m (e < 0) e.natAbs

def readExponent? : List Char → Option Int
  | [] => some 0
  | 'e' :: s => readInt? s
  | 'E' :: s => readInt? s
  | _ => none

def splitFraction : List Char → List Char × List Char
  | '.' :: s => (s.takeWhile Char.isDigit, s.dropWhile Char.isDigit)
  | s => ([], s)

/-- Digits on at least one side of an optional point, then an optional exponent. -/
def readDecimal? (s : List Char) : Option Float :=
  let whole := s.takeWhile Char.isDigit
  let (fraction, s) := splitFraction (s.dropWhile Char.isDigit)
  if whole ++ fraction = [] then none
  else (readExponent? s).map fun e => nearest (Nat.ofDigitChars 10 (whole ++ fraction) 0) (e - fraction.length)

def readSize? (s : List Char) : Option Float :=
  match s.map Char.toLower with
  | ['i', 'n', 'f'] => some infinity
  | ['i', 'n', 'f', 'i', 'n', 'i', 't', 'y'] => some infinity
  | ['n', 'a', 'n'] => some notANumber
  | _ => readDecimal? s

def readFloat? (s : List Char) : Option Float :=
  let (negative, s) := splitSign s
  (readSize? s).map fun x => if negative then -x else x

end PredicateSearch.Decimal

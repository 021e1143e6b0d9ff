import PredicateSearch.Decimal.Dyadic

namespace PredicateSearch.Decimal

/-- The decimal digits · 10 ^ place. -/
structure Scaled where
  digits : Nat
  place : Int
  deriving DecidableEq, Repr

namespace Scaled

def compareDyadic (s : Scaled) (n : Nat) (e : Int) : Ordering :=
  compare (s.digits * Nat.pow 10 s.place.toNat * Nat.pow 2 (-e).toNat)
    (n * Nat.pow 2 e.toNat * Nat.pow 10 (-s.place).toNat)

def strip (s : Scaled) : Scaled :=
  if s.digits = 0 then ⟨0, 0⟩
  else if s.digits % 10 = 0 then strip ⟨s.digits / 10, s.place + 1⟩ else s
termination_by s.digits
decreasing_by omega

end Scaled

def digitCount (n : Nat) : Nat := (Nat.toDigits 10 n).length

namespace Dyadic

/-- Whether the nearest double to the decimal is this one: it lies between the midpoints to the
neighbours, which belong to the double with the even significand. -/
def reads (d : Dyadic) (s : Scaled) : Bool :=
  let ends := d.significand % 2 = 0
  let below := s.compareDyadic (4 * d.significand - if d.isNarrowBelow then 1 else 2) (d.exponent - 2)
  let above := s.compareDyadic (4 * d.significand + 2) (d.exponent - 2)
  (below == .gt || (ends && below == .eq)) && (above == .lt || (ends && above == .eq))

/-- The least power of ten above a positive value. -/
def scale (d : Dyadic) : Int :=
  if d.denominator ≤ d.numerator then digitCount (d.numerator / d.denominator)
  else 1 - digitCount ((d.denominator - 1) / d.numerator)

def floorAt (d : Dyadic) (place : Int) : Nat :=
  d.numerator * Nat.pow 10 (-place).toNat / (d.denominator * Nat.pow 10 place.toNat)

/-- Of the two neighbours on the grid of 10 ^ place, the one that reads back; the nearer of two, and
the upper one halfway between. -/
def onGrid? (d : Dyadic) (place : Int) : Option Scaled :=
  let n := d.floorAt place
  match d.reads ⟨n, place⟩, d.reads ⟨n + 1, place⟩ with
  | true, true =>
    if Scaled.compareDyadic ⟨2 * n + 1, place⟩ (2 * d.significand) d.exponent == .gt then some ⟨n, place⟩
    else some ⟨n + 1, place⟩
  | true, false => some ⟨n, place⟩
  | false, true => some ⟨n + 1, place⟩
  | false, false => none

def exact (d : Dyadic) : Scaled :=
  if 0 ≤ d.exponent then ⟨d.numerator, 0⟩ else ⟨d.significand * Nat.pow 5 (-d.exponent).toNat, d.exponent⟩

/-- The fewest digits that read back. Seventeen always do, so the exact value is a mere default. -/
def shortest (d : Dyadic) : Scaled :=
  if d.significand = 0 then ⟨0, 0⟩
  else
    let places := (List.range 17).map fun (n : Nat) => d.scale - (n + 1)
    ((places.findSome? d.onGrid?).getD d.exact).strip

end Dyadic

/-- Written out without an exponent, with a point only where a fraction follows. -/
def Scaled.text (s : Scaled) : List Char :=
  let ds := Nat.toDigits 10 s.digits
  let fraction := (-s.place).toNat
  if 0 ≤ s.place then ds ++ List.replicate s.place.toNat '0'
  else if fraction < ds.length then
    ds.take (ds.length - fraction) ++ '.' :: ds.drop (ds.length - fraction)
  else '0' :: '.' :: (List.replicate (fraction - ds.length) '0' ++ ds)

def natText (n : Nat) : List Char := Nat.toDigits 10 n

def intText (n : Int) : List Char :=
  if n < 0 then '-' :: natText n.natAbs else natText n.natAbs

def floatText (x : Float) : List Char :=
  match Dyadic.ofFloat? x with
  | none => if x.isNaN then ['N', 'a', 'N'] else signed x ['i', 'n', 'f']
  | some d => signed x d.shortest.text
where
  signed (x : Float) (s : List Char) : List Char := if isNegative x then '-' :: s else s

end PredicateSearch.Decimal

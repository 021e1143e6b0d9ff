namespace PredicateSearch.Decimal

/-- The size of a finite double: significand · 2 ^ exponent. -/
structure Dyadic where
  significand : Nat
  exponent : Int
  deriving DecidableEq, Repr

def isNegative (x : Float) : Bool := Nat.pow 2 63 ≤ x.toBits.toNat

namespace Dyadic

/-- There is none for NaN and the infinities. -/
def ofFloat? (x : Float) : Option Dyadic :=
  let biased : Nat := x.toBits.toNat / Nat.pow 2 52 % Nat.pow 2 11
  let fraction := x.toBits.toNat % Nat.pow 2 52
  if biased = 2047 then none
  else if biased = 0 then some ⟨fraction, -1074⟩
  else some ⟨Nat.pow 2 52 + fraction, biased - 1075⟩

def numerator (d : Dyadic) : Nat := d.significand * Nat.pow 2 d.exponent.toNat

def denominator (d : Dyadic) : Nat := Nat.pow 2 (-d.exponent).toNat

theorem denominator_pos (d : Dyadic) : 0 < d.denominator := Nat.two_pow_pos _

def toNat? (d : Dyadic) : Option Nat :=
  if d.numerator % d.denominator = 0 then some (d.numerator / d.denominator) else none

theorem toNat?_eq_some_iff {d : Dyadic} {n : Nat} :
    d.toNat? = some n ↔ d.numerator = n * d.denominator := by
  have h := d.denominator_pos
  unfold toNat?
  constructor
  · intro hn
    split at hn
    · next hd =>
      cases hn
      exact (Nat.div_mul_cancel (Nat.dvd_of_mod_eq_zero hd)).symm
    · cases hn
  · intro hn
    rw [hn, if_pos (Nat.mul_mod_left n _), Nat.mul_div_cancel n h]

/-- A power of two is twice as close to the double below it as to the one above. -/
def isNarrowBelow (d : Dyadic) : Bool := d.significand = Nat.pow 2 52 && -1074 < d.exponent

end Dyadic

def isFinite (x : Float) : Bool := (Dyadic.ofFloat? x).isSome

def integer? (x : Float) : Option Int :=
  (Dyadic.ofFloat? x).bind Dyadic.toNat? |>.map fun n => if isNegative x then -(n : Int) else n

end PredicateSearch.Decimal

import Mathlib
import PredicateSearch.Decimal.Shortest

namespace PredicateSearch.Decimal

def Scaled.value (s : Scaled) : ℚ := s.digits * 10 ^ s.place

namespace Dyadic

def value (d : Dyadic) : ℚ := d.significand * 2 ^ d.exponent

/-- The midpoint to the double below. -/
def lower (d : Dyadic) : ℚ :=
  (4 * d.significand - if d.isNarrowBelow then 1 else 2 : Nat) * 2 ^ (d.exponent - 2)

/-- The midpoint to the double above. -/
def upper (d : Dyadic) : ℚ := (4 * d.significand + 2 : Nat) * 2 ^ (d.exponent - 2)

/-- No other double is nearer, and halfway between two it is the even one. -/
def Nearest (d : Dyadic) (x : ℚ) : Prop :=
  (d.lower < x ∨ d.significand % 2 = 0 ∧ d.lower = x) ∧ (x < d.upper ∨ d.significand % 2 = 0 ∧ x = d.upper)

/-- A double whose leading bit is not written. -/
structure IsNormal (d : Dyadic) : Prop where
  low : 2 ^ 52 ≤ d.significand
  high : d.significand < 2 ^ 53
  least : -1074 ≤ d.exponent
  most : d.exponent ≤ 971

end Dyadic

theorem zpow_mul_toNat {a : ℚ} (h : a ≠ 0) (n : Int) : a ^ n * a ^ (-n).toNat = a ^ n.toNat := by
  rw [← zpow_natCast, ← zpow_natCast, ← zpow_add₀ h]
  congr 1
  omega

theorem Scaled.compareDyadic_eq (s : Scaled) (n : Nat) (e : Int) :
    s.compareDyadic n e = compare s.value (n * 2 ^ e) := by
  have hc : (0 : ℚ) < 10 ^ (-s.place).toNat * 2 ^ (-e).toNat := by positivity
  have hs : s.value * (10 ^ (-s.place).toNat * 2 ^ (-e).toNat) =
      (s.digits * Nat.pow 10 s.place.toNat * Nat.pow 2 (-e).toNat : Nat) := by
    rw [value, ← mul_assoc, mul_assoc (s.digits : ℚ), zpow_mul_toNat (by norm_num)]
    simp only [Nat.pow_eq, Nat.cast_mul, Nat.cast_pow, Nat.cast_ofNat]
  have hn : n * 2 ^ e * (10 ^ (-s.place).toNat * 2 ^ (-e).toNat) =
      ((n * Nat.pow 2 e.toNat * Nat.pow 10 (-s.place).toNat : Nat) : ℚ) := by
    rw [mul_comm (10 ^ _ : ℚ), ← mul_assoc, mul_assoc (n : ℚ), zpow_mul_toNat (by norm_num)]
    simp only [Nat.pow_eq, Nat.cast_mul, Nat.cast_pow, Nat.cast_ofNat]
  rw [compareDyadic, ← cmp_eq_compare, ← cmp_eq_compare, ← cmp_mul_pos_right hc, hs, hn]
  exact (Nat.strictMono_cast.cmp_map_eq _ _).symm

namespace Dyadic

variable {d d' : Dyadic} {x : ℚ}

theorem reads_iff {s : Scaled} : d.reads s = true ↔ d.Nearest s.value := by
  simp only [reads, Nearest, Scaled.compareDyadic_eq, Bool.and_eq_true, Bool.or_eq_true, beq_iff_eq,
    compare_gt_iff_gt, compare_lt_iff_lt, compare_eq_iff_eq, decide_eq_true_eq, lower, upper]
  tauto

theorem IsNormal.pos (h : d.IsNormal) : 0 < d.significand := Nat.lt_of_lt_of_le (Nat.two_pow_pos 52) h.low

theorem isNarrowBelow_iff : d.isNarrowBelow = true ↔ d.significand = 2 ^ 52 ∧ -1074 < d.exponent := by
  simp only [isNarrowBelow, Bool.and_eq_true, decide_eq_true_eq, Nat.pow_eq]

theorem value_eq (d : Dyadic) : d.value = (4 * d.significand : Nat) * 2 ^ (d.exponent - 2) := by
  rw [value, zpow_sub₀ (by norm_num)]
  push_cast
  ring

theorem value_mul_denominator (d : Dyadic) : d.value * d.denominator = d.numerator := by
  rw [value, denominator, numerator, Nat.pow_eq, Nat.pow_eq]
  push_cast
  rw [mul_assoc, zpow_mul_toNat (by norm_num)]

theorem numerator_of_value {n : Nat} (h : d.value = n) : d.numerator = n * d.denominator := by
  have hm := d.value_mul_denominator
  rw [h] at hm
  exact_mod_cast hm.symm

theorem upper_eq (d : Dyadic) : d.upper = (d.significand + 1 / 2) * 2 ^ d.exponent := by
  rw [upper, zpow_sub₀ (by norm_num)]
  push_cast
  ring

theorem lower_eq (h : 0 < d.significand) :
    d.lower = (d.significand - if d.isNarrowBelow then 1 / 4 else 1 / 2) * 2 ^ d.exponent := by
  rw [lower, zpow_sub₀ (by norm_num), Nat.cast_sub (by split <;> omega)]
  split <;> push_cast <;> ring

/-- The interval of a double ends where that of the next begins, and of the two only one is even. -/
theorem upper_le_lower (hd : d.IsNormal) (hd' : d'.IsNormal)
    (h : d.exponent < d'.exponent ∨ d.exponent = d'.exponent ∧ d.significand < d'.significand) :
    d.upper ≤ d'.lower ∧ (d.significand % 2 = 0 → d'.significand % 2 = 0 → d.upper < d'.lower) := by
  have hp : (0 : ℚ) < 2 ^ (d.exponent - 2) := by positivity
  obtain ⟨low, high, least, -⟩ := hd
  obtain ⟨low', -, -, -⟩ := hd'
  rcases h with he | ⟨he, hs⟩
  · have hl : 2 ^ 54 - 1 ≤ 4 * d'.significand - if d'.isNarrowBelow then 1 else 2 := by
      split
      · omega
      · next hn =>
          rw [isNarrowBelow_iff, not_and'] at hn
          have hne := hn (by omega)
          omega
    have hp' : 2 * (2 : ℚ) ^ (d.exponent - 2) ≤ 2 ^ (d'.exponent - 2) := by
      rw [← zpow_one_add₀ (by norm_num)]
      exact zpow_le_zpow_right₀ (by norm_num) (by omega)
    have hlower : (2 ^ 55 - 2 : Nat) * (2 : ℚ) ^ (d.exponent - 2) ≤ d'.lower := by
      have h54 : ((2 ^ 54 - 1 : Nat) : ℚ) ≤ _ := Nat.cast_le.2 hl
      calc ((2 ^ 55 - 2 : Nat) : ℚ) * 2 ^ (d.exponent - 2)
          = (2 ^ 54 - 1 : Nat) * (2 * 2 ^ (d.exponent - 2)) := by push_cast; ring
        _ ≤ d'.lower := mul_le_mul h54 hp' (by positivity) (by positivity)
    have hupper : d.upper ≤ (2 ^ 55 - 2 : Nat) * (2 : ℚ) ^ (d.exponent - 2) :=
      mul_le_mul_of_nonneg_right (Nat.cast_le.2 (by omega)) hp.le
    refine ⟨hupper.trans hlower, fun hs _ => lt_of_lt_of_le ?_ hlower⟩
    exact mul_lt_mul_of_pos_right (Nat.cast_lt.2 (by omega)) hp
  · have hn : d'.isNarrowBelow = false := by
      rw [Bool.eq_false_iff, Ne, isNarrowBelow_iff]
      omega
    have hlower : d'.lower = (4 * d'.significand - 2 : Nat) * 2 ^ (d.exponent - 2) := by
      rw [lower, hn, he]
      rfl
    rw [hlower]
    refine ⟨mul_le_mul_of_nonneg_right (Nat.cast_le.2 (by omega)) hp.le, fun h h' => ?_⟩
    exact mul_lt_mul_of_pos_right (Nat.cast_lt.2 (by omega)) hp

theorem Nearest.not_nearest (hd : d.IsNormal) (hd' : d'.IsNormal)
    (he : d.exponent < d'.exponent ∨ d.exponent = d'.exponent ∧ d.significand < d'.significand)
    (h : d.Nearest x) : ¬ d'.Nearest x := by
  intro h'
  obtain ⟨hle, hlt⟩ := upper_le_lower hd hd' he
  obtain ⟨-, h | ⟨hs, h⟩⟩ := h
  · obtain ⟨h' | ⟨-, h'⟩, -⟩ := h' <;> linarith
  · obtain ⟨h' | ⟨hs', h'⟩, -⟩ := h'
    · linarith
    · have hlt := hlt hs hs'
      linarith

/-- A number has but one nearest double. -/
theorem Nearest.unique (hd : d.IsNormal) (hd' : d'.IsNormal) (h : d.Nearest x) (h' : d'.Nearest x) : d = d' := by
  rcases lt_trichotomy d.exponent d'.exponent with he | he | he
  · exact absurd h' (h.not_nearest hd hd' (.inl he))
  · rcases lt_trichotomy d.significand d'.significand with hs | hs | hs
    · exact absurd h' (h.not_nearest hd hd' (.inr ⟨he, hs⟩))
    · cases d
      cases d'
      simp_all
    · exact absurd h (h'.not_nearest hd' hd (.inr ⟨he.symm, hs⟩))
  · exact absurd h (h'.not_nearest hd' hd (.inl he))

theorem lower_lt_value (h : 0 < d.significand) : d.lower < d.value := by
  rw [lower, value_eq]
  refine mul_lt_mul_of_pos_right (Nat.cast_lt.2 ?_) (by positivity)
  split <;> omega

theorem value_lt_upper (d : Dyadic) : d.value < d.upper := by
  rw [upper, value_eq]
  exact mul_lt_mul_of_pos_right (Nat.cast_lt.2 (by omega)) (by positivity)

theorem nearest_value (h : 0 < d.significand) : d.Nearest d.value := ⟨.inl (lower_lt_value h), .inl d.value_lt_upper⟩

/-- A double of fifty-three bits is less than 2 ^ 53 times its interval. -/
theorem value_lt_mul_width (h : d.IsNormal) : d.value < 2 ^ 53 * (d.upper - d.lower) := by
  have hh : (d.significand : ℚ) < (2 ^ 53 : Nat) := Nat.cast_lt.2 h.high
  have hp : (0 : ℚ) < 2 ^ d.exponent := by positivity
  rw [value, upper_eq, lower_eq h.pos, ← sub_mul, ← mul_assoc]
  refine mul_lt_mul_of_pos_right ?_ hp
  push_cast at hh
  split
  · next hb =>
      have hs : (d.significand : ℚ) = (2 ^ 52 : Nat) := Nat.cast_inj.2 (isNarrowBelow_iff.1 hb).1
      push_cast at hs
      linarith
  · linarith

theorem Nearest.bounds (h : d.Nearest x) : d.lower ≤ x ∧ x ≤ d.upper :=
  ⟨h.1.elim le_of_lt fun h => le_of_eq h.2, h.2.elim le_of_lt fun h => le_of_eq h.2⟩

theorem lower_ge (h : d.IsNormal) (he : -1074 < d.exponent) : (2 ^ 52 - 1 / 4) * 2 ^ d.exponent ≤ d.lower := by
  rw [lower_eq h.pos]
  refine mul_le_mul_of_nonneg_right ?_ (by positivity)
  split
  · have hs : ((2 ^ 52 : Nat) : ℚ) ≤ d.significand := Nat.cast_le.2 h.low
    push_cast at hs
    linarith
  · next hb =>
      rw [isNarrowBelow_iff, not_and'] at hb
      have hs : ((2 ^ 52 + 1 : Nat) : ℚ) ≤ d.significand :=
        Nat.cast_le.2 (Nat.lt_of_le_of_ne h.low (Ne.symm (hb he)))
      push_cast at hs
      linarith

/-- Whole numbers below 2 ^ 53 have a double that is no further than one from the next. -/
theorem Nearest.exponent_le {n : Nat} (h : d.Nearest n) (hd : d.IsNormal) (hn : n < 2 ^ 53) : d.exponent ≤ 0 := by
  by_contra he
  have hl := lower_ge hd (by omega)
  have hp : (2 : ℚ) ^ (1 : Int) ≤ 2 ^ d.exponent := zpow_le_zpow_right₀ (by norm_num) (by omega)
  have hm : ((n + 1 : Nat) : ℚ) ≤ (2 ^ 53 : Nat) := Nat.cast_le.2 hn
  have hb := h.bounds.1
  rw [zpow_one] at hp
  push_cast at hm
  linarith

/-- Two numbers with one nearest double differ by less than a part in 2 ^ 51. -/
theorem Nearest.le_mul {y : ℚ} (hd : d.IsNormal) (hx : d.Nearest x) (hy : d.Nearest y) :
    2 ^ 51 * y ≤ (2 ^ 51 + 1) * x := by
  have hs : ((2 ^ 52 : Nat) : ℚ) ≤ d.significand := Nat.cast_le.2 hd.low
  have hp : (0 : ℚ) < 2 ^ d.exponent := by positivity
  have hu : 2 ^ 51 * d.upper ≤ (2 ^ 51 + 1) * d.lower := by
    rw [upper_eq, lower_eq hd.pos, ← mul_assoc, ← mul_assoc]
    refine mul_le_mul_of_nonneg_right ?_ hp.le
    push_cast at hs
    split <;> linarith
  have hl := hx.bounds.1
  have hr := hy.bounds.2
  linarith

/-- Of the multiples of one number at most one is nearest, as long as there are fewer than 2 ^ 51 to it. -/
theorem Nearest.eq_of_multiple {g : ℚ} {p q : Nat} (hd : d.IsNormal) (hg : 0 < g) (hp : p < 2 ^ 51)
    (h : d.Nearest (p * g)) (h' : d.Nearest (q * g)) : p = q := by
  have hpq := h.le_mul hd h'
  have hqp := h'.le_mul hd h
  rw [← mul_assoc, ← mul_assoc] at hpq hqp
  have hpq : 2 ^ 51 * q ≤ (2 ^ 51 + 1) * p := by exact_mod_cast le_of_mul_le_mul_right hpq hg
  have hqp : 2 ^ 51 * p ≤ (2 ^ 51 + 1) * q := by exact_mod_cast le_of_mul_le_mul_right hqp hg
  omega

/-- What lies between two numbers with one nearest double has the same. -/
theorem Nearest.between {y z : ℚ} (hx : d.Nearest x) (hy : d.Nearest y) (hl : x ≤ z) (hu : z ≤ y) : d.Nearest z := by
  refine ⟨?_, ?_⟩
  · rcases hx.1 with h | ⟨hs, h⟩
    · exact .inl (h.trans_le hl)
    · exact (h.trans_le hl).lt_or_eq.imp_right fun h => ⟨hs, h⟩
  · rcases hy.2 with h | ⟨hs, h⟩
    · exact .inl (hu.trans_lt h)
    · exact (hu.trans_eq h).lt_or_eq.imp_right fun h => ⟨hs, h⟩

theorem Nearest.pos (hd : d.IsNormal) (h : d.Nearest x) : 0 < x := by
  refine lt_of_lt_of_le ?_ h.bounds.1
  have hs : (1 : ℚ) ≤ d.significand := Nat.one_le_cast.2 hd.pos
  rw [lower_eq hd.pos]
  refine mul_pos ?_ (by positivity)
  split <;> linarith

/-- The multiples of a number smaller than the interval of a double do not all pass it by. -/
theorem exists_multiple {g : ℚ} (hd : d.IsNormal) (hg : 0 < g) (h : g < d.upper - d.lower) :
    ∃ a : Nat, d.Nearest (a * g) := by
  have h0 : 0 ≤ d.value / g := div_nonneg ((nearest_value hd.pos).pos hd).le hg.le
  have hl : ⌊d.value / g⌋₊ * g ≤ d.value := (le_div_iff₀ hg).1 (Nat.floor_le h0)
  have hu : d.value < (⌊d.value / g⌋₊ + 1) * g := (div_lt_iff₀ hg).1 (Nat.lt_floor_add_one _)
  have hlower := lower_lt_value hd.pos
  have hupper := d.value_lt_upper
  by_cases hc : d.lower < ⌊d.value / g⌋₊ * g
  · exact ⟨_, .inl hc, .inl (hl.trans_lt hupper)⟩
  · refine ⟨⌊d.value / g⌋₊ + 1, .inl ?_, .inl ?_⟩ <;> push_cast
    · linarith
    · linarith

/-- Where doubles are no further apart than whole numbers, a whole number is the nearest double itself. -/
theorem Nearest.eq_value {n : Nat} (h : d.Nearest n) (he : d.exponent ≤ 0) : (n : ℚ) = d.value := by
  have hp : (0 : ℚ) < 2 ^ (d.exponent - 2) := by positivity
  have hn : (n : ℚ) = (4 * (n * 2 ^ (-d.exponent).toNat) : Nat) * 2 ^ (d.exponent - 2) := by
    have hk : d.exponent.toNat = 0 := by omega
    have hz := zpow_mul_toNat (a := (2 : ℚ)) (by norm_num) d.exponent
    rw [hk, pow_zero] at hz
    rw [zpow_sub₀ (by norm_num)]
    push_cast
    linear_combination -(n : ℚ) * hz
  obtain ⟨hl, hu⟩ := h.bounds
  rw [hn] at hl hu
  have hl := Nat.cast_le.1 (le_of_mul_le_mul_right hl hp)
  have hu := Nat.cast_le.1 (le_of_mul_le_mul_right hu hp)
  have hs : n * 2 ^ (-d.exponent).toNat = d.significand := by
    split at hl <;> omega
  rw [hn, value_eq, hs]

/-- The nearest double to a whole number is a whole number. -/
theorem Nearest.exists_value {n : Nat} (h : d.Nearest n) : ∃ m : Nat, d.value = m := by
  by_cases he : d.exponent ≤ 0
  · exact ⟨n, (h.eq_value he).symm⟩
  · refine ⟨d.significand * 2 ^ d.exponent.toNat, ?_⟩
    have hk : d.exponent = (d.exponent.toNat : Int) := by omega
    rw [value, hk, zpow_natCast]
    push_cast
    rfl

end Dyadic

end PredicateSearch.Decimal

import Mathlib
import PredicateSearch.Proofs.Decimal.Rounding

namespace PredicateSearch.Decimal

/-- The number that a finite double is. -/
def exactValue? (x : Float) : Option ℚ :=
  (Dyadic.ofFloat? x).map fun d => if isNegative x then -d.value else d.value

/-- There is a double that is the number. -/
def HasDouble (n : Int) : Prop := ∃ x : Float, exactValue? x = some (n : ℚ)

namespace Dyadic

variable {d : Dyadic}

theorem value_nonneg (d : Dyadic) : 0 ≤ d.value := by
  rw [value]
  positivity

theorem toNat?_eq_some {n : Nat} : d.toNat? = some n ↔ d.value = n := by
  rw [toNat?_eq_some_iff]
  refine ⟨fun h => ?_, numerator_of_value⟩
  have hd : (d.denominator : ℚ) ≠ 0 := Nat.cast_ne_zero.2 d.denominator_pos.ne'
  have hv := d.value_mul_denominator
  rw [h, Nat.cast_mul] at hv
  exact mul_right_cancel₀ hd hv

/-- The doubles of fewer than fifty-three bits lie below one. -/
theorem isNormal_or_lt_one {x : Float} (h : ofFloat? x = some d) : d.IsNormal ∨ d.value < 1 := by
  have hb : x.toBits.toNat / Nat.pow 2 52 % Nat.pow 2 11 < 2 ^ 11 := Nat.mod_lt _ (by norm_num)
  have hf : x.toBits.toNat % Nat.pow 2 52 < 2 ^ 52 := Nat.mod_lt _ (by norm_num)
  rw [ofFloat?] at h
  generalize x.toBits.toNat / Nat.pow 2 52 % Nat.pow 2 11 = biased at h hb
  generalize x.toBits.toNat % Nat.pow 2 52 = fraction at h hf
  split at h
  · cases h
  · split at h <;> cases h
    · right
      have hp : (2 : ℚ) ^ (-1074 : Int) ≤ 2 ^ (-52 : Int) := zpow_le_zpow_right₀ (by norm_num) (by norm_num)
      calc (fraction : ℚ) * 2 ^ (-1074 : Int) < (2 ^ 52 : Nat) * 2 ^ (-1074 : Int) :=
            mul_lt_mul_of_pos_right (Nat.cast_lt.2 hf) (by positivity)
        _ ≤ (2 ^ 52 : Nat) * 2 ^ (-52 : Int) := mul_le_mul_of_nonneg_left hp (Nat.cast_nonneg _)
        _ = 1 := by norm_num
    · left
      constructor <;> simp only [Nat.pow_eq] <;> omega

end Dyadic

theorem signed_eq_iff {v : ℚ} (hv : 0 ≤ v) (negative : Bool) {n : Int} : (if negative then -v else v) = n ↔
    v = n.natAbs ∧ (if negative then -(n.natAbs : Int) else n.natAbs) = n := by
  cases negative with
  | false =>
      simp only [Bool.false_eq_true, if_false]
      constructor
      · intro h
        have hn : 0 ≤ n := Int.cast_nonneg_iff.1 (h ▸ hv)
        have ha : (n.natAbs : Int) = n := by omega
        exact ⟨by rw [← Int.cast_natCast, ha, h], ha⟩
      · rintro ⟨h, ha⟩
        rw [h, ← Int.cast_natCast, ha]
  | true =>
      simp only [if_true]
      constructor
      · intro h
        have hn : n ≤ 0 := Int.cast_nonpos.1 (h ▸ neg_nonpos.2 hv)
        have ha : (n.natAbs : Int) = -n := by omega
        exact ⟨by rw [← Int.cast_natCast, ha, Int.cast_neg, ← h, neg_neg], by omega⟩
      · rintro ⟨h, ha⟩
        rw [h, ← Int.cast_natCast, ← Int.cast_neg, ha]

theorem exactValue?_eq_some {x : Float} {n : Int} : exactValue? x = some (n : ℚ) ↔
    ∃ d, Dyadic.ofFloat? x = some d ∧ d.value = n.natAbs ∧
      (if isNegative x then -(n.natAbs : Int) else n.natAbs) = n := by
  rw [exactValue?, Option.map_eq_some_iff]
  exact exists_congr fun d => and_congr_right fun _ => signed_eq_iff d.value_nonneg _

/-- A double is read as the integer that it is, and no other double is read as one. -/
theorem integer?_eq_some {x : Float} {n : Int} : integer? x = some n ↔ exactValue? x = some (n : ℚ) := by
  have hi : integer? x = ((Dyadic.ofFloat? x).bind Dyadic.toNat?).map fun a : Nat =>
      if isNegative x then -(a : Int) else a := by
    rw [integer?]
    cases (Dyadic.ofFloat? x).bind Dyadic.toNat? <;> rfl
  rw [hi, exactValue?_eq_some]
  simp only [Option.map_eq_some_iff, Option.bind_eq_some_iff, Dyadic.toNat?_eq_some]
  constructor
  · rintro ⟨a, ⟨d, hd, ha⟩, rfl⟩
    refine ⟨d, hd, ?_, ?_⟩ <;> split <;> simp [ha]
  · rintro ⟨d, hd, hv, hn⟩
    exact ⟨_, ⟨d, hd, hv⟩, hn⟩

/-- If any double is the integer, the nearest double is. -/
theorem exactValue?_ofInt {n : Int} (h : HasDouble n) (hh : n.natAbs < 2 ^ 128) :
    exactValue? (Float.ofInt n) = some (n : ℚ) := by
  by_cases hn : n = 0
  · subst hn
    exact integer?_eq_some.1 (by decide +kernel)
  obtain ⟨x, hx⟩ := h
  obtain ⟨d, hd, hv, -⟩ := exactValue?_eq_some.1 hx
  obtain ⟨d', hd', hnear, hf⟩ := exists_ofInt hn hh
  -- no whole number but zero lies below one, so the double is normal, and it is the only one that is nearest
  have hone : ¬ d.value < 1 := by
    rw [hv, not_lt, Nat.one_le_cast]
    omega
  have hnormal := (Dyadic.isNormal_or_lt_one hd).resolve_right hone
  obtain rfl : d = d' := Dyadic.Nearest.unique hnormal hd' (hv ▸ Dyadic.nearest_value hnormal.pos) hnear
  refine exactValue?_eq_some.2 ⟨d, by rw [hf, Dyadic.ofFloat?_float], hv, ?_⟩
  rw [isNegative_ofInt hh]
  simp only [decide_eq_true_eq]
  omega

end PredicateSearch.Decimal

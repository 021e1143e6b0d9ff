import Mathlib
import PredicateSearch.Proofs.Decimal.Nearest

namespace PredicateSearch.Decimal

open Float.Model Float.Model.UnpackedFloat

/-! Cutting a mantissa to fifty-three bits -/

/-- What a mantissa with its two further bits says of the number that it is cut from. -/
def Extends (m : ExtendedMantissa) (x : ℚ) : Prop :=
  match m.roundBit, m.stickyBit with
  | false, false => x = m.mantissa
  | false, true => m.mantissa < x ∧ x < m.mantissa + 1 / 2
  | true, false => x = m.mantissa + 1 / 2
  | true, true => m.mantissa + 1 / 2 < x ∧ x < m.mantissa + 1

/-- No other whole number is nearer, and halfway between two it is the even one. -/
def Rounds (n : Nat) (x : ℚ) : Prop :=
  ((n : ℚ) - 1 / 2 < x ∨ n % 2 = 0 ∧ (n : ℚ) - 1 / 2 = x) ∧ (x < n + 1 / 2 ∨ n % 2 = 0 ∧ x = n + 1 / 2)

section

variable {m : ExtendedMantissa} {x : ℚ}

theorem Extends.half (h : Extends m x) : Extends m.shiftRightOne (x / 2) := by
  obtain ⟨m, r, s⟩ := m
  have hm : (m : ℚ) = 2 * (m / 2 : Nat) + (m % 2 : Nat) := by exact_mod_cast (Nat.div_add_mod m 2).symm
  rcases Nat.mod_two_eq_zero_or_one m with h2 | h2 <;> rw [h2] at hm <;> cases r <;> cases s <;>
    simp [Extends, ExtendedMantissa.shiftRightOne, h2] at h ⊢ <;> push_cast at hm
  all_goals first | linarith | (constructor <;> linarith)

theorem Extends.shift (h : Extends m x) (k : Nat) : Extends (m >>> k) (x / 2 ^ k) := by
  change Extends (k.repeat ExtendedMantissa.shiftRightOne m) _
  induction k with
  | zero => simpa [Nat.repeat] using h
  | succ k ih =>
      rw [Nat.repeat, pow_succ, ← div_div]
      exact ih.half

theorem Extends.rounds (h : Extends m x) : Rounds m.roundedMantissa x := by
  obtain ⟨m, r, s⟩ := m
  cases r <;> cases s <;>
    simp only [Extends, Rounds, ExtendedMantissa.roundedMantissa, ExtendedMantissa.accuracy,
      Accuracy.roundToNearestEven] at h ⊢
  · constructor <;> left <;> linarith
  · constructor <;> left <;> linarith
  · rcases Nat.mod_two_eq_zero_or_one m with h2 | h2
    · rw [h2]
      exact ⟨.inl (by push_cast; linarith), .inr ⟨h2, by push_cast; linarith⟩⟩
    · rw [h2]
      exact ⟨.inr ⟨by omega, by push_cast; linarith⟩, .inl (by push_cast; linarith)⟩
  · push_cast
    constructor <;> left <;> linarith

end

theorem targetExponent_eq (n : Nat) (e : Int) :
    Format.binary64.targetExponent (totalExponent n e) = max (n.log2 - 52 + e) (-1074) := by
  simp only [Format.targetExponent, totalExponent, Format.mantissaBits, Format.minExponent]
  omega

theorem shift_eq {n k : Nat} {e : Int} (h : max (n.log2 - 52 + e) (-1074) = e + k) :
    shiftToTargetExponent Format.binary64 n e .exact = (ExtendedMantissa.mk n false false >>> k, e + k) := by
  rw [shiftToTargetExponent, targetExponent_eq, h, shiftToExponent, add_sub_cancel_left, Int.toNat_natCast]
  rfl

theorem shift_normal {n : Nat} {e : Int} (hl : 2 ^ 52 ≤ n) (hh : n < 2 ^ 53) (he : -1074 ≤ e) :
    shiftToTargetExponent Format.binary64 n e .exact = (⟨n, false, false⟩, e) := by
  have hlog : n.log2 = 52 := (Nat.log2_eq_iff (by omega)).2 ⟨hl, hh⟩
  have h := shift_eq (n := n) (k := 0) (e := e) (by omega)
  rwa [Nat.cast_zero, add_zero] at h

theorem shift_carry {e : Int} (he : -1074 ≤ e) :
    shiftToTargetExponent Format.binary64 (2 ^ 53) e .exact = (⟨2 ^ 52, false, false⟩, e + 1) := by
  have hlog : (2 ^ 53).log2 = 53 := Nat.log2_two_pow
  exact shift_eq (n := 2 ^ 53) (k := 1) (by omega)

theorem Rounds.bounds {n : Nat} {x : ℚ} (h : Rounds n x) (hl : 2 ^ 52 ≤ x) (hh : x < 2 ^ 53) :
    2 ^ 52 ≤ n ∧ n ≤ 2 ^ 53 := by
  have h₁ : (n : ℚ) - 1 / 2 ≤ x := h.1.elim le_of_lt fun h => le_of_eq h.2
  have h₂ : x ≤ (n : ℚ) + 1 / 2 := h.2.elim le_of_lt fun h => le_of_eq h.2
  constructor
  · have hn : ((2 ^ 52 : Nat) : ℚ) < (n + 1 : Nat) := by
      push_cast
      linarith
    exact Nat.lt_succ_iff.1 (Nat.cast_lt.1 hn)
  · have hn : (n : ℚ) < (2 ^ 53 + 1 : Nat) := by
      push_cast
      linarith
    exact Nat.lt_succ_iff.1 (Nat.cast_lt.1 hn)

theorem Rounds.nearest {n : Nat} {e : Int} {x : ℚ} (h : Rounds n x) (hn : 2 ^ 52 ≤ n) (hx : 2 ^ 52 ≤ x) :
    Dyadic.Nearest ⟨n, e⟩ (x * 2 ^ e) := by
  have hp : (0 : ℚ) < 2 ^ e := by positivity
  rw [Dyadic.Nearest, Dyadic.upper_eq, Dyadic.lower_eq (Nat.lt_of_lt_of_le (by norm_num) hn)]
  refine ⟨?_, h.2.imp (fun h => mul_lt_mul_of_pos_right h hp) fun h => ⟨h.1, by rw [h.2]⟩⟩
  split
  · next hb =>
      have hn : (n : ℚ) = 2 ^ 52 := by exact_mod_cast (Dyadic.isNarrowBelow_iff.1 hb).1
      left
      rw [hn]
      exact mul_lt_mul_of_pos_right (by linarith) hp
  · exact h.1.imp (fun h => mul_lt_mul_of_pos_right h hp) fun h => ⟨h.1, by rw [h.2]⟩

theorem Rounds.nearest_carry {e : Int} {x : ℚ} (h : Rounds (2 ^ 53) x) (he : -1074 ≤ e) (hx : x < 2 ^ 53) :
    Dyadic.Nearest ⟨2 ^ 52, e + 1⟩ (x * 2 ^ e) := by
  have hp : (0 : ℚ) < 2 ^ e := by positivity
  have hb : Dyadic.isNarrowBelow ⟨2 ^ 52, e + 1⟩ = true := Dyadic.isNarrowBelow_iff.2 ⟨rfl, by simp only; omega⟩
  have hlower : Dyadic.lower ⟨2 ^ 52, e + 1⟩ = ((2 ^ 53 : Nat) - 1 / 2) * 2 ^ e := by
    rw [Dyadic.lower_eq (by norm_num), if_pos hb, zpow_add_one₀ (by norm_num)]
    push_cast
    ring
  have hupper : Dyadic.upper ⟨2 ^ 52, e + 1⟩ = (2 ^ 53 + 1) * 2 ^ e := by
    rw [Dyadic.upper_eq, zpow_add_one₀ (by norm_num)]
    push_cast
    ring
  rw [Dyadic.Nearest, hlower, hupper]
  refine ⟨h.1.imp (fun h => mul_lt_mul_of_pos_right h hp) fun h => ⟨by norm_num, by rw [h.2]⟩, .inl ?_⟩
  exact mul_lt_mul_of_pos_right (by linarith) hp

/-- The bits of a whole number with at least fifty-three are rounded to the nearest double. -/
theorem exists_nearest (s : Sign) {n : Nat} {e : Int} (hn : 52 ≤ n.log2) (hl : -1074 ≤ n.log2 - 52 + e)
    (hh : n.log2 - 51 + e ≤ 971) :
    ∃ d : Dyadic, ∃ h : d.IsNormal, d.Nearest (n * 2 ^ e) ∧
      roundWithAccuracy Format.binary64 s n e .exact = .finite s d.significand d.exponent h.pos := by
  obtain ⟨k, hk⟩ := Nat.exists_eq_add_of_le hn
  have hx : (n : ℚ) * 2 ^ e = n / 2 ^ k * 2 ^ (e + k) := by
    rw [zpow_add₀ (by norm_num), zpow_natCast]
    field_simp
  have hne : n ≠ 0 := by
    rintro rfl
    exact absurd hn (by decide)
  have hlow : (2 ^ 52 : ℚ) ≤ n / 2 ^ k := by
    rw [le_div_iff₀ (by positivity), ← pow_add, ← hk]
    exact_mod_cast Nat.log2_self_le hne
  have hhigh : (n / 2 ^ k : ℚ) < 2 ^ 53 := by
    rw [div_lt_iff₀ (by positivity), ← pow_add]
    have h53 : 53 + k = n.log2 + 1 := by omega
    rw [h53]
    exact_mod_cast Nat.lt_log2_self
  have ht : max ((n.log2 : Int) - 52 + e) (-1074) = e + k := by omega
  have hr : Rounds (ExtendedMantissa.mk n false false >>> k).roundedMantissa (n / 2 ^ k) :=
    (Extends.shift (m := ⟨n, false, false⟩) (x := n) rfl k).rounds
  rw [roundWithAccuracy, shift_eq ht, hx]
  dsimp only
  generalize (ExtendedMantissa.mk n false false >>> k).roundedMantissa = r at hr ⊢
  obtain ⟨hrl, hrh⟩ := hr.bounds hlow hhigh
  rcases Nat.lt_or_eq_of_le hrh with hrh | rfl
  · rw [shift_normal hrl hrh (by omega)]
    exact ⟨⟨r, e + k⟩, ⟨hrl, hrh, by simp only; omega, by simp only; omega⟩, hr.nearest hrl hlow,
      dif_neg (Nat.ne_of_gt (Nat.lt_of_lt_of_le (by norm_num) hrl))⟩
  · -- rounded up to a power of two, which is cut a second time
    rw [shift_carry (by omega)]
    exact ⟨⟨2 ^ 52, e + k + 1⟩, ⟨by norm_num, by norm_num, by simp only; omega, by simp only; omega⟩,
      hr.nearest_carry (by omega) hhigh, dif_neg (by norm_num)⟩

/-! The bits of a double -/

namespace Dyadic

variable {d : Dyadic}

/-- The exponent as it is kept. -/
def biased (d : Dyadic) : Nat := (d.exponent + 1075).toNat

theorem IsNormal.biased_bounds (h : d.IsNormal) :
    1 ≤ d.biased ∧ d.biased ≤ 2046 ∧ (d.biased : Int) = d.exponent + 1075 := by
  have hl := h.least
  have hm := h.most
  rw [biased]
  omega

theorem pack_eq (s : Sign) (h : d.IsNormal) :
    UnpackedFloat.pack Format.binary64 (.finite s d.significand d.exponent h.pos) =
      packComponents Format.binary64 s (BitVec.ofNat 11 d.biased) (BitVec.ofNat 52 d.significand) := by
  obtain ⟨hl, hu, he⟩ := h.biased_bounds
  have hlog : d.significand.log2 = 52 := (Nat.log2_eq_iff h.pos.ne').2 ⟨h.low, h.high⟩
  have hb : (d.exponent + (Format.binary64.exponentBias : Nat) + (52 : Nat)).toNat = d.biased := by
    rw [biased, Format.exponentBias]
    norm_num
    omega
  have h₁ : ¬ 2 ^ 11 ≤ d.biased + 1 := by omega
  rw [UnpackedFloat.pack]
  simp only [hb, if_neg h₁, hlog]
  rfl

theorem toNat_components (s : Sign) {b m : Nat} (hb : b < 2 ^ 11) :
    (packComponents Format.binary64 s (BitVec.ofNat 11 b) (BitVec.ofNat 52 m)).toNat =
      s.toBitVec.toNat * 2 ^ 63 + b * 2 ^ 52 + m % 2 ^ 52 := by
  rw [packComponents, BitVec.toNat_append, BitVec.toNat_append, ← Nat.shiftLeft_add_eq_or_of_lt (BitVec.isLt _),
    ← Nat.shiftLeft_add_eq_or_of_lt (BitVec.isLt _)]
  simp only [BitVec.toNat_ofNat, Nat.shiftLeft_eq, Nat.mod_eq_of_lt hb]
  ring

/-- The double of that sign and size. -/
def float (d : Dyadic) (s : Sign) (h : d.IsNormal) : Float :=
  .ofModel (.pack (.finite s d.significand d.exponent h.pos))

theorem toBits_float (s : Sign) (h : d.IsNormal) :
    (d.float s h).toBits.toNat = s.toBitVec.toNat * 2 ^ 63 + d.biased * 2 ^ 52 + (d.significand - 2 ^ 52) := by
  have hb := h.biased_bounds
  have hm : d.significand % 2 ^ 52 = d.significand - 2 ^ 52 := by
    have hl := h.low
    have hh := h.high
    omega
  change (UnpackedFloat.pack Format.binary64 _).toNat = _
  rw [pack_eq s h, toNat_components s (by omega), hm]

theorem ofFloat?_float (s : Sign) (h : d.IsNormal) : ofFloat? (d.float s h) = some d := by
  have hb := h.biased_bounds
  have hl := h.low
  have hh := h.high
  have hd : Nat.pow 2 52 + (d.significand - 2 ^ 52) = d.significand := by
    rw [Nat.pow_eq]
    omega
  have h₁ : (d.float s h).toBits.toNat / Nat.pow 2 52 % Nat.pow 2 11 = d.biased := by
    rw [toBits_float, Nat.pow_eq, Nat.pow_eq]
    omega
  have h₂ : (d.float s h).toBits.toNat % Nat.pow 2 52 = d.significand - 2 ^ 52 := by
    rw [toBits_float, Nat.pow_eq]
    omega
  rw [ofFloat?]
  simp only [h₁, h₂, hd]
  have he : (d.biased : Int) - 1075 = d.exponent := by omega
  rw [if_neg (by omega), if_neg (by omega), he]

theorem isNegative_float (s : Sign) (h : d.IsNormal) : isNegative (d.float s h) = (s == .negative) := by
  have hb := h.biased_bounds
  have hh := h.high
  have hl := h.low
  rw [isNegative, toBits_float, Nat.pow_eq]
  cases s with
  | negative => exact decide_eq_true (by change 2 ^ 63 ≤ 1 * 2 ^ 63 + _ + _; omega)
  | positive => exact decide_eq_false (by change ¬ 2 ^ 63 ≤ 0 * 2 ^ 63 + _ + _; omega)

theorem unpackSign_packComponents {f : Format} (s : Sign) (e : BitVec f.exponentBits)
    (m : BitVec f.mantissaBitsWithoutImplicit) : Sign.ofBitVec (unpackSign (packComponents f s e m)) = s := by
  have hs : unpackSign (packComponents f s e m) = s.toBitVec := by
    ext i hi
    obtain rfl : i = 0 := by omega
    simp [unpackSign, packComponents, BitVec.getLsbD_append, BitVec.getElem_append]
  rw [hs]
  cases s <;> rfl

theorem unpack_pack (s : Sign) (h : d.IsNormal) :
    (Float.Model.pack (.finite s d.significand d.exponent h.pos)).unpack =
      .finite s d.significand d.exponent h.pos := by
  obtain ⟨hl, hu, he⟩ := h.biased_bounds
  have hb : (BitVec.ofNat 11 d.biased).toNat = d.biased := Nat.mod_eq_of_lt (by omega)
  have hm : (1#1 ++ BitVec.ofNat 52 d.significand).toNat = d.significand := by
    have hlow := h.low
    have hhigh := h.high
    rw [BitVec.toNat_append, ← Nat.shiftLeft_add_eq_or_of_lt (BitVec.isLt _), BitVec.toNat_ofNat, BitVec.toNat_ofNat,
      Nat.shiftLeft_eq]
    omega
  have hne (b : BitVec 11) (hd : d.biased ≠ b.toNat) : BitVec.ofNat 11 d.biased ≠ b := by
    rintro rfl
    exact hd hb.symm
  have hn : BitVec.ofNat 11 d.biased ≠ -1#11 := hne _ (by change d.biased ≠ 2047; omega)
  have hz : BitVec.ofNat 11 d.biased ≠ 0#11 := hne _ (by change d.biased ≠ 0; omega)
  have hexp : (d.biased : Int) - (Format.binary64.exponentBias + (52 : Nat)) = d.exponent := by
    rw [Format.exponentBias]
    norm_num
    omega
  change UnpackedFloat.unpack Format.binary64 (UnpackedFloat.pack Format.binary64 _) = _
  rw [pack_eq s h, UnpackedFloat.unpack]
  simp only [unpackMantissa_packComponents, unpackExponent_packComponents, unpackSign_packComponents, if_neg hn,
    if_neg hz, hb, hm, hexp]

theorem neg_float (s : Sign) (h : d.IsNormal) : (d.float s h).neg = d.float (-s) h := by
  change Float.ofModel (Float.Model.pack (Float.Model.pack _).unpack.neg) = _
  rw [unpack_pack s h]
  rfl

/-! The double of a whole number -/

theorem isNormal_one : IsNormal ⟨2 ^ 52, -52⟩ := ⟨by norm_num, by norm_num, by norm_num, by norm_num⟩

theorem float_one : Float.ofBits 0x3FF0000000000000 = float ⟨2 ^ 52, -52⟩ .positive isNormal_one := by
  rfl

theorem log2_mul_pow {n : Nat} (h : n ≠ 0) (k : Nat) : (n * 2 ^ k).log2 = n.log2 + k := by
  induction k with
  | zero => rw [pow_zero, mul_one, add_zero]
  | succ k ih =>
      rw [pow_succ, ← mul_assoc, mul_comm, Nat.log2_two_mul (by positivity), ih, add_assoc]

/-- Small numbers are multiplied by the zeroth power of ten on the way to a double. -/
theorem float_mul_one (h : d.IsNormal) (he : d.exponent ≤ 0) :
    d.float .positive h * Float.ofBits 0x3FF0000000000000 = d.float .positive h := by
  have hlog : (d.significand * 2 ^ 52).log2 = 104 := by
    rw [log2_mul_pow h.pos.ne', (Nat.log2_eq_iff h.pos.ne').2 ⟨h.low, h.high⟩]
  have hl := h.least
  obtain ⟨d', h', hn, hr⟩ := exists_nearest .positive (n := d.significand * 2 ^ 52) (e := d.exponent + -52)
    (by omega) (by omega) (by omega)
  have hv : ((d.significand * 2 ^ 52 : Nat) : ℚ) * 2 ^ (d.exponent + -52) = d.value := by
    rw [value, zpow_add₀ (by norm_num)]
    push_cast
    ring
  rw [hv] at hn
  obtain rfl := hn.unique h' h (nearest_value h.pos)
  rw [float_one]
  change Float.ofModel (Float.Model.pack (UnpackedFloat.mul _ (Float.Model.pack _).unpack
    (Float.Model.pack _).unpack)) = _
  rw [unpack_pack _ h, unpack_pack _ isNormal_one]
  exact congrArg (fun f => Float.ofModel (Float.Model.pack f)) hr

/-- A whole number below 2 ^ 53 is scaled up to fifty-three bits before it is rounded. -/
theorem round_natural {n : Nat} (hn : n ≠ 0) (hh : n < 2 ^ 53) :
    ∃ d : Dyadic, ∃ h : d.IsNormal, d.Nearest n ∧ d.exponent ≤ 0 ∧
      UnpackedFloat.ofNat Format.binary64 n = .finite .positive d.significand d.exponent h.pos := by
  have hlog : n.log2 < 53 := (Nat.log2_lt hn).2 hh
  obtain ⟨k, hk⟩ := Nat.exists_eq_add_of_le (Nat.le_of_lt_succ hlog)
  have hs : (n * 2 ^ k).log2 = 52 := by
    rw [log2_mul_pow hn, hk]
  obtain ⟨d, h, hd, hr⟩ := exists_nearest .positive (n := n * 2 ^ k) (e := -k) (by omega) (by omega) (by omega)
  have hv : ((n * 2 ^ k : Nat) : ℚ) * 2 ^ (-k : Int) = n := by
    rw [zpow_neg, zpow_natCast]
    push_cast
    field_simp
  rw [hv] at hd
  refine ⟨d, h, hd, hd.exponent_le h hh, ?_⟩
  have ht : Format.binary64.targetExponent (totalExponent n 0) = -k := by
    rw [targetExponent_eq]
    omega
  have hg : compare (n : Int) 0 = .gt := compare_gt_iff_gt.2 (by omega)
  rw [UnpackedFloat.ofNat, UnpackedFloat.ofInt, Float.Model.UnpackedFloat.normalize, hg]
  dsimp only
  rw [Int.toNat_natCast, UnpackedFloat.round, ht, decreaseExponent]
  dsimp only
  rw [sub_neg_eq_add, zero_add, Int.toNat_natCast, zero_sub, Nat.shiftLeft_eq]
  exact hr

theorem ofNat_small {n : Nat} (hn : n ≠ 0) (hh : n < 2 ^ 53) :
    ∃ d : Dyadic, ∃ h : d.IsNormal, d.Nearest n ∧ Float.ofNat n = d.float .positive h := by
  obtain ⟨d, h, hd, he, hr⟩ := round_natural hn hh
  refine ⟨d, h, hd, ?_⟩
  have hu : n.toUInt64.toNat = n := UInt64.toNat_ofNat_of_lt' (hh.trans (by decide))
  have hf : n.toUInt64.toFloat = d.float .positive h := by
    rw [← hu] at hr
    exact congrArg (fun f => Float.ofModel (Float.Model.pack f)) hr
  change Float.ofScientific n false 0 = _
  rw [Float.ofScientific, dif_pos ⟨hh, by norm_num⟩]
  exact (congrArg (· * _) hf).trans (float_mul_one h he)

theorem ofNat_large {n : Nat} (hl : 2 ^ 53 ≤ n) (hh : n < 2 ^ 128) :
    ∃ d : Dyadic, ∃ h : d.IsNormal, d.Nearest n ∧ Float.ofNat n = d.float .positive h := by
  have hn : n ≠ 0 := by
    rintro rfl
    exact absurd hl (by norm_num)
  have hlog : 53 ≤ n.log2 := (Nat.le_log2 hn).2 hl
  have hlog' : n.log2 < 128 := (Nat.log2_lt hn).2 hh
  have hs : (n <<< 53).log2 = n.log2 + 53 := by
    rw [Nat.shiftLeft_eq, log2_mul_pow hn]
  obtain ⟨d, h, hd, hr⟩ := exists_nearest .positive (n := n <<< 53) (e := -53) (by omega) (by omega) (by omega)
  have hv : ((n <<< 53 : Nat) : ℚ) * 2 ^ (-53 : Int) = n := by
    rw [Nat.shiftLeft_eq]
    push_cast
    rw [mul_assoc]
    norm_num
  rw [hv] at hd
  refine ⟨d, h, hd, ?_⟩
  have ho : UnpackedFloat.ofScientific Format.binary64 n 0 = .finite .positive d.significand d.exponent h.pos := by
    rw [UnpackedFloat.ofScientific, dif_neg hn, if_neg (by norm_num), if_neg (by norm_num), if_pos le_rfl]
    have hb : Format.binary64.mantissaBits = 53 := rfl
    have hp : Sign.positive * Sign.positive = .positive := rfl
    rw [UnpackedFloat.mul, hb, hp, Int.toNat_zero, pow_zero, mul_one, add_zero]
    exact hr
  change Float.ofScientific n false 0 = _
  rw [Float.ofScientific, dif_neg (by omega)]
  simp only [Bool.false_eq_true, if_false]
  change Float.ofModel (Float.Model.pack (UnpackedFloat.ofScientific Format.binary64 n 0)) = _
  rw [ho]
  rfl

theorem ofNat_eq {n : Nat} (hn : n ≠ 0) (hh : n < 2 ^ 128) :
    ∃ d : Dyadic, ∃ h : d.IsNormal, d.Nearest n ∧ Float.ofNat n = d.float .positive h := by
  rcases Nat.lt_or_ge n (2 ^ 53) with hl | hl
  · exact ofNat_small hn hl
  · exact ofNat_large hl hh

end Dyadic

/-- The nearest double to a whole number that is not zero has its sign and is nearest to its size. -/
theorem exists_ofInt {n : Int} (hn : n ≠ 0) (hh : n.natAbs < 2 ^ 128) :
    ∃ d : Dyadic, ∃ h : d.IsNormal, d.Nearest n.natAbs ∧
      Float.ofInt n = d.float (if n < 0 then .negative else .positive) h := by
  obtain ⟨d, h, hd, hf⟩ := Dyadic.ofNat_eq (Int.natAbs_ne_zero.2 hn) hh
  refine ⟨d, h, hd, ?_⟩
  cases n with
  | ofNat n => exact hf
  | negSucc n =>
      rw [Int.natAbs_negSucc] at hf
      rw [Float.ofInt, hf, Dyadic.neg_float, if_pos (Int.negSucc_lt_zero n)]
      rfl

theorem isNegative_ofInt {n : Int} (hh : n.natAbs < 2 ^ 128) : isNegative (Float.ofInt n) = decide (n < 0) := by
  by_cases hn : n = 0
  · subst hn
    decide +kernel
  · obtain ⟨d, h, -, hf⟩ := exists_ofInt hn hh
    rw [hf, Dyadic.isNegative_float]
    split <;> simp [*]

theorem isFinite_ofInt {n : Int} (hh : n.natAbs < 2 ^ 128) : isFinite (Float.ofInt n) = true := by
  by_cases hn : n = 0
  · rw [hn]
    rfl
  · obtain ⟨d, h, -, hf⟩ := exists_ofInt hn hh
    rw [isFinite, hf, Dyadic.ofFloat?_float]
    rfl

theorem nearest_of_ofInt {d : Dyadic} {h : d.IsNormal} {s : Sign} {n : Int} (hh : n.natAbs < 2 ^ 128)
    (hf : Float.ofInt n = d.float s h) : d.Nearest n.natAbs := by
  have hd := Dyadic.ofFloat?_float s h
  rw [← hf] at hd
  by_cases hn : n = 0
  · subst hn
    have hz : Dyadic.ofFloat? (Float.ofInt 0) = some ⟨0, -1074⟩ := by decide +kernel
    cases hz.symm.trans hd
    exact absurd h.pos (lt_irrefl 0)
  · obtain ⟨d', h', hd', hf'⟩ := exists_ofInt hn hh
    rw [hf', Dyadic.ofFloat?_float] at hd
    cases hd
    exact hd'

/-- Whole numbers of one sign with one nearest double are the same as doubles. -/
theorem ofInt_eq_ofInt {d : Dyadic} (h : d.IsNormal) {m n : Int} (hs : m < 0 ↔ n < 0) (hn : n ≠ 0) (hm : m ≠ 0)
    (hh : n.natAbs < 2 ^ 127) (hd : d.Nearest n.natAbs) (hd' : d.Nearest m.natAbs) :
    Float.ofInt m = Float.ofInt n := by
  have hle : 2 ^ 51 * m.natAbs ≤ (2 ^ 51 + 1) * n.natAbs := by exact_mod_cast hd.le_mul h hd'
  obtain ⟨d₁, h₁, hd₁, hf₁⟩ := exists_ofInt hn (by omega)
  obtain ⟨d₂, h₂, hd₂, hf₂⟩ := exists_ofInt hm (by omega)
  obtain rfl := hd₁.unique h₁ h hd
  obtain rfl := hd₂.unique h₂ h hd'
  simp only [hf₁, hf₂, hs]

end PredicateSearch.Decimal

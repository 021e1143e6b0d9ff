import Mathlib
import PredicateSearch.Proofs.Decimal.Nearest
import PredicateSearch.Proofs.Decimal.Numeral

namespace PredicateSearch.Decimal

theorem natText_injective : Function.Injective natText := by
  intro m n h
  have hd := congrArg (Nat.ofDigitChars 10 · 0) h
  simpa only [natText, Nat.ofDigitChars_ten_toDigits] using hd

theorem natText_mul_pow {n : Nat} (hn : n ≠ 0) (k : Nat) :
    natText (n * 10 ^ k) = natText n ++ List.replicate k '0' := by
  induction k with
  | zero => simp
  | succ k ih =>
      have hd : natText (n * 10 ^ k) ++ natText 0 = natText (10 * (n * 10 ^ k) + 0) :=
        Nat.toDigits_append_toDigits (by norm_num) (by positivity) (by norm_num)
      have hm : n * 10 ^ (k + 1) = 10 * (n * 10 ^ k) + 0 := by ring
      rw [hm, ← hd, ih, List.append_assoc, List.replicate_succ']
      rfl

theorem Scaled.text_of_nonneg {s : Scaled} (hd : s.digits ≠ 0) (hp : 0 ≤ s.place) :
    s.text = natText (s.digits * 10 ^ s.place.toNat) := by
  rw [natText_mul_pow hd]
  exact if_pos hp

/-- Without the zeros at its end the number is the same. -/
theorem Scaled.text_strip {s : Scaled} (hd : s.digits ≠ 0) (hp : 0 ≤ s.place) :
    s.strip.text = natText (s.digits * 10 ^ s.place.toNat) := by
  fun_induction strip s with
  | case1 s h => exact absurd h hd
  | case2 s h h' ih =>
      have hv : s.digits / 10 * 10 ^ (s.place + 1).toNat = s.digits * 10 ^ s.place.toNat := by
        rw [Int.toNat_add hp (by norm_num), pow_add]
        have h10 := Nat.div_mul_cancel (Nat.dvd_of_mod_eq_zero h')
        calc s.digits / 10 * (10 ^ s.place.toNat * 10 ^ 1) = s.digits / 10 * 10 * 10 ^ s.place.toNat := by ring
          _ = s.digits * 10 ^ s.place.toNat := by rw [h10]
      rw [ih (by simp only; omega) (by simp only; omega)]
      simp only [hv]
  | case3 s h h' => exact text_of_nonneg hd hp

/-- The first number is nearer to a value than the second, or as near and further from zero. -/
def Prefers (v x y : ℚ) : Prop := |x - v| < |y - v| ∨ |x - v| = |y - v| ∧ |y| ≤ |x|

namespace Prefers

variable {v x y z : ℚ}

theorem refl (v x : ℚ) : Prefers v x x := .inr ⟨rfl, le_rfl⟩

theorem trans (h : Prefers v x y) (h' : Prefers v y z) : Prefers v x z := by
  rcases h with h | ⟨h, ha⟩
  · rcases h' with h' | ⟨h', -⟩
    · exact .inl (h.trans h')
    · exact .inl (h.trans_eq h')
  · rcases h' with h' | ⟨h', ha'⟩
    · exact .inl (h.trans_lt h')
    · exact .inr ⟨h.trans h', ha'.trans ha⟩

theorem of_le_abs (h : |x - v| ≤ |y - v|) (ha : |y| ≤ |x|) : Prefers v x y := h.lt_or_eq.imp_right fun h => ⟨h, ha⟩

theorem abs_eq (h : Prefers v x y) (h' : Prefers v y x) : |x| = |y| := by
  rcases h with h | ⟨h, ha⟩
  · rcases h' with h' | ⟨h', -⟩
    · exact absurd h' h.not_gt
    · exact absurd h'.symm h.ne
  · rcases h' with h' | ⟨-, ha'⟩
    · exact absurd h.symm h'.ne
    · exact le_antisymm ha' ha

/-- A value is preferred to all other numbers. -/
theorem of_value (v x : ℚ) : Prefers v v x := by
  rcases eq_or_ne x v with rfl | hne
  · exact refl x x
  · left
    rw [sub_self, abs_zero]
    exact abs_pos.2 (sub_ne_zero.2 hne)

theorem neg (h : Prefers v x y) : Prefers (-v) (-x) (-y) := by
  have hn (z : ℚ) : -z - -v = -(z - v) := by ring
  simpa only [Prefers, hn, abs_neg] using h

/-- Of two numbers on one side of the value the one between is preferred. -/
theorem of_between (h : y ≤ x ∧ x ≤ v ∨ v ≤ x ∧ x ≤ y) : Prefers v x y := by
  rcases eq_or_ne x y with rfl | hne
  · exact refl v x
  · left
    rcases h with ⟨hy, hx⟩ | ⟨hx, hy⟩
    · have hlt := lt_of_le_of_ne hy hne.symm
      rw [abs_of_nonpos (by linarith), abs_of_nonpos (by linarith)]
      linarith
    · have hlt := lt_of_le_of_ne hy hne
      rw [abs_of_nonneg (by linarith), abs_of_nonneg (by linarith)]
      linarith

end Prefers

namespace Dyadic

variable {d : Dyadic}

theorem floorAt_eq (d : Dyadic) (place : Int) : d.floorAt place = ⌊d.value / 10 ^ place⌋₊ := by
  have hd : (d.denominator : ℚ) ≠ 0 := Nat.cast_ne_zero.2 d.denominator_pos.ne'
  have h : d.value / 10 ^ place =
      (d.numerator * 10 ^ (-place).toNat : Nat) / (d.denominator * 10 ^ place.toNat : Nat) := by
    push_cast
    rw [div_eq_div_iff (by positivity) (mul_ne_zero hd (by positivity))]
    rw [← d.value_mul_denominator, ← zpow_mul_toNat (by norm_num) place]
    ring
  rw [h, Nat.floor_div_eq_div]
  rfl

theorem scale_of_value {n : Nat} (hn : n ≠ 0) (h : d.value = n) : d.scale = digitCount n := by
  have hm := numerator_of_value h
  have hle : d.denominator ≤ d.numerator := by
    rw [hm]
    exact Nat.le_mul_of_pos_left _ (Nat.pos_of_ne_zero hn)
  rw [scale, if_pos hle, hm, Nat.mul_div_cancel _ d.denominator_pos]

section

variable {place : Int} {s : Scaled}

theorem floorAt_bounds (hd : d.IsNormal) (place : Int) :
    d.floorAt place * 10 ^ place ≤ d.value ∧ d.value < (d.floorAt place + 1 : Nat) * 10 ^ place := by
  have hg : (0 : ℚ) < 10 ^ place := by positivity
  have h0 : 0 ≤ d.value / 10 ^ place := div_nonneg ((nearest_value hd.pos).pos hd).le hg.le
  rw [floorAt_eq]
  refine ⟨(le_div_iff₀ hg).1 (Nat.floor_le h0), ?_⟩
  push_cast
  exact (div_lt_iff₀ hg).1 (Nat.lt_floor_add_one _)

/-- For any point of a grid that reads back so does one of the two next to the value, which is no further off. -/
theorem exists_neighbour {a : Nat} (hd : d.IsNormal) (h : d.Nearest (a * 10 ^ place)) :
    ∃ b, (b = d.floorAt place ∨ b = d.floorAt place + 1) ∧ d.Nearest (b * 10 ^ place) ∧
      Prefers d.value (b * 10 ^ place) (a * 10 ^ place) := by
  have hg : (0 : ℚ) < 10 ^ place := by positivity
  have hv := nearest_value hd.pos
  obtain ⟨hl, hu⟩ := floorAt_bounds hd place
  rcases Nat.lt_or_ge (d.floorAt place) a with hlt | hge
  · have hle := mul_le_mul_of_nonneg_right (Nat.cast_le (α := ℚ).2 hlt) hg.le
    exact ⟨_, .inr rfl, hv.between h hu.le hle, .of_between (.inr ⟨hu.le, hle⟩)⟩
  · have hle := mul_le_mul_of_nonneg_right (Nat.cast_le (α := ℚ).2 hge) hg.le
    exact ⟨_, .inl rfl, h.between hv hle hl, .of_between (.inl ⟨hle, hl⟩)⟩

theorem onGrid?_ne_none {a : Nat} (hd : d.IsNormal) (h : d.Nearest (a * 10 ^ place)) : d.onGrid? place ≠ none := by
  have hreads : d.reads ⟨d.floorAt place, place⟩ = true ∨ d.reads ⟨d.floorAt place + 1, place⟩ = true := by
    obtain ⟨b, rfl | rfl, hb, -⟩ := exists_neighbour hd h
    · exact .inl (reads_iff.2 hb)
    · exact .inr (reads_iff.2 hb)
  rw [onGrid?]
  rcases hreads with h | h <;> rw [h]
  · cases d.reads ⟨d.floorAt place + 1, place⟩
    · exact Option.some_ne_none _
    · dsimp only
      split <;> exact Option.some_ne_none _
  · cases d.reads ⟨d.floorAt place, place⟩
    · exact Option.some_ne_none _
    · dsimp only
      split <;> exact Option.some_ne_none _

theorem compareDyadic_midpoint (n : Nat) (place : Int) :
    Scaled.compareDyadic ⟨2 * n + 1, place⟩ (2 * d.significand) d.exponent =
      compare ((n : ℚ) * 10 ^ place + (n + 1 : Nat) * 10 ^ place) (d.value + d.value) := by
  rw [Scaled.compareDyadic_eq, Scaled.value, value]
  push_cast
  congr 1 <;> ring

theorem prefers_lower (hd : d.IsNormal)
    (h : d.value + d.value < d.floorAt place * 10 ^ place + (d.floorAt place + 1 : Nat) * 10 ^ place) :
    Prefers d.value (d.floorAt place * 10 ^ place) ((d.floorAt place + 1 : Nat) * 10 ^ place) := by
  obtain ⟨hl, hu⟩ := floorAt_bounds hd place
  left
  rw [abs_of_nonpos (by linarith), abs_of_nonneg (by linarith)]
  linarith

theorem prefers_upper (hd : d.IsNormal)
    (h : d.floorAt place * 10 ^ place + (d.floorAt place + 1 : Nat) * 10 ^ place ≤ d.value + d.value) :
    Prefers d.value ((d.floorAt place + 1 : Nat) * 10 ^ place) (d.floorAt place * 10 ^ place) := by
  obtain ⟨hl, hu⟩ := floorAt_bounds hd place
  have h0 : (0 : ℚ) ≤ d.floorAt place * 10 ^ place := by positivity
  refine .of_le_abs ?_ ?_
  · rw [abs_of_nonneg (by linarith), abs_of_nonpos (by linarith)]
    linarith
  · rw [abs_of_nonneg h0, abs_of_nonneg (by linarith)]
    linarith

/-- The point of a grid that is taken is one of the two next to the value, and is preferred to the other if both
read back. -/
theorem onGrid?_neighbours (hd : d.IsNormal) (h : d.onGrid? place = some s) :
    s.place = place ∧ d.Nearest s.value ∧ ∀ b, b = d.floorAt place ∨ b = d.floorAt place + 1 →
      d.Nearest (b * 10 ^ place) → Prefers d.value s.value (b * 10 ^ place) := by
  have hf {n : Nat} (hr : d.reads ⟨n, place⟩ = false) : ¬ d.Nearest (n * 10 ^ place) := by
    intro hn
    rw [reads_iff.2 hn] at hr
    cases hr
  rw [onGrid?] at h
  split at h
  · next h₁ h₂ =>
      rw [compareDyadic_midpoint] at h
      split at h <;> cases h
      · next hgt =>
          have hlt := compare_gt_iff_gt.1 (beq_iff_eq.1 hgt)
          refine ⟨rfl, reads_iff.1 h₁, ?_⟩
          rintro b (rfl | rfl) -
          · exact .refl _ _
          · exact prefers_lower hd hlt
      · next hgt =>
          have hle := not_lt.1 fun hlt => hgt (beq_iff_eq.2 (compare_gt_iff_gt.2 hlt))
          refine ⟨rfl, reads_iff.1 h₂, ?_⟩
          rintro b (rfl | rfl) -
          · exact prefers_upper hd hle
          · exact .refl _ _
  · next h₁ h₂ =>
      cases h
      refine ⟨rfl, reads_iff.1 h₁, ?_⟩
      rintro b (rfl | rfl) hb
      · exact .refl _ _
      · exact absurd hb (hf h₂)
  · next h₁ h₂ =>
      cases h
      refine ⟨rfl, reads_iff.1 h₂, ?_⟩
      rintro b (rfl | rfl) hb
      · exact absurd hb (hf h₁)
      · exact .refl _ _
  · cases h

theorem onGrid?_eq_some (hd : d.IsNormal) (h : d.onGrid? place = some s) :
    s.place = place ∧ d.Nearest s.value ∧
      ∀ a : Nat, d.Nearest (a * 10 ^ place) → Prefers d.value s.value (a * 10 ^ place) := by
  obtain ⟨hp, hs, hb⟩ := onGrid?_neighbours hd h
  refine ⟨hp, hs, fun a ha => ?_⟩
  obtain ⟨b, hn, hr, hpref⟩ := exists_neighbour hd ha
  exact (hb b hn hr).trans hpref

end

/-- The first place on whose grid the double is found. -/
def firstPlace? (d : Dyadic) : Option Scaled :=
  ((List.range 17).map fun n => d.scale - ((n : Nat) + 1)).findSome? d.onGrid?

theorem firstPlace?_eq_some {s : Scaled} (h : d.firstPlace? = some s) :
    ∃ i : Nat, d.onGrid? (d.scale - (i + 1)) = some s ∧ ∀ j < i, d.onGrid? (d.scale - ((j : Nat) + 1)) = none := by
  rw [firstPlace?, List.findSome?_map, List.findSome?_eq_some_iff] at h
  obtain ⟨l, i, r, hl, hi, hn⟩ := h
  rw [List.range_eq_range', List.range'_eq_append_iff] at hl
  obtain ⟨k, -, rfl, hr⟩ := hl
  obtain ⟨rfl, -⟩ := List.range'_eq_cons_iff.1 hr.symm
  refine ⟨_, hi, fun j hj => hn j (List.mem_range'_1.2 ?_)⟩
  omega

/-- Seventeen digits read back. -/
theorem exists_firstPlace (hd : d.IsNormal) (h : 10 ^ (d.scale - 1) ≤ d.value) : ∃ s, d.firstPlace? = some s := by
  have hw : (10 : ℚ) ^ (d.scale - 17) < d.upper - d.lower := by
    have hp : (10 : ℚ) ^ (d.scale - 1) = 10 ^ (d.scale - 17) * 10 ^ 16 := by
      rw [← zpow_natCast, ← zpow_add₀ (by norm_num)]
      congr 1
      omega
    have hpos : (0 : ℚ) < 10 ^ (d.scale - 17) := by positivity
    have hv := value_lt_mul_width hd
    rw [hp] at h
    linarith
  obtain ⟨a, ha⟩ := exists_multiple hd (by positivity) hw
  rw [← Option.ne_none_iff_exists', firstPlace?, List.findSome?_map, Ne, List.findSome?_eq_none_iff]
  intro hn
  exact onGrid?_ne_none hd ha (hn 16 (List.mem_range.2 (by norm_num)))

theorem scale_bounds {n : Nat} (hn : n ≠ 0) (h : d.value = n) :
    ∃ c : Nat, d.scale = c + 1 ∧ 10 ^ c ≤ n ∧ n < 10 ^ (c + 1) := by
  obtain ⟨c, hc⟩ := Nat.exists_eq_add_one_of_ne_zero (Nat.length_toDigits_pos (b := 10) (n := n)).ne'
  refine ⟨c, ?_, ?_, ?_⟩
  · rw [scale_of_value hn h, digitCount, hc, Nat.cast_add, Nat.cast_one]
  · by_contra hlt
    have hc0 : 0 < c := by
      by_contra h0
      obtain rfl : c = 0 := by omega
      omega
    have hle := (Nat.length_toDigits_le_iff (by norm_num) hc0).2 (Nat.lt_of_not_le hlt)
    omega
  · exact (Nat.length_toDigits_le_iff (by norm_num) (by norm_num)).1 hc.le

section

variable {s : Scaled} {c : Nat}

theorem firstPlace?_place (hd : d.IsNormal) (hc : d.scale = c + 1) (h : d.firstPlace? = some s) :
    s.place ≤ c ∧ d.Nearest s.value ∧ ∀ k a : Nat, k ≤ c → d.Nearest (a * 10 ^ k) → k ≤ s.place := by
  obtain ⟨i, hi, hb⟩ := firstPlace?_eq_some h
  obtain ⟨hp, hs, -⟩ := onGrid?_eq_some hd hi
  refine ⟨by omega, hs, fun k a hk ha => ?_⟩
  by_contra hlt
  have hn := hb (c - k) (by omega)
  have hplace : d.scale - (((c - k : Nat) : Int) + 1) = k := by omega
  rw [hplace] at hn
  exact onGrid?_ne_none hd (by rwa [zpow_natCast]) hn

theorem firstPlace?_prefers (hd : d.IsNormal) (h : d.firstPlace? = some s) {a : Nat}
    (ha : d.Nearest (a * 10 ^ s.place)) : Prefers d.value s.value (a * 10 ^ s.place) := by
  obtain ⟨i, hi, -⟩ := firstPlace?_eq_some h
  obtain ⟨hp, -, hpref⟩ := onGrid?_eq_some hd hi
  rw [hp] at ha ⊢
  exact hpref a ha

/-- Below ten at the first place a number has one digit, and a rounder one nearest to it is the same. -/
theorem digits_of_nearest (hd : d.IsNormal) (hu : d.value < 10 * 10 ^ c) (hp : s.place = c) (hs : d.Nearest s.value)
    {a : Nat} (ha : d.Nearest (a * 10 ^ c)) : s.digits = a := by
  have hg : (0 : ℚ) < 10 ^ c := by positivity
  rw [Scaled.value, hp, zpow_natCast] at hs
  have hm := (nearest_value hd.pos).le_mul hd hs
  have hlt : (s.digits : ℚ) * 10 ^ c < (2 ^ 51 : Nat) * 10 ^ c := by
    push_cast
    linarith
  exact hs.eq_of_multiple hd hg (Nat.cast_lt.1 (lt_of_mul_lt_mul_right hlt hg.le)) ha

theorem dvd_of_nearest (hd : d.IsNormal) (hc : d.scale = c + 1) (hu : d.value < 10 * 10 ^ c)
    (h : d.firstPlace? = some s) {k a : Nat} (ha : d.Nearest (a * 10 ^ k)) :
    10 ^ k ∣ s.digits * 10 ^ s.place.toNat := by
  obtain ⟨hle, hs, hgrid⟩ := firstPlace?_place hd hc h
  rcases Nat.lt_or_ge c k with hk | hk
  · obtain ⟨j, rfl⟩ := Nat.exists_eq_add_of_le hk.le
    have ha : d.Nearest ((a * 10 ^ j : Nat) * 10 ^ c) := by
      have he : ((a * 10 ^ j : Nat) : ℚ) * 10 ^ c = a * 10 ^ (c + j) := by
        push_cast
        ring
      rwa [he]
    have hp : s.place = c := le_antisymm hle (hgrid c _ le_rfl ha)
    rw [digits_of_nearest hd hu hp hs ha, hp, Int.toNat_natCast]
    exact ⟨a, by ring⟩
  · have hkp := hgrid k a hk ha
    exact (pow_dvd_pow 10 (by omega)).mul_left _

end

/-- Of a whole number a whole number is shown. None that reads back ends in more zeros, and to those that end in as
many it is preferred. -/
theorem exists_shortest {n : Nat} (hd : d.IsNormal) (hn : n ≠ 0) (h : d.value = n) :
    ∃ s : Scaled, d.shortest = s.strip ∧ 0 ≤ s.place ∧ d.Nearest s.value ∧
      (∀ k a : Nat, d.Nearest (a * 10 ^ k) → 10 ^ k ∣ s.digits * 10 ^ s.place.toNat) ∧
      ∀ a : Nat, d.Nearest (a * 10 ^ s.place) → Prefers d.value s.value (a * 10 ^ s.place) := by
  obtain ⟨c, hc, hl, hu⟩ := scale_bounds hn h
  have hlow : 10 ^ (d.scale - 1) ≤ d.value := by
    rw [h, hc, add_sub_cancel_right, zpow_natCast]
    exact_mod_cast hl
  have hhigh : d.value < 10 * 10 ^ c := by
    rw [h, ← pow_succ']
    exact_mod_cast hu
  obtain ⟨s, hf⟩ := exists_firstPlace hd hlow
  obtain ⟨-, hs, hgrid⟩ := firstPlace?_place hd hc hf
  have hself : d.Nearest (n * 10 ^ 0) := by
    rw [pow_zero, mul_one, ← h]
    exact nearest_value hd.pos
  refine ⟨s, ?_, hgrid 0 n c.zero_le hself, hs, fun k a => dvd_of_nearest hd hc hhigh hf,
    fun a => firstPlace?_prefers hd hf⟩
  rw [← Option.getD_some (a := s) (b := d.exact), ← hf]
  exact if_neg hd.pos.ne'

theorem shortest_of_value {n : Nat} (hd : d.IsNormal) (hn : n ≠ 0) (h : d.value = n) :
    ∃ m : Nat, d.Nearest m ∧ d.shortest.text = natText m ∧
      (∀ k a : Nat, d.Nearest (a * 10 ^ k) → 10 ^ k ∣ m) ∧
      ∀ a : Nat, d.Nearest a → (∀ k, 10 ^ k ∣ m → 10 ^ k ∣ a) → Prefers d.value m a := by
  obtain ⟨s, hs, hp, hnear, hz, hpref⟩ := exists_shortest hd hn h
  obtain ⟨e, he⟩ := Int.eq_ofNat_of_zero_le hp
  simp only [Scaled.value, he, Int.toNat_natCast, zpow_natCast] at hnear hz hpref
  have h0 : s.digits ≠ 0 := by
    intro h0
    have hpos := hnear.pos hd
    rw [h0, Nat.cast_zero, zero_mul] at hpos
    exact lt_irrefl _ hpos
  refine ⟨s.digits * 10 ^ e, by exact_mod_cast hnear, ?_, hz, fun a ha hk => ?_⟩
  · rw [hs, Scaled.text_strip h0 hp, he, Int.toNat_natCast]
  · obtain ⟨b, rfl⟩ := hk e (Nat.dvd_mul_left _ _)
    rw [mul_comm (10 ^ e) b] at ha ⊢
    exact_mod_cast hpref b (by exact_mod_cast ha)

theorem isNormal_two_pow : IsNormal ⟨2 ^ 52, 1⟩ := ⟨by norm_num, by norm_num, by norm_num, by norm_num⟩

theorem shortest_two_pow : (shortest ⟨2 ^ 52, 1⟩).text = natText (2 ^ 53) := by
  decide +kernel

/-- Up to 2 ^ 53 no two whole numbers have the same double. -/
theorem eq_of_le {m n : Nat} (hd : d.IsNormal) (hm : d.Nearest m) (hn : d.Nearest n) (ht : d.shortest.text = natText m)
    (hle : n ≤ 2 ^ 53) : m = n := by
  rcases Nat.lt_or_eq_of_le hle with hlt | rfl
  · have hexp := hn.exponent_le hd hlt
    have hval : (m : ℚ) = n := (hm.eq_value hexp).trans (hn.eq_value hexp).symm
    exact Nat.cast_injective hval
  · -- the next double is two further on
    have hv : ((2 ^ 53 : Nat) : ℚ) = value ⟨2 ^ 52, 1⟩ := by norm_num [value]
    obtain rfl := hn.unique hd isNormal_two_pow (hv ▸ nearest_value isNormal_two_pow.pos)
    exact natText_injective (ht.symm.trans shortest_two_pow)

/-- Fifteen digits before the zeros are kept as well. -/
theorem eq_of_digits {m a k : Nat} (hd : d.IsNormal) (hm : d.Nearest m) (hn : d.Nearest (a * 10 ^ k : Nat))
    (hz : ∀ k a : Nat, d.Nearest (a * 10 ^ k) → 10 ^ k ∣ m) (ha : a < 10 ^ 15) : m = a * 10 ^ k := by
  have hg : (0 : ℚ) < 10 ^ k := by positivity
  push_cast at hn
  obtain ⟨b, rfl⟩ := hz k a hn
  rw [mul_comm] at hm ⊢
  push_cast at hm
  rw [hn.eq_of_multiple hd hg (by omega) hm]

end Dyadic

end PredicateSearch.Decimal

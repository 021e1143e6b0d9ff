import PredicateSearch.Proofs.Decimal.Exact
import PredicateSearch.Proofs.Decimal.Shortest

namespace PredicateSearch.Decimal

/-- A double keeps the digits: the number is small, or has few of them before the zeros at its end. -/
def IsKept (n : Int) : Prop := n.natAbs ≤ 2 ^ 53 ∨ ∃ (a : Int) (k : Nat), n = a * 10 ^ k ∧ a.natAbs < 10 ^ 15

/-- A whole number of up to 128 bits with the same double. -/
structure SharesDouble (n i : Int) : Prop where
  bits : i.natAbs < 2 ^ 128
  ofInt_eq : Float.ofInt i = Float.ofInt n

/-- Of the whole numbers with the double of `n` none ends in more zeros than `m`, and of those that end in as many
`m` is the one nearest to the double, and of two that are the one further from zero. -/
structure IsShown (n m : Int) : Prop where
  shares : SharesDouble n m
  zeros : ∀ i k, SharesDouble n i → 10 ^ k ∣ i → 10 ^ k ∣ m
  prefers : ∃ v, exactValue? (Float.ofInt n) = some v ∧
    ∀ i, SharesDouble n i → (∀ k, 10 ^ k ∣ m → 10 ^ k ∣ i) → Prefers v m i

theorem SharesDouble.neg_iff {n i : Int} (h : SharesDouble n i) (hb : n.natAbs < 2 ^ 128) : i < 0 ↔ n < 0 := by
  have hs := congrArg isNegative h.ofInt_eq
  rwa [isNegative_ofInt h.bits, isNegative_ofInt hb, decide_eq_decide] at hs

namespace IsShown

variable {n m : Int}

/-- There is but one such number. -/
theorem unique {m' : Int} (h : IsShown n m) (h' : IsShown n m') (hb : n.natAbs < 2 ^ 128) : m = m' := by
  have hz (k : Nat) : (10 : Int) ^ k ∣ m ↔ 10 ^ k ∣ m' := ⟨h'.zeros m k h.shares, h.zeros m' k h'.shares⟩
  obtain ⟨v, hv, hp⟩ := h.prefers
  obtain ⟨w, hw, hp'⟩ := h'.prefers
  obtain rfl := Option.some.inj (hv.symm.trans hw)
  have habs := (hp m' h'.shares fun k => (hz k).1).abs_eq (hp' m h.shares fun k => (hz k).2)
  have hi : |m| = |m'| := by exact_mod_cast habs
  rw [Int.abs_eq_natAbs, Int.abs_eq_natAbs] at hi
  have hm := h.shares.neg_iff hb
  have hm' := h'.shares.neg_iff hb
  omega

/-- A whole number that is a double is shown as itself, if it ends in as many zeros as any with that double. -/
theorem self (hd : HasDouble n) (hb : n.natAbs < 2 ^ 128)
    (hz : ∀ i k, SharesDouble n i → 10 ^ k ∣ i → 10 ^ k ∣ n) : IsShown n n :=
  ⟨⟨hb, rfl⟩, hz, n, exactValue?_ofInt hd hb, fun i _ _ => .of_value n i⟩

theorem zero : IsShown 0 0 :=
  ⟨⟨by norm_num, rfl⟩, fun _ _ _ _ => dvd_zero _, _, integer?_eq_some.1 (by decide +kernel), fun i _ _ => .of_value _ i⟩

end IsShown

theorem floatText_zero : floatText (Float.ofInt 0) = intText 0 := by
  decide +kernel

/-! Sizes and signs apart -/

theorem Prefers.of_natAbs {v : ℚ} {n m i : Int} (hm : m < 0 ↔ n < 0) (hi : i < 0 ↔ n < 0)
    (h : Prefers v m.natAbs i.natAbs) : Prefers (if n < 0 then -v else v) m i := by
  have hq {j : Int} (hj : j < 0 ↔ n < 0) : (j : ℚ) = if n < 0 then -(j.natAbs : ℚ) else j.natAbs := by
    rw [Nat.cast_natAbs]
    split
    · next hneg => rw [abs_of_neg (hj.2 hneg), Int.cast_neg, neg_neg]
    · next hneg => rw [abs_of_nonneg (Int.not_lt.1 (mt hj.1 hneg))]
  rw [hq hm, hq hi]
  split
  · exact h.neg
  · exact h

section

variable {d : Dyadic} {n m : Int}

theorem exactValue?_of_ofFloat? (hd : Dyadic.ofFloat? (Float.ofInt n) = some d) (hb : n.natAbs < 2 ^ 128) :
    exactValue? (Float.ofInt n) = some (if n < 0 then -d.value else d.value) := by
  rw [exactValue?, hd, isNegative_ofInt hb]
  simp only [Option.map_some, decide_eq_true_eq]

theorem floatText_of_ofFloat? (hd : Dyadic.ofFloat? (Float.ofInt n) = some d) (hb : n.natAbs < 2 ^ 128)
    (hm : m < 0 ↔ n < 0) (ht : d.shortest.text = natText m.natAbs) : floatText (Float.ofInt n) = intText m := by
  rw [floatText, hd]
  change (if isNegative _ then _ else _) = _
  rw [isNegative_ofInt hb, ht, intText]
  simp only [decide_eq_true_eq, hm]

theorem isShown_of_nearest (h : d.IsNormal) (hn : n ≠ 0) (hh : n.natAbs < 2 ^ 127) (hd : d.Nearest n.natAbs)
    (hf : Float.ofInt n = d.float (if n < 0 then .negative else .positive) h) (hs : m < 0 ↔ n < 0)
    (hm : d.Nearest m.natAbs) (hz : ∀ k a : Nat, d.Nearest (a * 10 ^ k) → 10 ^ k ∣ m.natAbs)
    (hp : ∀ a : Nat, d.Nearest a → (∀ k, 10 ^ k ∣ m.natAbs → 10 ^ k ∣ a) → Prefers d.value m.natAbs a) :
    IsShown n m := by
  have hb : n.natAbs < 2 ^ 128 := hh.trans (by norm_num)
  have hm0 : m.natAbs ≠ 0 := (Nat.cast_pos.1 (hm.pos h)).ne'
  have hle : 2 ^ 51 * m.natAbs ≤ (2 ^ 51 + 1) * n.natAbs := by exact_mod_cast hd.le_mul h hm
  have hnear {i : Int} (hi : SharesDouble n i) : d.Nearest i.natAbs := nearest_of_ofInt hi.bits (hi.ofInt_eq.trans hf)
  refine ⟨⟨by omega, ofInt_eq_ofInt h hs hn (Int.natAbs_ne_zero.1 hm0) hh hd hm⟩, fun i k hi hk => ?_, _,
    exactValue?_of_ofFloat? (hf ▸ Dyadic.ofFloat?_float _ h) hb, fun i hi hk => ?_⟩
  · have hi := hnear hi
    obtain ⟨a, ha⟩ : 10 ^ k ∣ i.natAbs := Int.natAbs_dvd_natAbs.2 hk
    rw [ha, mul_comm] at hi
    push_cast at hi
    exact Int.natAbs_dvd_natAbs.1 (hz k a hi)
  · refine .of_natAbs hs (hi.neg_iff hb) (hp i.natAbs (hnear hi) fun k ha => ?_)
    exact Int.natAbs_dvd_natAbs.2 (hk k (Int.natAbs_dvd_natAbs.1 ha))

end

/-- The nearest double to a whole number is shown as a whole number that has the same double, ends in the most zeros
and is nearest to it. -/
theorem floatText_ofInt {n : Int} (hh : n.natAbs < 2 ^ 127) :
    ∃ m : Int, floatText (Float.ofInt n) = intText m ∧ IsShown n m ∧ (IsKept n → m = n) := by
  by_cases hn : n = 0
  · subst hn
    exact ⟨0, floatText_zero, .zero, fun _ => rfl⟩
  have hb : n.natAbs < 2 ^ 128 := hh.trans (by norm_num)
  obtain ⟨d, h, hd, hf⟩ := exists_ofInt hn hb
  obtain ⟨v, hv⟩ := hd.exists_value
  have hv0 : v ≠ 0 := (Nat.cast_pos.1 (hv ▸ (Dyadic.nearest_value h.pos).pos h)).ne'
  obtain ⟨a, ha, ht, hz, hp⟩ := Dyadic.shortest_of_value h hv0 hv
  have ha0 : a ≠ 0 := (Nat.cast_pos.1 (ha.pos h)).ne'
  obtain ⟨m, rfl, hs⟩ : ∃ m : Int, m.natAbs = a ∧ (m < 0 ↔ n < 0) := by
    rcases Int.lt_or_le n 0 with hneg | hneg
    · exact ⟨-a, by omega, by omega⟩
    · exact ⟨a, by omega, by omega⟩
  refine ⟨m, floatText_of_ofFloat? (hf ▸ Dyadic.ofFloat?_float _ h) hb hs ht,
    isShown_of_nearest h hn hh hd hf hs ha hz hp, ?_⟩
  rintro (hle | ⟨b, k, rfl, hk⟩)
  · have habs := Dyadic.eq_of_le h ha hd ht hle
    omega
  · have he : (b * 10 ^ k).natAbs = b.natAbs * 10 ^ k := Int.natAbs_mul b (10 ^ k)
    rw [he] at hd
    have habs := Dyadic.eq_of_digits h ha hd hz hk
    omega

/-- Beyond 2 ^ 53, with more than fifteen digits. -/
example : floatText (Float.ofInt 9007199254740996) = intText 9007199254740996 := by decide +kernel

end PredicateSearch.Decimal

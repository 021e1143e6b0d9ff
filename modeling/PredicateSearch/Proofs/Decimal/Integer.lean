import Mathlib.Data.List.DropRight
import PredicateSearch.Proofs.Decimal.Numeral
import PredicateSearch.Decimal.Numeral
import PredicateSearch.Text.Blank

namespace PredicateSearch

namespace Text

theorem exists_trim (s : List Char) :
    ∃ l r, s = l ++ (trim s ++ r) ∧ (∀ c ∈ l, isBlank c = true) ∧ ∀ c ∈ r, isBlank c = true := by
  refine ⟨s.takeWhile isBlank, (trimStart s).rtakeWhile isBlank, ?_, fun c hc => List.mem_takeWhile_imp hc,
    fun c hc => List.mem_rtakeWhile_imp hc⟩
  have hr : trim s ++ (trimStart s).rtakeWhile isBlank = trimStart s := List.rdropWhile_append_rtakeWhile
  rw [hr]
  exact (List.takeWhile_append_dropWhile).symm

/-- Blanks around a text that neither begins nor ends with one are all that is taken off. -/
theorem trim_padded {l t r : List Char} (hl : ∀ c ∈ l, isBlank c = true) (hr : ∀ c ∈ r, isBlank c = true)
    (ht : ∀ c ∈ t, isBlank c = false) (hne : t ≠ []) : trim (l ++ (t ++ r)) = t := by
  have hs : trimStart (l ++ (t ++ r)) = t ++ r := by
    obtain ⟨c, u, rfl⟩ := List.exists_cons_of_ne_nil hne
    rw [trimStart, List.dropWhile_append_of_pos hl, List.cons_append, List.dropWhile_cons_of_neg (by simp [ht])]
  have he : (t ++ r).rdropWhile isBlank = t.rdropWhile isBlank := by
    rw [List.rdropWhile, List.reverse_append, List.dropWhile_append_of_pos (by simpa using hr), List.rdropWhile]
  rw [trim, hs]
  refine he.trans ?_
  rw [List.rdropWhile_eq_self_iff]
  intro h
  simp [ht]

end Text

namespace Decimal

open Text

/-- The number that a run of ASCII digits stands for. -/
inductive Counts : List Char → Nat → Prop
  | one {c} (hc : c.isDigit = true) : Counts [c] (c.toNat - '0'.toNat)
  | more {s n c} (h : Counts s n) (hc : c.isDigit = true) : Counts (s ++ [c]) (10 * n + (c.toNat - '0'.toNat))

/-- One sign at most, then digits. -/
inductive Spells : List Char → Int → Prop
  | bare {s n} (h : Counts s n) : Spells s n
  | plus {s n} (h : Counts s n) : Spells ('+' :: s) n
  | minus {s n} (h : Counts s n) : Spells ('-' :: s) (-n)

/-- An integer as it may be typed, with blanks around it. -/
def Denotes (s : List Char) (n : Int) : Prop :=
  ∃ l t r, s = l ++ (t ++ r) ∧ (∀ c ∈ l, isBlank c = true) ∧ (∀ c ∈ r, isBlank c = true) ∧ Spells t n

theorem counts_iff {s : List Char} {n : Nat} : Counts s n ↔ IsDigits s ∧ n = Nat.ofDigitChars 10 s 0 := by
  constructor
  · intro h
    induction h with
    | one hc => exact ⟨⟨by simp, by simpa using hc⟩, by simp [Nat.ofDigitChars_cons]⟩
    | more _ hc ih =>
        obtain ⟨hd, rfl⟩ := ih
        exact ⟨hd.append (by simpa using hc), by simp [Nat.ofDigitChars_append, Nat.ofDigitChars_cons]⟩
  · rintro ⟨⟨hne, hd⟩, rfl⟩
    induction s using List.reverseRecOn with
    | nil => contradiction
    | append_singleton s c ih =>
        obtain ⟨hs, hc⟩ := List.forall_mem_append.1 hd
        rw [List.forall_mem_singleton] at hc
        rw [Nat.ofDigitChars_append, Nat.ofDigitChars_cons, Nat.ofDigitChars_nil]
        cases s with
        | nil => simpa using Counts.one hc
        | cons b s => exact .more (ih (by simp) hs) hc

theorem splitSign_of_isDigits {s : List Char} (h : IsDigits s) : splitSign s = (false, s) := by
  obtain ⟨c, t, rfl, hc⟩ := h.exists_cons
  unfold splitSign
  split
  · next heq =>
      cases heq
      cases hc
  · next heq =>
      cases heq
      cases hc
  · rfl

theorem readInt?_eq_some {s : List Char} {n : Int} : readInt? s = some n ↔ Spells s n := by
  have hi {ds : List Char} : ds ≠ [] ∧ ds.all Char.isDigit = true ↔ IsDigits ds := by
    rw [IsDigits, List.all_eq_true]
  constructor
  · intro h
    rw [readInt?] at h
    split at h
    next negative ds hs =>
      split at h
      · next hd =>
          have hc := counts_iff.2 ⟨hi.1 hd, rfl⟩
          cases h
          unfold splitSign at hs
          split at hs <;> cases hs
          · exact .minus hc
          · exact .plus hc
          · exact .bare hc
      · cases h
  · rintro (h | h | h)
    · obtain ⟨hd, rfl⟩ := counts_iff.1 h
      rw [readInt?, splitSign_of_isDigits hd]
      exact if_pos (hi.2 hd)
    · obtain ⟨hd, rfl⟩ := counts_iff.1 h
      exact if_pos (hi.2 hd)
    · obtain ⟨hd, rfl⟩ := counts_iff.1 h
      exact if_pos (hi.2 hd)

theorem isBlank_of_isDigit {c : Char} (h : c.isDigit = true) : isBlank c = false := by
  obtain ⟨h0, h9⟩ := Char.isDigit_iff_toNat.1 h
  have h0 : 48 ≤ c.toNat := h0
  have h9 : c.toNat ≤ 57 := h9
  simp [isBlank, Ranges.holds, blankRanges]
  omega

theorem Counts.ne_nil {s : List Char} {n : Nat} (h : Counts s n) : s ≠ [] := (counts_iff.1 h).1.1

theorem Counts.not_isBlank {s : List Char} {n : Nat} (h : Counts s n) : ∀ c ∈ s, isBlank c = false :=
  fun c hc => isBlank_of_isDigit ((counts_iff.1 h).1.2 c hc)

theorem Spells.ne_nil {s : List Char} {n : Int} (h : Spells s n) : s ≠ [] := by
  rcases h with h | h | h
  · exact h.ne_nil
  · exact List.cons_ne_nil _ _
  · exact List.cons_ne_nil _ _

theorem Spells.not_isBlank {s : List Char} {n : Int} (h : Spells s n) : ∀ c ∈ s, isBlank c = false := by
  rcases h with h | h | h
  · exact h.not_isBlank
  · exact List.forall_mem_cons.2 ⟨rfl, h.not_isBlank⟩
  · exact List.forall_mem_cons.2 ⟨rfl, h.not_isBlank⟩

theorem readInt?_trim {s : List Char} {n : Int} : readInt? (trim s) = some n ↔ Denotes s n := by
  rw [readInt?_eq_some]
  constructor
  · intro h
    obtain ⟨l, r, hs, hl, hr⟩ := exists_trim s
    exact ⟨l, _, r, hs, hl, hr, h⟩
  · rintro ⟨l, t, r, rfl, hl, hr, h⟩
    rwa [trim_padded hl hr h.not_isBlank h.ne_nil]

theorem int64?_eq_some {n : Int} {m : Int64} : int64? n = some m ↔ m.toInt = n :=
  ⟨toInt_of_int64?, fun h => h ▸ int64?_toInt m⟩

theorem int64?_eq_none {n : Int} : int64? n = none ↔ n < Int64.minValue.toInt ∨ Int64.maxValue.toInt < n := by
  rw [int64?, ite_eq_right_iff]
  simp only [reduceCtorEq, imp_false, not_and_or, Int.not_le]

theorem ofList_intText (n : Int) : String.ofList (intText n) = toString n := by
  cases n with
  | ofNat n => rfl
  | negSucc n =>
      have hi : intText (Int.negSucc n) = '-' :: natText (n + 1) := if_pos (Int.negSucc_lt_zero n)
      have ht : toString (Int.negSucc n) = "-" ++ String.ofList (natText (n + 1)) := rfl
      rw [hi, ht, ← String.toList_inj]
      simp

end Decimal

end PredicateSearch

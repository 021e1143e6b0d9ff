import PredicateSearch.Decimal.Shortest

namespace PredicateSearch.Decimal

def IsDigits (s : List Char) : Prop := s ≠ [] ∧ ∀ c ∈ s, c.isDigit = true

/-- Digits, with a point only between digits. -/
inductive IsSize : List Char → Prop
  | whole {s} (h : IsDigits s) : IsSize s
  | fraction {s t} (hs : IsDigits s) (ht : IsDigits t) : IsSize (s ++ '.' :: t)

inductive IsNumeral : List Char → Prop
  | plain {s} (h : IsSize s) : IsNumeral s
  | negative {s} (h : IsSize s) : IsNumeral ('-' :: s)

theorem IsDigits.append {s t : List Char} (hs : IsDigits s) (ht : ∀ c ∈ t, c.isDigit = true) :
    IsDigits (s ++ t) := by
  refine ⟨by simp [hs.1], fun c hc => ?_⟩
  rcases List.mem_append.1 hc with h | h
  · exact hs.2 c h
  · exact ht c h

theorem IsDigits.exists_cons {s : List Char} (h : IsDigits s) : ∃ c t, s = c :: t ∧ c.isDigit = true := by
  obtain ⟨hne, hd⟩ := h
  cases s with
  | nil => contradiction
  | cons c t => exact ⟨c, t, rfl, hd c (by simp)⟩

theorem IsSize.exists_cons {s : List Char} (h : IsSize s) : ∃ c t, s = c :: t ∧ c.isDigit = true := by
  cases h with
  | whole h => exact h.exists_cons
  | fraction h _ =>
      obtain ⟨c, t, rfl, hc⟩ := h.exists_cons
      exact ⟨c, _, rfl, hc⟩

theorem IsNumeral.exists_cons {s : List Char} (h : IsNumeral s) :
    ∃ c t, s = c :: t ∧ (c = '-' ∨ c.isDigit = true) := by
  cases h with
  | negative h => exact ⟨_, _, rfl, .inl rfl⟩
  | plain h =>
      obtain ⟨c, t, rfl, hc⟩ := h.exists_cons
      exact ⟨c, t, rfl, .inr hc⟩

theorem IsSize.isDigit_or_eq {s : List Char} (h : IsSize s) : ∀ c ∈ s, c.isDigit = true ∨ c = '.' := by
  cases h with
  | whole h => exact fun c hc => .inl (h.2 c hc)
  | fraction hs ht =>
      intro c hc
      rcases List.mem_append.1 hc with hc | hc
      · exact .inl (hs.2 c hc)
      · rcases List.mem_cons.1 hc with rfl | hc
        · exact .inr rfl
        · exact .inl (ht.2 c hc)

theorem IsNumeral.isDigit_or_eq {s : List Char} (h : IsNumeral s) :
    ∀ c ∈ s, c.isDigit = true ∨ c = '.' ∨ c = '-' := by
  cases h with
  | plain h => exact fun c hc => (h.isDigit_or_eq c hc).imp_right .inl
  | negative h =>
      intro c hc
      rcases List.mem_cons.1 hc with rfl | hc
      · exact .inr (.inr rfl)
      · exact (h.isDigit_or_eq c hc).imp_right .inl

theorem isDigits_natText (n : Nat) : IsDigits (natText n) :=
  ⟨Nat.toDigits_ne_nil, fun _ => Nat.isDigit_of_mem_toDigits (by decide) (by decide)⟩

theorem isDigit_of_mem_zeros {n : Nat} {c : Char} (h : c ∈ List.replicate n '0') : c.isDigit = true := by
  rw [(List.mem_replicate.1 h).2]
  rfl

theorem isSize_text (s : Scaled) : IsSize s.text := by
  have hd : IsDigits (Nat.toDigits 10 s.digits) := isDigits_natText s.digits
  simp only [Scaled.text]
  split
  · exact .whole (hd.append fun c => isDigit_of_mem_zeros)
  · next hp =>
      split
      · next hf =>
          refine .fraction ⟨?_, fun c hc => hd.2 c (List.mem_of_mem_take hc)⟩
            ⟨?_, fun c hc => hd.2 c (List.mem_of_mem_drop hc)⟩
          · rw [Ne, List.take_eq_nil_iff, not_or]
            exact ⟨by omega, hd.1⟩
          · rw [Ne, List.drop_eq_nil_iff]
            omega
      · refine .fraction (s := ['0']) ⟨by simp, by simp⟩ ⟨by simp, fun c hc => ?_⟩
        rcases List.mem_append.1 hc with h | h
        · exact isDigit_of_mem_zeros h
        · exact hd.2 c h

theorem isNumeral_intText (n : Int) : IsNumeral (intText n) := by
  unfold intText
  split
  · exact .negative (.whole (isDigits_natText _))
  · exact .plain (.whole (isDigits_natText _))

/-- NaN and the infinities are written in words. -/
theorem isNumeral_floatText {x : Float} (h : isFinite x = true) : IsNumeral (floatText x) := by
  obtain ⟨d, hd⟩ := Option.isSome_iff_exists.1 h
  simp only [floatText, hd, floatText.signed]
  split
  · exact .negative (isSize_text _)
  · exact .plain (isSize_text _)

end PredicateSearch.Decimal

import PredicateSearch.Proofs.Schema.Form

namespace PredicateSearch.Schema

open Sql (stops)

theorem skip_commented (n : Nat) (c : Char) (s : List Char) :
    skip true n (c :: s) = skip (!isNewline c) (n + c.utf8Size) s := by
  rw [skip.eq_def]
  rfl

theorem skip_space {c : Char} (hc : isSpace c = true) (n : Nat) (s : List Char) :
    skip false n (c :: s) = skip false (n + c.utf8Size) s := by
  rw [skip.eq_def]
  simp [hc]

theorem skip_slashes {s : List Char} (hs : s.head? ≠ some '/') (n : Nat) :
    skip false n ('/' :: '/' :: s) = skip true (n + 2) s := by
  have hc : isSpace '/' = false := rfl
  rw [skip.eq_def]
  simp [hc, hs]

theorem skip_stop {s : List Char} (hc : ∀ c ∈ s.head?, isSpace c = false)
    (hs : ∀ t, s = '/' :: '/' :: t → t.head? = some '/') (n : Nat) : skip false n s = ⟨s, n⟩ := by
  cases s with
  | nil => rfl
  | cons c s =>
      have hc' : isSpace c = false := hc c rfl
      rw [skip.eq_def]
      simp only [Bool.false_eq_true, if_false, hc']
      split
      · next t => simp [hs t rfl]
      · rfl

theorem rest_skip (commented : Bool) (n m : Nat) (s : List Char) :
    (skip commented n s).rest = (skip commented m s).rest := by
  fun_induction skip commented n s generalizing m with
  | case1 commented => cases commented <;> rfl
  | case2 n c s ih =>
      rw [skip_commented]
      exact ih _
  | case3 commented n c s hb hc ih =>
      rw [Bool.eq_false_iff.2 hb, skip_space hc]
      exact ih _
  | case4 commented n hb t ht =>
      rw [Bool.eq_false_iff.2 hb, skip_stop (by simp [isSpace]) (by rintro _ ⟨⟩; exact ht)]
  | case5 commented n hb t ht _ ih =>
      rw [Bool.eq_false_iff.2 hb, skip_slashes ht]
      exact ih _
  | case6 commented n c s hb hc ht =>
      rw [Bool.eq_false_iff.2 hb, skip_stop (by simpa using hc) (by rintro t ⟨⟩; exact (ht t rfl rfl).elim)]

/-- The text behind a gap that is as long as it can be. -/
def afterGap (s : List Char) : List Char := (skip false 0 s).rest

theorem afterGap_space {c : Char} (hc : isSpace c = true) (s : List Char) :
    afterGap (c :: s) = afterGap s := by
  rw [afterGap, skip_space hc]
  exact rest_skip _ _ _ s

theorem afterGap_stop {s : List Char} (hc : ∀ c ∈ s.head?, isSpace c = false)
    (hs : ∀ t, s = '/' :: '/' :: t → t.head? = some '/') : afterGap s = s := by
  rw [afterGap, skip_stop hc hs]

theorem afterGap_cons {c : Char} (hc : isSpace c = false) (hs : c ≠ '/') (s : List Char) :
    afterGap (c :: s) = c :: s :=
  afterGap_stop (by simpa using hc) (by rintro t ⟨⟩; contradiction)

theorem isSpace_of_isNewline {c : Char} (hc : isNewline c = true) : isSpace c = true := by
  simp only [isNewline, Bool.or_eq_true, decide_eq_true_eq] at hc
  rcases hc with rfl | rfl <;> rfl

theorem rest_skip_comment {t s : List Char} (ht : ∀ c ∈ t, isNewline c = false)
    (hs : stops (fun c => !isNewline c) s = true) (n : Nat) :
    (skip true n (t ++ s)).rest = afterGap s := by
  induction t generalizing n with
  | nil =>
      cases s with
      | nil => rfl
      | cons c s =>
          have hc : isNewline c = true := by simpa [stops] using hs
          rw [List.nil_append, skip_commented, hc, afterGap_space (isSpace_of_isNewline hc)]
          exact rest_skip _ _ _ s
  | cons c t ih =>
      obtain ⟨hc, ht⟩ := List.forall_mem_cons.1 ht
      rw [List.cons_append, skip_commented, hc]
      exact ih ht _

theorem head?_append_of_stops {t s : List Char} (hm : t.head? ≠ some '/')
    (hs : stops (fun c => !isNewline c) s = true) : (t ++ s).head? ≠ some '/' := by
  cases t with
  | cons c t => exact hm
  | nil =>
      cases s with
      | nil => simp
      | cons c s =>
          rintro ⟨⟩
          simp [stops, isNewline] at hs

namespace Form

/-- Gaps from the same place differ only in how far they go. -/
theorem Gap.afterGap_eq {s r : List Char} (h : Gap s r) : afterGap s = afterGap r := by
  induction h with
  | done s => rfl
  | space hc _ ih => rw [afterGap_space hc, ih]
  | comment ht hm hs _ ih =>
      rw [afterGap, skip_slashes (head?_append_of_stops hm hs), rest_skip_comment ht hs, ih]

/-- Inside a comment, `t` is what has been passed of it. -/
theorem gap_skip (commented : Bool) (n : Nat) (s : List Char) :
    if commented then
      ∀ t : List Char, (∀ c ∈ t, isNewline c = false) → (t ++ s).head? ≠ some '/' →
        Gap ('/' :: '/' :: (t ++ s)) (skip commented n s).rest
    else Gap s (skip commented n s).rest := by
  fun_induction skip commented n s with
  | case1 commented n =>
      cases commented with
      | false => exact .done []
      | true => exact fun t ht hm => .comment ht (by simpa using hm) rfl (.done [])
  | case2 n c s ih =>
      intro t ht hm
      cases hc : isNewline c with
      | false =>
          rw [hc] at ih
          have hg := ih (t ++ [c]) (by simpa [or_imp, forall_and, hc] using ht) (by simpa using hm)
          simpa [hc] using hg
      | true =>
          rw [hc] at ih
          have ht' : t.head? ≠ some '/' := fun h => hm (by rw [List.head?_append, h]; rfl)
          exact .comment ht ht' (by simp [stops, hc]) (.space (isSpace_of_isNewline hc) ih)
  | case3 commented n c s hb hc ih =>
      rw [if_neg hb]
      exact .space hc ih
  | case4 commented n hb t ht =>
      rw [if_neg hb]
      exact .done _
  | case5 commented n hb t ht _ ih =>
      rw [if_neg hb]
      exact ih [] (by simp) (by simpa using ht)
  | case6 commented n c s hb hc ht =>
      rw [if_neg hb]
      exact .done _

theorem gap_afterGap (s : List Char) : Gap s (afterGap s) := gap_skip false 0 s

theorem Gap.trans {s t r : List Char} (h : Gap s t) (h' : Gap t r) : Gap s r := by
  induction h with
  | done s => exact h'
  | space hc _ ih => exact .space hc (ih h')
  | comment ht hm hs _ ih => exact .comment ht hm hs (ih h')

theorem Gap.length_le {s r : List Char} (h : Gap s r) : r.length ≤ s.length := by
  induction h with
  | done s => exact Nat.le_refl _
  | space _ _ ih => exact Nat.le_succ_of_le ih
  | comment _ _ _ _ ih =>
      simp only [List.length_cons, List.length_append]
      omega

end Form

theorem afterGap_afterGap (s : List Char) : afterGap (afterGap s) = afterGap s :=
  (Form.gap_afterGap s).afterGap_eq.symm

end PredicateSearch.Schema

import Mathlib.Data.List.Infix
import Mathlib.Data.List.Forall2
import PredicateSearch.Pattern

namespace PredicateSearch.Pattern

/-- Takes one character that passes the test, and goes on with the rest. -/
def one (test : Char → Bool) (rest : List Char → Bool) : List Char → Bool
  | [] => false
  | c :: s => test c && rest s

/-- The meaning of a pattern in LIKE with the backslash as escape character: a percent sign stands for
any text, an underscore for any character, an escaped character and all others for themselves. A
backslash with nothing behind it matches nothing. -/
def like : List Char → List Char → Bool
  | [] => List.isEmpty
  | ['\\'] => fun _ => false
  | '\\' :: c :: p => one (· = c) (like p)
  | '_' :: p => one (fun _ => true) (like p)
  | '%' :: p => fun s => s.tails.any (like p)
  | c :: p => one (· = c) (like p)

def isWellFormed : List Char → Bool
  | [] => true
  | ['\\'] => false
  | '\\' :: _ :: p => isWellFormed p
  | _ :: p => isWellFormed p

/-- The texts that are looked for: an underscore of the text asked for leaves its place open. -/
def Agrees (t w : List Char) : Prop := List.Forall₂ (fun c d => c ≠ '_' → d = c) t w

def Anchor.Holds : Anchor → List Char → List Char → Prop
  | anywhere, w, s => w <:+: s
  | start, w, s => w <+: s
  | finish, w, s => w <:+ s

/-- The pattern finds the text where it is tied to. -/
structure Finds (a : Anchor) (t p : List Char) : Prop where
  wellFormed : isWellFormed p = true
  like_iff (s : List Char) : like p s = true ↔ ∃ w, Agrees t w ∧ a.Holds w s

theorem one_iff {test : Char → Bool} {rest : List Char → Bool} {s : List Char} :
    one test rest s = true ↔ ∃ c u, s = c :: u ∧ test c = true ∧ rest u = true := by
  cases s <;> simp [one]

theorem like_run {p s : List Char} : like ('%' :: p) s = true ↔ ∃ u, u <:+ s ∧ like p u = true := by
  simp [like, List.mem_tails]

theorem like_run_nil (s : List Char) : like ['%'] s = true :=
  like_run.2 ⟨[], List.nil_suffix, rfl⟩

theorem like_cons {c : Char} (hc : needsEscape c = false) (hu : c ≠ '_') (p : List Char) :
    like (c :: p) = one (· = c) (like p) := by
  simp only [needsEscape, Bool.or_eq_false_iff, decide_eq_false_iff_not] at hc
  obtain ⟨⟨hb, hp⟩, -⟩ := hc
  simp [like, hb]

theorem isWellFormed_cons {c : Char} (hc : c ≠ '\\') (p : List Char) :
    isWellFormed (c :: p) = isWellFormed p := by
  simp [isWellFormed, hc]

theorem ne_backslash_of_needsEscape {c : Char} (hc : needsEscape c = false) : c ≠ '\\' := by
  rintro rfl
  cases hc

theorem isWellFormed_escape (t p : List Char) : isWellFormed (escape t ++ p) = isWellFormed p := by
  induction t with
  | nil => rfl
  | cons c t ih =>
      cases hc : needsEscape c with
      | true => simp [escape, hc, isWellFormed, ih]
      | false => simp [escape, hc, isWellFormed_cons (ne_backslash_of_needsEscape hc), ih]

/-- The first character of an escaped text is matched by itself alone, but for an underscore. -/
theorem like_escape_cons (c : Char) (t p : List Char) :
    like (escape (c :: t) ++ p) = one (fun d => decide (c ≠ '_' → d = c)) (like (escape t ++ p)) := by
  cases hc : needsEscape c with
  | true =>
      have hu : c ≠ '_' := by rintro rfl; cases hc
      simp [escape, hc, like, hu]
  | false =>
      by_cases hu : c = '_'
      · subst c
        simp [escape, hc, like]
      · simp [escape, hc, like_cons hc hu, hu]

theorem like_escape (t p s : List Char) :
    like (escape t ++ p) s = true ↔ ∃ w u, Agrees t w ∧ s = w ++ u ∧ like p u = true := by
  induction t generalizing s with
  | nil => simp [escape, Agrees]
  | cons c t ih =>
      simp only [like_escape_cons, one_iff, ih, decide_eq_true_eq]
      constructor
      · rintro ⟨d, s, rfl, hd, w, u, hw, rfl, hu⟩
        exact ⟨d :: w, u, .cons hd hw, rfl, hu⟩
      · rintro ⟨_, u, hw, rfl, hu⟩
        obtain ⟨d, w, hd, hw', rfl⟩ := List.forall₂_cons_left_iff.1 hw
        exact ⟨d, w ++ u, rfl, hd, w, u, hw', rfl, hu⟩

theorem like_escape_nil (t s : List Char) : like (escape t) s = true ↔ Agrees t s := by
  have h := like_escape t [] s
  simpa [like] using h

theorem like_escape_run (t s : List Char) :
    like (escape t ++ ['%']) s = true ↔ ∃ w, Agrees t w ∧ w <+: s := by
  rw [like_escape]
  constructor
  · rintro ⟨w, u, hw, rfl, -⟩
    exact ⟨w, hw, List.prefix_append w u⟩
  · rintro ⟨w, hw, u, rfl⟩
    exact ⟨w, u, hw, rfl, like_run_nil u⟩

theorem isWellFormed_wrap (a : Anchor) (t : List Char) : isWellFormed (wrap a (escape t)) = true := by
  cases a with
  | anywhere => simp [wrap, isWellFormed_cons, isWellFormed_escape, isWellFormed]
  | start => simp [wrap, isWellFormed_escape, isWellFormed]
  | finish =>
      have h := isWellFormed_escape t []
      simpa [wrap, isWellFormed_cons, isWellFormed] using h

theorem like_wrap (a : Anchor) (t s : List Char) :
    like (wrap a (escape t)) s = true ↔ ∃ w, Agrees t w ∧ a.Holds w s := by
  cases a with
  | anywhere =>
      simp only [wrap, List.cons_append, like_run, like_escape_run, Anchor.Holds]
      constructor
      · rintro ⟨u, hu, w, hw, hwu⟩
        exact ⟨w, hw, hwu.isInfix.trans hu.isInfix⟩
      · rintro ⟨w, hw, hws⟩
        obtain ⟨u, hwu, hu⟩ := List.infix_iff_prefix_suffix.1 hws
        exact ⟨u, hu, w, hw, hwu⟩
  | start => exact like_escape_run t s
  | finish =>
      simp only [wrap, like_run, like_escape_nil, Anchor.Holds]
      constructor
      · rintro ⟨u, hu, hw⟩
        exact ⟨u, hw, hu⟩
      · rintro ⟨u, hw, hu⟩
        exact ⟨u, hu, hw⟩

theorem finds_ofText (a : Anchor) (t : String) : Finds a t.toList (ofText a t).toList := by
  rw [ofText, String.toList_ofList]
  exact ⟨isWellFormed_wrap a t.toList, like_wrap a t.toList⟩

end PredicateSearch.Pattern

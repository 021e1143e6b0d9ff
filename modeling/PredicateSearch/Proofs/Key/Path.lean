import Mathlib.Data.List.Infix
import PredicateSearch.Key

namespace PredicateSearch

namespace Key

def lows : List Char := ['_', '_']

theorem lows_prefix_cons {c : Char} {s : List Char} : lows <+: c :: s ↔ c = '_' ∧ s.head? = some '_' := by
  rw [lows, List.cons_prefix_cons, eq_comm]
  cases s <;> simp [eq_comm]

/-! Both kinds of separators in one pass -/

/-- A text parted at full stops and at pairs of underscores, each pair as far to the left as it can be. -/
def splitPath : List Char → List (List Char)
  | '.' :: s => [] :: splitPath s
  | '_' :: '_' :: s => [] :: splitPath s
  | c :: s => consFirst c (splitPath s)
  | [] => [[]]

theorem splitPath_cons {c : Char} {s : List Char} (hd : c ≠ '.') (hl : ¬ lows <+: c :: s) :
    splitPath (c :: s) = consFirst c (splitPath s) := by
  rw [splitPath]
  · exact hd
  · rintro t rfl rfl
    exact hl ⟨t, rfl⟩

theorem splitLows_cons {c : Char} {s : List Char} (h : ¬ lows <+: c :: s) :
    splitLows (c :: s) = consFirst c (splitLows s) := by
  rw [splitLows]
  rintro t rfl rfl
  exact h ⟨t, rfl⟩

theorem consFirst_append {c : Char} {ss : List (List Char)} (h : ss ≠ []) (ts : List (List Char)) :
    consFirst c (ss ++ ts) = consFirst c ss ++ ts := by
  cases ss with
  | nil => contradiction
  | cons s ss => rfl

theorem consFirst_ne_nil (c : Char) (ss : List (List Char)) : consFirst c ss ≠ [] := by
  cases ss <;> simp [consFirst]

theorem splitLows_ne_nil (s : List Char) : splitLows s ≠ [] := by
  fun_induction splitLows s with
  | case1 s ih => simp
  | case2 c s hc ih => exact consFirst_ne_nil c _
  | case3 => simp

/-- What stands in front of the first full stop is how the text begins. -/
theorem exists_splitDots (s : List Char) : ∃ p ps, splitDots s = p :: ps ∧ p <+: s := by
  induction s with
  | nil => exact ⟨[], [], rfl, List.nil_prefix⟩
  | cons c s ih =>
      obtain ⟨p, ps, hs, hp⟩ := ih
      rw [splitDots]
      split
      · exact ⟨[], splitDots s, rfl, List.nil_prefix⟩
      · exact ⟨c :: p, ps, by rw [hs]; rfl, List.cons_prefix_cons.2 ⟨rfl, hp⟩⟩

/-- No pair of underscores holds a full stop, so that it does not matter which separator is looked for first. -/
theorem flatMap_splitLows (s : List Char) : (splitDots s).flatMap splitLows = splitPath s := by
  fun_induction splitPath s with
  | case1 s ih => simp [splitDots, splitLows, ih]
  | case2 s ih =>
      obtain ⟨p, ps, hs, -⟩ := exists_splitDots s
      rw [hs] at ih
      simp [splitDots, hs, consFirst, splitLows, ← ih]
  | case3 c s hd hl ih =>
      obtain ⟨p, ps, hs, hp⟩ := exists_splitDots s
      have hc : ¬ lows <+: c :: p := by
        rintro h
        obtain ⟨t, ht⟩ := h.trans (List.cons_prefix_cons.2 ⟨rfl, hp⟩)
        cases ht
        exact hl t rfl rfl
      rw [hs] at ih
      rw [splitDots, if_neg hd, hs, consFirst, List.flatMap_cons, splitLows_cons hc,
        ← consFirst_append (splitLows_ne_nil p), ← List.flatMap_cons, ih]
  | case4 => rfl

theorem splitPath_ne_nil (s : List Char) : splitPath s ≠ [] := by
  fun_induction splitPath s with
  | case1 s ih | case2 s ih | case4 => simp
  | case3 c s hd hl ih => exact consFirst_ne_nil c _

theorem path_eq (k : Key) : k.path = (splitPath k.subject.toList).map String.ofList := by
  rw [path, flatMap_splitLows]

/-- A text without separators goes to the first name, unless its last underscore makes a pair with what follows. -/
theorem splitPath_append {n r p : List Char} {ps : List (List Char)} (hd : '.' ∉ n) (hl : ¬ lows <:+: n)
    (hr : ¬ (n.getLast? = some '_' ∧ r.head? = some '_')) (h : splitPath r = p :: ps) :
    splitPath (n ++ r) = (n ++ p) :: ps := by
  induction n with
  | nil => exact h
  | cons c n ih =>
      rw [List.mem_cons, not_or] at hd
      have hn : splitPath (n ++ r) = (n ++ p) :: ps := by
        refine ih hd.2 (fun hx => hl (hx.trans (List.suffix_cons c n).isInfix)) ?_
        rintro ⟨hg, hh⟩
        refine hr ⟨?_, hh⟩
        rw [List.getLast?_cons, hg]
        rfl
      have hc : ¬ lows <+: c :: (n ++ r) := by
        rw [lows_prefix_cons]
        rintro ⟨rfl, hh⟩
        cases n with
        | nil => exact hr ⟨rfl, hh⟩
        | cons d n =>
            cases hh
            exact hl ⟨[], n, rfl⟩
      rw [List.cons_append, splitPath_cons (Ne.symm hd.1) hc, hn]
      rfl

/-! Paths as they are written -/

inductive Separator where
  | dot
  | lows
  deriving DecidableEq, Repr

def Separator.text : Separator → String
  | dot => "."
  | lows => "__"

/-- The names of a path with what parts each from the next. -/
inductive Spelling where
  | last (name : String)
  | step (name : String) (s : Separator) (next : Spelling)
  deriving DecidableEq, Repr

namespace Spelling

def names : Spelling → List String
  | last n => [n]
  | step n _ r => n :: names r

def text : Spelling → String
  | last n => n
  | step n s r => n ++ s.text ++ text r

theorem names_ne_nil (r : Spelling) : r.names ≠ [] := by
  cases r <;> simp [names]

end Spelling

theorem splitPath_separator (s : Separator) (t : List Char) :
    splitPath (s.text.toList ++ t) = [] :: splitPath t := by
  cases s <;> rfl

/-- Every text is the spelling of the path that it is parted to. -/
theorem exists_spelling (s : List Char) :
    ∃ r : Spelling, r.text.toList = s ∧ r.names = (splitPath s).map String.ofList := by
  fun_induction splitPath s with
  | case1 s ih =>
      obtain ⟨r, ht, hn⟩ := ih
      exact ⟨.step "" .dot r, by simp [Spelling.text, Separator.text, ht], by simp [Spelling.names, hn]⟩
  | case2 s ih =>
      obtain ⟨r, ht, hn⟩ := ih
      exact ⟨.step "" .lows r, by simp [Spelling.text, Separator.text, ht], by simp [Spelling.names, hn]⟩
  | case3 c s hd hl ih =>
      obtain ⟨r, ht, hn⟩ := ih
      obtain ⟨p, ps, hs⟩ := List.exists_cons_of_ne_nil (splitPath_ne_nil s)
      rw [hs] at hn ⊢
      cases r with
      | last n =>
          obtain ⟨rfl, hps⟩ := List.cons.inj hn
          exact ⟨.last (String.ofList (c :: p)), by simpa [Spelling.text] using ht,
            by rw [consFirst, List.map_cons, ← hps]; rfl⟩
      | step n t next =>
          obtain ⟨rfl, hps⟩ := List.cons.inj hn
          exact ⟨.step (String.ofList (c :: p)) t next, by simpa [Spelling.text] using ht,
            by rw [consFirst, List.map_cons, ← hps]; rfl⟩
  | case4 => exact ⟨.last "", rfl, rfl⟩

/-- How a text begins is its first name. -/
theorem exists_splitPath (s : List Char) : ∃ p ps, splitPath s = p :: ps ∧ p <+: s := by
  obtain ⟨r, ht, hn⟩ := exists_spelling s
  obtain ⟨p, ps, hs⟩ := List.exists_cons_of_ne_nil (splitPath_ne_nil s)
  refine ⟨p, ps, hs, ?_⟩
  rw [hs] at hn
  cases r with
  | last n =>
      obtain ⟨rfl, -⟩ := List.cons.inj hn
      exact ⟨[], by simpa [Spelling.text] using ht⟩
  | step n t next =>
      obtain ⟨rfl, -⟩ := List.cons.inj hn
      exact ⟨t.text.toList ++ next.text.toList, by simpa [Spelling.text] using ht⟩

theorem plain_of_mem_splitPath (s : List Char) : ∀ n ∈ splitPath s, '.' ∉ n ∧ ¬ lows <:+: n := by
  fun_induction splitPath s with
  | case1 s ih | case2 s ih => exact List.forall_mem_cons.2 ⟨⟨by simp, by simp [lows]⟩, ih⟩
  | case3 c s hd hl ih =>
      obtain ⟨p, ps, hs, hp⟩ := exists_splitPath s
      rw [hs] at ih ⊢
      obtain ⟨⟨hpd, hpl⟩, hps⟩ := List.forall_mem_cons.1 ih
      refine List.forall_mem_cons.2 ⟨⟨by simp [Ne.symm hd, hpd], ?_⟩, hps⟩
      rw [List.infix_cons_iff, or_iff_left hpl]
      intro hx
      obtain ⟨t, ht⟩ := hx.trans (List.cons_prefix_cons.2 ⟨rfl, hp⟩)
      cases ht
      exact hl t rfl rfl
  | case4 => simp [lows]

theorem path_cases (k : Key) (h : '.' ∉ k.subject.toList) :
    ¬ lows <:+: k.subject.toList ∧ k.path = [k.subject] ∨ lows <:+: k.subject.toList ∧ 1 < k.path.length := by
  obtain ⟨r, ht, hn⟩ := exists_spelling k.subject.toList
  rw [String.toList_inj] at ht
  rw [path_eq, ← hn, ← ht]
  cases r with
  | last n =>
      have hm : n ∈ (splitPath k.subject.toList).map String.ofList := hn ▸ List.mem_singleton_self n
      obtain ⟨p, hp, rfl⟩ := List.mem_map.1 hm
      exact .inl ⟨by simpa [Spelling.text] using (plain_of_mem_splitPath _ p hp).2, rfl⟩
  | step n s next =>
      rw [← ht] at h
      refine .inr ⟨?_, by simpa [Spelling.names, List.length_pos_iff] using next.names_ne_nil⟩
      cases s with
      | dot => simp [Spelling.text, Separator.text] at h
      | lows => exact ⟨n.toList, next.text.toList, by simp [Spelling.text, Separator.text, lows]⟩

end Key

end PredicateSearch

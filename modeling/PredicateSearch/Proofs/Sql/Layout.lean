import Mathlib.Data.List.Chain
import PredicateSearch.Proofs.Sql.Token
import PredicateSearch.Search.Options

namespace PredicateSearch.Sql

/-- Tokens with single blanks between some of them. -/
abbrev Layout := List (Option Token)

def spell (d : Dialect) : Option Token → List Char
  | none => [' ']
  | some t => t.text d

def Layout.tokens (l : Layout) : List Token := l.filterMap id

theorem Layout.mem_tokens {t : Token} {l : Layout} : t ∈ l.tokens ↔ some t ∈ l := by
  simp [tokens]

def write (d : Dialect) (l : Layout) : List Char := l.flatMap (spell d)

/-- What stands behind a token is not taken for a part of it. -/
def Apart (d : Dialect) (x y : Option Token) : Prop := ∀ t ∈ x, stops (t.isExtendedBy d) (spell d y) = true

structure Layout.IsReadable (d : Dialect) (l : Layout) : Prop where
  valid : ∀ t, some t ∈ l → t.IsValid
  apart : l.IsChain (Apart d)

theorem stops_append {p : Char → Bool} {s : List Char} (hs : s ≠ []) (r : List Char) :
    stops p (s ++ r) = stops p s := by
  cases s with
  | nil => contradiction
  | cons c s => rfl

theorem Layout.IsReadable.tail {x : Option Token} {l : Layout} (h : IsReadable d (x :: l)) :
    IsReadable d l :=
  ⟨fun t ht => h.valid t (List.mem_cons_of_mem x ht), h.apart.tail⟩

theorem stops_write {t : Token} {l : Layout} (h : Layout.IsReadable d (some t :: l)) {r : List Char}
    (hr : stops (t.isExtendedBy d) r = true) : stops (t.isExtendedBy d) (write d l ++ r) = true := by
  cases l with
  | nil => exact hr
  | cons y l =>
      have hy := (List.isChain_cons_cons.1 h.apart).1 t rfl
      have hne : spell d y ≠ [] := by
        cases y with
        | none => simp [spell]
        | some u =>
            obtain ⟨c, s, hs, -⟩ := exists_cons_text d (h.valid u (by simp))
            simp [spell, hs]
      rw [write, List.flatMap_cons, List.append_assoc, stops_append hne]
      exact hy

theorem tokens_write {l : Layout} (h : l.IsReadable d) : tokens d (write d l) = some l.tokens := by
  induction l with
  | nil => simp [write, tokens, Layout.tokens]
  | cons x l ih =>
      cases x with
      | none =>
          have hl := ih h.tail
          simpa [write, spell, tokens, Layout.tokens] using hl
      | some t =>
          have hr := stops_write h (r := []) rfl
          rw [List.append_nil] at hr
          have ht := tokens_text (h.valid t (by simp)) hr
          rw [write, List.flatMap_cons, spell, ← write, ht, ih h.tail]
          rfl

/-! Layouts that may stand beside others -/

def joinWords : List (List Char) := [Combinator.all, .any].map fun k => k.keyword.toList

/-- The depth of parentheses behind the token. Outside parentheses no word may join conditions. -/
def Token.depth? : Nat → Token → Option Nat
  | n, mark s =>
    if s = ['('] then some (n + 1)
    else if s = [')'] then (if n = 0 then none else some (n - 1))
    else some n
  | n, keyword s => if n = 0 ∧ joinWords.contains s then none else some n
  | n, _ => some n

def Layout.depth? : Nat → Layout → Option Nat
  | n, [] => some n
  | n, none :: l => depth? n l
  | n, some t :: l => (t.depth? n).bind fun m => depth? m l

theorem Layout.depth?_append (n : Nat) (l m : Layout) :
    Layout.depth? n (l ++ m) = (Layout.depth? n l).bind fun k => Layout.depth? k m := by
  induction l generalizing n with
  | nil => rfl
  | cons x l ih =>
      cases x with
      | none => exact ih n
      | some t =>
          rw [List.cons_append, depth?, depth?, Option.bind_assoc]
          congr 1
          funext k
          exact ih k

/-- Closes the parentheses it opens, and joins conditions only `k` parentheses deep. -/
structure Layout.IsClosed (d : Dialect) (k : Nat) (l : Layout) : Prop extends l.IsReadable d where
  depth : ∀ n, k ≤ n → l.depth? n = some n

def sign (s : String) : Option Token := some (.mark s.toList)

def words (s : List String) : Layout := [none].intercalate (s.map fun w => [some (.keyword w.toList)])

def spaced (l : List Layout) : Layout := [none].intercalate l

def listed (l : List Token) : Layout := [sign ",", none].intercalate (l.map fun t => [some t])

def parens (l : Layout) : Layout := sign "(" :: l ++ [sign ")"]

def call (f : String) (l : Layout) : Layout := some (.keyword f.toList) :: parens l

variable {k : Nat}

theorem isExtendedBy_eq_false (t : Token) (h : c ∈ [' ', '(', ')', ',']) : t.isExtendedBy d c = false := by
  simp only [List.mem_cons, List.not_mem_nil, or_false] at h
  have hc : c ≠ d.quoteStyle.closing := by
    cases d.quoteStyle <;> rcases h with rfl | rfl | rfl | rfl <;> decide
  cases t <;> rcases h with rfl | rfl | rfl | rfl <;> simp [Token.isExtendedBy, hc]

theorem apart_blank (x : Option Token) : Apart d x none := by
  intro t _
  simp [stops, spell, isExtendedBy_eq_false t (show ' ' ∈ [' ', '(', ')', ','] by decide)]

theorem apart_mark (x : Option Token) {m : List Char} (h : m ∈ [['('], [')'], [',']]) :
    Apart d x (some (.mark m)) := by
  intro t _
  simp only [List.mem_cons, List.not_mem_nil, or_false] at h
  rcases h with rfl | rfl | rfl <;> simp [stops, spell, Token.text, isExtendedBy_eq_false t]

namespace Layout

theorem IsReadable.append {l m : Layout} (hl : l.IsReadable d) (hm : m.IsReadable d)
    (h : ∀ x ∈ l.getLast?, ∀ y ∈ m.head?, Apart d x y) : (l ++ m).IsReadable d := by
  refine ⟨fun t ht => ?_, hl.apart.append hm.apart h⟩
  rcases List.mem_append.1 ht with ht | ht
  · exact hl.valid t ht
  · exact hm.valid t ht

theorem isReadable_singleton {t : Token} (ht : t.IsValid) :
    IsReadable d [some t] := ⟨by simp [ht], .singleton _⟩

theorem isClosed_singleton {t : Token} (ht : t.IsValid) (hk : ∀ n, k ≤ n → t.depth? n = some n) :
    IsClosed d k [some t] := by
  refine ⟨isReadable_singleton ht, fun n hn => ?_⟩
  rw [depth?, hk n hn]
  rfl

theorem IsClosed.append {l m : Layout} (hl : l.IsClosed d k) (hm : m.IsClosed d k)
    (h : ∀ x ∈ l.getLast?, ∀ y ∈ m.head?, Apart d x y) : (l ++ m).IsClosed d k := by
  refine ⟨hl.toIsReadable.append hm.toIsReadable h, fun n hn => ?_⟩
  rw [depth?_append, hl.depth n hn]
  exact hm.depth n hn

theorem isClosed_nil : IsClosed d k [] := ⟨⟨by simp, .nil⟩, fun _ _ => rfl⟩

theorem IsClosed.intercalate {s : Layout} (hs : s.IsClosed d k) (hf : ∀ x, ∀ y ∈ s.head?, Apart d x y)
    (hb : s.getLast? = some none) {ls : List Layout} (h : ∀ l ∈ ls, IsClosed d k l) :
    IsClosed d k (s.intercalate ls) := by
  induction ls with
  | nil => exact isClosed_nil
  | cons l ls ih =>
      obtain ⟨hl, hls⟩ := List.forall_mem_cons.1 h
      cases ls with
      | nil => simpa using hl
      | cons m ls =>
          have hls' := hl.append hs fun x _ => hf x
          rw [List.intercalate_cons_cons]
          refine hls'.append (ih hls) fun x hx y _ => ?_
          rw [List.getLast?_append, hb] at hx
          cases hx
          rintro t ⟨⟩

theorem isClosed_blank : IsClosed d k [none] := ⟨⟨by simp, .singleton _⟩, fun _ _ => rfl⟩

theorem isClosed_spaced {ls : List Layout} (h : ∀ l ∈ ls, IsClosed d k l) : IsClosed d k (spaced ls) := by
  refine isClosed_blank.intercalate (fun x y hy => ?_) rfl h
  cases hy
  exact apart_blank x

theorem isClosed_words {ws : List String} (h : ∀ w ∈ ws, w.toList ∈ keywords)
    (hj : 0 < k ∨ ∀ w ∈ ws, w.toList ∉ joinWords) : IsClosed d k (words ws) := by
  refine isClosed_spaced fun l hl => ?_
  obtain ⟨w, hw, rfl⟩ := List.mem_map.1 hl
  refine isClosed_singleton (h w hw) fun n hn => if_neg ?_
  rintro ⟨rfl, hm⟩
  exact hj.resolve_left (by omega) w hw (List.contains_iff_mem.1 hm)

theorem isReadable_sign {s : String} (h : s.toList ∈ marks) :
    IsReadable d [sign s] := isReadable_singleton h

theorem isClosed_sign {s : String} (h : s.toList ∈ marks) (hp : s.toList ≠ ['('] ∧ s.toList ≠ [')']) :
    IsClosed d k [sign s] :=
  isClosed_singleton h fun n _ => by rw [Token.depth?, if_neg hp.1, if_neg hp.2]

theorem isClosed_listed {ts : List Token} (h : ∀ t ∈ ts, IsClosed d k [some t]) :
    IsClosed d k (listed ts) := by
  have hs : IsClosed d k [sign ",", none] :=
    (isClosed_sign (s := ",") (by decide) (by decide)).append isClosed_blank fun x _ y hy => by
      cases hy
      exact apart_blank x
  refine hs.intercalate (fun x y hy => ?_) rfl ?_
  · cases hy
    exact apart_mark x (by decide)
  · intro l hl
    obtain ⟨t, ht, rfl⟩ := List.mem_map.1 hl
    exact h t ht

theorem opening_apart (y : Option Token) : Apart d (sign "(") y := by
  rintro t ⟨⟩
  cases h : spell d y <;> simp [stops, Token.isExtendedBy]

theorem IsClosed.parens {l : Layout} (h : l.IsClosed d (k + 1)) : IsClosed d k (parens l) := by
  have hl : IsReadable d ([sign "("] ++ l) :=
    (isReadable_sign (by decide)).append h.toIsReadable fun x hx y _ => by
      cases hx
      exact opening_apart y
  refine ⟨hl.append (isReadable_sign (s := ")") (by decide)) fun x _ y hy => ?_, fun n hn => ?_⟩
  · cases hy
    exact apart_mark x (by decide)
  · -- The opening parenthesis has been counted: inside, the layout stands one deeper.
    have hd : (l ++ [sign ")"]).depth? (n + 1) = some n := by
      rw [depth?_append, h.depth (n + 1) (by omega)]
      rfl
    exact hd

theorem IsClosed.call {l : Layout} {f : String} (hf : f.toList ∈ keywords) (hj : f.toList ∉ joinWords)
    (h : l.IsClosed d (k + 1)) : IsClosed d k (call f l) := by
  have hw : IsClosed d k (words [f]) := isClosed_words (by simpa using hf) (.inr (by simpa using hj))
  exact hw.append h.parens fun x _ y hy => by
    cases hy
    exact apart_mark x (by decide)

end Layout

end PredicateSearch.Sql

import PredicateSearch.Dialect

namespace PredicateSearch

namespace Sql

/-- What a backslash makes of the character behind it. There is no such thing where a backslash is a
character like others. -/
abbrev Escapes := Option (Char → Option Char)

def push (c : Char) (x : List Char × List Char) : List Char × List Char := (c :: x.1, x.2)

/-- Reads up to the `q` that ends a quotation, and gives back the rest. A `q` written twice stands for
one of the text. -/
def readQuoted (q : Char) (escapes : Escapes) : List Char → Option (List Char × List Char)
  | [] => none
  | [c] => if c = q then some ([], []) else none
  | c :: d :: s =>
    if c = q then
      if d = q then (readQuoted q escapes s).map (push q) else some ([], d :: s)
    else
      match escapes with
      | none => (readQuoted q escapes (d :: s)).map (push c)
      | some f =>
        if c = '\\' then (f d).bind fun e => (readQuoted q escapes s).map (push e)
        else (readQuoted q escapes (d :: s)).map (push c)

/-- What may be written between two `q`, and what it stands for. -/
inductive StandsFor (q : Char) (escapes : Escapes) : List Char → List Char → Prop
  | nil : StandsFor q escapes [] []
  | twice {t s} (h : StandsFor q escapes t s) : StandsFor q escapes (q :: q :: t) (q :: s)
  | escaped {f c e t s} (hf : escapes = some f) (he : f c = some e) (h : StandsFor q escapes t s) :
      StandsFor q escapes ('\\' :: c :: t) (e :: s)
  | same {c t s} (hc : c ≠ q) (hb : escapes = none ∨ c ≠ '\\') (h : StandsFor q escapes t s) :
      StandsFor q escapes (c :: t) (c :: s)

/-- Where a backslash is written twice it has to be read as one. -/
inductive KeepsBackslash : Bool → Escapes → Prop
  | plain : KeepsBackslash false none
  | escaping {f} (hf : f '\\' = some '\\') : KeepsBackslash true (some f)

variable {q : Char} {escapes : Escapes} {t s r : List Char}

theorem map_push_eq_some {c : Char} {x : Option (List Char × List Char)} :
    x.map (push c) = some (s, r) ↔ ∃ u, x = some (u, r) ∧ c :: u = s := by
  simp [push]

theorem readQuoted_end (hr : r.head? ≠ some q) : readQuoted q escapes (q :: r) = some ([], r) := by
  cases r with
  | nil => simp [readQuoted]
  | cons d s =>
      have hd : d ≠ q := by simpa using hr
      simp [readQuoted, hd]

theorem readQuoted_twice (s : List Char) :
    readQuoted q escapes (q :: q :: s) = (readQuoted q escapes s).map (push q) := by
  simp [readQuoted]

theorem readQuoted_cons {c : Char} (hc : c ≠ q) (he : escapes = none ∨ c ≠ '\\') (s : List Char) :
    readQuoted q escapes (c :: s) = (readQuoted q escapes s).map (push c) := by
  cases s with
  | nil => simp [readQuoted, hc]
  | cons d s =>
      cases escapes with
      | none => simp [readQuoted, hc]
      | some f => simp [readQuoted, hc, he.resolve_left (by simp)]

theorem readQuoted_backslash {f : Char → Option Char} (hq : q ≠ '\\') {d e : Char} (hd : f d = some e)
    (s : List Char) : readQuoted q (some f) ('\\' :: d :: s) = (readQuoted q (some f) s).map (push e) := by
  simp [readQuoted, hq.symm, hd]

theorem readQuoted_of_standsFor (hq : q ≠ '\\') (h : StandsFor q escapes t s) (hr : r.head? ≠ some q) :
    readQuoted q escapes (t ++ q :: r) = some (s, r) := by
  induction h with
  | nil => exact readQuoted_end hr
  | twice _ ih => rw [List.cons_append, List.cons_append, readQuoted_twice, ih, Option.map_some, push]
  | escaped hf he _ ih =>
      subst hf
      rw [List.cons_append, List.cons_append, readQuoted_backslash hq he, ih, Option.map_some, push]
  | same hc hb _ ih => rw [List.cons_append, readQuoted_cons hc hb, ih, Option.map_some, push]

theorem exists_standsFor (h : readQuoted q escapes t = some (s, r)) :
    ∃ u, t = u ++ q :: r ∧ StandsFor q escapes u s ∧ r.head? ≠ some q := by
  fun_induction readQuoted q escapes t generalizing s with
  | case1 | case3 => cases h
  | case2 =>
      cases h
      exact ⟨[], rfl, .nil, by simp⟩
  | case4 t ih =>
      obtain ⟨v, hv, rfl⟩ := map_push_eq_some.1 h
      obtain ⟨u, rfl, hu, hr⟩ := ih hv
      exact ⟨q :: q :: u, rfl, .twice hu, hr⟩
  | case5 d t hd =>
      -- a single mark: the quotation ends here
      cases h
      exact ⟨[], rfl, .nil, by simpa using hd⟩
  | case6 c d t hc hn ih =>
      subst hn
      obtain ⟨v, hv, rfl⟩ := map_push_eq_some.1 h
      obtain ⟨u, hu, hs, hr⟩ := ih hv
      exact ⟨c :: u, by rw [hu, List.cons_append], .same hc (.inl rfl) hs, hr⟩
  | case7 d t f hf _ ih =>
      subst hf
      obtain ⟨e, he, h⟩ := Option.bind_eq_some_iff.1 h
      obtain ⟨v, hv, rfl⟩ := map_push_eq_some.1 h
      obtain ⟨u, rfl, hu, hr⟩ := ih hv
      exact ⟨'\\' :: d :: u, rfl, .escaped rfl he hu, hr⟩
  | case8 c d t hc f hf hb ih =>
      subst hf
      obtain ⟨v, hv, rfl⟩ := map_push_eq_some.1 h
      obtain ⟨u, hu, hs, hr⟩ := ih hv
      exact ⟨c :: u, by rw [hu, List.cons_append], .same hc (.inr hb) hs, hr⟩

/-- A quotation ends at the first `q` that is neither written twice nor escaped. -/
theorem readQuoted_eq_some (hq : q ≠ '\\') : readQuoted q escapes t = some (s, r) ↔
    ∃ u, t = u ++ q :: r ∧ StandsFor q escapes u s ∧ r.head? ≠ some q := by
  refine ⟨exists_standsFor, ?_⟩
  rintro ⟨u, rfl, h, hr⟩
  exact readQuoted_of_standsFor hq h hr

theorem standsFor_double (q : Char) (s : List Char) : StandsFor q none (Dialect.double q s) s := by
  induction s with
  | nil => exact .nil
  | cons c s ih =>
      rw [Dialect.double]
      split
      · next hc =>
          subst c
          exact .twice ih
      · next hc => exact .same hc (.inl rfl) ih

/-- Where a backslash is a character like others there is but one way to write a text. -/
theorem StandsFor.eq_double (h : StandsFor q none t s) : t = Dialect.double q s := by
  induction h with
  | nil => rfl
  | twice _ ih => rw [Dialect.double, if_pos rfl, ih]
  | escaped hf => cases hf
  | same hc _ _ ih => rw [Dialect.double, if_neg hc, ih]

theorem standsFor_double_backslash {f : Char → Option Char} (hf : f '\\' = some '\\') (hq : q ≠ '\\')
    (s : List Char) : StandsFor q (some f) (Dialect.double '\\' (Dialect.double q s)) s := by
  induction s with
  | nil => exact .nil
  | cons c s ih =>
      by_cases hc : c = q
      · subst c
        simpa [Dialect.double, hq] using StandsFor.twice ih
      · by_cases hb : c = '\\'
        · subst c
          simpa [Dialect.double, hc] using StandsFor.escaped rfl hf ih
        · simpa [Dialect.double, hc, hb] using StandsFor.same hc (.inr hb) ih

end Sql

namespace Dialect

open Sql

/-- Where a backslash escapes, none may stand alone: it is read only before another. -/
def escapes (d : Dialect) : Escapes :=
  if d.backslashEscapes then some (fun c => if c = '\\' then some c else none) else none

def readIdentifier (d : Dialect) : List Char → Option (List Char × List Char)
  | [] => none
  | c :: s => if c = d.quoteStyle.opening then readQuoted d.quoteStyle.closing none s else none

def readString (d : Dialect) : List Char → Option (List Char × List Char)
  | [] => none
  | c :: s => if c = '\'' then readQuoted '\'' d.escapes s else none

theorem closing_ne {d : Dialect} {c : Char} (h : c ∈ [' ', '.', ')', '\\']) : c ≠ d.quoteStyle.closing := by
  simp only [List.mem_cons, List.not_mem_nil, or_false] at h
  cases d.quoteStyle <;> rcases h with rfl | rfl | rfl | rfl <;> decide

theorem readIdentifier_quoteIdentifierChars (d : Dialect) (s r : List Char)
    (hr : r.head? ≠ some d.quoteStyle.closing) :
    d.readIdentifier (d.quoteIdentifierChars s ++ r) = some (s, r) := by
  have hq : d.quoteStyle.closing ≠ '\\' := (closing_ne (by decide)).symm
  simpa [quoteIdentifierChars, readIdentifier] using readQuoted_of_standsFor hq (standsFor_double _ s) hr

/-- A quoted text stands for the text, if a backslash written twice stands for one. -/
theorem exists_quoteChars {backslash : Bool} {escapes : Escapes} (he : KeepsBackslash backslash escapes) (s : List Char) :
    ∃ t, quoteChars backslash s = '\'' :: (t ++ ['\'']) ∧ StandsFor '\'' escapes t s := by
  cases he with
  | plain => exact ⟨_, rfl, standsFor_double '\'' s⟩
  | escaping hf => exact ⟨_, rfl, standsFor_double_backslash hf (by decide) s⟩

theorem keepsBackslash_escapes (d : Dialect) : KeepsBackslash d.backslashEscapes d.escapes := by
  rw [escapes]
  cases d.backslashEscapes with
  | false => exact .plain
  | true => exact .escaping rfl

theorem readString_quoteChars (d : Dialect) (s r : List Char) (hr : r.head? ≠ some '\'') :
    d.readString (quoteChars d.backslashEscapes s ++ r) = some (s, r) := by
  obtain ⟨t, ht, hs⟩ := exists_quoteChars d.keepsBackslash_escapes s
  rw [ht]
  simpa [readString] using readQuoted_of_standsFor (by decide) hs hr

end Dialect

end PredicateSearch

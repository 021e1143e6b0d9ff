import PredicateSearch.Proofs.Sql.Layout

namespace PredicateSearch

def Combinator.separator (k : Combinator) : List Char := ' ' :: k.keyword.toList ++ [' ']

namespace Sql

/-- Where a character of a text stands: at a depth of parentheses, inside or outside of a quotation. Whether
a quotation has ended is known only from the character behind it. -/
inductive Place where
  | outside (depth : Nat)
  | quoted (q : Char) (depth : Nat)
  | escaped (depth : Nat)
  | ended (q : Char) (depth : Nat)
  deriving DecidableEq, Repr

namespace Place

/-- Outside of all quotations and parentheses. -/
def isLevel : Place → Bool
  | outside n | ended _ n => n = 0
  | quoted _ _ | escaped _ => false

def enter (d : Dialect) (n : Nat) (c : Char) : Option Place :=
  if c = '\'' then some (quoted '\'' n)
  else if c = d.quoteStyle.opening then some (quoted d.quoteStyle.closing n)
  else if c = '(' then some (outside (n + 1))
  else if c = ')' then (if n = 0 then none else some (outside (n - 1)))
  else some (outside n)

/-- Fails at a parenthesis that closes nothing. -/
def step (d : Dialect) : Place → Char → Option Place
  | outside n, c => enter d n c
  | quoted q n, c =>
    if c = q then some (ended q n)
    else if q = '\'' && c = '\\' && d.backslashEscapes then some (escaped n)
    else some (quoted q n)
  | escaped n, _ => some (quoted '\'' n)
  | ended q n, c => if c = q then some (quoted q n) else enter d n c

end Place

def IsBalanced (d : Dialect) (s : List Char) :
    Prop := ∃ p, s.foldlM (Place.step d) (.outside 0) = some p ∧ p.isLevel = true

def separator? (s : List Char) : Option Combinator :=
  [Combinator.all, .any].find? fun k => k.separator.isPrefixOf s

/-- The first part of a text, and every other with the combinator before it. -/
abbrev Parts := List Char × List (Combinator × List Char)

def Parts.prepend (s : List Char) (x : Parts) : Parts := (s ++ x.1, x.2)

def Parts.part (k : Combinator) (x : Parts) : Parts := ([], (k, x.1) :: x.2)

/-- Cuts a text at every separator outside of quotations and parentheses, after the given number of
characters is left out. A text that is not balanced has no parts. -/
def cut (d : Dialect) : Place → Nat → List Char → Option Parts
  | p, _, [] => if p.isLevel then some ([], []) else none
  | p, skip + 1, _ :: s => cut d p skip s
  | p, 0, c :: s =>
    match if p.isLevel then separator? (c :: s) else none with
    | some k => (cut d (.outside 0) (k.separator.length - 1) s).map (Parts.part k)
    | none => (p.step d c).bind fun p => (cut d p 0 s).map (Parts.prepend [c])

def parts (d : Dialect) (s : List Char) : Option Parts := cut d (.outside 0) 0 s

variable {d : Dialect} {p : Place} {c : Char} {n : Nat}

theorem map_prepend (s t : List Char) (x : Option Parts) :
    (x.map (Parts.prepend t)).map (Parts.prepend s) = x.map (Parts.prepend (s ++ t)) := by
  rw [Option.map_map]
  congr 1
  funext y
  simp [Parts.prepend]

theorem map_prepend_nil (x : Option Parts) : x.map (Parts.prepend []) = x := by
  cases x <;> rfl

theorem separator?_of_ne (hc : c ≠ ' ') (s : List Char) : separator? (c :: s) = none := by
  simp [separator?, Combinator.separator, List.isPrefixOf, hc.symm]

theorem separator?_of_not_mem {a b : Char} (h : [a, b] ∉ [['A', 'N'], ['O', 'R']]) (s : List Char) :
    separator? (' ' :: a :: b :: s) = none := by
  simp only [List.mem_cons, List.cons.injEq, List.not_mem_nil, and_true, or_false, not_or, not_and] at h
  have hp : ('A' = a → 'N' = b → ¬['D', ' '] <+: s) ∧ ('O' = a → 'R' = b → ¬[' '] <+: s) :=
    ⟨fun ha hb => absurd hb.symm (h.1 ha.symm), fun ho hb => absurd hb.symm (h.2 ho.symm)⟩
  simpa [separator?, Combinator.separator, Combinator.keyword] using hp

theorem cut_cons {q : Place} {s : List Char} (hs : p.isLevel = false ∨ separator? (c :: s) = none)
    (hp : p.step d c = some q) : cut d p 0 (c :: s) = (cut d q 0 s).map (Parts.prepend [c]) := by
  have hn : (if p.isLevel then separator? (c :: s) else none) = none := by
    rcases hs with h | h <;> simp [h]
  rw [cut, hn]
  simp [hp]

theorem cut_ended {q : Char} {r : List Char} (hr : r.head? ≠ some q) :
    cut d (.ended q n) 0 r = cut d (.outside n) 0 r := by
  cases r with
  | nil => rfl
  | cons c s =>
      have hc : c ≠ q := by simpa using hr
      simp only [cut, Place.step, if_neg hc]
      rfl

theorem cut_skip (s r : List Char) : cut d p s.length (s ++ r) = cut d p 0 r := by
  induction s with
  | nil => rfl
  | cons c s ih => exact ih

theorem cut_separator (k : Combinator) (r : List Char) :
    cut d (.outside 0) 0 (k.separator ++ r) = (cut d (.outside 0) 0 r).map (Parts.part k) := by
  have hs : separator? (k.separator ++ r) = some k := by
    cases k <;> simp [separator?, Combinator.separator, Combinator.keyword, List.isPrefixOf]
  have hk := cut_skip (d := d) (p := .outside 0) (k.keyword.toList ++ [' ']) r
  rw [Combinator.separator, List.cons_append, List.cons_append] at hs ⊢
  have hl : (Place.outside 0).isLevel = true := rfl
  rw [cut, if_pos hl, hs]
  exact congrArg (Option.map (Parts.part k)) hk

def isPlain (c : Char) : Bool := c.isAlpha || c.isDigit || c ∈ ['-', '.', ',', '!', '<', '=', '>']

theorem step_of_isPlain (h : isPlain c = true) :
    Place.step d (.outside n) c = some (.outside n) ∧ c ≠ ' ' := by
  have hx : ∀ x ∈ [' ', '\'', '(', ')', '"', '\x60', '['], c ≠ x := by
    have hp : [' ', '\'', '(', ')', '"', '\x60', '['].all (fun x => !isPlain x) = true := by decide
    exact fun x hx => ne_of_class h (by simpa using List.all_eq_true.1 hp x hx)
  have ho : c ≠ d.quoteStyle.opening :=
    opening_ne fun hc => hx c (List.mem_append_right [' ', '\'', '(', ')'] hc) rfl
  refine ⟨?_, hx ' ' (by simp)⟩
  simp [Place.step, Place.enter, ho, hx '\'' (by simp), hx '(' (by simp), hx ')' (by simp)]

theorem cut_plain {w : List Char} (h : ∀ c ∈ w, isPlain c = true) (r : List Char) :
    cut d (.outside n) 0 (w ++ r) = (cut d (.outside n) 0 r).map (Parts.prepend w) := by
  induction w with
  | nil => exact (map_prepend_nil _).symm
  | cons c w ih =>
      obtain ⟨hc, hw⟩ := List.forall_mem_cons.1 h
      obtain ⟨hs, hb⟩ := step_of_isPlain (d := d) (n := n) hc
      rw [List.cons_append, cut_cons (.inr (separator?_of_ne hb _)) hs, ih hw, map_prepend]
      rfl

theorem cut_quote_end {q : Char} {r : List Char} (hr : r.head? ≠ some q) :
    cut d (.quoted q n) 0 (q :: r) = (cut d (.outside n) 0 r).map (Parts.prepend [q]) := by
  have hs : Place.step d (.quoted q n) q = some (.ended q n) := by simp [Place.step]
  rw [cut_cons (.inl rfl) hs, cut_ended hr]

theorem cut_quote_twice {q : Char} (hq : q ≠ ' ') (s : List Char) :
    cut d (.quoted q n) 0 (q :: q :: s) = (cut d (.quoted q n) 0 s).map (Parts.prepend [q, q]) := by
  have hs : Place.step d (.quoted q n) q = some (.ended q n) := by simp [Place.step]
  have he : Place.step d (.ended q n) q = some (.quoted q n) := by simp [Place.step]
  rw [cut_cons (.inl rfl) hs, cut_cons (.inr (separator?_of_ne hq s)) he, map_prepend]
  rfl

theorem cut_quote_cons {q : Char} (hc : c ≠ q) (he : q ≠ '\'' ∨ d.backslashEscapes = false ∨ c ≠ '\\')
    (s : List Char) :
    cut d (.quoted q n) 0 (c :: s) = (cut d (.quoted q n) 0 s).map (Parts.prepend [c]) := by
  have hs : Place.step d (.quoted q n) c = some (.quoted q n) := by
    rcases he with he | he | he <;> simp [Place.step, hc, he]
  exact cut_cons (.inl rfl) hs

theorem cut_double {q : Char} (hq : q ≠ ' ') (he : q ≠ '\'' ∨ d.backslashEscapes = false) (s : List Char)
    {r : List Char} (hr : r.head? ≠ some q) :
    cut d (.quoted q n) 0 (Dialect.double q s ++ q :: r) =
      (cut d (.outside n) 0 r).map (Parts.prepend (Dialect.double q s ++ [q])) := by
  induction s with
  | nil => exact cut_quote_end hr
  | cons c s ih =>
      by_cases hc : c = q
      · subst c
        rw [Dialect.double, if_pos rfl, List.cons_append, List.cons_append, cut_quote_twice hq, ih,
          map_prepend]
        rfl
      · rw [Dialect.double, if_neg hc, List.cons_append, cut_quote_cons hc (he.imp_right .inl), ih,
          map_prepend]
        rfl

theorem cut_double_backslash (hb : d.backslashEscapes = true) (s : List Char) {r : List Char}
    (hr : r.head? ≠ some '\'') :
    cut d (.quoted '\'' n) 0 (Dialect.double '\\' (Dialect.double '\'' s) ++ '\'' :: r) =
      (cut d (.outside n) 0 r).map
        (Parts.prepend (Dialect.double '\\' (Dialect.double '\'' s) ++ ['\''])) := by
  induction s with
  | nil => exact cut_quote_end hr
  | cons c s ih =>
      by_cases hc : c = '\''
      · subst c
        have hd : Dialect.double '\\' (Dialect.double '\'' ('\'' :: s)) =
            '\'' :: '\'' :: Dialect.double '\\' (Dialect.double '\'' s) := rfl
        rw [hd, List.cons_append, List.cons_append, cut_quote_twice (by decide), ih, map_prepend]
        rfl
      · rw [Dialect.double, if_neg hc, Dialect.double]
        by_cases hs : c = '\\'
        · subst c
          have he : Place.step d (.quoted '\'' n) '\\' = some (.escaped n) := by simp [Place.step, hb]
          rw [if_pos rfl, List.cons_append, List.cons_append, cut_cons (.inl rfl) he,
            cut_cons (.inl rfl) rfl, ih, map_prepend, map_prepend]
          rfl
        · rw [if_neg hs, List.cons_append, cut_quote_cons hc (.inr (.inr hs)), ih, map_prepend]
          rfl

theorem cut_string (s : List Char) {r : List Char} (hr : r.head? ≠ some '\'') :
    cut d (.outside n) 0 (Dialect.quoteChars d.backslashEscapes s ++ r) =
      (cut d (.outside n) 0 r).map (Parts.prepend (Dialect.quoteChars d.backslashEscapes s)) := by
  have hs : Place.step d (.outside n) '\'' = some (.quoted '\'' n) := by simp [Place.step, Place.enter]
  have hb : separator? ('\'' :: r) = none := separator?_of_ne (by decide) r
  cases he : d.backslashEscapes with
  | false =>
      have h := cut_double (n := n) (by decide) (.inr he) s hr
      simp only [Dialect.quoteChars, Bool.false_eq_true, if_false, List.cons_append, List.append_assoc,
        List.nil_append]
      rw [cut_cons (.inr (separator?_of_ne (by decide) _)) hs, h, map_prepend]
      rfl
  | true =>
      have h := cut_double_backslash (n := n) he s hr
      simp only [Dialect.quoteChars, if_true, List.cons_append, List.append_assoc, List.nil_append]
      rw [cut_cons (.inr (separator?_of_ne (by decide) _)) hs, h, map_prepend]
      rfl

theorem cut_identifier (s : List Char) {r : List Char} (hr : r.head? ≠ some d.quoteStyle.closing) :
    cut d (.outside n) 0 (d.quoteIdentifierChars s ++ r) =
      (cut d (.outside n) 0 r).map (Parts.prepend (d.quoteIdentifierChars s)) := by
  have ho : d.quoteStyle.opening ≠ ' ' ∧ d.quoteStyle.opening ≠ '\'' := by cases d.quoteStyle <;> decide
  have hc : d.quoteStyle.closing ≠ ' ' ∧ d.quoteStyle.closing ≠ '\'' := by cases d.quoteStyle <;> decide
  have hs : Place.step d (.outside n) d.quoteStyle.opening = some (.quoted d.quoteStyle.closing n) := by
    simp [Place.step, Place.enter, ho.2]
  have h := cut_double (d := d) (n := n) hc.1 (.inl hc.2) s hr
  rw [Dialect.quoteIdentifierChars, List.append_assoc, List.cons_append,
    cut_cons (.inr (separator?_of_ne ho.1 _)) hs]
  exact (congrArg (Option.map _) h).trans (map_prepend _ _ _)

theorem cut_mark {s : List Char} (hs : s ∈ marks) {m : Nat} (hm : (Token.mark s).depth? n = some m)
    (r : List Char) :
    cut d (.outside n) 0 (s ++ r) = (cut d (.outside m) 0 r).map (Parts.prepend s) := by
  have hp : ∀ w ∈ marks, w ≠ ['('] → w ≠ [')'] → w.all isPlain = true := by decide
  by_cases ho : s = ['(']
  · subst s
    cases hm
    have hq : '(' ≠ d.quoteStyle.opening := opening_ne (by decide)
    have hs : Place.step d (.outside n) '(' = some (.outside (n + 1)) := by
      simp [Place.step, Place.enter, hq]
    exact cut_cons (.inr (separator?_of_ne (by decide) _)) hs
  · by_cases hc : s = [')']
    · subst s
      have hn : n ≠ 0 := by
        rintro rfl
        cases hm
      have he : m = n - 1 := by simpa [Token.depth?, hn, eq_comm] using hm
      subst m
      have hq : ')' ≠ d.quoteStyle.opening := opening_ne (by decide)
      have hs : Place.step d (.outside n) ')' = some (.outside (n - 1)) := by
        simp [Place.step, Place.enter, hq, hn]
      exact cut_cons (.inr (separator?_of_ne (by decide) _)) hs
    · have he : m = n := by simpa [Token.depth?, ho, hc, eq_comm] using hm
      subst m
      exact cut_plain (List.all_eq_true.1 (hp s hs ho hc)) r

/-- A token is passed over as a whole. Only a parenthesis changes the depth. -/
theorem cut_text {t : Token} (ht : t.IsValid) {m : Nat} (hm : t.depth? n = some m) {r : List Char}
    (hr : stops (t.isExtendedBy d) r = true) :
    cut d (.outside n) 0 (t.text d ++ r) = (cut d (.outside m) 0 r).map (Parts.prepend (t.text d)) := by
  cases t with
  | identifier s =>
      cases hm
      exact cut_identifier s (head?_ne_of_stops hr)
  | string s =>
      cases hm
      exact cut_string s (head?_ne_of_stops hr)
  | number s =>
      cases hm
      refine cut_plain (fun c hc => ?_) r
      rcases ht.isDigit_or_eq c hc with h | rfl | rfl
      · simp [isPlain, h]
      · rfl
      · rfl
  | keyword s =>
      have hs : keywords.all (fun w => w.all isPlain) = true := by decide
      have he : m = n := by
        simp only [Token.depth?] at hm
        split at hm <;> cases hm
        rfl
      subst m
      exact cut_plain (List.all_eq_true.1 (List.all_eq_true.1 hs s ht)) r
  | mark s => exact cut_mark ht hm r

theorem separator?_of_ne_ne (ha : c ≠ 'A') (ho : c ≠ 'O') (s : List Char) :
    separator? (' ' :: c :: s) = none := by
  simp [separator?, Combinator.separator, Combinator.keyword, List.isPrefixOf, ha.symm, ho.symm]

theorem separator?_keyword {w : List Char} (hw : w ∈ keywords) (hj : w ∉ joinWords) (r : List Char) :
    separator? (' ' :: (w ++ r)) = none := by
  have hk : ∀ w ∈ keywords, w ∉ joinWords → 2 ≤ w.length ∧ w.take 2 ∉ [['A', 'N'], ['O', 'R']] := by
    decide
  obtain ⟨hlen, hu⟩ := hk w hw hj
  match w, hlen with
  | a :: b :: u, _ => exact separator?_of_not_mem hu _

theorem separator?_text {t : Token} (ht : t.IsValid) {m : Nat} (hm : t.depth? 0 = some m) (r : List Char) :
    separator? (' ' :: (t.text d ++ r)) = none := by
  cases t with
  | identifier s => exact separator?_of_ne_ne (opening_ne (by decide)).symm (opening_ne (by decide)).symm _
  | string s => exact separator?_of_ne_ne (by decide) (by decide) _
  | number s =>
      obtain ⟨c, u, rfl, hc⟩ := ht.exists_cons
      rcases hc with rfl | hc
      · exact separator?_of_ne_ne (by decide) (by decide) _
      · exact separator?_of_ne_ne (ne_of_class hc rfl) (ne_of_class hc rfl) _
  | mark s =>
      obtain ⟨c, u, rfl, hc⟩ := exists_cons_of_mark ht
      refine separator?_of_ne_ne ?_ ?_ _ <;> (rintro rfl; revert hc; decide)
  | keyword s =>
      have hj : s ∉ joinWords := by
        intro hj
        simp [Token.depth?, hj] at hm
      exact separator?_keyword ht hj r

/-- A blank outside of parentheses begins no separator unless a word that joins follows. -/
theorem separator?_blank {l : Layout} (h : l.IsReadable d) {m : Nat} (hm : l.depth? 0 = some m)
    {r : List Char} (hr : ∀ c ∈ r.head?, c = ' ') : separator? (' ' :: (write d l ++ r)) = none := by
  cases l with
  | nil =>
      cases r with
      | nil => rfl
      | cons c r =>
          cases hr c rfl
          exact separator?_of_ne_ne (by decide) (by decide) _
  | cons x l =>
      cases x with
      | none => exact separator?_of_ne_ne (by decide) (by decide) _
      | some t =>
          obtain ⟨k, hk, -⟩ := Option.bind_eq_some_iff.1 hm
          rw [write, List.flatMap_cons, List.append_assoc]
          exact separator?_text (h.valid t (by simp)) hk _

theorem cut_write {l : Layout} (h : l.IsReadable d) {n m : Nat} (hm : l.depth? n = some m) {r : List Char}
    (hr : ∀ c ∈ r.head?, c = ' ') :
    cut d (.outside n) 0 (write d l ++ r) = (cut d (.outside m) 0 r).map (Parts.prepend (write d l)) := by
  induction l generalizing n with
  | nil =>
      cases hm
      exact (map_prepend_nil _).symm
  | cons x l ih =>
      cases x with
      | none =>
          -- Whether a blank begins a separator depends on the token behind it, not on the blank alone.
          have hs : (Place.outside n).isLevel = false ∨ separator? (' ' :: (write d l ++ r)) = none := by
            cases n with
            | zero => exact .inr (separator?_blank h.tail hm hr)
            | succ n => exact .inl rfl
          have hp : Place.step d (.outside n) ' ' = some (.outside n) := by
            have ho : ' ' ≠ d.quoteStyle.opening := opening_ne (by decide)
            simp [Place.step, Place.enter, ho]
          exact (cut_cons hs hp).trans ((congrArg _ (ih h.tail hm)).trans (map_prepend _ _ _))
      | some t =>
          obtain ⟨k, hk, hl⟩ := Option.bind_eq_some_iff.1 hm
          have hr' : stops (t.isExtendedBy d) r = true := by
            cases r with
            | nil => rfl
            | cons c r =>
                cases hr c rfl
                simp [stops, isExtendedBy_eq_false t]
          have ht := cut_text (h.valid t (by simp)) hk (stops_write h hr')
          rw [write, List.flatMap_cons, List.append_assoc]
          exact ht.trans ((congrArg _ (ih h.tail hl)).trans (map_prepend _ _ _))

theorem foldlM_of_cut {s f : List Char} (h : cut d p 0 s = some (f, [])) :
    ∃ q, s.foldlM (Place.step d) p = some q ∧ q.isLevel = true := by
  induction s generalizing p f with
  | nil =>
      rw [cut] at h
      split at h
      · next hp => exact ⟨p, rfl, hp⟩
      · cases h
  | cons c s ih =>
      rw [cut] at h
      split at h
      · obtain ⟨x, _, hx⟩ := Option.map_eq_some_iff.1 h
        cases hx
      · obtain ⟨q, hq, h⟩ := Option.bind_eq_some_iff.1 h
        obtain ⟨⟨g, gs⟩, hx, he⟩ := Option.map_eq_some_iff.1 h
        cases he
        obtain ⟨e, he, hl⟩ := ih hx
        exact ⟨e, by rw [List.foldlM_cons, hq]; exact he, hl⟩

theorem isBalanced_of_parts {s f : List Char} (h : parts d s = some (f, [])) :
    IsBalanced d s := foldlM_of_cut h

theorem parts_write {l : Layout} (h : l.IsClosed d 0) : parts d (write d l) = some (write d l, []) := by
  have hw := cut_write h.toIsReadable (h.depth 0 le_rfl) (r := []) (by simp)
  rw [List.append_nil] at hw
  rw [parts, hw]
  simp [cut, Place.isLevel, Parts.prepend]

theorem parts_intercalate (k : Combinator) {l : Layout} {ls : List Layout}
    (h : ∀ m ∈ l :: ls, m.IsClosed d 0) :
    parts d (k.separator.intercalate ((l :: ls).map (write d))) =
      some (write d l, ls.map fun m => (k, write d m)) := by
  induction ls generalizing l with
  | nil => simpa using parts_write (h l (by simp))
  | cons m ls ih =>
      obtain ⟨hl, hms⟩ := List.forall_mem_cons.1 h
      -- What follows the first layout begins with the blank of the separator, so `cut_write` applies.
      have hw := cut_write hl.toIsReadable (hl.depth 0 le_rfl)
        (r := k.separator ++ k.separator.intercalate ((m :: ls).map (write d)))
        (by simp [Combinator.separator])
      rw [List.map_cons, List.map_cons, List.intercalate_cons_cons, ← List.map_cons, List.append_assoc,
        parts, hw, cut_separator]
      have hr := ih hms
      rw [parts] at hr
      rw [hr]
      simp [Parts.part, Parts.prepend]

/-- What a clause asks for: AND holds together more tightly than OR, so a list of alternatives, each with
the parts that it takes together. -/
def alternatives : List Char → List (Combinator × List Char) → List (List (List Char))
  | f, [] => [[f]]
  | f, (.any, g) :: fs => [f] :: alternatives g fs
  | f, (.all, g) :: fs =>
    match alternatives g fs with
    | [] => [[f]]
    | a :: as => (f :: a) :: as

theorem alternatives_all (f : List Char) (fs : List (List Char)) :
    alternatives f (fs.map fun g => (.all, g)) = [f :: fs] := by
  induction fs generalizing f with
  | nil => rfl
  | cons g fs ih => rw [List.map_cons, alternatives, ih]

theorem alternatives_any (f : List Char) (fs : List (List Char)) :
    alternatives f (fs.map fun g => (.any, g)) = (f :: fs).map fun g => [g] := by
  induction fs generalizing f with
  | nil => rfl
  | cons g fs ih =>
      rw [List.map_cons, alternatives, ih]
      rfl

end Sql

end PredicateSearch

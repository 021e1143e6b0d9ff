import Mathlib
import PredicateSearch.Proofs.Decimal.Numeral
import PredicateSearch.Proofs.Sql.Quoting

namespace PredicateSearch.Sql

open Decimal

/-- The words of SQL that conditions are written with. A name that is not quoted is none of them. -/
inductive Token where
  | identifier (s : List Char)
  | string (s : List Char)
  | number (s : List Char)
  | keyword (s : List Char)
  | mark (s : List Char)
  deriving DecidableEq, Repr

def keywords : List (List Char) :=
  ["AND", "OR", "NOT", "NULL", "IS", "IN", "LIKE", "ILIKE", "ESCAPE", "LOWER", "CAST", "AS", "TRUE",
   "FALSE", "TEXT", "CHAR"].map String.toList

/-- Of two marks that begin alike the longer goes first. -/
def marks : List (List Char) :=
  ["!=", "<=", ">=", "=", "<", ">", "(", ")", ",", "."].map String.toList

def readFraction : List Char → List Char × List Char
  | '.' :: s =>
    if s.takeWhile Char.isDigit = [] then ([], '.' :: s)
    else ('.' :: s.takeWhile Char.isDigit, s.dropWhile Char.isDigit)
  | s => ([], s)

def readSize (s : List Char) : Option (List Char × List Char) :=
  let whole := s.takeWhile Char.isDigit
  let (fraction, r) := readFraction (s.dropWhile Char.isDigit)
  if whole = [] then none else some (whole ++ fraction, r)

def readNumber : List Char → Option (List Char × List Char)
  | '-' :: s => (readSize s).map fun (t, r) => ('-' :: t, r)
  | s => readSize s

def readKeyword (s : List Char) : Option (List Char × List Char) :=
  let word := s.takeWhile Char.isAlpha
  if word ∈ keywords then some (word, s.dropWhile Char.isAlpha) else none

def readMark (s : List Char) : Option (List Char × List Char) :=
  marks.findSome? fun m => (m.isPrefixOf? s).map fun r => (m, r)

def asToken (f : List Char → Token) (x : List Char × List Char) : Token × List Char := (f x.1, x.2)

/-- The token that a text begins with in the dialect, and the rest of the text. -/
def next (d : Dialect) : List Char → Option (Token × List Char)
  | [] => none
  | c :: s =>
    if c = d.quoteStyle.opening then (d.readIdentifier (c :: s)).map (asToken .identifier)
    else if c = '\'' then (d.readString (c :: s)).map (asToken .string)
    else if c.isAlpha then (readKeyword (c :: s)).map (asToken .keyword)
    else if c = '-' || c.isDigit then (readNumber (c :: s)).map (asToken .number)
    else (readMark (c :: s)).map (asToken .mark)

/-- All tokens of a text, which may be parted by blanks. -/
def tokens (d : Dialect) : List Char → Option (List Token)
  | [] => some []
  | c :: s =>
    if c = ' ' then tokens d s
    else
      match next d (c :: s) with
      | none => none
      | some (t, r) => if r.length ≤ s.length then (tokens d r).map (t :: ·) else none
termination_by s => s.length

namespace Token

def text (d : Dialect) : Token → List Char
  | identifier s => d.quoteIdentifierChars s
  | string s => Dialect.quoteChars d.backslashEscapes s
  | number s | keyword s | mark s => s

def IsValid : Token → Prop
  | identifier _ | string _ => True
  | number s => IsNumeral s
  | keyword s => s ∈ keywords
  | mark s => s ∈ marks

/-- The characters that would be read as a part of the token if they followed it. -/
def isExtendedBy (d : Dialect) : Token → Char → Bool
  | identifier _, c => c = d.quoteStyle.closing
  | string _, c => c = '\''
  | number _, c => c = '.' || c.isDigit
  | keyword _, c => c.isAlpha
  | mark s, c => (s = ['<'] || s = ['>']) && c = '='

end Token

def stops (p : Char → Bool) : List Char → Bool
  | [] => true
  | c :: _ => !p c

theorem takeWhile_of_stops {p : Char → Bool} {s r : List Char} (hs : ∀ c ∈ s, p c = true)
    (hr : stops p r = true) :
    (s ++ r).takeWhile p = s ∧ (s ++ r).dropWhile p = r := by
  rw [List.takeWhile_append_of_pos hs, List.dropWhile_append_of_pos hs]
  cases r with
  | nil => simp
  | cons c r =>
      have hc : p c = false := by simpa [stops] using hr
      simp [hc]

theorem head?_ne_of_stops {q : Char} {r : List Char} (hr : stops (· = q) r = true) : r.head? ≠ some q := by
  cases r with
  | nil => simp
  | cons c r => simpa [stops] using hr

theorem readFraction_of_stops {r : List Char} (hr : stops (fun c => c = '.' || c.isDigit) r = true) :
    readFraction r = ([], r) := by
  cases r with
  | nil => rfl
  | cons c r =>
      have hc : c ≠ '.' := by rintro rfl; simp [stops] at hr
      simp [readFraction, hc]

theorem stops_mono {p q : Char → Bool} {r : List Char} (h : ∀ c, q c = true → p c = true)
    (hr : stops p r = true) : stops q r = true := by
  cases r with
  | nil => rfl
  | cons c r =>
      simp only [stops, Bool.not_eq_true'] at hr ⊢
      have hc := h c
      cases hq : q c <;> simp_all

abbrev inNumber (c : Char) : Bool := c = '.' || c.isDigit

theorem readSize_append {s r : List Char} (h : IsSize s) (hr : stops inNumber r = true) :
    readSize (s ++ r) = some (s, r) := by
  have hd : stops Char.isDigit r = true := stops_mono (by simp_all [inNumber]) hr
  cases h with
  | whole h =>
      obtain ⟨ht, hd⟩ := takeWhile_of_stops h.2 hd
      simp [readSize, ht, hd, readFraction_of_stops hr, h.1]
  | @fraction s t hs ht =>
      obtain ⟨ht₁, hd₁⟩ := takeWhile_of_stops (r := '.' :: (t ++ r)) hs.2 rfl
      obtain ⟨ht₂, hd₂⟩ := takeWhile_of_stops ht.2 hd
      simp [readSize, ht₁, hd₁, readFraction, ht₂, hd₂, hs.1, ht.1]

theorem readNumber_append {s r : List Char} (h : IsNumeral s) (hr : stops inNumber r = true) :
    readNumber (s ++ r) = some (s, r) := by
  cases h with
  | negative h => simp [readNumber, readSize_append h hr]
  | plain h =>
      obtain ⟨c, t, rfl, hc⟩ := h.exists_cons
      have hm : c ≠ '-' := by rintro rfl; cases hc
      rw [← readSize_append h hr]
      simp [readNumber, hm]

theorem readKeyword_append {s r : List Char} (h : s ∈ keywords) (hr : stops Char.isAlpha r = true) :
    readKeyword (s ++ r) = some (s, r) := by
  have hs : keywords.all (fun w => w.all Char.isAlpha) = true := by decide
  obtain ⟨ht, hd⟩ := takeWhile_of_stops (List.all_eq_true.1 (List.all_eq_true.1 hs s h)) hr
  simp [readKeyword, ht, hd, h]

/-- Only the signs of order are the beginning of another mark. -/
theorem readMark_append {s r : List Char} (h : s ∈ marks)
    (hr : stops (fun c => (s = ['<'] || s = ['>']) && c = '=') r = true) :
    readMark (s ++ r) = some (s, r) := by
  have he (h : s = ['<'] ∨ s = ['>']) : ['='].isPrefixOf? r = none := by
    cases r with
    | nil => rfl
    | cons c r =>
        have hc : c ≠ '=' := by rcases h with rfl | rfl <;> simpa [stops] using hr
        simp [List.isPrefixOf?, hc.symm]
  simp only [marks, List.map_cons, List.map_nil, List.mem_cons, List.not_mem_nil, or_false] at h
  rcases h with rfl | rfl | rfl | rfl | rfl | rfl | rfl | rfl | rfl | rfl
  case inr.inr.inr.inr.inl => simp [readMark, marks, List.isPrefixOf?, he (.inl rfl)]
  case inr.inr.inr.inr.inr.inl => simp [readMark, marks, List.isPrefixOf?, he (.inr rfl)]
  all_goals simp [readMark, marks, List.isPrefixOf?]

variable {d : Dialect} {c : Char}

theorem opening_ne (h : c ∉ ['"', '\x60', '[']) : c ≠ d.quoteStyle.opening := by
  rintro rfl
  cases hs : d.quoteStyle <;> simp [QuoteStyle.opening, hs] at h

theorem ne_of_class {p : Char → Bool} {x : Char} (hc : p c = true) (hx : p x = false) : c ≠ x := by
  rintro rfl
  rw [hc] at hx
  cases hx

theorem isAlpha_of_isDigit (h : c.isDigit = true) : c.isAlpha = false := by
  grind [Char.isDigit, Char.isAlpha, Char.isUpper, Char.isLower]

theorem next_number {s : List Char} (h : c = '-' ∨ c.isDigit = true) :
    next d (c :: s) = (readNumber (c :: s)).map (asToken .number) := by
  have ho : c ≠ d.quoteStyle.opening := by
    apply opening_ne
    rcases h with rfl | h
    · decide
    · simp [ne_of_class (x := '"') h rfl, ne_of_class (x := '\x60') h rfl, ne_of_class (x := '[') h rfl]
  have hq : c ≠ '\'' := by
    rcases h with rfl | h
    · decide
    · exact ne_of_class h rfl
  have ha : c.isAlpha = false := by
    rcases h with rfl | h
    · decide
    · exact isAlpha_of_isDigit h
  simp [next, ho, hq, ha, h]

theorem next_keyword {s : List Char} (h : c.isAlpha = true) :
    next d (c :: s) = (readKeyword (c :: s)).map (asToken .keyword) := by
  have ho : c ≠ d.quoteStyle.opening := by
    apply opening_ne
    simp [ne_of_class (x := '"') h rfl, ne_of_class (x := '\x60') h rfl, ne_of_class (x := '[') h rfl]
  have hq : c ≠ '\'' := ne_of_class h rfl
  simp [next, ho, hq, h]

theorem next_mark {s : List Char} (h : c ∈ ['!', '<', '>', '=', '(', ')', ',', '.']) :
    next d (c :: s) = (readMark (c :: s)).map (asToken .mark) := by
  have ho : c ≠ d.quoteStyle.opening := by
    apply opening_ne
    simp only [List.mem_cons, List.not_mem_nil, or_false] at h
    rcases h with rfl | rfl | rfl | rfl | rfl | rfl | rfl | rfl <;> decide
  simp only [List.mem_cons, List.not_mem_nil, or_false] at h
  rcases h with rfl | rfl | rfl | rfl | rfl | rfl | rfl | rfl <;> simp [next, ho]

theorem exists_cons_of_keyword {s : List Char} (h : s ∈ keywords) :
    ∃ c u, s = c :: u ∧ c.isAlpha = true := by
  have hk : keywords.all (fun w => w.head?.any Char.isAlpha) = true := by decide
  obtain ⟨c, hs, hc⟩ := (Option.any_eq_true _ _).1 (List.all_eq_true.1 hk s h)
  obtain ⟨u, rfl⟩ := List.head?_eq_some_iff.1 hs
  exact ⟨c, u, rfl, hc⟩

theorem exists_cons_of_mark {s : List Char} (h : s ∈ marks) :
    ∃ c u, s = c :: u ∧ c ∈ ['!', '<', '>', '=', '(', ')', ',', '.'] := by
  have hm : marks.all (fun m => m.head?.any (· ∈ ['!', '<', '>', '=', '(', ')', ',', '.'])) = true := by
    decide
  obtain ⟨c, hs, hc⟩ := (Option.any_eq_true _ _).1 (List.all_eq_true.1 hm s h)
  obtain ⟨u, rfl⟩ := List.head?_eq_some_iff.1 hs
  exact ⟨c, u, rfl, of_decide_eq_true hc⟩

theorem next_text {t : Token} (ht : t.IsValid) {r : List Char} (hr : stops (t.isExtendedBy d) r = true) :
    next d (t.text d ++ r) = some (t, r) := by
  cases t with
  | identifier s =>
      have h := d.readIdentifier_quoteIdentifierChars s r (head?_ne_of_stops hr)
      obtain ⟨u, hu⟩ : ∃ u, d.quoteIdentifierChars s ++ r = d.quoteStyle.opening :: u := ⟨_, rfl⟩
      rw [Token.text, hu, next, if_pos rfl, ← hu, h]
      rfl
  | string s =>
      have h := d.readString_quoteChars s r (head?_ne_of_stops hr)
      obtain ⟨u, hu⟩ : ∃ u, Dialect.quoteChars d.backslashEscapes s ++ r = '\'' :: u := ⟨_, rfl⟩
      rw [Token.text, hu, next, if_neg (opening_ne (by decide)), if_pos rfl, ← hu, h]
      rfl
  | number s =>
      have h := readNumber_append ht hr
      obtain ⟨c, u, rfl, hc⟩ := ht.exists_cons
      rw [Token.text, List.cons_append, next_number hc, ← List.cons_append, h]
      rfl
  | keyword s =>
      have h := readKeyword_append ht hr
      obtain ⟨c, u, rfl, hc⟩ := exists_cons_of_keyword ht
      rw [Token.text, List.cons_append, next_keyword hc, ← List.cons_append, h]
      rfl
  | mark s =>
      have h := readMark_append ht hr
      obtain ⟨c, u, rfl, hc⟩ := exists_cons_of_mark ht
      rw [Token.text, List.cons_append, next_mark hc, ← List.cons_append, h]
      rfl

theorem exists_cons_text (d : Dialect) {t : Token} (ht : t.IsValid) :
    ∃ c u, t.text d = c :: u ∧ c ≠ ' ' := by
  cases t with
  | identifier s => exact ⟨_, _, rfl, (opening_ne (by decide)).symm⟩
  | string s => exact ⟨_, _, rfl, by decide⟩
  | number s =>
      obtain ⟨c, u, rfl, hc⟩ := ht.exists_cons
      refine ⟨c, u, rfl, ?_⟩
      rcases hc with rfl | hc
      · decide
      · exact ne_of_class hc rfl
  | keyword s =>
      obtain ⟨c, u, rfl, hc⟩ := exists_cons_of_keyword ht
      exact ⟨c, u, rfl, ne_of_class hc rfl⟩
  | mark s =>
      obtain ⟨c, u, rfl, hc⟩ := exists_cons_of_mark ht
      refine ⟨c, u, rfl, ?_⟩
      rintro rfl
      revert hc
      decide

theorem tokens_text {t : Token} (ht : t.IsValid) {r : List Char} (hr : stops (t.isExtendedBy d) r = true) :
    tokens d (t.text d ++ r) = (tokens d r).map (t :: ·) := by
  have h := next_text ht hr
  obtain ⟨c, u, hc, hb⟩ := exists_cons_text d ht
  rw [hc, List.cons_append] at h ⊢
  simp [tokens, hb, h]

end PredicateSearch.Sql

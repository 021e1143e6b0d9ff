import PredicateSearch.Condition.Sql
import PredicateSearch.Proofs.Condition.Typing
import PredicateSearch.Proofs.Sql.Token
import PredicateSearch.Proofs.Text.Reader

namespace PredicateSearch

open Decimal Sql Text

/-! What a condition compares its column with, read to the end -/

namespace Dialect

/-- What may be left of a text behind a string, a number or a truth value. A dialect is free in its words for
truth values, so one of them may begin like the other. -/
def afterValue (d : Dialect) (s : List Char) : List (List Char) :=
  [(d.readString s).map Prod.snd, (readNumber s).map Prod.snd, d.trueText.toList.isPrefixOf? s,
    d.falseText.toList.isPrefixOf? s].filterMap id

def isValue (d : Dialect) (s : List Char) : Bool := (d.afterValue s).any List.isEmpty

/-- Values with commas between, and nothing behind the parenthesis that ends them. -/
def endsList (d : Dialect) : Nat → List Char → Bool
  | 0, _ => false
  | n + 1, s => (d.afterValue s).any fun r => r = [')'] || ([',', ' '].isPrefixOf? r).any (d.endsList n)

/-- No list has more values than characters. -/
def isList (d : Dialect) : List Char → Bool
  | '(' :: s => d.endsList s.length s
  | _ => false

def stringReader (d : Dialect) : Reader (List Char) := d.readString

def patternReader (d : Dialect) : Reader (List Char) :=
  (do
    Reader.literal ['L', 'O', 'W', 'E', 'R', '(']
    let s ← d.stringReader
    Reader.literal [')']
    return s) <|> d.stringReader

def escapeReader (d : Dialect) : Reader (List Char) := Reader.literal " ESCAPE ".toList *> d.stringReader

/-- A string that may have its case folded, and the character that escapes, if it is named. -/
def isPattern (d : Dialect) (s : List Char) : Bool :=
  ((d.patternReader <* optional d.escapeReader).all? s).isSome

end Dialect

namespace Sql

/-- No value goes on with what stands behind it. -/
def endsValue : List Char → Bool := stops fun c => c = '\'' || inNumber c

variable {d : Dialect} {s r : List Char}

theorem mem_afterValue_string (s : String) (hr : endsValue r = true) :
    r ∈ d.afterValue ((d.quoteString s).toList ++ r) := by
  have hq : r.head? ≠ some '\'' := head?_ne_of_stops (stops_mono (by simp) hr)
  have h := d.readString_quoteChars s.toList r hq
  simp [Dialect.afterValue, Dialect.quoteString, h]

theorem mem_afterValue_number (hs : IsNumeral s) (hr : endsValue r = true) : r ∈ d.afterValue (s ++ r) := by
  have h := readNumber_append hs (stops_mono (by simp_all) hr)
  simp [Dialect.afterValue, h]

theorem mem_afterValue_bool (b : Bool) (r : List Char) : r ∈ d.afterValue ((d.boolText b).toList ++ r) := by
  have h (w : List Char) : w.isPrefixOf? (w ++ r) = some r := List.isPrefixOf?_eq_some_iff_append_eq.2 rfl
  cases b <;> simp [Dialect.afterValue, Dialect.boolText, h]

end Sql

theorem Literal.mem_afterValue {d : Dialect} {type : ValueType} {l : Literal} (h : l.Suits type) {r : List Char}
    (hr : endsValue r = true) : r ∈ d.afterValue ((l.sql d).toList ++ r) := by
  cases l with
  | bool b => exact mem_afterValue_bool b r
  | int n => simpa [sql] using mem_afterValue_number (isNumeral_intText n.toInt) hr
  | float x => simpa [sql] using mem_afterValue_number (isNumeral_floatText (isFinite_of_suits h)) hr
  | text s => exact mem_afterValue_string s hr

theorem Literal.isValue_sql {d : Dialect} {type : ValueType} {l : Literal} (h : l.Suits type) :
    d.isValue (l.sql d).toList = true := by
  have hm := l.mem_afterValue (d := d) h (r := []) rfl
  rw [List.append_nil] at hm
  exact List.any_eq_true.2 ⟨[], hm, rfl⟩

namespace Dialect

variable {d : Dialect}

theorem isValue_boolText (b : Bool) : d.isValue (d.boolText b).toList = true := by
  have hm := mem_afterValue_bool (d := d) b []
  rw [List.append_nil] at hm
  exact List.any_eq_true.2 ⟨[], hm, rfl⟩

theorem endsList_sql {type : ValueType} {l : Literal} {ls : List Literal} (h : ∀ m ∈ l :: ls, m.Suits type) {n : Nat}
    (hn : ls.length < n) :
    d.endsList n ([',', ' '].intercalate ((l :: ls).map fun m => (m.sql d).toList) ++ [')']) = true := by
  induction ls generalizing l n with
  | nil =>
      obtain ⟨n, rfl⟩ := Nat.exists_eq_add_one_of_ne_zero (Nat.ne_zero_of_lt hn)
      have hm := l.mem_afterValue (d := d) (h l List.mem_cons_self) (r := [')']) rfl
      rw [endsList, List.any_eq_true]
      exact ⟨_, by simpa using hm, by simp⟩
  | cons m ls ih =>
      obtain ⟨n, rfl⟩ := Nat.exists_eq_add_one_of_ne_zero (Nat.ne_zero_of_lt hn)
      obtain ⟨hl, hls⟩ := List.forall_mem_cons.1 h
      have hm := ih hls (Nat.lt_of_succ_lt_succ hn)
      rw [endsList, List.any_eq_true]
      refine ⟨[',', ' '] ++ ([',', ' '].intercalate ((m :: ls).map fun m => (m.sql d).toList) ++ [')']), ?_, ?_⟩
      · simpa [List.intercalate_cons_cons] using l.mem_afterValue (d := d) hl (r := _) rfl
      · rw [List.isPrefixOf?_eq_some_iff_append_eq.2 rfl, Option.any_some, hm, Bool.or_true]

theorem length_le_intercalate (a b : Char) (l : List Char) (ls : List (List Char)) :
    ls.length ≤ ([a, b].intercalate (l :: ls)).length := by
  induction ls generalizing l with
  | nil => simp
  | cons m ls ih =>
      have h := ih m
      simp only [List.intercalate_cons_cons, List.length_append, List.length_cons] at h ⊢
      omega

theorem isList_sql {type : ValueType} {ls : List Literal} (hne : ls ≠ []) (h : ∀ l ∈ ls, l.Suits type) :
    d.isList ('(' :: ([',', ' '].intercalate (ls.map fun l => (l.sql d).toList) ++ [')'])) = true := by
  obtain ⟨l, ls, rfl⟩ := List.exists_cons_of_ne_nil hne
  refine endsList_sql h ?_
  have hl := length_le_intercalate ',' ' ' (l.sql d).toList (ls.map fun l => (l.sql d).toList)
  rw [List.length_map] at hl
  rw [List.length_append, List.map_cons]
  exact Nat.lt_succ_of_le hl

open Reader

theorem stringReader_quoteString (s : String) {r : List Char} (hr : r.head? ≠ some '\'') :
    d.stringReader ((d.quoteString s).toList ++ r) = some (s.toList, r) := by
  rw [quoteString, String.toList_ofList]
  exact d.readString_quoteChars s.toList r hr

theorem patternReader_quoteString (s : String) {r : List Char} (hr : r.head? ≠ some '\'') :
    d.patternReader ((d.quoteString s).toList ++ r) = some (s.toList, r) := by
  have hl : literal ['L', 'O', 'W', 'E', 'R', '('] ((d.quoteString s).toList ++ r) = none := by
    rw [quoteString, String.toList_ofList, quoteChars]
    exact literal_of_ne (by decide) _ _
  rw [patternReader, orElse_of_none (bind_of_none hl), stringReader_quoteString s hr]

theorem patternReader_lower (s : String) (r : List Char) :
    d.patternReader (['L', 'O', 'W', 'E', 'R', '('] ++ ((d.quoteString s).toList ++ ')' :: r)) =
      some (s.toList, r) := by
  have hs : d.stringReader ((d.quoteString s).toList ++ ')' :: r) = some (s.toList, ')' :: r) :=
    stringReader_quoteString s (by simp)
  refine orElse_of_some ?_
  rw [bind_of_some (literal_append _ _), bind_of_some hs, bind_of_some (literal_cons ')' r)]
  rfl

/-- Whatever the pattern is written as, it may stand alone and with the character that escapes. -/
theorem isPattern_of_patternReader {w : String} {p : List Char}
    (h : ∀ r : List Char, r.head? ≠ some '\'' → d.patternReader (w.toList ++ r) = some (p, r)) :
    d.isPattern w.toList = true ∧ d.isPattern (w ++ " ESCAPE " ++ d.quoteString "\\").toList = true := by
  constructor
  · have hw := h [] (by simp)
    have he : optional d.escapeReader [] = some (none, []) := optional_of_none rfl
    rw [List.append_nil] at hw
    rw [isPattern, all?, seqLeft_of_some hw he]
    rfl
  · have hw := h (" ESCAPE ".toList ++ (d.quoteString "\\").toList) (by simp)
    have hs := d.stringReader_quoteString "\\" (r := []) (by simp)
    have he : optional d.escapeReader (" ESCAPE ".toList ++ (d.quoteString "\\").toList) = some (some ['\\'], []) := by
      rw [List.append_nil] at hs
      refine optional_of_some ?_
      rw [escapeReader, seqRight_of_some (literal_append _ _), hs]
      rfl
    rw [String.toList_append, String.toList_append, List.append_assoc, isPattern, all?, seqLeft_of_some hw he]
    rfl

end Dialect

end PredicateSearch

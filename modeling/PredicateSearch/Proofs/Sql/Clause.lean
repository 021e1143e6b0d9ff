import Mathlib.Data.List.Basic
import PredicateSearch.Condition.Sql
import PredicateSearch.Proofs.Sql.Quoting
import PredicateSearch.Proofs.Sql.Truth
import PredicateSearch.Proofs.Sql.Value
import PredicateSearch.Proofs.Text.Reader

namespace PredicateSearch

open Sql Text

namespace Sql

/-- The words of each phrase. None of them begins like another. -/
def phrases : List (List Char × Phrase) := [
  (" = ".toList, .compare .equal),
  (" != ".toList, .compare .unequal),
  (" < ".toList, .compare (.order .less)),
  (" <= ".toList, .compare (.order .lessEqual)),
  (" > ".toList, .compare (.order .greater)),
  (" >= ".toList, .compare (.order .greaterEqual)),
  (" IS NULL".toList, .null true),
  (" IS NOT NULL".toList, .null false),
  (" LIKE ".toList, .like false true),
  (" NOT LIKE ".toList, .like false false),
  (" ILIKE ".toList, .like true true),
  (" NOT ILIKE ".toList, .like true false),
  (" IN ".toList, .member true),
  (" NOT IN ".toList, .member false)]

def readPhrase : Reader Phrase := fun s =>
  phrases.findSome? fun (w, p) => (w.isPrefixOf? s).map fun r => (p, r)

def joints : List (List Char × (Atom → Atom → Test)) := [(" AND ".toList, .both), (" OR ".toList, .either)]

def readJoint : Reader (Atom → Atom → Test) := fun s =>
  joints.findSome? fun (w, f) => (w.isPrefixOf? s).map fun r => (f, r)

/-- Whether a text is all that the phrase asks to stand behind it. -/
def Phrase.fits (d : Dialect) : Phrase → List Char → Bool
  | compare _, s => d.isValue s
  | like _ _, s => d.isPattern s
  | member _, s => d.isList s
  | null _, s => s.isEmpty

end Sql

namespace Dialect

def readColumn (d : Dialect) : Reader Subject := do
  let table ← (d.readIdentifier : Reader (List Char))
  Reader.literal ['.']
  let column ← (d.readIdentifier : Reader (List Char))
  return .column table column

def readText (d : Dialect) : Reader Subject :=
  (do
    Reader.literal ['C', 'A', 'S', 'T', '(']
    let s ← d.readColumn
    Reader.literal (" AS " ++ d.textType ++ ")").toList
    return .cast s) <|> d.readColumn

def readSubject (d : Dialect) : Reader Subject :=
  (do
    Reader.literal ['L', 'O', 'W', 'E', 'R', '(']
    let s ← d.readText
    Reader.literal [')']
    return .lower s) <|> d.readText

/-- What the column is compared with is left as it is written. -/
def readAtom (d : Dialect) (text : List Char) : Option Atom := do
  let (subject, s) ← d.readSubject text
  let (phrase, literal) ← readPhrase s
  if phrase.fits d literal then some { subject, phrase, literal } else none

def readJoined (d : Dialect) (text : List Char) : Option Test := do
  let (subject, s) ← d.readSubject text
  let (phrase, s) ← readPhrase s
  let (join, s) ← readJoint s
  let b ← d.readAtom s
  if phrase.fits d [] then some (join { subject, phrase, literal := [] } b) else none

/-- A condition as a test. Two atoms are joined inside parentheses. -/
def readTest (d : Dialect) : List Char → Option Test
  | '(' :: s => if s.getLast? = some ')' then d.readJoined s.dropLast else none
  | s => (d.readAtom s).map .atom

end Dialect

namespace Sql

theorem readPhrase_append {w : List Char} {p : Phrase} (h : (w, p) ∈ phrases) (r : List Char) :
    readPhrase (w ++ r) = some (p, r) := by
  simp only [phrases, List.mem_cons, List.not_mem_nil, or_false, Prod.mk.injEq] at h
  rcases h with ⟨rfl, rfl⟩ | ⟨rfl, rfl⟩ | ⟨rfl, rfl⟩ | ⟨rfl, rfl⟩ | ⟨rfl, rfl⟩ | ⟨rfl, rfl⟩ | ⟨rfl, rfl⟩ |
    ⟨rfl, rfl⟩ | ⟨rfl, rfl⟩ | ⟨rfl, rfl⟩ | ⟨rfl, rfl⟩ | ⟨rfl, rfl⟩ | ⟨rfl, rfl⟩ | ⟨rfl, rfl⟩ <;>
      simp [readPhrase, phrases, List.isPrefixOf?]

theorem readJoint_append {w : List Char} {f : Atom → Atom → Test} (h : (w, f) ∈ joints) (r : List Char) :
    readJoint (w ++ r) = some (f, r) := by
  simp only [joints, List.mem_cons, List.not_mem_nil, or_false, Prod.mk.injEq] at h
  rcases h with ⟨rfl, rfl⟩ | ⟨rfl, rfl⟩ <;> simp [readJoint, joints, List.isPrefixOf?]

end Sql

namespace Dialect

open Reader

variable {d : Dialect}

def columnText (d : Dialect) (table column : List Char) : List Char :=
  d.quoteIdentifierChars table ++ '.' :: d.quoteIdentifierChars column

theorem toList_qualify_columnText (d : Dialect) (table column : String) :
    (d.qualify table column).toList = d.columnText table.toList column.toList := by
  simp [qualify, quoteIdentifier, columnText]

theorem ne_opening {c : Char} (h : c ∈ ['C', 'L', '(']) : c ≠ d.quoteStyle.opening := by
  simp only [List.mem_cons, List.not_mem_nil, or_false] at h
  cases d.quoteStyle <;> rcases h with rfl | rfl | rfl <;> decide

theorem readColumn_columnText (table column : List Char) {r : List Char}
    (hr : r.head? ≠ some d.quoteStyle.closing) :
    d.readColumn (d.columnText table column ++ r) = some (.column table column, r) := by
  have ht := d.readIdentifier_quoteIdentifierChars table ('.' :: (d.quoteIdentifierChars column ++ r))
    (by simpa using closing_ne (by decide))
  have hc := d.readIdentifier_quoteIdentifierChars column r hr
  have he : d.columnText table column ++ r =
      d.quoteIdentifierChars table ++ '.' :: (d.quoteIdentifierChars column ++ r) := by simp [columnText]
  rw [he, readColumn, bind_of_some ht, bind_of_some (literal_cons '.' _), bind_of_some hc]
  rfl

/-- The text of a subject is read wherever it stands, and as a text before its case is folded. -/
def Shows (d : Dialect) (text : List Char) (x : Subject) : Prop :=
  (∃ c t, text = c :: t ∧ c ≠ 'L' ∧ c ≠ '(') ∧
    ∀ r : List Char, r.head? ≠ some d.quoteStyle.closing → d.readText (text ++ r) = some (x, r)

theorem shows_columnText (table column : List Char) :
    d.Shows (d.columnText table column) (.column table column) := by
  refine ⟨⟨_, _, rfl, (ne_opening (by decide)).symm, (ne_opening (by decide)).symm⟩, fun r hr => ?_⟩
  have hl : literal ['C', 'A', 'S', 'T', '('] (d.columnText table column ++ r) = none :=
    literal_of_ne (ne_opening (by decide)) _ _
  rw [readText, orElse_of_none (bind_of_none hl), readColumn_columnText table column hr]

theorem shows_cast (table column : List Char) :
    d.Shows (['C', 'A', 'S', 'T', '('] ++ (d.columnText table column ++ (" AS " ++ d.textType ++ ")").toList))
      (.cast (.column table column)) := by
  refine ⟨⟨_, _, rfl, by decide, by decide⟩, fun r _ => ?_⟩
  have hc := readColumn_columnText (d := d) table column (r := (" AS " ++ d.textType ++ ")").toList ++ r)
    (by simpa using closing_ne (by decide))
  rw [readText, List.append_assoc, List.append_assoc]
  refine orElse_of_some ?_
  rw [bind_of_some (literal_append _ _), bind_of_some hc, bind_of_some (literal_append _ _)]
  rfl

/-- The same with its case folded, if it is to be. -/
theorem readSubject_of_shows {text : List Char} {x : Subject} (h : d.Shows text x) {r : List Char}
    (hr : r.head? ≠ some d.quoteStyle.closing) : d.readSubject (text ++ r) = some (x, r) := by
  obtain ⟨⟨c, t, rfl, hc, -⟩, hx⟩ := h
  have hl : literal ['L', 'O', 'W', 'E', 'R', '('] (c :: t ++ r) = none := literal_of_ne (Ne.symm hc) _ _
  rw [readSubject, orElse_of_none (bind_of_none hl), hx r hr]

theorem readSubject_lower {text : List Char} {x : Subject} (h : d.Shows text x) (r : List Char) :
    d.readSubject (['L', 'O', 'W', 'E', 'R', '('] ++ (text ++ ')' :: r)) = some (.lower x, r) := by
  have ht := h.2 (')' :: r) (by simpa using closing_ne (by decide))
  rw [readSubject]
  refine orElse_of_some ?_
  rw [bind_of_some (literal_append _ _), bind_of_some ht, bind_of_some (literal_cons ')' r)]
  rfl

theorem head?_phrase {w : List Char} {p : Phrase} (h : (w, p) ∈ phrases) (literal : List Char) :
    (w ++ literal).head? ≠ some d.quoteStyle.closing := by
  have hall : phrases.all (fun x => x.1.head? = some ' ') = true := by decide
  have hw : w.head? = some ' ' := of_decide_eq_true (List.all_eq_true.1 hall _ h)
  obtain ⟨t, rfl⟩ := List.head?_eq_some_iff.1 hw
  simpa using closing_ne (by decide)

/-- A subject, the words of a phrase, and what is written behind them. -/
theorem readAtom_of_shows {text w : List Char} {x : Subject} {p : Phrase} (hx : d.Shows text x)
    (hw : (w, p) ∈ phrases) (literal : List Char) (hf : p.fits d literal = true) :
    d.readAtom (text ++ (w ++ literal)) = some ⟨x, p, literal⟩ := by
  have hs := readSubject_of_shows hx (head?_phrase hw literal)
  simp only [readAtom, hs, Option.bind_eq_bind, Option.bind_some, readPhrase_append hw, hf, if_true]

theorem readTest_of_readAtom {c : Char} {t : List Char} (hc : c ≠ '(') {a : Atom}
    (h : d.readAtom (c :: t) = some a) : d.readTest (c :: t) = some (.atom a) := by
  rw [readTest, h]
  · rfl
  · rintro s hs
    exact hc (List.cons.inj hs).1

theorem readTest_of_shows {text w : List Char} {x : Subject} {p : Phrase} (hx : d.Shows text x)
    (hw : (w, p) ∈ phrases) (literal : List Char) (hf : p.fits d literal = true) :
    d.readTest (text ++ (w ++ literal)) = some (.atom ⟨x, p, literal⟩) := by
  have ha := readAtom_of_shows hx hw literal hf
  obtain ⟨⟨c, t, rfl, -, hc⟩, -⟩ := hx
  exact readTest_of_readAtom hc ha

theorem readTest_lower {text w : List Char} {x : Subject} {p : Phrase} (hx : d.Shows text x)
    (hw : (w, p) ∈ phrases) (literal : List Char) (hf : p.fits d literal = true) :
    d.readTest (['L', 'O', 'W', 'E', 'R', '('] ++ (text ++ ')' :: (w ++ literal))) =
      some (.atom ⟨.lower x, p, literal⟩) := by
  have hs := readSubject_lower hx (w ++ literal)
  refine readTest_of_readAtom (by decide) ?_
  have hr : d.readAtom (['L', 'O', 'W', 'E', 'R', '('] ++ (text ++ ')' :: (w ++ literal))) =
      some ⟨.lower x, p, literal⟩ := by
    simp only [readAtom, hs, Option.bind_eq_bind, Option.bind_some, readPhrase_append hw, hf, if_true]
  exact hr

theorem readTest_joined {text w j v : List Char} {x : Subject} {p q : Phrase} {f : Atom → Atom → Test}
    (hx : d.Shows text x) (hw : (w, p) ∈ phrases) (hj : (j, f) ∈ joints) (hv : (v, q) ∈ phrases)
    (hp : p.fits d [] = true) (literal : List Char) (hf : q.fits d literal = true) :
    d.readTest ('(' :: (text ++ (w ++ (j ++ (text ++ (v ++ literal)))) ++ [')'])) =
      some (f ⟨x, p, []⟩ ⟨x, q, literal⟩) := by
  have hs := readSubject_of_shows hx (head?_phrase hw (j ++ (text ++ (v ++ literal))))
  have ha := readAtom_of_shows hx hv literal hf
  rw [readTest, List.getLast?_concat, if_pos rfl, List.dropLast_concat, readJoined, hs]
  simp [readPhrase_append hw, readJoint_append hj, ha, hp]

end Dialect

namespace Predicate

def subject (p : Predicate) : Subject := .column p.column.table.toList p.column.column.toList

def matchedSubject (p : Predicate) : Subject :=
  if p.column.type.isStringLike then p.subject else .cast p.subject

/-- The pattern with what is written around it. -/
def patternText (d : Dialect) (pattern : String) : List Char :=
  let folded := match d.caseMatching with
    | .fold => "LOWER(" ++ pattern ++ ")"
    | .native | .plain => pattern
  (if d.escapeClause then folded ++ " ESCAPE " ++ d.quoteString "\\" else folded).toList

def patternAtom (d : Dialect) (positive : Bool) (x : Subject) (pattern : String) : Atom where
  subject := match d.caseMatching with
    | .fold => .lower x
    | .native | .plain => x
  phrase := .like (d.caseMatching = .native) positive
  literal := patternText d pattern

def equality (positive : Bool) : Relation := if positive then .equal else .unequal

/-- The test that a predicate is written as. -/
def test (d : Dialect) (p : Predicate) : Test :=
  let literal := (p.argument.sql d).toList
  match p.operator with
  | .equality _ => .atom ⟨p.subject, .compare (equality p.isPositive), literal⟩
  | .truth target _ => .atom ⟨p.subject, .compare (equality p.isPositive), (d.boolText target).toList⟩
  | .comparison c => .atom ⟨p.subject, .compare (.order c), literal⟩
  | .membership _ => .atom ⟨p.subject, .member p.isPositive, '(' :: literal ++ [')']⟩
  | .nullCheck _ => .atom ⟨p.subject, .null p.isPositive, []⟩
  | .pattern _ _ => .atom (patternAtom d p.isPositive p.matchedSubject (p.argument.sql d))
  | .presence _ =>
    if p.isPositive then .both ⟨p.subject, .null false, []⟩ ⟨p.subject, .compare .unequal, ['\'', '\'']⟩
    else .either ⟨p.subject, .null true, []⟩ ⟨p.subject, .compare .equal, ['\'', '\'']⟩

theorem mem_phrases_equality (positive : Bool) :
    ((" " ++ equalitySign positive ++ " ").toList, Phrase.compare (equality positive)) ∈ phrases := by
  cases positive <;> simp [phrases, equalitySign, equality]

theorem mem_phrases_symbol (c : Comparison) :
    ((" " ++ c.symbol ++ " ").toList, Phrase.compare (.order c)) ∈ phrases := by
  cases c <;> simp [phrases, Comparison.symbol]

theorem mem_phrases_null (positive : Bool) :
    ((if positive then " IS NULL" else " IS NOT NULL").toList, Phrase.null positive) ∈ phrases := by
  cases positive <;> simp [phrases]

theorem mem_phrases_member (positive : Bool) :
    ((if positive then " IN " else " NOT IN ").toList, Phrase.member positive) ∈ phrases := by
  cases positive <;> simp [phrases]

theorem mem_phrases_like (ignoreCase positive : Bool) :
    (((if positive then " " else " NOT ") ++ (if ignoreCase then "ILIKE " else "LIKE ")).toList,
      Phrase.like ignoreCase positive) ∈ phrases := by
  cases positive <;> cases ignoreCase <;> simp [phrases]

theorem isPattern_patternText (d : Dialect) (pattern : String) :
    d.isPattern (patternText d (d.quoteString pattern)) = true := by
  have hq := Dialect.isPattern_of_patternReader fun r hr => d.patternReader_quoteString pattern (r := r) hr
  have hl := Dialect.isPattern_of_patternReader (w := "LOWER(" ++ d.quoteString pattern ++ ")")
    fun r _ => by simpa using d.patternReader_lower pattern r
  cases hc : d.caseMatching <;> cases he : d.escapeClause <;>
    simp only [patternText, hc, he, hq, hl, if_true, Bool.false_eq_true, if_false]

theorem readTest_patternSql {d : Dialect} {x : Subject} {subject : String} (hx : d.Shows subject.toList x)
    (positive : Bool) {pattern : String} (hf : d.isPattern (patternText d pattern) = true) :
    d.readTest (patternSql d positive subject pattern).toList =
      some (.atom (patternAtom d positive x pattern)) := by
  cases hc : d.caseMatching with
  | native =>
      have h := Dialect.readTest_of_shows hx (mem_phrases_like true positive) (patternText d pattern) hf
      cases he : d.escapeClause <;> cases positive <;>
        simpa [patternSql, patternAtom, patternText, hc, he] using h
  | plain =>
      have h := Dialect.readTest_of_shows hx (mem_phrases_like false positive) (patternText d pattern) hf
      cases he : d.escapeClause <;> cases positive <;>
        simpa [patternSql, patternAtom, patternText, hc, he] using h
  | fold =>
      have h := Dialect.readTest_lower hx (mem_phrases_like false positive) (patternText d pattern) hf
      cases he : d.escapeClause <;> cases positive <;>
        simpa [patternSql, patternAtom, patternText, hc, he] using h

/-- Every well-typed predicate is read back from the text it is written as, in any dialect. -/
theorem readTest_sql (d : Dialect) {p : Predicate} (hp : p.WellTyped) :
    d.readTest (p.sql d).toList = some (p.test d) := by
  have hq := d.toList_qualify_columnText p.column.table p.column.column
  have hs : d.Shows _ p.subject := Dialect.shows_columnText p.column.table.toList p.column.column.toList
  have ha := hp.suited
  cases ho : p.operator with
  | equality n =>
      obtain ⟨l, hl, hv⟩ := Argument.suits_equality.1 (ho ▸ ha)
      have hf : d.isValue (p.argument.sql d).toList = true := hl ▸ l.isValue_sql hv
      have h := Dialect.readTest_of_shows hs (mem_phrases_equality p.isPositive) _ hf
      simpa [sql, test, ho, hq] using h
  | truth target n =>
      have h := Dialect.readTest_of_shows hs (mem_phrases_equality p.isPositive) _
        (Dialect.isValue_boolText target)
      simpa [sql, test, ho, hq] using h
  | comparison c =>
      obtain ⟨l, hl, hv⟩ := Argument.suits_comparison.1 (ho ▸ ha)
      have hf : d.isValue (p.argument.sql d).toList = true := hl ▸ l.isValue_sql hv
      have h := Dialect.readTest_of_shows hs (mem_phrases_symbol c) _ hf
      simpa [sql, test, ho, hq] using h
  | nullCheck n =>
      have h := Dialect.readTest_of_shows hs (mem_phrases_null p.isPositive) [] rfl
      rw [List.append_nil] at h
      simpa [sql, test, ho, hq] using h
  | membership n =>
      obtain ⟨ls, hl, hne, hv⟩ := Argument.suits_membership.1 (ho ▸ ha)
      have hf : d.isList ('(' :: (p.argument.sql d).toList ++ [')']) = true := by
        have h := Dialect.isList_sql (d := d) hne hv
        simpa [hl, Argument.sql, String.toList_intercalate, Function.comp_def] using h
      have h := Dialect.readTest_of_shows hs (mem_phrases_member p.isPositive)
        ('(' :: (p.argument.sql d).toList ++ [')']) hf
      cases hp : p.isPositive <;> simpa [sql, test, ho, hq, hp] using h
  | presence n =>
      have ha : (" AND ".toList, Test.both) ∈ joints := by simp [joints]
      have ho' : (" OR ".toList, Test.either) ∈ joints := by simp [joints]
      have hf : d.isValue ['\'', '\''] = true := by
        have hv : (Literal.text "").Suits .string := trivial
        have h := Literal.isValue_sql (d := d) hv
        simpa [Literal.sql, Dialect.quoteString, Dialect.quoteChars, Dialect.double] using h
      cases hp : p.isPositive with
      | true =>
          have h := Dialect.readTest_joined hs (mem_phrases_null false) ha (mem_phrases_equality false) rfl _ hf
          simpa [sql, test, ho, hq, hp, equality, equalitySign] using h
      | false =>
          have h := Dialect.readTest_joined hs (mem_phrases_null true) ho' (mem_phrases_equality true) rfl _ hf
          simpa [sql, test, ho, hq, hp, equality, equalitySign] using h
  | pattern anchor n =>
      obtain ⟨s, hl⟩ := Argument.suits_pattern.1 (ho ▸ ha)
      have hf : d.isPattern (patternText d (p.argument.sql d)) = true := hl ▸ isPattern_patternText d s
      have hx : d.Shows (if p.column.type.isStringLike then d.qualify p.column.table p.column.column
          else d.castToText (d.qualify p.column.table p.column.column)).toList p.matchedSubject := by
        cases ht : p.column.type.isStringLike with
        | true => simpa [matchedSubject, ht, hq] using hs
        | false =>
            have hc := Dialect.shows_cast (d := d) p.column.table.toList p.column.column.toList
            simpa [matchedSubject, subject, ht, hq, Dialect.castToText] using hc
      simpa [sql, test, ho] using readTest_patternSql hx p.isPositive hf

end Predicate

end PredicateSearch

import PredicateSearch.Condition.Sql
import PredicateSearch.Proofs.Condition.Compile
import PredicateSearch.Proofs.Pattern.Like
import PredicateSearch.Proofs.Sql.Quoting

namespace PredicateSearch

namespace Dialect

/-- The text of a column: what holds none is cast. -/
def matchedText (d : Dialect) (column : Attribute) : String :=
  let subject := d.qualify column.table column.column
  if column.type.isStringLike then subject else d.castToText subject

/-- What stands before the pattern in a test that matches `subject`. -/
def beforePattern (d : Dialect) (positive : Bool) (subject : String) : String :=
  let negation := if positive then "" else "NOT "
  match d.caseMatching with
  | .native => subject ++ " " ++ negation ++ "ILIKE "
  | .fold => "LOWER(" ++ subject ++ ") " ++ negation ++ "LIKE LOWER("
  | .plain => subject ++ " " ++ negation ++ "LIKE "

def afterPattern (d : Dialect) : String :=
  match d.caseMatching with
  | .fold => ")"
  | .native | .plain => ""

/-- A written match. The dialect reads the pattern from the place of its string, and a single backslash
from the place of the escape character where that is named; nothing else follows. -/
def ReadsMatch (d : Dialect) (positive : Bool) (subject : String) (pattern text : List Char) : Prop :=
  ∃ literal escape, text = (d.beforePattern positive subject).toList ++ literal ∧
    d.readString literal = some (pattern, d.afterPattern.toList ++ escape) ∧
    if d.escapeClause then ∃ e, escape = " ESCAPE ".toList ++ e ∧ d.readString e = some (['\\'], [])
    else escape = []

def escapeText (d : Dialect) : List Char :=
  if d.escapeClause then " ESCAPE ".toList ++ quoteChars d.backslashEscapes ['\\'] else []

theorem toList_patternSql (d : Dialect) (positive : Bool) (subject pattern : String) :
    (Predicate.patternSql d positive subject pattern).toList =
      (d.beforePattern positive subject).toList ++
        (pattern.toList ++ (d.afterPattern.toList ++ d.escapeText)) := by
  cases hc : d.caseMatching <;> cases he : d.escapeClause <;>
    simp [Predicate.patternSql, beforePattern, afterPattern, escapeText, quoteString, hc, he]

theorem head?_afterPattern (d : Dialect) : (d.afterPattern.toList ++ d.escapeText).head? ≠ some '\'' := by
  cases hc : d.caseMatching <;> cases he : d.escapeClause <;> simp [afterPattern, escapeText, hc, he]

theorem readsMatch_patternSql (d : Dialect) (positive : Bool) (subject pattern : String) :
    d.ReadsMatch positive subject pattern.toList
      (Predicate.patternSql d positive subject (d.quoteString pattern)).toList := by
  refine ⟨_, d.escapeText, toList_patternSql d positive subject _, ?_, ?_⟩
  · rw [quoteString, String.toList_ofList]
    exact readString_quoteChars d pattern.toList _ (head?_afterPattern d)
  · cases he : d.escapeClause with
    | false => simp [escapeText, he]
    | true =>
        have h := readString_quoteChars d ['\\'] [] (by simp)
        exact ⟨quoteChars d.backslashEscapes ['\\'], by simp [escapeText, he], by simpa using h⟩

end Dialect

namespace Condition

/-- A pattern test on a column asks for the operand's text: the stored pattern finds it where the
operator says, and every dialect reads that same pattern in the written test. -/
theorem compile_pattern_finds {column : Attribute} {key : Key} {v : Operand} {ignoreBlank : Bool}
    {p : Predicate} {a : Pattern.Anchor} {n : Bool} (ho : key.operator = .pattern a n)
    (h : compile column key v ignoreBlank = .ok (predicate p)) :
    ∃ t q, v.toText? = some t ∧ p.argument = .pattern q ∧ Pattern.Finds a t.toList q.toList ∧
      ∀ d : Dialect, d.ReadsMatch p.isPositive (d.matchedText column) q.toList (p.sql d).toList := by
  obtain ⟨-, -, x, hx, rfl⟩ := compile_eq_predicate.1 h
  rw [ho] at hx
  cases hx with
  | @pattern _ t _ _ ht =>
      refine ⟨t, Pattern.ofText a t, ht, rfl, Pattern.finds_ofText a t, fun d => ?_⟩
      simp only [Predicate.sql, ho, Argument.sql]
      exact d.readsMatch_patternSql _ _ _

theorem compile_pattern_finds_percent :
    Pattern.Finds .start ['1', '0', '0', '%', '\\'] ['1', '0', '0', '\\', '%', '\\', '\\', '%'] ∧
      Dialect.mysql.ReadsMatch false "CAST(\x60people\x60.\x60salary\x60 AS CHAR)"
        ['1', '0', '0', '\\', '%', '\\', '\\', '%']
        "CAST(\x60people\x60.\x60salary\x60 AS CHAR) NOT LIKE '100\\\\%\\\\\\\\%'".toList := by
  have h : compile ⟨"people", "salary", .decimal⟩ ⟨"salary", .pattern .start true, true⟩
      (.text "100%\\") true = .ok (predicate
        ⟨⟨"people", "salary", .decimal⟩, .pattern .start true, true, .pattern "100\\%\\\\%"⟩) := by
    rfl
  obtain ⟨t, q, ht, hq, hf, hd⟩ := compile_pattern_finds rfl h
  cases ht
  cases hq
  exact ⟨hf, hd Dialect.mysql⟩

end Condition

end PredicateSearch

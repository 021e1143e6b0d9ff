import PredicateSearch.Proofs.Sql.Quoting

namespace PredicateSearch

namespace Dialect

open Sql

/-- Where a backslash escapes, it takes the character behind it as it is. -/
def takesNext (d : Dialect) : Escapes := if d.backslashEscapes then some some else none

def readLiteral (d : Dialect) : List Char → Option (List Char × List Char)
  | [] => none
  | c :: s => if c = '\'' then readQuoted '\'' d.takesNext s else none

variable {d : Dialect} {t s x x' r r' : List Char}

theorem keepsBackslash_takesNext (d : Dialect) : KeepsBackslash d.backslashEscapes d.takesNext := by
  rw [takesNext]
  cases d.backslashEscapes with
  | false => exact .plain
  | true => exact .escaping rfl

theorem readLiteral_eq_some : d.readLiteral t = some (s, r) ↔
    ∃ u, t = '\'' :: (u ++ '\'' :: r) ∧ StandsFor '\'' d.takesNext u s ∧ r.head? ≠ some '\'' := by
  cases t with
  | nil => simp [readLiteral]
  | cons c t =>
      by_cases hc : c = '\''
      · subst c
        rw [readLiteral, if_pos rfl, readQuoted_eq_some (by decide)]
        simp only [List.cons.injEq, true_and]
      · simp [readLiteral, hc]

/-- The string ends where it was made to, unless what is put behind it goes on with a quote. -/
theorem readLiteral_quoteChars (d : Dialect) (s r : List Char) :
    d.readLiteral (quoteChars d.backslashEscapes s ++ r) = some (s, r) ↔ r.head? ≠ some '\'' := by
  rw [readLiteral_eq_some]
  constructor
  · rintro ⟨u, -, -, hr⟩
    exact hr
  · intro hr
    obtain ⟨u, hu, hs⟩ := exists_quoteChars d.keepsBackslash_takesNext s
    exact ⟨u, by simp [hu], hs, hr⟩

/-- What is read as an identifier is a quoted one. -/
theorem readIdentifier_eq_some : d.readIdentifier t = some (x, r) ↔
    t = d.quoteIdentifierChars x ++ r ∧ r.head? ≠ some d.quoteStyle.closing := by
  constructor
  · intro h
    cases t with
    | nil => cases h
    | cons c t =>
        rw [readIdentifier] at h
        split at h
        · next hc =>
            obtain ⟨u, rfl, hu, hr⟩ := exists_standsFor h
            exact ⟨by simp [quoteIdentifierChars, hc, hu.eq_double], hr⟩
        · cases h
  · rintro ⟨rfl, hr⟩
    exact readIdentifier_quoteIdentifierChars d x r hr

theorem quoteIdentifierChars_append_inj (hr : r.head? ≠ some d.quoteStyle.closing)
    (hr' : r'.head? ≠ some d.quoteStyle.closing)
    (h : d.quoteIdentifierChars x ++ r = d.quoteIdentifierChars x' ++ r') : x = x' ∧ r = r' := by
  have hx := readIdentifier_quoteIdentifierChars d x r hr
  rw [h, readIdentifier_quoteIdentifierChars d x' r' hr', Option.some.injEq, Prod.mk.injEq] at hx
  exact ⟨hx.1.symm, hx.2.symm⟩

theorem toList_quoteIdentifier (x : String) : (d.quoteIdentifier x).toList = d.quoteIdentifierChars x.toList :=
  String.toList_ofList

theorem toList_quoteString (s : String) : (d.quoteString s).toList = quoteChars d.backslashEscapes s.toList :=
  String.toList_ofList

theorem toList_qualify_append (table column : String) (r : List Char) : (d.qualify table column).toList ++ r =
    d.quoteIdentifierChars table.toList ++ '.' :: (d.quoteIdentifierChars column.toList ++ r) := by
  simp [qualify, toList_quoteIdentifier]

/-- A qualified name says where its parts end, so that two with anything behind them are the same only part by part. -/
theorem qualify_append_inj {table column table' column' : String} (hr : r.head? ≠ some d.quoteStyle.closing)
    (hr' : r'.head? ≠ some d.quoteStyle.closing)
    (h : (d.qualify table column).toList ++ r = (d.qualify table' column').toList ++ r') :
    table = table' ∧ column = column' ∧ r = r' := by
  have hp (s : List Char) : ('.' :: s).head? ≠ some d.quoteStyle.closing := by simpa using closing_ne (by decide)
  rw [toList_qualify_append, toList_qualify_append] at h
  obtain ⟨ht, h⟩ := quoteIdentifierChars_append_inj (hp _) (hp _) h
  obtain ⟨hc, he⟩ := quoteIdentifierChars_append_inj hr hr' (List.cons.inj h).2
  exact ⟨String.toList_inj.1 ht, String.toList_inj.1 hc, he⟩

/-- A string says itself where it ends, whatever is put behind it but a further quote, and holds its text whole. -/
theorem quoteString_delimited (d : Dialect) :
    (∀ s r : String, d.readLiteral (d.quoteString s ++ r).toList = some (s.toList, r.toList) ↔
      r.toList.head? ≠ some '\'') ∧
    Function.Injective d.quoteString := by
  refine ⟨fun s r => ?_, fun s s' h => ?_⟩
  · rw [String.toList_append, toList_quoteString]
    exact readLiteral_quoteChars d s.toList r.toList
  · have hread (s : String) : d.readLiteral ((d.quoteString s).toList ++ []) = some (s.toList, []) := by
      rw [toList_quoteString]
      exact (readLiteral_quoteChars d s.toList []).2 (by simp)
    have hs := hread s
    rw [h, hread, Option.some.injEq, Prod.mk.injEq] at hs
    exact String.toList_inj.1 hs.1.symm

/-- An identifier is written in one way only, which says itself where it ends. Hence no qualified name can be taken
for another. -/
theorem quoteIdentifier_delimited (d : Dialect) :
    (∀ text x r : String, d.readIdentifier text.toList = some (x.toList, r.toList) ↔
      text = d.quoteIdentifier x ++ r ∧ r.toList.head? ≠ some d.quoteStyle.closing) ∧
    ∀ table column table' column' : String, d.qualify table column = d.qualify table' column' ↔
      table = table' ∧ column = column' := by
  refine ⟨fun text x r => ?_, fun table column table' column' => ⟨fun h => ?_, ?_⟩⟩
  · rw [readIdentifier_eq_some, ← toList_quoteIdentifier, ← String.toList_append, String.toList_inj]
  · have hn : ([] : List Char).head? ≠ some d.quoteStyle.closing := by simp
    obtain ⟨ht, hc, -⟩ := qualify_append_inj hn hn (congrArg (String.toList · ++ []) h)
    exact ⟨ht, hc⟩
  · rintro ⟨rfl, rfl⟩
    rfl

-- the table's name imitates the end of one part and the start of the next
example : qualify { name := "brackets", quoteStyle := .bracket } "a].[b" "c" = "[a]].[b].[c]" := by rfl

end Dialect

end PredicateSearch

import PredicateSearch.Condition.Sql
import PredicateSearch.Proofs.Condition.Typing
import PredicateSearch.Proofs.Sql.Layout

namespace PredicateSearch

open Decimal Sql

namespace Sql

def columnLayout (table column : List Char) :
    Layout := [some (.identifier table), sign ".", some (.identifier column)]

def phrase (positive : Bool) (s : List String) : List String := if positive then s else "NOT" :: s

def boolToken (d : Dialect) (b : Bool) : Token :=
  let s := (d.boolText b).toList
  if s.all Char.isDigit then .number s else .keyword s

def matchLayout (d : Dialect) (positive : Bool) (subject pattern : Layout) : Layout :=
  let test :=
    match d.caseMatching with
    | .native => [subject, words (phrase positive ["ILIKE"]), pattern]
    | .fold => [call "LOWER" subject, words (phrase positive ["LIKE"]), call "LOWER" pattern]
    | .plain => [subject, words (phrase positive ["LIKE"]), pattern]
  spaced (if d.escapeClause then test ++ [words ["ESCAPE"], [some (.string ['\\'])]] else test)

/-- How an operator is written for a column, in its plain or its negated form, with the given words as what
the column is compared with. -/
def template (d : Dialect) (o : Operator) (positive stringLike : Bool) (table column : List Char)
    (argument : List Token) : Layout :=
  let subject := columnLayout table column
  match o with
  | .equality _ => spaced [subject, [sign (Predicate.equalitySign positive)], listed argument]
  | .nullCheck _ => spaced [subject, words ("IS" :: phrase positive ["NULL"])]
  | .truth target _ =>
    spaced [subject, [sign (Predicate.equalitySign positive)], [some (boolToken d target)]]
  | .presence _ =>
    if positive then
      parens (spaced [subject, words ["IS", "NOT", "NULL", "AND"], subject, [sign "!="],
        [some (.string [])]])
    else parens (spaced [subject, words ["IS", "NULL", "OR"], subject, [sign "="], [some (.string [])]])
  | .pattern _ _ =>
    let cast := call "CAST" (spaced [subject, words ["AS", d.textType]])
    matchLayout d positive (if stringLike then subject else cast) (listed argument)
  | .comparison c => spaced [subject, [sign c.symbol], listed argument]
  | .membership _ => spaced [subject, words (phrase positive ["IN"]), parens (listed argument)]

end Sql

def Literal.token (d : Dialect) : Literal → Token
  | bool b => boolToken d b
  | int n => .number (intText n.toInt)
  | float x => .number (floatText x)
  | text s => .string s.toList

def Argument.tokens (d : Dialect) : Argument → List Token
  | toggle b => [boolToken d b]
  | pattern p => [.string p.toList]
  | literal l => [l.token d]
  | literals ls => ls.map (Literal.token d)

def Predicate.layout (d : Dialect) (p : Predicate) : Layout :=
  template d p.operator p.isPositive p.column.type.isStringLike p.column.table.toList p.column.column.toList
    (p.argument.tokens d)

namespace Sql

variable {d : Dialect}

theorem write_append (l m : Layout) : write d (l ++ m) = write d l ++ write d m := List.flatMap_append

theorem write_intercalate (s : Layout) (ls : List Layout) :
    write d (s.intercalate ls) = (write d s).intercalate (ls.map (write d)) := by
  induction ls with
  | nil => rfl
  | cons l ls ih =>
      cases ls with
      | nil => simp
      | cons m ls => simp_all [List.intercalate_cons_cons, write_append]

theorem write_singleton (t : Token) : write d [some t] = t.text d := List.append_nil _

theorem write_spaced (ls : List Layout) : write d (spaced ls) = [' '].intercalate (ls.map (write d)) :=
  write_intercalate [none] ls

theorem write_listed (ts : List Token) :
    write d (listed ts) = [',', ' '].intercalate (ts.map (Token.text d)) := by
  rw [listed, write_intercalate, List.map_map]
  congr 1
  exact List.map_congr_left fun t _ => write_singleton t

theorem write_words (ws : List String) : write d (words ws) = [' '].intercalate (ws.map String.toList) := by
  rw [words, write_intercalate, List.map_map]
  congr 1
  exact List.map_congr_left fun w _ => write_singleton _

theorem write_sign (s : String) : write d [sign s] = s.toList := write_singleton _

theorem write_parens (l : Layout) : write d (parens l) = '(' :: write d l ++ [')'] := by
  rw [parens, write_append, write_sign]
  rfl

theorem write_call (f : String) (l : Layout) :
    write d (call f l) = f.toList ++ '(' :: write d l ++ [')'] := by
  rw [List.append_assoc, ← write_parens]
  rfl

theorem text_boolToken (b : Bool) : (boolToken d b).text d = (d.boolText b).toList := by
  simp only [boolToken]
  split <;> rfl

theorem toList_qualify (table column : String) :
    (d.qualify table column).toList = write d (columnLayout table.toList column.toList) := by
  simp [Dialect.qualify, Dialect.quoteIdentifier, columnLayout, sign, write, spell, Token.text]

end Sql

theorem Literal.toList_sql (d : Dialect) (l : Literal) : (l.sql d).toList = (l.token d).text d := by
  cases l with
  | bool b => exact (text_boolToken b).symm
  | int n => simp [sql, token, Token.text]
  | float x => simp [sql, token, Token.text]
  | text s => simp [sql, token, Token.text, Dialect.quoteString]

theorem Argument.toList_sql (d : Dialect) (a : Argument) :
    (a.sql d).toList = write d (listed (a.tokens d)) := by
  rw [write_listed]
  cases a with
  | toggle b => simp [sql, tokens, text_boolToken]
  | pattern p => simp [sql, tokens, Token.text, Dialect.quoteString]
  | literal l => simp [sql, tokens, l.toList_sql]
  | literals ls =>
      rw [sql, String.toList_intercalate, tokens, List.map_map, List.map_map]
      congr 1
      exact List.map_congr_left fun l _ => l.toList_sql d

namespace Predicate

theorem toList_patternSql {d : Dialect} {positive : Bool} {subject pattern : String} {l m : Layout}
    (hs : subject.toList = write d l) (hp : pattern.toList = write d m) :
    (patternSql d positive subject pattern).toList = write d (matchLayout d positive l m) := by
  cases hc : d.caseMatching <;> cases he : d.escapeClause <;> cases positive <;>
    simp [patternSql, matchLayout, hc, he, hs, hp, write_spaced, write_words, write_call, write_singleton,
      phrase, Token.text, Dialect.quoteString]

theorem toList_sql (d : Dialect) (p : Predicate) : (p.sql d).toList = write d (p.layout d) := by
  have hq := toList_qualify (d := d) p.column.table p.column.column
  have ha := p.argument.toList_sql d
  cases ho : p.operator with
  | equality n => simp [sql, layout, template, ho, write_spaced, write_sign, hq, ha]
  | comparison c => simp [sql, layout, template, ho, write_spaced, write_sign, hq, ha]
  | truth target n =>
      simp [sql, layout, template, ho, write_spaced, write_sign, write_singleton, text_boolToken, hq]
  | nullCheck n =>
      cases hp : p.isPositive <;>
        simp [sql, layout, template, ho, hp, write_spaced, write_words, phrase, hq]
  | presence n =>
      cases hp : p.isPositive <;>
        simp [sql, layout, template, ho, hp, write_parens, write_spaced, write_words, write_sign,
          write_singleton, Token.text, Dialect.quoteChars, Dialect.double, hq]
  | membership n =>
      cases hp : p.isPositive <;>
        simp [sql, layout, template, ho, hp, write_parens, write_spaced, write_words, phrase, hq, ha]
  | pattern anchor n =>
      simp only [sql, layout, template, ho]
      refine toList_patternSql ?_ ha
      cases p.column.type.isStringLike with
      | true => exact hq
      | false => simp [Dialect.castToText, write_call, write_spaced, write_words, hq]

end Predicate

/-- The dialects that come with the library, and those that keep the words for truth values and texts. -/
def Dialect.IsStandard (d : Dialect) : Prop :=
  d ∈ builtIn ∨ (d.trueText = "TRUE" ∧ d.falseText = "FALSE" ∧ d.textType = "TEXT")

namespace Sql

def Token.IsLiteral : Token → Prop
  | string _ => True
  | number s => IsNumeral s
  | keyword s => s ∈ ["TRUE".toList, "FALSE".toList]
  | identifier _ | mark _ => False

variable {d : Dialect} {k : Nat}

theorem exists_boolToken_eq (hd : d.IsStandard) :
    ∃ e ∈ Dialect.builtIn, ∀ b, boolToken d b = boolToken e b := by
  rcases hd with hd | ⟨ht, hf, -⟩
  · exact ⟨d, hd, fun _ => rfl⟩
  · refine ⟨.postgres, by decide, fun b => ?_⟩
    simp only [boolToken, Dialect.boolText, ht, hf]
    rfl

theorem isLiteral_boolToken (hd : d.IsStandard) (b : Bool) : (boolToken d b).IsLiteral := by
  have ht : (Token.keyword "TRUE".toList).IsLiteral := List.mem_cons_self
  have hf : (Token.keyword "FALSE".toList).IsLiteral := List.mem_cons_of_mem _ List.mem_cons_self
  have hn (c : Char) (hc : c.isDigit = true) : (Token.number [c]).IsLiteral :=
    .plain (.whole ⟨by simp, List.forall_mem_singleton.2 hc⟩)
  obtain ⟨e, he, hb⟩ := exists_boolToken_eq hd
  rw [hb]
  simp only [Dialect.builtIn, List.mem_cons, List.not_mem_nil, or_false] at he
  rcases he with rfl | rfl | rfl <;> cases b
  · exact hf
  · exact ht
  · exact hf
  · exact ht
  · exact hn '0' rfl
  · exact hn '1' rfl

theorem textType_mem (hd : d.IsStandard) :
    d.textType.toList ∈ keywords ∧ d.textType.toList ∉ joinWords := by
  rcases hd with hd | ⟨-, -, ht⟩
  · simp only [Dialect.builtIn, List.mem_cons, List.not_mem_nil, or_false] at hd
    rcases hd with rfl | rfl | rfl <;> decide
  · rw [ht]
    decide

theorem isClosed_literal {t : Token} (h : t.IsLiteral) : Layout.IsClosed d k [some t] := by
  cases t with
  | identifier | mark => cases h
  | string s => exact Layout.isClosed_singleton trivial fun _ _ => rfl
  | number s => exact Layout.isClosed_singleton h fun _ _ => rfl
  | keyword s =>
      have hw : ∀ w ∈ ["TRUE".toList, "FALSE".toList], w ∈ keywords ∧ w ∉ joinWords := by decide
      obtain ⟨hk, hj⟩ := hw s h
      exact Layout.isClosed_singleton hk fun _ _ => if_neg fun hn => hj (List.contains_iff_mem.1 hn.2)

theorem isClosed_columnLayout (table column : List Char) :
    Layout.IsClosed d k (columnLayout table column) := by
  refine ⟨⟨?_, ?_⟩, fun _ _ => rfl⟩
  · intro t ht
    simp only [columnLayout, sign, List.mem_cons, List.not_mem_nil, or_false, Option.some.injEq] at ht
    rcases ht with rfl | rfl | rfl
    · trivial
    · show _ ∈ marks
      decide
    · trivial
  · have hq : d.quoteStyle.closing ≠ '.' := by cases d.quoteStyle <;> decide
    simp [columnLayout, sign, Apart, stops, spell, Token.text, Token.isExtendedBy, hq.symm,
      Dialect.quoteIdentifierChars]

theorem isClosed_sign_equality (positive : Bool) :
    Layout.IsClosed d k [sign (Predicate.equalitySign positive)] := by
  cases positive <;> exact Layout.isClosed_sign (by decide) (by decide)

theorem isClosed_sign_symbol (c : Comparison) : Layout.IsClosed d k [sign c.symbol] := by
  cases c <;> exact Layout.isClosed_sign (by decide) (by decide)

theorem isClosed_phrase (positive : Bool) {w : String} (h : w.toList ∈ keywords)
    (hj : w.toList ∉ joinWords) :
    Layout.IsClosed d k (words (phrase positive [w])) := by
  have hn : "NOT".toList ∈ keywords ∧ "NOT".toList ∉ joinWords := by decide
  cases positive with
  | true =>
      exact Layout.isClosed_words (List.forall_mem_singleton.2 h)
        (.inr (List.forall_mem_singleton.2 hj))
  | false =>
      exact Layout.isClosed_words (List.forall_mem_cons.2 ⟨hn.1, List.forall_mem_singleton.2 h⟩)
        (.inr (List.forall_mem_cons.2 ⟨hn.2, List.forall_mem_singleton.2 hj⟩))

theorem isClosed_matchLayout {positive : Bool} {l m : Layout} (hl : ∀ k, l.IsClosed d k)
    (hm : ∀ k, m.IsClosed d k) :
    (matchLayout d positive l m).IsClosed d k := by
  have hi : Layout.IsClosed d k (words (phrase positive ["ILIKE"])) :=
    isClosed_phrase positive (by decide) (by decide)
  have hw : Layout.IsClosed d k (words (phrase positive ["LIKE"])) :=
    isClosed_phrase positive (by decide) (by decide)
  have he : Layout.IsClosed d k (words ["ESCAPE"]) := isClosed_phrase true (by decide) (by decide)
  have hs : Layout.IsClosed d k [some (.string ['\\'])] := isClosed_literal trivial
  have hcl : Layout.IsClosed d k (call "LOWER" l) := (hl (k + 1)).call (by decide) (by decide)
  have hcm : Layout.IsClosed d k (call "LOWER" m) := (hm (k + 1)).call (by decide) (by decide)
  refine Layout.isClosed_spaced ?_
  cases d.caseMatching <;> cases d.escapeClause <;> simp [hi, hw, he, hs, hcl, hcm, hl k, hm k]

/-- A test stands in no other's way: what joins its parts is in parentheses. -/
theorem isClosed_template (hd : d.IsStandard) (o : Operator) (positive stringLike : Bool)
    (table column : List Char) {argument : List Token} (ha : ∀ t ∈ argument, t.IsLiteral) :
    (template d o positive stringLike table column argument).IsClosed d 0 := by
  have hc (k : Nat) := isClosed_columnLayout (d := d) (k := k) table column
  have hl (k : Nat) : Layout.IsClosed d k (listed argument) :=
    Layout.isClosed_listed fun t ht => isClosed_literal (ha t ht)
  cases o with
  | equality n => exact Layout.isClosed_spaced (by simp [hc, hl, isClosed_sign_equality])
  | comparison c => exact Layout.isClosed_spaced (by simp [hc, hl, isClosed_sign_symbol])
  | truth target n =>
      have hb : Layout.IsClosed d 0 [some (boolToken d target)] :=
        isClosed_literal (isLiteral_boolToken hd target)
      exact Layout.isClosed_spaced (by simp [hc, hb, isClosed_sign_equality])
  | nullCheck n =>
      have hw : Layout.IsClosed d 0 (words ("IS" :: phrase positive ["NULL"])) := by
        cases positive <;> exact Layout.isClosed_words (by decide) (.inr (by decide))
      exact Layout.isClosed_spaced (by simp [hc, hw])
  | presence n =>
      have hs : Layout.IsClosed d 1 [some (.string [])] := isClosed_literal trivial
      have hp : Layout.IsClosed d 1 (words ["IS", "NOT", "NULL", "AND"]) :=
        Layout.isClosed_words (by decide) (.inl Nat.one_pos)
      have hn : Layout.IsClosed d 1 (words ["IS", "NULL", "OR"]) :=
        Layout.isClosed_words (by decide) (.inl Nat.one_pos)
      cases positive with
      | true =>
          have he : Layout.IsClosed d 1 [sign "!="] := isClosed_sign_equality false
          exact (Layout.isClosed_spaced (by simp [hc, hp, he, hs])).parens
      | false =>
          have he : Layout.IsClosed d 1 [sign "="] := isClosed_sign_equality true
          exact (Layout.isClosed_spaced (by simp [hc, hn, he, hs])).parens
  | membership n =>
      have hw : Layout.IsClosed d 0 (words (phrase positive ["IN"])) :=
        isClosed_phrase positive (by decide) (by decide)
      exact Layout.isClosed_spaced (by simp [hc, hw, (hl 1).parens])
  | pattern anchor n =>
      have ht := textType_mem hd
      refine isClosed_matchLayout (fun k => ?_) hl
      cases stringLike with
      | true => exact hc k
      | false =>
          have has : "AS".toList ∈ keywords ∧ "AS".toList ∉ joinWords := by decide
          have hw : Layout.IsClosed d (k + 1) (words ["AS", d.textType]) :=
            Layout.isClosed_words (List.forall_mem_cons.2 ⟨has.1, List.forall_mem_singleton.2 ht.1⟩)
              (.inr (List.forall_mem_cons.2 ⟨has.2, List.forall_mem_singleton.2 ht.2⟩))
          exact (Layout.isClosed_spaced (by simp [hc, hw])).call (by decide) (by decide)

end Sql

theorem Literal.isLiteral_token {d : Dialect} (hd : d.IsStandard) {type : ValueType} {l : Literal}
    (h : l.Suits type) :
    (l.token d).IsLiteral := by
  cases l with
  | bool b => exact isLiteral_boolToken hd b
  | int n => exact isNumeral_intText n.toInt
  | float x => exact isNumeral_floatText (isFinite_of_suits h)
  | text s => trivial

theorem Argument.isLiteral_tokens {d : Dialect} (hd : d.IsStandard) {type : ValueType} {o : Operator}
    {a : Argument}
    (h : a.Suits type o) : ∀ t ∈ a.tokens d, t.IsLiteral := by
  cases a with
  | toggle b => exact List.forall_mem_singleton.2 (isLiteral_boolToken hd b)
  | pattern p => exact List.forall_mem_singleton.2 trivial
  | literal l =>
      have hl : l.Suits type := by
        cases o <;> first | exact h | cases h
      exact List.forall_mem_singleton.2 (l.isLiteral_token hd hl)
  | literals ls =>
      have hl : ∀ l ∈ ls, l.Suits type := by
        cases o <;> first | exact h.2 | cases h
      intro t ht
      obtain ⟨l, hm, rfl⟩ := List.mem_map.1 ht
      exact l.isLiteral_token hd (hl l hm)

theorem Predicate.WellTyped.isClosed_layout {d : Dialect} (hd : d.IsStandard) {p : Predicate}
    (h : p.WellTyped) :
    (p.layout d).IsClosed d 0 :=
  isClosed_template hd _ _ _ _ _ (Argument.isLiteral_tokens hd h.suited)

end PredicateSearch

import PredicateSearch.Proofs.Sql.Template

namespace PredicateSearch

open Sql

namespace Sql

/-- The token without what it names, counts or quotes. -/
def Token.outline : Token → Token
  | identifier _ => identifier []
  | string _ => string []
  | number _ => number []
  | keyword s => if s = "FALSE".toList then keyword "TRUE".toList else keyword s
  | mark s => mark s

end Sql

def Literal.kind : Literal → LiteralKind
  | bool _ => .boolean
  | int _ => .integer
  | float _ => .number
  | text _ => .string

def Argument.kinds : Argument → List LiteralKind
  | toggle _ => [.boolean]
  | pattern _ => [.string]
  | literal l => [l.kind]
  | literals ls => ls.map Literal.kind

def LiteralKind.token (d : Dialect) : LiteralKind → Token
  | boolean => boolToken d true
  | integer | number => .number []
  | string => .string []

namespace Sql

variable {d : Dialect}

theorem outline_boolToken (hd : d.IsStandard) (b : Bool) :
    (boolToken d b).outline = (boolToken d true).outline := by
  obtain ⟨e, he, hb⟩ := exists_boolToken_eq hd
  rw [hb, hb]
  simp only [Dialect.builtIn, List.mem_cons, List.not_mem_nil, or_false] at he
  rcases he with rfl | rfl | rfl <;> cases b <;> rfl

theorem map_intercalate {α β : Type} (f : α → β) (s : List α) (ls : List (List α)) :
    (s.intercalate ls).map f = (s.map f).intercalate (ls.map (List.map f)) := by
  induction ls with
  | nil => rfl
  | cons l ls ih =>
      cases ls with
      | nil => simp
      | cons m ls => simp_all [List.intercalate_cons_cons]

def Layout.outline (l : Layout) : Layout := l.map (Option.map Token.outline)

theorem tokens_outline (l : Layout) : l.outline.tokens = l.tokens.map Token.outline := by
  rw [Layout.outline, Layout.tokens, Layout.tokens, List.filterMap_map, List.map_filterMap]
  rfl

theorem outline_spaced (ls : List Layout) : (spaced ls).outline = spaced (ls.map Layout.outline) :=
  map_intercalate _ [none] ls

theorem outline_parens (l : Layout) : (parens l).outline = parens l.outline := by
  simp [parens, Layout.outline, sign, Token.outline]

theorem outline_listed (ts : List Token) : (listed ts).outline = listed (ts.map Token.outline) := by
  rw [Layout.outline, listed, listed, map_intercalate, List.map_map, List.map_map]
  rfl

theorem outline_call (f : String) (l : Layout) :
    (call f l).outline = some (Token.outline (.keyword f.toList)) :: parens l.outline := by
  rw [← outline_parens]
  rfl

/-- Tests with the same operator, form and kinds of literals differ only in what they name and quote. -/
theorem outline_template {o : Operator} {positive stringLike : Bool}
    {table column table' column' : List Char} {argument argument' : List Token}
    (h : argument.map Token.outline = argument'.map Token.outline) :
    (template d o positive stringLike table column argument).outline =
      (template d o positive stringLike table' column' argument').outline := by
  have hc : (columnLayout table column).outline = (columnLayout table' column').outline := rfl
  have hl : (listed argument).outline = (listed argument').outline := by
    rw [outline_listed, outline_listed, h]
  cases o with
  | pattern anchor n =>
      cases stringLike <;> cases hm : d.caseMatching <;> cases he : d.escapeClause <;>
        simp [template, matchLayout, hm, he, outline_spaced, outline_call, hc, hl]
  | presence n => cases positive <;> simp [template, outline_spaced, outline_parens, hc]
  | membership n => simp [template, outline_spaced, outline_parens, hc, hl]
  | equality n => simp [template, outline_spaced, hc, hl]
  | comparison c => simp [template, outline_spaced, hc, hl]
  | nullCheck n => simp [template, outline_spaced, hc]
  | truth target n => simp [template, outline_spaced, hc]

/-- Names only the table and the column, and quotes nothing but what `quotes` says. -/
def Token.Shows (table column : List Char) (quotes : List Char → Prop) : Token → Prop
  | identifier s => s = table ∨ s = column
  | string s => quotes s
  | number _ | keyword _ | mark _ => True

def Layout.Shows (table column : List Char) (quotes : List Char → Prop) (l : Layout) : Prop :=
  ∀ t, some t ∈ l → t.Shows table column quotes

variable {table column : List Char} {quotes : List Char → Prop}

theorem mem_intercalate {α : Type} {x : α} {s : List α} {ls : List (List α)} (h : x ∈ s.intercalate ls) :
    x ∈ s ∨ ∃ l ∈ ls, x ∈ l := by
  induction ls with
  | nil => simp at h
  | cons l ls ih =>
      cases ls with
      | nil => exact .inr ⟨l, by simp, by simpa using h⟩
      | cons m ls =>
          rw [List.intercalate_cons_cons, List.mem_append, List.mem_append] at h
          rcases h with (h | h) | h
          · exact .inr ⟨l, by simp, h⟩
          · exact .inl h
          · rcases ih h with h | ⟨k, hk, hx⟩
            · exact .inl h
            · exact .inr ⟨k, List.mem_cons_of_mem l hk, hx⟩

theorem shows_spaced {ls : List Layout} (h : ∀ l ∈ ls, Layout.Shows table column quotes l) :
    (spaced ls).Shows table column quotes := by
  intro t ht
  rcases mem_intercalate ht with ht | ⟨l, hl, ht⟩
  · simp at ht
  · exact h l hl t ht

theorem shows_words (ws : List String) : (words ws).Shows table column quotes := by
  refine shows_spaced fun l hl t ht => ?_
  obtain ⟨w, _, rfl⟩ := List.mem_map.1 hl
  cases List.mem_singleton.1 ht
  trivial

theorem shows_listed {ts : List Token} (h : ∀ t ∈ ts, t.Shows table column quotes) :
    (listed ts).Shows table column quotes := by
  intro t ht
  rcases mem_intercalate ht with ht | ⟨l, hl, ht⟩
  · simp only [sign, List.mem_cons, Option.some.injEq, List.not_mem_nil, reduceCtorEq, or_false] at ht
    subst t
    trivial
  · obtain ⟨u, hu, rfl⟩ := List.mem_map.1 hl
    cases List.mem_singleton.1 ht
    exact h t hu

theorem shows_parens {l : Layout} (h : l.Shows table column quotes) :
    (parens l).Shows table column quotes := by
  intro t ht
  simp only [parens, sign, List.mem_append, List.mem_cons, Option.some.injEq, List.not_mem_nil,
    or_false] at ht
  rcases ht with (rfl | ht) | rfl
  · trivial
  · exact h t ht
  · trivial

theorem shows_call {f : String} {l : Layout} (h : l.Shows table column quotes) :
    (call f l).Shows table column quotes := by
  intro t ht
  rcases List.mem_cons.1 ht with ht | ht
  · cases ht
    trivial
  · exact shows_parens h t ht

theorem shows_singleton {t : Token} (h : t.Shows table column quotes) :
    Layout.Shows table column quotes [some t] := by
  intro u hu
  cases List.mem_singleton.1 hu
  exact h

theorem shows_columnLayout : (columnLayout table column).Shows table column quotes := by
  intro t ht
  simp only [columnLayout, sign, List.mem_cons, Option.some.injEq, List.not_mem_nil, or_false] at ht
  rcases ht with rfl | rfl | rfl
  · exact .inl rfl
  · trivial
  · exact .inr rfl

theorem shows_boolToken (b : Bool) : (boolToken d b).Shows table column quotes := by
  simp only [boolToken]
  split <;> trivial

theorem shows_template {o : Operator} {positive stringLike : Bool} {argument : List Token}
    (ha : ∀ t ∈ argument, t.Shows table column quotes) (hp : ∀ n, o = .presence n → quotes [])
    (he : ∀ a n, o = .pattern a n → d.escapeClause = true → quotes ['\\']) :
    (template d o positive stringLike table column argument).Shows table column quotes := by
  have hc : (columnLayout table column).Shows table column quotes := shows_columnLayout
  have hl : (listed argument).Shows table column quotes := shows_listed ha
  have hs (s : String) : Layout.Shows table column quotes [sign s] := shows_singleton trivial
  have hw (ws : List String) : (words ws).Shows table column quotes := shows_words ws
  cases o with
  | equality n => exact shows_spaced (by simp [hc, hs, hl])
  | comparison c => exact shows_spaced (by simp [hc, hs, hl])
  | truth target n =>
      have hb : Layout.Shows table column quotes [some (boolToken d target)] :=
        shows_singleton (shows_boolToken target)
      exact shows_spaced (by simp [hc, hs, hb])
  | nullCheck n => exact shows_spaced (by simp [hc, hw])
  | presence n =>
      have hq : Layout.Shows table column quotes [some (.string [])] := shows_singleton (hp n rfl)
      cases positive <;> exact shows_parens (shows_spaced (by simp [hc, hs, hw, hq]))
  | membership n => exact shows_spaced (by simp [hc, hw, shows_parens hl])
  | pattern anchor n =>
      have hcast : (call "CAST" (spaced [columnLayout table column, words ["AS", d.textType]])).Shows
          table column quotes := shows_call (shows_spaced (by simp [hc, hw]))
      have hsubject : Layout.Shows table column quotes (if stringLike then columnLayout table column
          else call "CAST" (spaced [columnLayout table column, words ["AS", d.textType]])) := by
        cases stringLike with
        | true => exact hc
        | false => exact hcast
      refine shows_spaced ?_
      have hq (h : d.escapeClause = true) : Layout.Shows table column quotes [some (.string ['\\'])] :=
        shows_singleton (he anchor n rfl h)
      cases d.caseMatching <;> cases hd : d.escapeClause <;>
        simp [hsubject, hl, hw, hq, hd, shows_call hsubject, shows_call hl]

end Sql

/-- The tokens of a test on any column, as far as its operator and the kinds of its literals tell. -/
def Operator.outline (d : Dialect) (o : Operator) (positive stringLike : Bool) (kinds : List LiteralKind) :
    List Token :=
  (template d o positive stringLike [] [] (kinds.map (LiteralKind.token d))).tokens.map Token.outline

/-- The texts that a test quotes: texts of the operand, the pattern made from it, and what every test with
the operator has. -/
inductive Operator.Quotes (d : Dialect) (v : Operand) : Operator → List Char → Prop
  | empty (n) : Quotes d v (.presence n) []
  | escape (a n) (h : d.escapeClause = true) : Quotes d v (.pattern a n) ['\\']
  | pattern {t} (a n) (h : v.toText? = some t) : Quotes d v (.pattern a n) (Pattern.ofText a t).toList
  | equality {t} (n) (h : v.toText? = some t) : Quotes d v (.equality n) t.toList
  | comparison {t} (c) (h : v.toText? = some t) : Quotes d v (.comparison c) t.toList
  | membership {u t} (n) (hu : u ∈ Condition.members v) (h : u.toText? = some t) :
      Quotes d v (.membership n) t.toList

theorem Literal.outline_token {d : Dialect} (hd : d.IsStandard) (l : Literal) :
    (l.token d).outline = (l.kind.token d).outline := by
  cases l with
  | bool b => exact outline_boolToken hd b
  | int | float | text => rfl

theorem Argument.outline_tokens {d : Dialect} (hd : d.IsStandard) (a : Argument) :
    (a.tokens d).map Token.outline = (a.kinds.map (LiteralKind.token d)).map Token.outline := by
  cases a with
  | toggle b => exact congrArg (fun t => [t]) (outline_boolToken hd b)
  | pattern p => rfl
  | literal l => exact congrArg (fun t => [t]) (l.outline_token hd)
  | literals ls =>
      rw [tokens, kinds, List.map_map, List.map_map, List.map_map]
      exact List.map_congr_left fun l _ => l.outline_token hd

namespace Condition

theorem shows_token {kind : LiteralKind} {u : Operand} {l : Literal} (h : kind.literal? u = some l)
    {d : Dialect} {table column : List Char} {quotes : List Char → Prop}
    (hq : ∀ t, u.toText? = some t → quotes t.toList) :
    (l.token d).Shows table column quotes := by
  cases l with
  | bool b => exact shows_boolToken b
  | int | float => trivial
  | text s =>
      cases kind with
      | boolean | integer | number => simp [LiteralKind.literal?] at h
      | string =>
          obtain ⟨t, ht, hs⟩ := Option.map_eq_some_iff.1 h
          cases hs
          exact hq s ht

theorem shows_tokens {kind : LiteralKind} {o : Operator} {v : Operand} {a : Argument}
    (h : Accepts kind o v a) (d : Dialect) (table column : List Char) :
    ∀ t ∈ a.tokens d, t.Shows table column (o.Quotes d v) := by
  cases h with
  | nullCheck | presence | truth => exact List.forall_mem_singleton.2 (shows_boolToken _)
  | pattern a n h => exact List.forall_mem_singleton.2 (.pattern a n h)
  | equality n h => exact List.forall_mem_singleton.2 (shows_token h fun t ht => .equality n ht)
  | comparison c h => exact List.forall_mem_singleton.2 (shows_token h fun t ht => .comparison c ht)
  | membership n _ h =>
      intro t ht
      obtain ⟨l, hl, rfl⟩ := List.mem_map.1 ht
      obtain ⟨u, hu, he⟩ := exists_of_forall₂ h l hl
      exact shows_token he fun s hs => .membership n hu hs

theorem shows_layout {kind : LiteralKind} {o : Operator} {v : Operand} {a : Argument}
    (h : Accepts kind o v a) (d : Dialect) (positive stringLike : Bool) (table column : List Char) :
    (template d o positive stringLike table column (a.tokens d)).Shows table column (o.Quotes d v) := by
  refine shows_template (shows_tokens h d table column) ?_ ?_
  · rintro n rfl
    exact .empty n
  · rintro b n rfl he
    exact .escape b n he

/-- Whatever is named or given, a dialect reads a compiled test back as the words of its template. The names
are the table's and the column's, every quoted text is one that the operand asks for, and no other word
depends on them. -/
theorem compile_tokens {d : Dialect} (hd : d.IsStandard) {text : String} {key : Key}
    (hk : Key.parse text = .ok key) (column : Attribute) (v : Operand) (ignoreBlank : Bool)
    {p : Predicate} (h : compile column key v ignoreBlank = .ok (predicate p)) :
    ∃ ts, tokens d ((predicate p).sql d).toList = some ts ∧
      ts = (template d key.operator p.isPositive column.type.isStringLike column.table.toList
        column.column.toList (p.argument.tokens d)).tokens ∧
      ts.map Token.outline = key.operator.outline d p.isPositive column.type.isStringLike p.argument.kinds ∧
      (∀ s, .identifier s ∈ ts → s = column.table.toList ∨ s = column.column.toList) ∧
      ∀ s, .string s ∈ ts → key.operator.Quotes d v s := by
  have hp := wellTyped_of_compile (Key.negated_of_parse hk) h
  obtain ⟨-, -, a, ha, rfl⟩ := compile_eq_predicate.1 h
  have hr := tokens_write (hp.isClosed_layout hd).toIsReadable
  rw [← Predicate.toList_sql] at hr
  refine ⟨_, hr, rfl, ?_, fun s hs => ?_, fun s hs => ?_⟩
  · rw [← tokens_outline, Operator.outline, ← tokens_outline]
    exact congrArg Layout.tokens (outline_template (a.outline_tokens hd))
  · exact shows_layout ha d _ _ _ _ _ (Layout.mem_tokens.1 hs)
  · exact shows_layout ha d _ _ _ _ _ (Layout.mem_tokens.1 hs)

theorem compile_tokens_quote :
    tokens .mysql (Condition.sql .mysql (predicate ⟨⟨"pe\x60ople", "name", .string⟩,
      .pattern .finish true, true, .pattern "%' OR 1=1 \\\\"⟩)).toList =
      some [.identifier "pe\x60ople".toList, .mark ['.'], .identifier "name".toList, .keyword "NOT".toList,
        .keyword "LIKE".toList, .string "%' OR 1=1 \\\\".toList] := by
  have hk : Key.parse "name_not_end" = .ok ⟨"name", .pattern .finish true, true⟩ := by rfl
  have h : compile ⟨"pe\x60ople", "name", .string⟩ ⟨"name", .pattern .finish true, true⟩
      (.text "' OR 1=1 \\") true = .ok (predicate
        ⟨⟨"pe\x60ople", "name", .string⟩, .pattern .finish true, true, .pattern "%' OR 1=1 \\\\"⟩) := by
    rfl
  have hd : Dialect.mysql.IsStandard := .inl (by decide)
  obtain ⟨ts, ht, he, -⟩ := compile_tokens hd hk _ _ true h
  rw [ht, he]
  rfl

end Condition

end PredicateSearch

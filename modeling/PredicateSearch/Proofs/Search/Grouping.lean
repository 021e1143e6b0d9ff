import PredicateSearch.Proofs.Search.Compile
import PredicateSearch.Proofs.Sql.Cut
import PredicateSearch.Proofs.Sql.Template

namespace PredicateSearch

open Sql

def Condition.layout (d : Dialect) : Condition → Layout
  | empty => []
  | predicate p => p.layout d

theorem Condition.toList_sql (d : Dialect) (c : Condition) : (c.sql d).toList = write d (c.layout d) := by
  cases c with
  | empty => rfl
  | predicate p => exact p.toList_sql d

namespace Search

theorem isClosed_of_compile {d : Dialect} (hd : d.IsStandard) {resolver : Resolver} {text : String}
    {v : Operand} {ignoreBlank : Bool} {c : Condition} (h : resolver.compile text v ignoreBlank = .ok c) :
    (c.layout d).IsClosed d 0 := by
  obtain ⟨key, column, hk, -, hc⟩ := Resolver.compile_eq_ok.1 h
  cases c with
  | empty => exact Layout.isClosed_nil
  | predicate p => exact (Condition.wellTyped_of_compile (Key.negated_of_parse hk) hc).isClosed_layout hd

theorem exists_layouts {s : Search} (hd : s.dialect.IsStandard) {fs : List String}
    (h : s.fragments = .ok fs) :
    ∃ ls : List Layout, fs.map String.toList = ls.map (write s.dialect) ∧
      ∀ l ∈ ls, l.IsClosed s.dialect 0 := by
  obtain ⟨cs, hcs, h⟩ := bind_eq_ok.1 h
  cases h
  refine ⟨(cs.filter fun c => !c.isEmpty).map (Condition.layout s.dialect), ?_, ?_⟩
  · rw [List.map_map, List.map_map]
    exact List.map_congr_left fun c _ => c.toList_sql s.dialect
  · intro l hl
    obtain ⟨c, hc, rfl⟩ := List.mem_map.1 hl
    obtain ⟨e, -, he⟩ := exists_of_forall₂ (compileAll_eq_ok.1 hcs) c (List.mem_of_mem_filter hc)
    exact isClosed_of_compile hd he

theorem sql_of_fragments {s : Search} {f : String} {fs : List String} (h : s.fragments = .ok (f :: fs)) :
    ∃ text, s.sql = .ok (some text) ∧
      text.toList = s.options.combinator.separator.intercalate ((f :: fs).map String.toList) := by
  refine ⟨(" " ++ s.options.combinator.keyword ++ " ").intercalate (f :: fs), ?_, ?_⟩
  · rw [sql, h]
    rfl
  · rw [String.toList_intercalate]
    simp [Combinator.separator]

/-- The conditions of a search are joined so that they come apart again as they were, whatever is named
or asked for in them: the clause asks for all of them, or for any. -/
theorem parts_sql {s : Search} (hd : s.dialect.IsStandard) {f : String} {fs : List String}
    (h : s.fragments = .ok (f :: fs)) :
    ∃ text, s.sql = .ok (some text) ∧
      parts s.dialect text.toList = some (f.toList, fs.map fun g => (s.options.combinator, g.toList)) ∧
      (∀ g ∈ f :: fs, IsBalanced s.dialect g.toList ∧ parts s.dialect g.toList = some (g.toList, [])) ∧
      alternatives f.toList (fs.map fun g => (s.options.combinator, g.toList)) =
        match s.options.combinator with
        | .all => [(f :: fs).map String.toList]
        | .any => (f :: fs).map fun g => [g.toList] := by
  obtain ⟨ls, hls, hc⟩ := exists_layouts hd h
  obtain ⟨text, ht, hj⟩ := sql_of_fragments h
  have hg : ∀ g ∈ f :: fs, parts s.dialect g.toList = some (g.toList, []) := by
    intro g hg
    have hm := List.mem_map_of_mem (f := String.toList) hg
    rw [hls] at hm
    obtain ⟨l, hl, he⟩ := List.mem_map.1 hm
    rw [← he]
    exact parts_write (hc l hl)
  refine ⟨text, ht, ?_, fun g hm => ⟨isBalanced_of_parts (hg g hm), hg g hm⟩, ?_⟩
  · cases ls with
    | nil => cases hls
    | cons l ls =>
        have hp := parts_intercalate s.options.combinator hc
        have hr : ls.map (fun m => (s.options.combinator, write s.dialect m)) =
            fs.map fun g => (s.options.combinator, g.toList) := by
          have he := congrArg (List.map fun t => (s.options.combinator, t)) (List.cons.inj hls).2
          rw [List.map_map, List.map_map] at he
          exact he.symm
        rw [← hls, ← hj, hr, ← (List.cons.inj hls).1] at hp
        exact hp
  · cases s.options.combinator with
    | all =>
        have ha := alternatives_all f.toList (fs.map String.toList)
        rwa [List.map_map] at ha
    | any =>
        have ha := alternatives_any f.toList (fs.map String.toList)
        rw [← List.map_cons, List.map_map, List.map_map] at ha
        exact ha

theorem parts_sql_present :
    parts .sqlite ("(\"a OR b\".\"(\" IS NOT NULL AND \"a OR b\".\"(\" != '')" ++
        " OR \"a OR b\".\"(\" = ' AND '").toList =
      some ("(\"a OR b\".\"(\" IS NOT NULL AND \"a OR b\".\"(\" != '')".toList,
        [(.any, "\"a OR b\".\"(\" = ' AND '".toList)]) := by
  have h : fragments
      { resolver := fun _ => some ⟨"a OR b", "(", .string⟩, dialect := .sqlite,
        options := { combinator := .any },
        entries := [("x_present", .bool true), ("x_null", .null), ("x_eq", .text " AND ")] } =
      .ok ["(\"a OR b\".\"(\" IS NOT NULL AND \"a OR b\".\"(\" != '')",
        "\"a OR b\".\"(\" = ' AND '"] := by rfl
  have hd : Dialect.sqlite.IsStandard := .inl (by decide)
  obtain ⟨text, ht, hp, -⟩ := parts_sql hd h
  cases ht
  exact hp

end Search

end PredicateSearch

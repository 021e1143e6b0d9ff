import Mathlib
import PredicateSearch.Proofs.Key.Path
import PredicateSearch.Proofs.Key.Splitting
import PredicateSearch.Proofs.Schema.Printable

namespace PredicateSearch

theorem Schema.notMem_of_isName {s : List Char} (h : isName s = true) : '.' ∉ s := by
  cases s with
  | nil => simp
  | cons c s =>
      obtain ⟨hc, hs⟩ := Bool.and_eq_true_iff.1 h
      rw [List.mem_cons]
      rintro (rfl | hd)
      · cases hc
      · cases List.all_eq_true.1 hs '.' hd

namespace Model

theorem resolve_of_length {m : Model} {path : List String} (h : 1 < path.length) : m.resolve path = none :=
  resolve_eq_none h.ne'

theorem IsPrintable.resolve_name {m : Model} (hm : m.IsPrintable) {c : Column} (hc : c ∈ m.columns) :
    m.resolve [c.name.text] = some ⟨m.tableName, c.columnName, c.type⟩ := by
  have hf : m.getColumn? c.name.text = some c := Keyed.find?_of_mem hm.distinct hc
  rw [resolve, hf]
  rfl

/-- Which columns a key can ask for by their names: none whose name is read as a longer path, and none
whose name ends as the negation of the operator begins. -/
theorem resolve_parse_iff {text : String} {s : Schema} (hs : Schema.parse text = .ok s) {m : Model}
    (hm : m ∈ s.models) {c : Column} (hc : c ∈ m.columns) (o : Operator) :
    ((∃ k, Key.parse (c.name.text ++ "_" ++ o.id) = .ok k ∧ k.operator = o ∧
        m.resolve k.path = some ⟨m.mappedTable.getD m.name.text, c.mappedName.getD c.name.text, c.type⟩) ↔
      ¬ "__".toList <:+: c.name.text.toList ∧
        ¬ ("_not".toList <:+ c.name.text.toList ∧ ∃ p : Operator, p.id = "not_" ++ o.id)) ∧
    ∀ (a : String) (p : Operator), a ≠ "" → c.name.text = a ++ "_not" → p.id = "not_" ++ o.id →
      Key.parse (c.name.text ++ "_" ++ o.id) = .ok (Key.ofOperator a p) := by
  have hp := (Schema.isPrintable_of_parse hs).models m hm
  have hn := (hp.columns c hc).name
  have hd := Schema.notMem_of_isName hn
  have hne : c.name.text ≠ "" := by
    intro he
    rw [he] at hn
    cases hn
  simp only [← Operator.isNegationOf_iff]
  refine ⟨⟨?_, ?_⟩, ?_⟩
  · rintro ⟨k, hk, ho, hr⟩
    have hx : ¬ ("_not".toList <:+ c.name.text.toList ∧ ∃ p : Operator, p.IsNegationOf o) := by
      rintro ⟨⟨a, ha⟩, p, hpo⟩
      rw [Key.parse_append_not ha.symm hpo] at hk
      split at hk
      · cases hk
      · cases hk
        exact Operator.not_isNegationOf_self (ho ▸ hpo)
    rw [Key.parse_append hne hx] at hk
    cases hk
    rcases Key.path_cases (Key.ofOperator c.name.text o) hd with ⟨hl, -⟩ | ⟨-, hl⟩
    · exact ⟨hl, hx⟩
    · rw [resolve_of_length hl] at hr
      cases hr
  · rintro ⟨hl, hx⟩
    refine ⟨Key.ofOperator c.name.text o, Key.parse_append hne hx, rfl, ?_⟩
    rcases Key.path_cases (Key.ofOperator c.name.text o) hd with ⟨-, hpath⟩ | ⟨hl', -⟩
    · rw [hpath]
      exact hp.resolve_name hc
    · exact absurd hl' hl
  · intro a p ha hc hpo
    have hs : c.name.text.toList = a.toList ++ "_not".toList := by rw [hc, String.toList_append]
    rw [Key.parse_append_not hs hpo, if_neg (by simpa using ha), String.ofList_toList]

theorem resolve_parse_iff_not :
    Key.parse "is_not_eq" = .ok ⟨"is", .equality true, true⟩ ∧
      ∃ k, Key.parse "is_not_lt" = .ok k ∧ k.operator = .comparison .less ∧
        resolve
          { name := ⟨"A", ⟨6, 7⟩⟩, span := ⟨0, 29⟩, mappedTable := some "t",
            columns := [{ name := ⟨"is_not", ⟨17, 23⟩⟩, type := .text, span := ⟨17, 28⟩ }] }
          k.path = some ⟨"t", "is_not", .text⟩ := by
  have hs : Schema.parse "model A@map(\"t\")\x7bis_not Text\x7d" = .ok ⟨[
      { name := ⟨"A", ⟨6, 7⟩⟩, span := ⟨0, 29⟩, mappedTable := some "t",
        columns := [{ name := ⟨"is_not", ⟨17, 23⟩⟩, type := .text, span := ⟨17, 28⟩ }] }]⟩ := by
    rw [Schema.parse_eq]
    cbv
  have h := resolve_parse_iff hs (List.mem_singleton_self _) (List.mem_singleton_self _)
  have hl : ¬ ∃ p : Operator, p.id = "not_lt" := by
    rintro ⟨p, hp⟩
    have hall : ∀ p ∈ Operator.all, p.id ≠ "not_lt" := by decide
    exact hall p p.mem_all hp
  exact ⟨(h (.equality false)).2 "is" (.equality true) (by decide) (by decide) (by decide),
    (h (.comparison .less)).1.2 ⟨by decide, fun hx => hl hx.2⟩⟩

end Model

end PredicateSearch

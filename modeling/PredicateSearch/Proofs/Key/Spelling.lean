import PredicateSearch.Proofs.Key.Path
import PredicateSearch.Proofs.Key.Splitting
import PredicateSearch.Proofs.Search.Compile

namespace PredicateSearch

namespace Key

/-- A name that can stand anywhere in a path. It may well begin with an underscore, since a pair is taken as far
to the left as it can be. -/
structure IsPathName (n : String) : Prop where
  ne_empty : n ≠ ""
  noDot : '.' ∉ n.toList
  noLows : ¬ "__".toList <:+: n.toList
  noLow : n.toList.getLast? ≠ some '_'

namespace Spelling

/-- The name that the operator is written behind. -/
def target : Spelling → String
  | last n => n
  | step _ _ r => target r

theorem getLast?_names (r : Spelling) : r.names.getLast? = some r.target := by
  induction r with
  | last n => rfl
  | step n s r ih => rw [names, List.getLast?_cons, ih]; rfl

theorem target_eq {r r' : Spelling} (h : r'.names = r.names) : r'.target = r.target :=
  Option.some_inj.1 (by rw [← getLast?_names, ← getLast?_names, h])

theorem splitPath_text {r : Spelling} (h : ∀ n ∈ r.names, IsPathName n) :
    splitPath r.text.toList = r.names.map String.toList := by
  induction r with
  | last n =>
      have hn := h n (List.mem_singleton_self n)
      have hs := splitPath_append hn.noDot hn.noLows (fun hx => hn.noLow hx.1) (r := []) rfl
      simpa [text, names] using hs
  | step n s r ih =>
      obtain ⟨hn, hr⟩ := List.forall_mem_cons.1 h
      have hs := splitPath_append hn.noDot hn.noLows (fun hx => hn.noLow hx.1) (splitPath_separator s r.text.toList)
      simpa [text, names, ih hr] using hs

theorem path_ofOperator {r : Spelling} (h : ∀ n ∈ r.names, IsPathName n) (o : Operator) :
    (ofOperator r.text o).path = r.names := by
  rw [path_eq, ofOperator, splitPath_text h]
  simp

theorem text_ne_empty {r : Spelling} (h : ∀ n ∈ r.names, IsPathName n) : r.text ≠ "" := by
  cases r with
  | last n => exact (h n (List.mem_singleton_self n)).ne_empty
  | step n s r => cases s <;> simp [text, Separator.text]

/-- The target stands at the end, behind a separator if there is anything in front of it. -/
theorem exists_text_eq (r : Spelling) : ∃ before, r.text.toList = before ++ r.target.toList ∧
    ∀ c ∈ before.getLast?, c = '.' ∨ c = '_' := by
  induction r with
  | last n => exact ⟨[], rfl, by simp⟩
  | step n s r ih =>
      obtain ⟨before, ht, hl⟩ := ih
      refine ⟨n.toList ++ s.text.toList ++ before, by simp [text, target, ht], ?_⟩
      rw [List.getLast?_append]
      cases hb : before.getLast? with
      | none => cases s <;> simp [Separator.text]
      | some c => simpa using hl c hb

/-- A text that ends as a negation begins owes that to its target, with the underscore in front of it or not. -/
theorem target_of_suffix {r : Spelling} (h : "_not".toList <:+ r.text.toList) :
    r.target = "not" ∨ "_not".toList <:+ r.target.toList := by
  obtain ⟨before, ht, hl⟩ := r.exists_text_eq
  rw [ht] at h
  rcases List.suffix_or_suffix_of_suffix h (List.suffix_append _ _) with hs | ⟨t, hs⟩
  · exact .inr hs
  · obtain ⟨u, hu⟩ := h
    rw [← hs, ← List.append_assoc] at hu
    obtain rfl := List.append_cancel_right hu
    cases t with
    | nil => exact .inr (hs ▸ List.suffix_refl _)
    | cons a t =>
        have hn : t ++ r.target.toList = "not".toList := (List.cons.inj hs).2
        -- Of the characters of the negation only the first parts names from each other.
        rcases List.eq_nil_or_concat t with rfl | ⟨t, c, rfl⟩
        · exact .inl (String.toList_inj.1 hn)
        · have hc := hl c (by simp [List.getLast?_cons])
          have hm : c ∈ "not".toList := hn ▸ by simp
          rcases hc with rfl | rfl <;> simp at hm

/-- Whatever parts the target from the name in front of it, the operator behind it is not taken for its negation. -/
def Precedes (r : Spelling) (o : Operator) : Prop :=
  (r.target ≠ "not" ∧ ¬ "_not".toList <:+ r.target.toList) ∨ ¬ ∃ p : Operator, p.id = "not_" ++ o.id

theorem parse_text {r : Spelling} {o : Operator} (h : ∀ n ∈ r.names, IsPathName n) (ho : r.Precedes o) :
    parse (r.text ++ "_" ++ o.id) = .ok (ofOperator r.text o) := by
  refine parse_append (text_ne_empty h) ?_
  rintro ⟨hs, p, hp⟩
  rcases ho with ⟨hne, hn⟩ | ho
  · exact (target_of_suffix hs).elim hne hn
  · exact ho ⟨p, Operator.isNegationOf_iff.1 hp⟩

end Spelling

/-- Full stops and pairs of underscores part names alike: how a path is written decides neither what is read nor
what it compiles to. And the names of any key are written, in one of these ways, as its subject. -/
theorem parse_spelling :
    (∀ (r : Spelling) (o : Operator), (∀ n ∈ r.names, IsPathName n) → r.Precedes o →
      (∃ k, parse (r.text ++ "_" ++ o.id) = .ok k ∧ k.operator = o ∧ k.path = r.names) ∧
      ∀ r' : Spelling, r'.names = r.names →
        ∀ (resolver : Resolver) (v : Operand) (ignoreBlank : Bool) (c : Condition),
          resolver.compile (r'.text ++ "_" ++ o.id) v ignoreBlank = .ok c ↔
            resolver.compile (r.text ++ "_" ++ o.id) v ignoreBlank = .ok c) ∧
    ∀ k : Key, k.path ≠ [] ∧ (∀ n ∈ k.path, '.' ∉ n.toList ∧ ¬ "__".toList <:+: n.toList) ∧
      ∃ r : Spelling, r.names = k.path ∧ r.text = k.subject := by
  refine ⟨fun r o hn ho => ?_, fun k => ?_⟩
  · have hk := Spelling.parse_text hn ho
    have hp := Spelling.path_ofOperator hn o
    refine ⟨⟨_, hk, rfl, hp⟩, fun r' hr resolver v ignoreBlank c => ?_⟩
    have hn' : ∀ n ∈ r'.names, IsPathName n := hr ▸ hn
    have ho' : r'.Precedes o := by rwa [Spelling.Precedes, Spelling.target_eq hr]
    have hp' : (ofOperator r'.text o).path = (ofOperator r.text o).path := by
      rw [Spelling.path_ofOperator hn', hr, hp]
    exact Resolver.compile_eq_ok_congr hk (Spelling.parse_text hn' ho') hp' rfl rfl
  · obtain ⟨r, ht, hn⟩ := exists_spelling k.subject.toList
    rw [path_eq, ← hn]
    refine ⟨r.names_ne_nil, fun n hm => ?_, r, rfl, String.toList_inj.1 ht⟩
    rw [hn] at hm
    obtain ⟨p, hp, rfl⟩ := List.mem_map.1 hm
    rw [String.toList_ofList]
    exact plain_of_mem_splitPath _ p hp

theorem parse_spelling_not_present :
    (∃ k, parse "author__not_present" = .ok k ∧ k.operator = .presence false ∧ k.path = ["author", "not"]) ∧
      Resolver.compile
          (fun path => if path = ["author", "not"] then some ⟨"authors", "not", .text⟩ else none)
          "author.not_present" (.text " YES ") true =
        .ok (.predicate ⟨⟨"authors", "not", .text⟩, .presence false, false, .toggle true⟩) := by
  have hn : ∀ n ∈ ["author", "not"], IsPathName n := by
    simp only [List.forall_mem_cons]
    exact ⟨⟨by decide, by decide, by decide, by decide⟩, ⟨by decide, by decide, by decide, by decide⟩, by simp⟩
  have ho : ∀ p ∈ Operator.all, p.id ≠ "not_present" := by decide
  have h := parse_spelling.1 (.step "author" .lows (.last "not")) (.presence false) hn
    (.inr fun ⟨p, hp⟩ => ho p p.mem_all hp)
  have he : "author.not_present" = (Spelling.step "author" .dot (.last "not")).text ++ "_" ++ "present" := by rfl
  refine ⟨h.1, ?_⟩
  rw [he]
  exact (h.2 (.step "author" .dot (.last "not")) rfl _ _ _ _).2 (Resolver.compile_eq_ok.2
    ⟨⟨"author__not", .presence false, false⟩, ⟨"authors", "not", .text⟩, by rfl, by rfl, by rfl⟩)

end Key

end PredicateSearch

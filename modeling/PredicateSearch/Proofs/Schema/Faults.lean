import PredicateSearch.Proofs.Schema.Acceptance

namespace PredicateSearch

namespace Schema

/-- What is wrong with a mark. Of one whose name is not known nothing else is said. -/
def Mark.faults (a : Mark) : List LoadError :=
  if a.name ≠ "map" then [.invalidMark a.name .unknown]
  else if a.argument = none ∨ a.argument = some "" then [.invalidMark a.name .missingArgument]
  else []

/-- What is wrong with a column by itself: first the type, then each mark. -/
def ColumnDeclaration.faults (model : String) (d : ColumnDeclaration) : List LoadError :=
  (if ValueType.ofName? d.type = none then [.unknownType model d.name.text d.type] else []) ++
    d.marks.flatMap Mark.faults

/-- What is wrong with a model by itself: first the marks in its head, then each column, with the columns
before it in mind. -/
def ModelDeclaration.faults (d : ModelDeclaration) : List LoadError :=
  d.marks.flatMap Mark.faults ++
    Keyed.faults (fun c => c.name.text) (ColumnDeclaration.faults d.name.text)
      (fun c => .duplicateColumn d.name.text c.name.text) [] d.columns

/-- What is wrong with models, in the order in which it is noticed. -/
def faults (ds : List ModelDeclaration) : List LoadError :=
  Keyed.faults (fun d => d.name.text) ModelDeclaration.faults (fun d => .duplicateModel d.name.text) [] ds

end Schema

open Schema

/-- The column says what is declared, and of several marks the last one counts. -/
structure Column.IsDeclared (d : ColumnDeclaration) (c : Column) : Prop where
  name : c.name = d.name
  type : ValueType.ofName? d.type = some c.type
  optional : c.optional = d.optional
  mapped : c.mappedName = d.marks.getLast?.bind Mark.argument
  documentation : c.documentation = d.documentation
  span : c.span = d.span

structure Model.IsDeclared (d : ModelDeclaration) (m : Model) : Prop where
  name : m.name = d.name
  mapped : m.mappedTable = d.marks.getLast?.bind Mark.argument
  columns : List.Forall₂ Column.IsDeclared d.columns m.columns
  documentation : m.documentation = d.documentation
  span : m.span = d.span

namespace Schema

theorem Mark.failsFirst_target (a : Mark) : FailsFirst a.target a.faults := by
  rw [target, faults]
  by_cases hn : a.name = "map"
  · have hk : ¬ a.name ∉ known := not_not_intro (hn ▸ List.mem_singleton_self _)
    rw [if_neg hk, if_neg (not_not_intro hn)]
    cases ha : a.argument with
    | none => rfl
    | some s =>
        by_cases hs : s = ""
        · simp [hs, FailsFirst]
        · simp [hs, FailsFirst]
  · have hk : a.name ∉ known := fun h => hn (List.mem_singleton.1 h)
    rw [if_pos hk, if_pos hn]
    rfl

theorem failsFirst_mapping (marks : List Mark) : FailsFirst (mapping marks) (marks.flatMap Mark.faults) := by
  induction marks with
  | nil => exact ⟨none, rfl⟩
  | cons a marks ih =>
      rw [mapping, List.flatMap_cons]
      apply a.failsFirst_target.bind
      intro t _
      exact ih.map fun later => some (later.getD t)

theorem mapping_eq_last {marks : List Mark} {x : Option String} (h : mapping marks = .ok x) :
    x = marks.getLast?.bind Mark.argument := by
  induction marks generalizing x with
  | nil => exact (Except.ok.inj h).symm
  | cons a marks ih =>
      obtain ⟨t, ht, h⟩ := bind_eq_ok.1 h
      obtain ⟨later, hl, h⟩ := bind_eq_ok.1 h
      have hx : some (later.getD t) = x := Except.ok.inj h
      obtain ⟨-, ha, -⟩ := Mark.target_eq_ok.1 ht
      have hm := ih hl
      cases marks with
      | nil =>
          subst hm
          simp [← hx, ha]
      | cons b marks =>
          -- Of the marks behind the first one all have arguments.
          obtain ⟨u, -, hu⟩ := bind_eq_ok.1 hl
          obtain ⟨v, -, hv⟩ := bind_eq_ok.1 hu
          have hs : some (v.getD u) = later := Except.ok.inj hv
          rw [List.getLast?_cons_cons, ← hm, ← hx, ← hs]
          rfl

end Schema

theorem Column.failsFirst_ofDeclaration (model : String) (d : ColumnDeclaration) :
    FailsFirst (ofDeclaration model d) (d.faults model) := by
  have ht : FailsFirst (typeOf model d)
      (if ValueType.ofName? d.type = none then [.unknownType model d.name.text d.type] else []) := by
    rw [typeOf]
    cases ValueType.ofName? d.type with
    | none => rfl
    | some t => exact ⟨t, rfl⟩
  rw [ofDeclaration]
  apply ht.bind
  intro type _
  exact (failsFirst_mapping d.marks).map _

theorem Column.name_of_ofDeclaration {model : String} {d : ColumnDeclaration} {c : Column}
    (h : ofDeclaration model d = .ok c) : c.name = d.name := by
  obtain ⟨type, column, -, -, rfl⟩ := ofDeclaration_eq_ok.1 h
  rfl

theorem Model.failsFirst_ofDeclaration (d : ModelDeclaration) : FailsFirst (ofDeclaration d) d.faults := by
  rw [ofDeclaration]
  apply (failsFirst_mapping d.marks).bind
  intro table _
  rw [addDeclarations_eq]
  refine FailsFirst.map (Keyed.failsFirst_extend (Column.failsFirst_ofDeclaration d.name.text) ?_ [] d.columns) _
  intro e c h
  rw [Column.key, Column.name_of_ofDeclaration h]
  exact ⟨rfl, rfl⟩

theorem Model.name_of_ofDeclaration {d : ModelDeclaration} {m : Model} (h : ofDeclaration d = .ok m) :
    m.name = d.name := by
  obtain ⟨table, columns, -, -, -, rfl⟩ := ofDeclaration_eq_ok.1 h
  rfl

theorem Column.isDeclared_of_ofDeclaration {model : String} {d : ColumnDeclaration} {c : Column}
    (h : ofDeclaration model d = .ok c) : IsDeclared d c := by
  obtain ⟨type, column, ht, hm, rfl⟩ := ofDeclaration_eq_ok.1 h
  exact ⟨rfl, ht, rfl, mapping_eq_last hm, rfl, rfl⟩

theorem Model.isDeclared_of_ofDeclaration {d : ModelDeclaration} {m : Model} (h : ofDeclaration d = .ok m) :
    IsDeclared d m := by
  obtain ⟨table, columns, hm, hc, -, rfl⟩ := ofDeclaration_eq_ok.1 h
  exact ⟨rfl, mapping_eq_last hm, hc.imp fun _ _ => Column.isDeclared_of_ofDeclaration, rfl, rfl⟩

namespace Schema

theorem failsFirst_addDeclarations (ds : List ModelDeclaration) :
    FailsFirst (addDeclarations {} ds) (faults ds) := by
  rw [addDeclarations_eq]
  refine FailsFirst.map (Keyed.failsFirst_extend Model.failsFirst_ofDeclaration ?_ [] ds) _
  intro d m h
  rw [Model.key, Model.name_of_ofDeclaration h]
  exact ⟨rfl, rfl⟩

/-- A text that is written in the grammar fails just for what is wrong with its declarations, and with
what is wrong first. If nothing is, all is kept as it is declared. -/
theorem parse_first_fault (text : String) (h : ∀ n, parse text ≠ .error (.malformedText n)) :
    ∃ ds, declarations text.toList = .ok ds ∧
      (∀ bs, Form.schema text.toList bs [] ↔ ds.map ModelDeclaration.bare = bs) ∧
      ((∃ s, parse text = .ok s) ↔ faults ds = []) ∧
      (∀ e, (faults ds).head? = some e → parse text = .error e) ∧
      ∀ s, parse text = .ok s → List.Forall₂ Model.IsDeclared ds s.models := by
  have hd : ∃ ds, declarations text.toList = .ok ds := by
    by_contra hn
    obtain ⟨n, hn⟩ := (declarations_eq_error text.toList).2 hn
    exact h n (parse_eq_malformedText.2 hn)
  obtain ⟨ds, hd⟩ := hd
  have hp : parse text = addDeclarations {} ds := by
    rw [parse, hd]
    rfl
  have hf := failsFirst_addDeclarations ds
  rw [← hp] at hf
  refine ⟨ds, hd, fun bs => ?_, ?_, ?_, fun s hs => ?_⟩
  · rw [← declarations_iff]
    constructor
    · rintro ⟨es, he, hb⟩
      cases hd.symm.trans he
      exact hb
    · exact fun hb => ⟨ds, hd, hb⟩
  · cases hl : faults ds with
    | nil =>
        rw [hl] at hf
        exact iff_of_true hf rfl
    | cons e es =>
        rw [hl] at hf
        have he : parse text = .error e := hf
        simp [he]
  · intro e he
    cases hl : faults ds with
    | nil => simp [hl] at he
    | cons e' es =>
        rw [hl] at hf he
        cases he
        exact hf
  · obtain ⟨es, he, hm, -⟩ := parse_eq_ok.1 hs
    cases hd.symm.trans he
    exact hm.imp fun _ _ => Model.isDeclared_of_ofDeclaration

/-- All of it is wrong, but the type comes first. -/
theorem parse_first_fault_type :
    (∀ n, parse "model A\x7bx V@u x Int\x7dmodel A\x7b\x7d" ≠ .error (.malformedText n)) ∧
      parse "model A\x7bx V@u x Int\x7dmodel A\x7b\x7d" = .error (.unknownType "A" "x" "V") := by
  have hf : (declarations "model A\x7bx V@u x Int\x7dmodel A\x7b\x7d".toList).map faults =
      .ok [.unknownType "A" "x" "V", .invalidMark "u" .unknown, .duplicateColumn "A" "x", .duplicateModel "A"] := by
    cbv
  obtain ⟨ds, hd, hf⟩ := map_eq_ok.1 hf
  have h : ∀ n, parse "model A\x7bx V@u x Int\x7dmodel A\x7b\x7d" ≠ .error (.malformedText n) := by
    intro n hn
    cases hd.symm.trans (parse_eq_malformedText.1 hn)
  obtain ⟨es, he, -, -, hp, -⟩ := parse_first_fault _ h
  cases hd.symm.trans he
  exact ⟨h, hp _ (by rw [hf]; rfl)⟩

end Schema

end PredicateSearch

import PredicateSearch.Proofs.Keyed
import PredicateSearch.Proofs.Schema.Form
import PredicateSearch.Schema.Reading

namespace PredicateSearch

/-! What is declared or built, with all its spans moved -/

def Ident.relocate (f : Span → Span) (i : Ident) : Ident := { i with span := f i.span }

def Documentation.relocate (f : Span → Span) (c : Documentation) : Documentation := { c with span := f c.span }

def Schema.ColumnDeclaration.relocate (f : Span → Span) (d : ColumnDeclaration) : ColumnDeclaration :=
  { d with
    documentation := d.documentation.map (Documentation.relocate f), name := d.name.relocate f, span := f d.span }

def Schema.ModelDeclaration.relocate (f : Span → Span) (d : ModelDeclaration) : ModelDeclaration :=
  { d with
    documentation := d.documentation.map (Documentation.relocate f), name := d.name.relocate f,
    columns := d.columns.map (ColumnDeclaration.relocate f), span := f d.span }

def Column.relocate (f : Span → Span) (c : Column) : Column :=
  { c with
    name := c.name.relocate f, documentation := c.documentation.map (Documentation.relocate f), span := f c.span }

def Model.relocate (f : Span → Span) (m : Model) : Model :=
  { m with
    name := m.name.relocate f, columns := m.columns.map (Column.relocate f),
    documentation := m.documentation.map (Documentation.relocate f), span := f m.span }

/-! What is built, whatever the place where it is written -/

def Column.bare (c : Column) : Column :=
  { c with name := c.name.bare, documentation := c.documentation.map Documentation.bare, span := {} }

def Model.bare (m : Model) : Model :=
  { m with
    name := m.name.bare, columns := m.columns.map Column.bare,
    documentation := m.documentation.map Documentation.bare, span := {} }

def Schema.bare (s : Schema) : Schema := ⟨s.models.map Model.bare⟩

theorem Column.key_relocate (f : Span → Span) (c : Column) : (c.relocate f).key = c.key := rfl

theorem Model.key_relocate (f : Span → Span) (m : Model) : (m.relocate f).key = m.key := rfl

theorem Column.ofDeclaration_relocate (f : Span → Span) (model : String) (d : Schema.ColumnDeclaration) :
    (ofDeclaration model d).map (relocate f) = ofDeclaration model (d.relocate f) := by
  have ht : typeOf model d = typeOf model (d.relocate f) := rfl
  have hm : Schema.mapping (d.relocate f).marks = Schema.mapping d.marks := rfl
  rw [ofDeclaration, ofDeclaration, hm, ← ht]
  cases typeOf model d with
  | error e => rfl
  | ok t => cases Schema.mapping d.marks <;> rfl

def Model.extendColumns (model : String) :
    List Column → List Schema.ColumnDeclaration → Except LoadError (List Column) :=
  Keyed.extend Column.key (Column.ofDeclaration model) fun c => .duplicateColumn model c.name.text

theorem Model.addDeclarations_eq (m : Model) (ds : List Schema.ColumnDeclaration) :
    m.addDeclarations ds = (extendColumns m.name.text m.columns ds).map fun columns => { m with columns } := by
  induction ds generalizing m with
  | nil => rfl
  | cons d ds ih =>
      rw [addDeclarations, extendColumns, Keyed.extend]
      cases Column.ofDeclaration m.name.text d with
      | error e => rfl
      | ok c =>
          simp only [bind, Except.bind, ih, apply_ite (Except.map fun columns => { m with columns })]
          rfl

theorem Model.addDeclarations_relocate (f : Span → Span) (m : Model) (ds : List Schema.ColumnDeclaration) :
    (m.addDeclarations ds).map (relocate f) =
      (m.relocate f).addDeclarations (ds.map (Schema.ColumnDeclaration.relocate f)) := by
  have hx : (extendColumns m.name.text m.columns ds).map (List.map (Column.relocate f)) =
      extendColumns m.name.text (m.columns.map (Column.relocate f))
        (ds.map (Schema.ColumnDeclaration.relocate f)) :=
    Keyed.extend_map (Column.key_relocate f) (Column.ofDeclaration_relocate f m.name.text) fun _ => rfl
  rw [addDeclarations_eq, addDeclarations_eq]
  change _ = (extendColumns m.name.text (m.columns.map (Column.relocate f)) _).map _
  rw [← hx]
  cases extendColumns m.name.text m.columns ds <;> rfl

theorem Model.ofDeclaration_relocate (f : Span → Span) (d : Schema.ModelDeclaration) :
    (ofDeclaration d).map (relocate f) = ofDeclaration (d.relocate f) := by
  rw [ofDeclaration, ofDeclaration]
  cases h : Schema.mapping d.marks with
  | error e =>
      have h' : Schema.mapping (d.relocate f).marks = .error e := h
      rw [h']
      rfl
  | ok t =>
      have h' : Schema.mapping (d.relocate f).marks = .ok t := h
      rw [h']
      exact addDeclarations_relocate f _ d.columns

theorem Model.ofDeclaration_relocate_all (f : Span → Span) {ds : List Schema.ModelDeclaration} {ms : List Model}
    (h : List.Forall₂ (fun d m => ofDeclaration d = .ok m) ds ms) :
    List.Forall₂ (fun d m => ofDeclaration d = .ok m) (ds.map (Schema.ModelDeclaration.relocate f))
      (ms.map (relocate f)) := by
  rw [List.forall₂_map_left_iff, List.forall₂_map_right_iff]
  refine h.imp fun d m hm => ?_
  rw [← ofDeclaration_relocate, hm]
  rfl

namespace Schema

def extendModels : List Model → List ModelDeclaration → Except LoadError (List Model) :=
  Keyed.extend Model.key Model.ofDeclaration fun m => .duplicateModel m.name.text

theorem addDeclarations_eq (s : Schema) (ds : List ModelDeclaration) :
    addDeclarations s ds = (extendModels s.models ds).map Schema.mk := by
  induction ds generalizing s with
  | nil => rfl
  | cons d ds ih =>
      rw [addDeclarations, extendModels, Keyed.extend]
      cases Model.ofDeclaration d with
      | error e => rfl
      | ok m =>
          simp only [bind, Except.bind, ih, apply_ite (Except.map Schema.mk)]
          rfl

/-- Without any place nothing else is lost. -/
theorem addDeclarations_bare (s : Schema) (ds : List ModelDeclaration) :
    (addDeclarations s ds).map bare = addDeclarations s.bare (ds.map ModelDeclaration.bare) := by
  have hx : (extendModels s.models ds).map (List.map Model.bare) =
      extendModels s.bare.models (ds.map ModelDeclaration.bare) :=
    Keyed.extend_map (Model.key_relocate fun _ => {}) (Model.ofDeclaration_relocate fun _ => {}) fun _ => rfl
  rw [addDeclarations_eq, addDeclarations_eq, ← hx]
  cases extendModels s.models ds <;> rfl

end Schema

/-! What has been built -/

theorem Schema.Mark.target_eq_ok {a : Mark} {t : String} :
    a.target = .ok t ↔ a.name ∈ known ∧ a.argument = some t ∧ t ≠ "" := by
  rw [target]
  split
  · next hn => simp [hn]
  · next hn =>
      rw [Decidable.not_not] at hn
      split
      · next h => simp [h]
      · next u hu =>
          by_cases he : u = ""
          · simp +contextual [he, hu, eq_comm]
          · simp +contextual [he, hn, hu, eq_comm]

theorem Model.addDeclarations_eq_ok {m r : Model} {ds : List Schema.ColumnDeclaration} :
    m.addDeclarations ds = .ok r ↔
      ∃ cs, List.Forall₂ (fun d c => Column.ofDeclaration m.name.text d = .ok c) ds cs ∧
        Keyed.Fresh Column.key m.columns cs ∧ r = { m with columns := m.columns ++ cs } := by
  simp only [addDeclarations_eq, map_eq_ok, extendColumns, Keyed.extend_eq_ok]
  constructor
  · rintro ⟨_, ⟨cs, hcs, hf, rfl⟩, rfl⟩
    exact ⟨cs, hcs, hf, rfl⟩
  · rintro ⟨cs, hcs, hf, rfl⟩
    exact ⟨_, ⟨cs, hcs, hf, rfl⟩, rfl⟩

theorem Model.ofDeclaration_eq_ok {d : Schema.ModelDeclaration} {m : Model} :
    ofDeclaration d = .ok m ↔
      ∃ table columns, Schema.mapping d.marks = .ok table ∧
        List.Forall₂ (fun d c => Column.ofDeclaration m.name.text d = .ok c) d.columns columns ∧
          (columns.map Column.key).Nodup ∧
            m = { name := d.name, columns, mappedTable := table,
                  documentation := d.documentation, span := d.span } := by
  simp only [ofDeclaration, bind_eq_ok, addDeclarations_eq_ok, Keyed.fresh_nil_left]
  constructor
  · rintro ⟨table, ht, columns, hc, hd, rfl⟩
    exact ⟨table, columns, ht, hc, hd, rfl⟩
  · rintro ⟨table, columns, ht, hc, hd, rfl⟩
    exact ⟨table, ht, columns, hc, hd, rfl⟩

theorem Column.ofDeclaration_eq_ok {model : String} {d : Schema.ColumnDeclaration} {c : Column} :
    ofDeclaration model d = .ok c ↔
      ∃ type column, ValueType.ofName? d.type = some type ∧ Schema.mapping d.marks = .ok column ∧
        c = { name := d.name, type, optional := d.optional, mappedName := column,
              documentation := d.documentation, span := d.span } := by
  have ht : ∀ type, typeOf model d = .ok type ↔ ValueType.ofName? d.type = some type := by
    intro type
    rw [typeOf]
    cases ValueType.ofName? d.type <;> simp
  simp only [ofDeclaration, bind_eq_ok, ht]
  constructor
  · rintro ⟨type, h, column, hc, he⟩
    exact ⟨type, column, h, hc, (Except.ok.inj he).symm⟩
  · rintro ⟨type, column, h, hc, rfl⟩
    exact ⟨type, h, column, hc, rfl⟩

namespace Schema

theorem addDeclarations_eq_ok {s r : Schema} {ds : List ModelDeclaration} :
    addDeclarations s ds = .ok r ↔
      ∃ ms, List.Forall₂ (fun d m => Model.ofDeclaration d = .ok m) ds ms ∧
        Keyed.Fresh Model.key s.models ms ∧ r = ⟨s.models ++ ms⟩ := by
  simp only [addDeclarations_eq, map_eq_ok, extendModels, Keyed.extend_eq_ok]
  constructor
  · rintro ⟨_, ⟨ms, hms, hf, rfl⟩, rfl⟩
    exact ⟨ms, hms, hf, rfl⟩
  · rintro ⟨ms, hms, hf, rfl⟩
    exact ⟨_, ⟨ms, hms, hf, rfl⟩, rfl⟩

theorem parse_eq (text : String) :
    parse text =
      match Rule.schema ⟨text.toList, 0⟩ with
      | ⟨_, some (ds, _)⟩ => addDeclarations {} ds
      | ⟨reach, none⟩ => .error (.malformedText reach) := by
  unfold parse declarations
  generalize Rule.schema ⟨text.toList, 0⟩ = t
  rcases t with ⟨reach, _ | ⟨ds, c⟩⟩ <;> rfl

theorem parse_eq_ok {text : String} {s : Schema} :
    parse text = .ok s ↔
      ∃ ds, declarations text.toList = .ok ds ∧
        List.Forall₂ (fun d m => Model.ofDeclaration d = .ok m) ds s.models ∧
          (s.models.map Model.key).Nodup := by
  simp only [parse, bind_eq_ok, addDeclarations_eq_ok, Keyed.fresh_nil_left]
  constructor
  · rintro ⟨ds, h, ms, hms, hd, rfl⟩
    exact ⟨ds, h, hms, hd⟩
  · rintro ⟨ds, h, hms, hd⟩
    exact ⟨ds, h, s.models, hms, hd, rfl⟩

end Schema

end PredicateSearch

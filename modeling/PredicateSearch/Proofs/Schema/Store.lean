import PredicateSearch.Proofs.Keyed.Latest
import PredicateSearch.Schema

namespace PredicateSearch

open Keyed

namespace Model

/-! What is left of the steps in which a model was built -/

inductive Step where
  | setTable (table : String)
  | column (name : String) (type : ValueType)
  | add (c : Column)
  | document (d : Documentation)

def Step.apply (m : Model) : Step → Model
  | setTable table => m.withTable table
  | column name type => m.withColumn name type
  | add c => m.addColumn c
  | document d => m.withDocumentation d

def Step.column? : Step → Option Column
  | column name type => some { name := { text := name }, type, optional := true }
  | add c => some c
  | setTable _ | document _ => none

def Step.table? : Step → Option String
  | setTable table => some table
  | column _ _ | add _ | document _ => none

def Step.documentation? : Step → Option Documentation
  | document d => some d
  | setTable _ | column _ _ | add _ => none

def run (m : Model) (steps : List Step) : Model := steps.foldl Step.apply m

def added (steps : List Step) : List Column := steps.filterMap Step.column?

theorem Step.apply_eq (m : Model) (step : Step) :
    step.apply m =
      { m with
        columns := putAll Column.key m.columns step.column?.toList
        mappedTable := step.table?.or m.mappedTable
        documentation := step.documentation?.or m.documentation } := by
  cases step <;> rfl

theorem added_concat (steps : List Step) (step : Step) :
    added (steps ++ [step]) = added steps ++ step.column?.toList := by
  rw [added, List.filterMap_append]
  cases h : step.column? <;> simp [added, h]

theorem run_eq (m : Model) (steps : List Step) :
    run m steps =
      { m with
        columns := putAll Column.key m.columns (added steps)
        mappedTable := (lastOf Step.table? steps).or m.mappedTable
        documentation := (lastOf Step.documentation? steps).or m.documentation } := by
  induction steps using List.reverseRecOn with
  | nil => rfl
  | append_singleton steps step ih =>
      have hr : run m (steps ++ [step]) = step.apply (run m steps) := List.foldl_append
      rw [hr, ih, Step.apply_eq, added_concat, putAll_append, lastOf_append, lastOf_append, lastOf_singleton,
        lastOf_singleton, Option.or_assoc, Option.or_assoc]

section

variable (name : String) (steps : List Step)

theorem keeps_run : Keeps Column.key (added steps) (run (named name) steps).columns := by
  rw [run_eq]
  exact keeps_putAll (added steps)

theorem getColumn?_run (x : String) : (run (named name) steps).getColumn? x = latest Column.key x (added steps) :=
  (keeps_run name steps).found x

theorem tableName_run : (run (named name) steps).tableName = (lastOf Step.table? steps).getD name := by
  rw [run_eq, tableName]
  cases lastOf Step.table? steps <;> rfl

theorem resolve_run (x : String) :
    (run (named name) steps).resolve [x] =
      (latest Column.key x (added steps)).map fun c =>
        ⟨(lastOf Step.table? steps).getD name, c.mappedName.getD x, c.type⟩ := by
  rw [resolve, getColumn?_run, tableName_run]
  apply Option.map_congr
  intro c hc
  obtain rfl := key_of_latest hc
  rfl

end

end Model

namespace Schema

/-! What is left of the models that were added -/

def addAll (s : Schema) (ms : List Model) : Schema := ms.foldl addModel s

theorem models_addAll (s : Schema) (ms : List Model) :
    (s.addAll ms).models = putAll Model.key s.models ms := by
  induction ms generalizing s with
  | nil => rfl
  | cons m ms ih => exact ih (s.addModel m)

theorem keeps_addAll (ms : List Model) : Keeps Model.key ms (addAll {} ms).models := by
  rw [models_addAll]
  exact keeps_putAll ms

theorem orUnknown_eq_ok {name : String} {m? : Option Model} {m : Model} :
    orUnknown name m? = .ok m ↔ m? = some m := by
  cases m? <;> simp [orUnknown]

theorem orUnknown_eq_error {name : String} {m? : Option Model} {e : LoadError} :
    orUnknown name m? = .error e ↔ e = .unknownModel name ∧ m? = none := by
  cases m? <;> simp [orUnknown, eq_comm]

section

variable (ms : List Model)

theorem model_eq_ok {x : String} {m : Model} :
    (addAll {} ms).model x = .ok m ↔ latest Model.key x ms = some m := by
  rw [model, orUnknown_eq_ok, getModel?, (keeps_addAll ms).found]

theorem model_eq_error {x : String} {e : LoadError} :
    (addAll {} ms).model x = .error e ↔ e = .unknownModel x ∧ ∀ m ∈ ms, m.key ≠ x := by
  rw [model, orUnknown_eq_error, getModel?, (keeps_addAll ms).found, latest_eq_none]
  simp

theorem table_eq_ok {t : String} {m : Model} :
    (addAll {} ms).table t = .ok m ↔
      m.tableName = t ∧ latest Model.key m.key ms = some m ∧
        ∃ us vs, (ms.map Model.key).eraseDups = us ++ m.key :: vs ∧
          ∀ x ∈ us, ∀ n, latest Model.key x ms = some n → n.tableName ≠ t := by
  rw [table, orUnknown_eq_ok, (keeps_addAll ms).find?_eq_some]
  simp

theorem table_eq_error {t : String} {e : LoadError} :
    (addAll {} ms).table t = .error e ↔
      e = .unknownModel t ∧ ∀ x m, latest Model.key x ms = some m → m.tableName ≠ t := by
  rw [table, orUnknown_eq_error, (keeps_addAll ms).find?_eq_none]
  simp

end

end Schema

/-- What is added again takes the place that its name has had from the first. So columns and models stand in the
order of their names, and whatever they are asked for is answered from what was added last: a column by the name
it has in the schema, a model by its name or by the table that it has now. -/
theorem stores_keep_latest :
    (∀ (name : String) (steps : List Model.Step),
      let m := Model.run (.named name) steps
      let cs := Model.added steps
      Keeps Column.key cs m.columns ∧
      (∀ c ∈ m.columns, latest Column.key c.key cs = some c) ∧
      (∀ x, (m.hasColumn x ↔ x ∈ cs.map Column.key) ∧ ((m.getColumn? x).isSome ↔ x ∈ cs.map Column.key) ∧
        ((m.resolve [x]).isSome ↔ x ∈ cs.map Column.key)) ∧
      (∀ x, m.getColumn? x = latest Column.key x cs) ∧
      (∀ x, m.resolve [x] =
        (latest Column.key x cs).map fun c =>
          ⟨(lastOf Model.Step.table? steps).getD name, c.mappedName.getD x, c.type⟩) ∧
      ∀ path, path.length ≠ 1 → m.resolve path = none) ∧
    ∀ ms : List Model,
      let s := Schema.addAll {} ms
      Keeps Model.key ms s.models ∧
      (∀ m ∈ s.models, latest Model.key m.key ms = some m) ∧
      s.names = (ms.map Model.key).eraseDups ∧
      (∀ x m, s.model x = .ok m ↔ latest Model.key x ms = some m) ∧
      (∀ x e, s.model x = .error e ↔ e = .unknownModel x ∧ ∀ m ∈ ms, m.key ≠ x) ∧
      (∀ t m, s.table t = .ok m ↔
        m.tableName = t ∧ latest Model.key m.key ms = some m ∧
          ∃ us vs, (ms.map Model.key).eraseDups = us ++ m.key :: vs ∧
            ∀ x ∈ us, ∀ n, latest Model.key x ms = some n → n.tableName ≠ t) ∧
      ∀ t e, s.table t = .error e ↔
        e = .unknownModel t ∧ ∀ x m, latest Model.key x ms = some m → m.tableName ≠ t := by
  constructor
  · intro name steps m cs
    have hk : Keeps Column.key cs m.columns := Model.keeps_run name steps
    have hg : ∀ x, (m.getColumn? x).isSome ↔ x ∈ cs.map Column.key := fun x => hk.isSome_find?
    refine ⟨hk, fun c => hk.latest_of_mem, fun x => ⟨hg x, hg x, ?_⟩, Model.getColumn?_run name steps,
      Model.resolve_run name steps, fun path => Model.resolve_eq_none⟩
    rw [Model.resolve, Option.isSome_map]
    exact hg x
  · intro ms s
    have hk : Keeps Model.key ms s.models := Schema.keeps_addAll ms
    exact ⟨hk, fun m => hk.latest_of_mem, hk.keys, fun x m => Schema.model_eq_ok ms,
      fun x e => Schema.model_eq_error ms, fun t m => Schema.table_eq_ok ms, fun t e => Schema.table_eq_error ms⟩

/-- A column may bear the name that another has in the database, and a model replaced may take over a table. -/
theorem stores_keep_latest_taken :
    let m := Model.run (.named "Person") [.column "name" .string,
      .add { name := ⟨"nick", {}⟩, type := .string, mappedName := some "name" }, .setTable "people",
      .add { name := ⟨"name", {}⟩, type := .text, mappedName := some "called" }]
    let s := Schema.addAll {} [.withTable (.named "A") "a", .withTable (.named "B") "b", .named "C",
      .withTable (.named "B") "C"]
    m.columns.map Column.key = ["name", "nick"] ∧
      m.resolve ["name"] = some ⟨"people", "called", .text⟩ ∧ (m.resolve ["called"]).isSome = false ∧
      m.resolve ["people", "name"] = none ∧
      s.names = ["A", "B", "C"] ∧ s.table "C" = .ok (.withTable (.named "B") "C") ∧
      s.model "b" = .error (.unknownModel "b") := by
  intro m s
  obtain ⟨hm, hs⟩ := stores_keep_latest
  obtain ⟨hc, -, hx, -, hr, hn⟩ := hm "Person" _
  obtain ⟨-, -, hk, -, he, ht, -⟩ := hs _
  refine ⟨hc.keys.trans rfl, (hr "name").trans rfl, ?_, hn _ (by decide), hk.trans rfl, ?_, ?_⟩
  · rw [← Bool.not_eq_true]
    exact fun h => absurd ((hx "called").2.2.1 h) (by decide)
  · refine (ht "C" _).2 ⟨rfl, rfl, ["A"], ["C"], rfl, ?_⟩
    intro x hxa n hn
    obtain rfl := List.mem_singleton.1 hxa
    obtain rfl := Option.some.inj hn
    decide
  · exact (he "b" _).2 ⟨rfl, by decide⟩

end PredicateSearch

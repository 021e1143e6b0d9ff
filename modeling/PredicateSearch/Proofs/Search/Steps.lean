import PredicateSearch.Proofs.Search.Compile

namespace PredicateSearch

namespace Search

/-! What is left of the steps in which a search was built -/

/-- A predicate is added to the search in hand or to the one handed on, which is the same here. -/
inductive Step where
  | add (key : String) (v : Operand)
  | setOptions (options : Options)

def Step.apply (s : Search) : Step → Search
  | add key v => s.add key v
  | setOptions options => s.withOptions options

def Step.entry? : Step → Option (String × Operand)
  | add key v => some (key, v)
  | setOptions _ => none

def Step.options? : Step → Option Options
  | add _ _ => none
  | setOptions options => some options

def run (s : Search) (steps : List Step) : Search := steps.foldl Step.apply s

def added (steps : List Step) : List (String × Operand) := steps.filterMap Step.entry?

def lastOptions (options : Options) (steps : List Step) : Options :=
  (steps.filterMap Step.options?).getLast?.getD options

/-- The options first, then the predicates in order. -/
def fresh (resolver : Resolver) (dialect : Dialect) (options : Options) (entries : List (String × Operand)) :
    Search :=
  entries.foldl (fun s e => s.add e.1 e.2) (withOptions { resolver, dialect } options)

theorem foldl_add (s : Search) (entries : List (String × Operand)) :
    entries.foldl (fun s e => s.add e.1 e.2) s = { s with entries := s.entries ++ entries } := by
  induction entries generalizing s with
  | nil => simp
  | cons e entries ih => rw [List.foldl_cons, ih, add, List.append_assoc, List.singleton_append]

theorem fresh_eq (resolver : Resolver) (dialect : Dialect) (options : Options)
    (entries : List (String × Operand)) :
    fresh resolver dialect options entries = { resolver, dialect, options, entries } := by
  rw [fresh, foldl_add]
  rfl

theorem Step.apply_eq (s : Search) (step : Step) :
    step.apply s =
      { s with options := step.options?.getD s.options, entries := s.entries ++ step.entry?.toList } := by
  cases step with
  | add key v => rfl
  | setOptions options => simp [apply, withOptions, options?, entry?]

theorem added_cons (step : Step) (steps : List Step) :
    added (step :: steps) = step.entry?.toList ++ added steps := by
  cases step <;> rfl

theorem lastOptions_cons (options : Options) (step : Step) (steps : List Step) :
    lastOptions options (step :: steps) = lastOptions (step.options?.getD options) steps := by
  cases step with
  | add key v => rfl
  | setOptions last => simp [lastOptions, Step.options?, List.getLast?_cons]

theorem run_eq (s : Search) (steps : List Step) :
    run s steps = { s with options := lastOptions s.options steps, entries := s.entries ++ added steps } := by
  induction steps generalizing s with
  | nil => simp [run, lastOptions, added]
  | cons step steps ih =>
      have hr : run s (step :: steps) = run (step.apply s) steps := rfl
      rw [hr, ih, Step.apply_eq, lastOptions_cons, added_cons, List.append_assoc]

/-! Fragments and the clause -/

def written (d : Dialect) (cs : List Condition) : List String :=
  (cs.filter fun c => !c.isEmpty).map (Condition.sql d)

def clause (combinator : Combinator) : List String → Option String
  | [] => none
  | fs => some ("WHERE " ++ (" " ++ combinator.keyword ++ " ").intercalate fs)

theorem fragments_eq (s : Search) : s.fragments = s.conditions.map (written s.dialect) := by
  rw [fragments]
  cases s.conditions <;> rfl

theorem whereClause_eq (s : Search) : s.whereClause = s.fragments.map (clause s.options.combinator) := by
  rw [whereClause, sql]
  rcases s.fragments with e | _ | ⟨f, fs⟩ <;> rfl

theorem written_append (d : Dialect) (cs ds : List Condition) :
    written d (cs ++ ds) = written d cs ++ written d ds := by
  simp [written]

theorem written_cons_empty (d : Dialect) (cs : List Condition) : written d (.empty :: cs) = written d cs := rfl

theorem written_cons_predicate (d : Dialect) (p : Predicate) (cs : List Condition) :
    written d (.predicate p :: cs) = p.sql d :: written d cs := rfl

theorem clause_eq_none {combinator : Combinator} {fs : List String} : clause combinator fs = none ↔ fs = [] := by
  cases fs <;> simp [clause]

theorem fragments_of_error {s : Search} {err : SearchError} (h : s.conditions = .error err) :
    s.fragments = .error err := by
  rw [fragments_eq, h]
  rfl

theorem whereClause_of_error {s : Search} {err : SearchError} (h : s.conditions = .error err) :
    s.whereClause = .error err := by
  rw [whereClause_eq, fragments_of_error h]
  rfl

section

variable (resolver : Resolver) (dialect : Dialect) (options : Options)

theorem conditions_fresh (entries : List (String × Operand)) :
    (fresh resolver dialect options entries).conditions = compileAll resolver options.ignoreBlank entries := by
  rw [fresh_eq]
  rfl

theorem fragments_fresh (entries : List (String × Operand)) :
    (fresh resolver dialect options entries).fragments =
      (compileAll resolver options.ignoreBlank entries).map (written dialect) := by
  rw [fragments_eq, conditions_fresh, fresh_eq]

theorem whereClause_fresh (entries : List (String × Operand)) :
    (fresh resolver dialect options entries).whereClause =
      (fresh resolver dialect options entries).fragments.map (clause options.combinator) := by
  rw [whereClause_eq, fresh_eq]

theorem run_fresh (entries : List (String × Operand)) (steps : List Step) :
    run (fresh resolver dialect options entries) steps =
      fresh resolver dialect (lastOptions options steps) (entries ++ added steps) := by
  rw [run_eq, fresh_eq, fresh_eq]

variable {resolver dialect options}

theorem fragments_fresh_append {p q : List (String × Operand)} {fs gs : List String}
    (hp : (fresh resolver dialect options p).fragments = .ok fs)
    (hq : (fresh resolver dialect options q).fragments = .ok gs) :
    (fresh resolver dialect options (p ++ q)).fragments = .ok (fs ++ gs) := by
  rw [fragments_fresh] at hp hq ⊢
  obtain ⟨cs, hcs, rfl⟩ := map_eq_ok.1 hp
  obtain ⟨ds, hds, rfl⟩ := map_eq_ok.1 hq
  rw [compileAll_append, hcs, hds, ← written_append]
  rfl

/-- What asks for nothing may stand anywhere, also before or behind what is at fault. -/
theorem fragments_fresh_skip {e : String × Operand}
    (he : resolver.compileEntry options.ignoreBlank e = .ok .empty) (p q : List (String × Operand)) :
    (fresh resolver dialect options (p ++ e :: q)).fragments =
      (fresh resolver dialect options (p ++ q)).fragments := by
  rw [fragments_fresh, fragments_fresh, compileAll_append, compileAll_append, compileAll_cons, he]
  cases compileAll resolver options.ignoreBlank p with
  | error err => rfl
  | ok cs =>
      cases compileAll resolver options.ignoreBlank q with
      | error err => rfl
      | ok ds =>
          have hw : written dialect (cs ++ .empty :: ds) = written dialect (cs ++ ds) := by
            rw [written_append, written_append, written_cons_empty]
          exact congrArg Except.ok hw

theorem fragments_fresh_eq_nil {entries : List (String × Operand)} :
    (fresh resolver dialect options entries).fragments = .ok [] ↔
      ∀ e ∈ entries, resolver.compileEntry options.ignoreBlank e = .ok .empty := by
  rw [fragments_fresh]
  induction entries with
  | nil => simp [compileAll, Except.map, written]
  | cons e entries ih =>
      rw [compileAll_cons, List.forall_mem_cons, ← ih]
      cases resolver.compileEntry options.ignoreBlank e with
      | error err => simp [bind, Except.bind, Except.map]
      | ok c =>
          cases compileAll resolver options.ignoreBlank entries with
          | error err => simp [bind, Except.bind, Except.map]
          | ok cs =>
              cases c with
              | empty => simp [bind, Except.bind, Except.map, written_cons_empty]
              | predicate p => simp [bind, Except.bind, Except.map, written_cons_predicate]

theorem whereClause_fresh_eq_none {entries : List (String × Operand)} :
    (fresh resolver dialect options entries).whereClause = .ok none ↔
      ∀ e ∈ entries, resolver.compileEntry options.ignoreBlank e = .ok .empty := by
  rw [whereClause_fresh, map_eq_ok]
  simp only [clause_eq_none, exists_eq_right]
  exact fragments_fresh_eq_nil

theorem exists_error_of_mem {entries : List (String × Operand)} {key : String} {v : Operand}
    (hm : (key, v) ∈ entries) (hr : ∀ k, Key.parse key = .ok k → resolver k.path = none) :
    ∃ err, (fresh resolver dialect options entries).conditions = .error err := by
  cases h : (fresh resolver dialect options entries).conditions with
  | error err => exact ⟨err, rfl⟩
  | ok cs =>
      rw [conditions_fresh, compileAll_eq_ok] at h
      obtain ⟨c, -, hc⟩ := exists_of_forall₂ h.flip (key, v) hm
      obtain ⟨k, column, hk, hp, -⟩ := Resolver.compile_eq_ok.1 hc
      rw [hr k hk] at hp
      cases hp

theorem conditions_run_of_error {entries : List (String × Operand)} {err : SearchError}
    (h : (fresh resolver dialect options entries).conditions = .error err) {steps : List Step}
    (hs : lastOptions options steps = options) :
    (run (fresh resolver dialect options entries) steps).conditions = .error err := by
  rw [conditions_fresh] at h
  rw [run_fresh, hs, conditions_fresh, compileAll_append, h]
  rfl

end

/-- A search is determined by its predicates and the options set last, and each predicate has its say for
itself: the first that is at fault is the fault of the search, those that ask for nothing leave no trace, and
the others leave one fragment each. -/
theorem run_determined (resolver : Resolver) (dialect : Dialect) :
    (∀ steps : List Step, run { resolver, dialect } steps =
      fresh resolver dialect (lastOptions {} steps) (added steps)) ∧
    ∀ (options : Options) (entries : List (String × Operand)),
      let search := fresh resolver dialect options
      let compile := resolver.compileEntry options.ignoreBlank
      (∀ cs, (search entries).conditions = .ok cs ↔ List.Forall₂ (fun e c => compile e = .ok c) entries cs) ∧
      (∀ err, (search entries).conditions = .error err ↔
        ∃ p e q, entries = p ++ e :: q ∧ (∀ d ∈ p, ∃ c, compile d = .ok c) ∧ compile e = .error err) ∧
      (∀ err steps, (search entries).conditions = .error err → lastOptions options steps = options →
        (run (search entries) steps).conditions = .error err ∧
        (run (search entries) steps).fragments = .error err ∧
        (run (search entries) steps).whereClause = .error err) ∧
      (∀ key v,
        (∀ e, Key.parse key = .error e → compile (key, v) = .error (.key e)) ∧
        (∀ k, Key.parse key = .ok k → resolver k.path = none →
          compile (key, v) = .error (.unknownAttribute k.subject)) ∧
        ((key, v) ∈ entries → (∀ k, Key.parse key = .ok k → resolver k.path = none) →
          ∃ err, (search entries).conditions = .error err)) ∧
      (∀ later fs gs, (search entries).fragments = .ok fs → (search later).fragments = .ok gs →
        (search (entries ++ later)).fragments = .ok (fs ++ gs)) ∧
      (∀ later e, compile e = .ok .empty →
        (search (entries ++ e :: later)).fragments = (search (entries ++ later)).fragments ∧
        (search (entries ++ e :: later)).whereClause = (search (entries ++ later)).whereClause) ∧
      ((search entries).whereClause = .ok none ↔ ∀ e ∈ entries, compile e = .ok .empty) := by
  refine ⟨fun steps => ?_, fun options entries => ⟨?_, ?_, ?_, ?_, ?_, ?_, ?_⟩⟩
  · rw [run_eq, fresh_eq]
    rfl
  · intro cs
    rw [conditions_fresh, compileAll_eq_ok]
  · intro err
    rw [conditions_fresh, compileAll_eq_error]
  · intro err steps h hs
    have hc := conditions_run_of_error h hs
    exact ⟨hc, fragments_of_error hc, whereClause_of_error hc⟩
  · intro key v
    exact ⟨fun e he => Resolver.compile_of_unread he v _, fun k hk hr => Resolver.compile_of_unresolved hk hr v _,
      exists_error_of_mem⟩
  · intro later fs gs
    exact fragments_fresh_append
  · intro later e he
    have hf : (fresh resolver dialect options (entries ++ e :: later)).fragments =
        (fresh resolver dialect options (entries ++ later)).fragments := fragments_fresh_skip he entries later
    exact ⟨hf, by rw [whereClause_fresh, whereClause_fresh, hf]⟩
  · exact whereClause_fresh_eq_none

theorem run_determined_bogus :
    let resolver : Resolver := fun path => if path = ["name"] then some ⟨"people", "name", .string⟩ else none
    let search := fresh resolver .sqlite {}
    (run (search [("name_cont", .text "ric"), ("name_bogus", .null)])
        [.setOptions { combinator := .any }, .add "ghost_eq" (.int 1), .setOptions {}]).whereClause =
      .error (.key (.unknownOperator "name_bogus")) ∧
    (∃ err, (search [("name_null", .bool true), ("ghost_eq", .text "")]).conditions = .error err) ∧
    (search ([("name_null", .bool true)] ++ [("name_in", .text "ric")])).fragments =
      .ok (["\"people\".\"name\" IS NULL"] ++ ["\"people\".\"name\" IN ('ric')"]) ∧
    (search ([("name_bogus", .null)] ++ ("name_eq", .text "") :: [])).whereClause =
      (search ([("name_bogus", .null)] ++ [])).whereClause := by
  intro resolver search
  obtain ⟨-, h⟩ := run_determined resolver .sqlite
  have hb : (search [("name_cont", .text "ric"), ("name_bogus", .null)]).conditions =
      .error (.key (.unknownOperator "name_bogus")) := by rfl
  have hg : ∀ k, Key.parse "ghost_eq" = .ok k → resolver k.path = none := by
    intro k hk
    have hp : Key.parse "ghost_eq" = .ok ⟨"ghost", .equality false, false⟩ := by rfl
    cases hk.symm.trans hp
    rfl
  have hn : (search [("name_null", .bool true)]).fragments = .ok ["\"people\".\"name\" IS NULL"] := by rfl
  have hi : (search [("name_in", .text "ric")]).fragments = .ok ["\"people\".\"name\" IN ('ric')"] := by rfl
  have he : resolver.compileEntry true ("name_eq", .text "") = .ok .empty := by rfl
  refine ⟨?_, ?_, ?_, ?_⟩
  · exact ((h {} _).2.2.1 _ _ hb rfl).2.2
  · exact ((h {} _).2.2.2.1 "ghost_eq" (.text "")).2.2 (by simp) hg
  · exact (h {} _).2.2.2.2.1 _ _ _ hn hi
  · exact ((h {} _).2.2.2.2.2.1 _ _ he).2

end Search

end PredicateSearch

import PredicateSearch.Proofs.Condition.Compile
import PredicateSearch.Search

namespace PredicateSearch

namespace Resolver

variable {resolver : Resolver} {text : String}

def compileEntry (resolver : Resolver) (ignoreBlank : Bool) (entry : String × Operand) :
    Except SearchError Condition :=
  resolver.compile entry.1 entry.2 ignoreBlank

theorem compile_eq_ok {v : Operand} {ignoreBlank : Bool} {c : Condition} :
    resolver.compile text v ignoreBlank = .ok c ↔
      ∃ key column, Key.parse text = .ok key ∧ resolver key.path = some column ∧
        Condition.compile column key v ignoreBlank = .ok c := by
  simp only [compile, bind_eq_ok, mapError_eq_ok]
  constructor
  · rintro ⟨key, hk, h⟩
    cases hr : resolver key.path with
    | none => simp [hr] at h
    | some column => exact ⟨key, column, hk, hr, mapError_eq_ok.1 (by simpa [hr] using h)⟩
  · rintro ⟨key, column, hk, hr, h⟩
    exact ⟨key, hk, by simp [hr, h, Except.mapError]⟩

/-- Keys that are alike but for their subjects compile alike if they lead to the same names. -/
theorem compile_eq_ok_congr {text' : String} {k k' : Key} (hk : Key.parse text = .ok k)
    (hk' : Key.parse text' = .ok k') (hp : k'.path = k.path) (ho : k'.operator = k.operator)
    (hn : k'.negated = k.negated) {v : Operand} {ignoreBlank : Bool} {c : Condition} :
    resolver.compile text' v ignoreBlank = .ok c ↔ resolver.compile text v ignoreBlank = .ok c := by
  simp only [compile_eq_ok, hk, hk', Except.ok.injEq, exists_eq_left', hp,
    Condition.compile_eq_ok_congr ho hn, exists_and_left]

/-! The key and the column are looked at before the operand, which cannot hide what is wrong with them. -/

theorem compile_of_unread {e : KeyError} (h : Key.parse text = .error e) (v : Operand) (ignoreBlank : Bool) :
    resolver.compile text v ignoreBlank = .error (.key e) := by
  rw [compile, h]
  rfl

theorem compile_of_unresolved {k : Key} (hk : Key.parse text = .ok k) (hr : resolver k.path = none) (v : Operand)
    (ignoreBlank : Bool) : resolver.compile text v ignoreBlank = .error (.unknownAttribute k.subject) := by
  simp only [compile, hk, Except.mapError, bind, Except.bind, hr]

end Resolver

namespace Search

/-! A search compiles as its predicates do one by one. -/

variable {resolver : Resolver} {ignoreBlank : Bool} {entries : List (String × Operand)}

theorem compileAll_cons (entry : String × Operand) :
    compileAll resolver ignoreBlank (entry :: entries) =
      resolver.compileEntry ignoreBlank entry >>= fun c =>
        (compileAll resolver ignoreBlank entries).map (c :: ·) := rfl

theorem compileAll_eq_mapM :
    compileAll resolver ignoreBlank entries = entries.mapM (resolver.compileEntry ignoreBlank) := by
  induction entries with
  | nil => rfl
  | cons e entries ih =>
      rw [compileAll, ih, List.mapM_cons]
      rfl

theorem compileAll_eq_ok {cs : List Condition} :
    compileAll resolver ignoreBlank entries = .ok cs ↔
      List.Forall₂ (fun e c => resolver.compileEntry ignoreBlank e = .ok c) entries cs := by
  rw [compileAll_eq_mapM, mapM_eq_ok]

theorem compileAll_append (p q : List (String × Operand)) :
    compileAll resolver ignoreBlank (p ++ q) =
      compileAll resolver ignoreBlank p >>= fun cs => (compileAll resolver ignoreBlank q).map (cs ++ ·) := by
  induction p with
  | nil => cases h : compileAll resolver ignoreBlank q <;> simp [compileAll, bind, Except.bind, Except.map, h]
  | cons e p ih =>
      rw [List.cons_append, compileAll_cons, compileAll_cons, ih]
      cases resolver.compileEntry ignoreBlank e with
      | error err => rfl
      | ok c =>
          cases compileAll resolver ignoreBlank p with
          | error err => rfl
          | ok cs => cases compileAll resolver ignoreBlank q <;> rfl

/-- The first predicate at fault is the fault of the whole. -/
theorem compileAll_eq_error {err : SearchError} :
    compileAll resolver ignoreBlank entries = .error err ↔
      ∃ p e q, entries = p ++ e :: q ∧ (∀ d ∈ p, ∃ c, resolver.compileEntry ignoreBlank d = .ok c) ∧
        resolver.compileEntry ignoreBlank e = .error err := by
  rw [compileAll_eq_mapM, mapM_eq_error]

end Search

end PredicateSearch

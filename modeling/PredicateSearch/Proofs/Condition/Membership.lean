import Mathlib
import PredicateSearch.Condition.Sql
import PredicateSearch.Proofs.Condition.Precedence

namespace PredicateSearch

def Operand.nonNull (vs : List Operand) : List Operand := vs.filter fun v => !v.isNull

theorem Operand.ne_null_of_mem_nonNull {v : Operand} {vs : List Operand} (h : v ∈ nonNull vs) : v ≠ null := by
  rintro rfl
  simp [nonNull, isNull] at h

theorem Predicate.sql_equality (d : Dialect) (column : Attribute) (l : Literal) :
    (⟨column, .equality false, false, .literal l⟩ : Predicate).sql d =
      d.qualify column.table column.column ++ " = " ++ l.sql d := by
  have hs : " " ++ equalitySign true ++ " " = " = " := by rfl
  simp only [sql, isPositive, Bool.not_false, Argument.sql, ← hs, String.append_assoc]

theorem Predicate.sql_membership (d : Dialect) (column : Attribute) (n negated : Bool) (ls : List Literal) :
    (⟨column, .membership n, negated, .literals ls⟩ : Predicate).sql d =
      d.qualify column.table column.column ++ (if negated then " NOT IN (" else " IN (") ++
        ", ".intercalate (ls.map (Literal.sql d)) ++ ")" := by
  cases negated <;> rfl

namespace Condition

open Operand

theorem ne_null_of_literal? {kind : LiteralKind} {v : Operand} {l : Literal} (h : kind.literal? v = some l) :
    v ≠ .null := by
  rintro rfl
  cases kind <;> cases h

variable {column : Attribute} {k : Key}

/-! One operand that a column is to be equal to -/

theorem isSuppressed_false {v : Operand} (hv : v ≠ .null) : isSuppressed false v = false := by
  rw [← Bool.not_eq_true, isSuppressed_iff]
  simp [AsksNothing, hv]

theorem compile_equality_eq_predicate (ho : k.operator = .equality false)
    (ha : TypeClass.equatable.admits column.type = true) {v : Operand} (hv : v ≠ .null) {p : Predicate} :
    compile column k v false = .ok (predicate p) ↔
      ∃ l, column.type.literalKind.literal? v = some l ∧
        p = ⟨column, .equality false, k.negated, .literal l⟩ := by
  rw [compile_eq_predicate, ho]
  simp only [isSuppressed_false hv, Operator.appliesTo, ha, true_and]
  constructor
  · rintro ⟨_, _ | _, rfl⟩
    exact ⟨_, ‹_›, rfl⟩
  · rintro ⟨l, hl, rfl⟩
    exact ⟨_, .equality false hl, rfl⟩

theorem exists_compile_equality (ho : k.operator = .equality false)
    (ha : TypeClass.equatable.admits column.type = true) {v : Operand} (hv : v ≠ .null) :
    (∃ p, compile column k v false = .ok (predicate p)) ↔
      ∃ l, column.type.literalKind.literal? v = some l := by
  simp only [compile_equality_eq_predicate ho ha hv]
  constructor
  · rintro ⟨_, l, hl, -⟩
    exact ⟨l, hl⟩
  · rintro ⟨l, hl⟩
    exact ⟨_, l, hl, rfl⟩

theorem compile_equality_eq_error (ho : k.operator = .equality false)
    (ha : TypeClass.equatable.admits column.type = true) {v : Operand} (hv : v ≠ .null) {e : CompileError} :
    compile column k v false = .error e ↔
      column.type.literalKind.literal? v = none ∧ e = .invalidValue k column.type.literalKind v := by
  rw [compile_eq_error, ho]
  simp only [isSuppressed_false hv, Operator.appliesTo, ha, true_and, Bool.true_eq_false, false_and, false_or]
  constructor
  · rintro ⟨_, _, _ | _, rfl⟩
    exact ⟨‹_›, rfl⟩
  · rintro ⟨hl, rfl⟩
    exact ⟨_, _, .equality false hl, rfl⟩

/-! A list that a column is to be in -/

theorem isSuppressed_list {ignoreBlank : Bool} {vs : List Operand} (h : nonNull vs ≠ []) :
    isSuppressed ignoreBlank (.list vs) = false := by
  have hne : vs ≠ [] := by
    rintro rfl
    exact h rfl
  rw [← Bool.not_eq_true, isSuppressed_iff]
  simp [AsksNothing, hne]

theorem compile_list_of_vacant {n : Bool} (ho : k.operator = .membership n)
    (ha : TypeClass.equatable.admits column.type = true) {vs : List Operand} (h : nonNull vs = [])
    (ignoreBlank : Bool) : compile column k (.list vs) ignoreBlank = .ok empty :=
  compile_eq_empty.2 (.inr ⟨by rw [ho]; exact ha, ⟨n, ho⟩, members_eq_nil.1 h⟩)

theorem compile_list_eq_predicate {n : Bool} (ho : k.operator = .membership n)
    (ha : TypeClass.equatable.admits column.type = true) {vs : List Operand} {ignoreBlank : Bool} {p : Predicate} :
    compile column k (.list vs) ignoreBlank = .ok (predicate p) ↔
      nonNull vs ≠ [] ∧ ∃ ls,
        List.Forall₂ (fun u l => column.type.literalKind.literal? u = some l) (nonNull vs) ls ∧
          p = ⟨column, .membership n, k.negated, .literals ls⟩ := by
  rw [compile_eq_predicate, ho]
  constructor
  · rintro ⟨-, -, _, ha, rfl⟩
    cases ha with
    | membership _ hne h => exact ⟨hne, _, h, rfl⟩
  · rintro ⟨hne, ls, h, rfl⟩
    exact ⟨isSuppressed_list hne, ha, _, .membership n hne h, rfl⟩

theorem compile_list_eq_error {n : Bool} (ho : k.operator = .membership n)
    (ha : TypeClass.equatable.admits column.type = true) {vs : List Operand} {ignoreBlank : Bool}
    {e : CompileError} :
    compile column k (.list vs) ignoreBlank = .error e ↔
      ∃ us u ws, nonNull vs = us ++ u :: ws ∧
        (∀ w ∈ us, ∃ l, column.type.literalKind.literal? w = some l) ∧
          column.type.literalKind.literal? u = none ∧ e = .invalidValue k column.type.literalKind u := by
  rw [compile_eq_error, ho]
  constructor
  · rintro ⟨-, ⟨ha', -⟩ | ⟨-, _, _, hr, rfl⟩⟩
    · cases ha.symm.trans ha'
    · cases hr with
      | membership _ hm hus hu => exact ⟨_, _, _, hm, hus, hu, rfl⟩
  · rintro ⟨us, u, ws, hm, hus, hu, rfl⟩
    have hne : nonNull vs ≠ [] := by simp [hm]
    exact ⟨isSuppressed_list hne, .inr ⟨ha, _, _, .membership n hm hus hu, rfl⟩⟩

theorem compile_singleton {n : Bool} (ho : k.operator = .membership n) {v : Operand} {ignoreBlank : Bool}
    (hv : ¬ v.AsksNothing ignoreBlank) (hl : ¬ v.IsList) :
    compile column k v ignoreBlank = compile column k (.list [v]) ignoreBlank := by
  have hn : v ≠ .null := fun hn => hv (.inl hn)
  have hs : isSuppressed ignoreBlank v = false := by simpa [← isSuppressed_iff] using hv
  have hm : members v = [v] := by
    cases v with
    | list items => exact absurd ⟨items, rfl⟩ hl
    | null | bool | int | float | text => rfl
  have hm' : nonNull [v] = [v] := by simpa [nonNull, ← isNull_iff] using hn
  have hs' : isSuppressed ignoreBlank (.list [v]) = false := isSuppressed_list (by simp [hm'])
  have hx : argument k column.type.literalKind v = argument k column.type.literalKind (.list [v]) := by
    have hl : members (.list [v]) = [v] := hm'
    simp only [argument, ho, hm, hl]
  rw [compile, compile, hs, hs', hx]

/-- To be in a list is to be equal to one of its members. Each becomes the literal that equality makes of it
alone, in the same order, and the first that equality refuses is refused in the list. -/
theorem compile_membership {text text' : String} {k k' : Key} (hk : Key.parse text = .ok k)
    (hk' : Key.parse text' = .ok k') {n : Bool} (ho : k.operator = .membership n)
    (ho' : k'.operator = .equality false) (column : Attribute)
    (ha : TypeClass.equatable.admits column.type = true) (ignoreBlank : Bool) :
    (∀ vs, nonNull vs = [] → compile column k (.list vs) ignoreBlank = .ok empty) ∧
    (∀ vs, nonNull vs ≠ [] →
      ((∃ p, compile column k (.list vs) ignoreBlank = .ok (predicate p)) ↔
        ∀ u ∈ nonNull vs, ∃ q, compile column k' u false = .ok (predicate q))) ∧
    (∀ vs p, compile column k (.list vs) ignoreBlank = .ok (predicate p) →
      (∃ ls, p = ⟨column, .membership n, n, .literals ls⟩ ∧
        List.Forall₂ (fun u l => compile column k' u false =
          .ok (predicate ⟨column, .equality false, false, .literal l⟩)) (nonNull vs) ls) ∧
      ∀ d : Dialect, ∃ ts : List String,
        List.Forall₂ (fun u t => ∃ q, compile column k' u false = .ok (predicate q) ∧
          q.sql d = d.qualify column.table column.column ++ " = " ++ t) (nonNull vs) ts ∧
        p.sql d = d.qualify column.table column.column ++ (if n then " NOT IN (" else " IN (") ++
          ", ".intercalate ts ++ ")") ∧
    (∀ vs e, compile column k (.list vs) ignoreBlank = .error e ↔
      ∃ us u ws expected given, nonNull vs = us ++ u :: ws ∧
        (∀ w ∈ us, ∃ q, compile column k' w false = .ok (predicate q)) ∧
        compile column k' u false = .error (.invalidValue k' expected given) ∧
        e = .invalidValue k expected given) ∧
    ∀ v : Operand, ¬ v.AsksNothing ignoreBlank → ¬ v.IsList →
      compile column k v ignoreBlank = compile column k (.list [v]) ignoreBlank := by
  have hn : k.negated = n := by rw [Key.negated_of_parse hk, ho]; rfl
  have hn' : k'.negated = false := by rw [Key.negated_of_parse hk', ho']; rfl
  have hs {vs : List Operand} (u : Operand) (hu : u ∈ nonNull vs) :=
    exists_compile_equality (k := k') ho' ha (ne_null_of_mem_nonNull hu)
  refine ⟨fun vs h => compile_list_of_vacant ho ha h ignoreBlank, fun vs hne => ?_, fun vs p hp => ?_,
    fun vs e => ?_, fun v hv hl => compile_singleton ho hv hl⟩
  · rw [forall₂_congr hs, ← exists_forall₂]
    simp only [compile_list_eq_predicate ho ha]
    constructor
    · rintro ⟨_, -, ls, hls, -⟩
      exact ⟨ls, hls⟩
    · rintro ⟨ls, hls⟩
      exact ⟨_, hne, ls, hls, rfl⟩
  · obtain ⟨-, ls, hls, rfl⟩ := (compile_list_eq_predicate ho ha).1 hp
    have heq : List.Forall₂ (fun u l => compile column k' u false =
        .ok (predicate ⟨column, .equality false, false, .literal l⟩)) (nonNull vs) ls := by
      refine hls.imp fun u l hl => ?_
      exact (compile_equality_eq_predicate ho' ha (ne_null_of_literal? hl)).2 ⟨l, hl, by rw [hn']⟩
    refine ⟨⟨ls, by rw [hn], heq⟩, fun d => ⟨ls.map (Literal.sql d), ?_, by rw [hn, Predicate.sql_membership]⟩⟩
    rw [List.forall₂_map_right_iff]
    exact heq.imp fun u l hl => ⟨_, hl, Predicate.sql_equality d column l⟩
  · rw [compile_list_eq_error ho ha]
    constructor
    · rintro ⟨us, u, ws, hm, hus, hu, rfl⟩
      have hmem : ∀ w ∈ us ++ u :: ws, w ∈ nonNull vs := fun w hw => hm ▸ hw
      refine ⟨us, u, ws, _, _, hm, fun w hw => (hs w (hmem w (by simp [hw]))).2 (hus w hw), ?_, rfl⟩
      exact (compile_equality_eq_error ho' ha (ne_null_of_mem_nonNull (hmem u (by simp)))).2 ⟨hu, rfl⟩
    · rintro ⟨us, u, ws, expected, given, hm, hus, hu, rfl⟩
      have hmem : ∀ w ∈ us ++ u :: ws, w ∈ nonNull vs := fun w hw => hm ▸ hw
      obtain ⟨hl, he⟩ := (compile_equality_eq_error ho' ha (ne_null_of_mem_nonNull (hmem u (by simp)))).1 hu
      cases he
      exact ⟨us, u, ws, hm, fun w hw => (hs w (hmem w (by simp [hw]))).1 (hus w hw), hl, rfl⟩

/-- Nulls are left out of a list. The blank text is not, and it is no number. -/
theorem compile_membership_salary :
    (∃ p, compile ⟨"people", "salary", .int⟩ ⟨"salary", .membership true, true⟩
        (.list [.text " 7", .null, .int 1]) true = .ok (predicate p)) ∧
    compile ⟨"people", "salary", .int⟩ ⟨"salary", .membership true, true⟩ (.list [.int 1, .null, .text ""]) true =
      .error (.invalidValue ⟨"salary", .membership true, true⟩ .integer (.text "")) ∧
    compile ⟨"people", "salary", .int⟩ ⟨"salary", .membership true, true⟩ (.text " 7") true =
      compile ⟨"people", "salary", .int⟩ ⟨"salary", .membership true, true⟩ (.list [.text " 7"]) true := by
  have hk : Key.parse "salary_not_in" = .ok ⟨"salary", .membership true, true⟩ := by rfl
  have hk' : Key.parse "salary_eq" = .ok ⟨"salary", .equality false, false⟩ := by rfl
  obtain ⟨-, hs, -, he, hv⟩ := compile_membership hk hk' rfl rfl ⟨"people", "salary", .int⟩ rfl true
  have h7 : compile ⟨"people", "salary", .int⟩ ⟨"salary", .equality false, false⟩ (.text " 7") false =
      .ok (predicate ⟨⟨"people", "salary", .int⟩, .equality false, false, .literal (.int 7)⟩) := by cbv
  have h1 : compile ⟨"people", "salary", .int⟩ ⟨"salary", .equality false, false⟩ (.int 1) false =
      .ok (predicate ⟨⟨"people", "salary", .int⟩, .equality false, false, .literal (.int 1)⟩) := by rfl
  have hx : compile ⟨"people", "salary", .int⟩ ⟨"salary", .equality false, false⟩ (.text "") false =
      .error (.invalidValue ⟨"salary", .equality false, false⟩ .integer (.text "")) := by rfl
  refine ⟨(hs [.text " 7", .null, .int 1] (List.cons_ne_nil _ _)).2 ?_, ?_, hv (.text " 7") ?_ ?_⟩
  · exact List.forall_mem_cons.2 ⟨⟨_, h7⟩, List.forall_mem_singleton.2 ⟨_, h1⟩⟩
  · exact (he _ _).2 ⟨[.int 1], .text "", [], .integer, .text "", rfl, List.forall_mem_singleton.2 ⟨_, h1⟩, hx, rfl⟩
  · simp [AsksNothing]
  · simp [IsList]

end Condition

end PredicateSearch

import PredicateSearch.Condition
import PredicateSearch.Proofs.Outcome

namespace PredicateSearch

namespace Condition

/-- What each operator makes of an operand where literals of the given kind are wanted. -/
inductive Accepts (kind : LiteralKind) : Operator → Operand → Argument → Prop
  | nullCheck {v b} (n) (h : v.toBool? = some b) : Accepts kind (.nullCheck n) v (.toggle b)
  | presence {v b} (n) (h : v.toBool? = some b) : Accepts kind (.presence n) v (.toggle b)
  | truth {v b} (t n) (h : v.toBool? = some b) : Accepts kind (.truth t n) v (.toggle b)
  | pattern {v s} (a n) (h : v.toText? = some s) :
      Accepts kind (.pattern a n) v (.pattern (Pattern.ofText a s))
  | membership {v ls} (n) (hne : members v ≠ [])
      (h : List.Forall₂ (fun u l => kind.literal? u = some l) (members v) ls) :
      Accepts kind (.membership n) v (.literals ls)
  | equality {v l} (n) (h : kind.literal? v = some l) : Accepts kind (.equality n) v (.literal l)
  | comparison {v l} (c) (h : kind.literal? v = some l) : Accepts kind (.comparison c) v (.literal l)

/-- What each operator finds at fault in an operand: a literal of some kind is wanted, and what is given has
none. Of a list it is the first member without one. -/
inductive Refuses (kind : LiteralKind) : Operator → Operand → LiteralKind → Operand → Prop
  | nullCheck {v} (n) (h : v.toBool? = none) : Refuses kind (.nullCheck n) v .boolean v
  | presence {v} (n) (h : v.toBool? = none) : Refuses kind (.presence n) v .boolean v
  | truth {v} (t n) (h : v.toBool? = none) : Refuses kind (.truth t n) v .boolean v
  | pattern {v} (a n) (h : v.toText? = none) : Refuses kind (.pattern a n) v .string v
  | membership {v us u ws} (n) (hm : members v = us ++ u :: ws)
      (hus : ∀ w ∈ us, ∃ l, kind.literal? w = some l) (h : kind.literal? u = none) :
      Refuses kind (.membership n) v kind u
  | equality {v} (n) (h : kind.literal? v = none) : Refuses kind (.equality n) v kind v
  | comparison {v} (c) (h : kind.literal? v = none) : Refuses kind (.comparison c) v kind v

/-- A list that holds nothing to test for. -/
def IsVacant (o : Operator) (v : Operand) : Prop :=
  (∃ n, o = .membership n) ∧ ∃ items, v = .list items ∧ ∀ u ∈ items, u = .null

theorem isNull_iff {v : Operand} : v.isNull = true ↔ v = .null := by
  cases v <;> simp [Operand.isNull]

theorem members_eq_nil {v : Operand} : members v = [] ↔ ∃ items, v = .list items ∧ ∀ u ∈ items, u = .null := by
  cases v <;> simp [members, isNull_iff]

theorem orInvalid_eq_ok {α : Type} {key : Key} {kind : LiteralKind} {v : Operand} {x : Option α} {a : α} :
    orInvalid key kind v x = .ok a ↔ x = some a := by
  cases x <;> simp [orInvalid]

theorem literal_eq_ok {key : Key} {kind : LiteralKind} {v : Operand} {l : Literal} :
    literal key kind v = .ok l ↔ kind.literal? v = some l := orInvalid_eq_ok

theorem orInvalid_eq_error {α : Type} {key : Key} {kind : LiteralKind} {v : Operand} {x : Option α}
    {e : CompileError} : orInvalid key kind v x = .error e ↔ x = none ∧ e = .invalidValue key kind v := by
  cases x <;> simp [orInvalid, eq_comm]

theorem literal_eq_error {key : Key} {kind : LiteralKind} {v : Operand} {e : CompileError} :
    literal key kind v = .error e ↔ kind.literal? v = none ∧ e = .invalidValue key kind v :=
  orInvalid_eq_error

theorem literals_eq_mapM (key : Key) (kind : LiteralKind) (vs : List Operand) :
    literals key kind vs = vs.mapM (literal key kind) := by
  induction vs with
  | nil => rfl
  | cons v vs ih => rw [literals, ih, List.mapM_cons]

theorem literals_eq_ok {key : Key} {kind : LiteralKind} {vs : List Operand} {ls : List Literal} :
    literals key kind vs = .ok ls ↔ List.Forall₂ (fun u l => kind.literal? u = some l) vs ls := by
  simp only [literals_eq_mapM, mapM_eq_ok, literal_eq_ok]

theorem literals_eq_error {key : Key} {kind : LiteralKind} {vs : List Operand} {e : CompileError} :
    literals key kind vs = .error e ↔
      ∃ us u ws, vs = us ++ u :: ws ∧ (∀ w ∈ us, ∃ l, kind.literal? w = some l) ∧
        kind.literal? u = none ∧ e = .invalidValue key kind u := by
  simp only [literals_eq_mapM, mapM_eq_error, literal_eq_ok, literal_eq_error]

theorem argument_eq_ok {key : Key} {kind : LiteralKind} {v : Operand} {a : Argument} :
    argument key kind v = .ok (some a) ↔ Accepts kind key.operator v a := by
  rcases key with ⟨subject, o, negated⟩
  cases o with
  | nullCheck | presence | truth =>
      simp only [argument, bind_eq_ok, orInvalid_eq_ok, pure, Except.pure, Except.ok.injEq,
        Option.some.injEq]
      constructor
      · rintro ⟨b, hb, rfl⟩
        constructor; exact hb
      · rintro (_ | _)
        exact ⟨_, ‹_›, rfl⟩
  | pattern anchor n =>
      simp only [argument, bind_eq_ok, orInvalid_eq_ok, pure, Except.pure, Except.ok.injEq,
        Option.some.injEq]
      constructor
      · rintro ⟨s, hs, rfl⟩
        exact .pattern anchor n hs
      · rintro (_ | _)
        exact ⟨_, ‹_›, rfl⟩
  | membership n =>
      cases hm : members v with
      | nil =>
          simp only [argument, hm, Except.ok.injEq, reduceCtorEq, false_iff]
          rintro (_ | _)
          contradiction
      | cons u us =>
          simp only [argument, hm, bind_eq_ok, literals_eq_ok, pure, Except.pure, Except.ok.injEq,
            Option.some.injEq]
          constructor
          · rintro ⟨ls, hls, rfl⟩
            exact .membership n (by simp [hm]) (hm ▸ hls)
          · rintro (_ | _)
            exact ⟨_, hm ▸ ‹_›, rfl⟩
  | equality | comparison =>
      simp only [argument, bind_eq_ok, literal_eq_ok, pure, Except.pure, Except.ok.injEq, Option.some.injEq]
      constructor
      · rintro ⟨l, hl, rfl⟩
        constructor; exact hl
      · rintro (_ | _)
        exact ⟨_, ‹_›, rfl⟩

theorem argument_eq_none {key : Key} {kind : LiteralKind} {v : Operand} :
    argument key kind v = .ok none ↔ IsVacant key.operator v := by
  rcases key with ⟨subject, o, negated⟩
  cases o with
  | nullCheck | presence | truth | pattern | equality | comparison =>
      simp [argument, IsVacant, bind_eq_ok, pure, Except.pure]
  | membership n =>
      simp only [IsVacant, ← members_eq_nil]
      cases hm : members v <;> simp [argument, hm, bind_eq_ok, pure, Except.pure]

theorem argument_eq_error {key : Key} {kind : LiteralKind} {v : Operand} {e : CompileError} :
    argument key kind v = .error e ↔
      ∃ expected given, Refuses kind key.operator v expected given ∧
        e = .invalidValue key expected given := by
  rcases key with ⟨subject, o, negated⟩
  cases o with
  | nullCheck | presence | truth | pattern =>
      simp only [argument, bind_eq_error, orInvalid_eq_error, pure, Except.pure, reduceCtorEq, and_false,
        exists_false, or_false]
      constructor
      · rintro ⟨hv, rfl⟩
        refine ⟨_, _, ?_, rfl⟩
        constructor; exact hv
      · rintro ⟨_, _, _ | _, rfl⟩
        exact ⟨‹_›, rfl⟩
  | membership n =>
      cases hm : members v with
      | nil =>
          simp only [argument, hm, reduceCtorEq, false_iff]
          rintro ⟨_, _, hr, -⟩
          cases hr with
          | membership _ hm' => simp [hm] at hm'
      | cons w ws =>
          simp only [argument, hm, bind_eq_error, literals_eq_error, pure, Except.pure, reduceCtorEq, and_false,
            exists_false, or_false]
          constructor
          · rintro ⟨us, u, vs, he, hus, hu, rfl⟩
            exact ⟨kind, u, .membership n (hm.trans he) hus hu, rfl⟩
          · rintro ⟨_, _, hr, rfl⟩
            cases hr with
            | membership _ hm' hus hu => exact ⟨_, _, _, hm.symm.trans hm', hus, hu, rfl⟩
  | equality | comparison =>
      simp only [argument, bind_eq_error, literal_eq_error, pure, Except.pure, reduceCtorEq, and_false,
        exists_false, or_false]
      constructor
      · rintro ⟨hv, rfl⟩
        refine ⟨_, _, ?_, rfl⟩
        constructor; exact hv
      · rintro ⟨_, _, _ | _, rfl⟩
        exact ⟨‹_›, rfl⟩

/-- A condition that tests something has passed every check. -/
theorem compile_eq_predicate {column : Attribute} {key : Key} {v : Operand} {ignoreBlank : Bool}
    {p : Predicate} :
    compile column key v ignoreBlank = .ok (predicate p) ↔
      isSuppressed ignoreBlank v = false ∧ key.operator.appliesTo.admits column.type = true ∧
        ∃ a, Accepts column.type.literalKind key.operator v a ∧
          p = ⟨column, key.operator, key.negated, a⟩ := by
  unfold compile
  cases isSuppressed ignoreBlank v with
  | true => simp
  | false =>
      cases key.operator.appliesTo.admits column.type with
      | false => simp
      | true =>
          simp only [Bool.false_eq_true, Bool.not_true, if_false, bind_eq_ok, true_and]
          constructor
          · rintro ⟨x, hx, hp⟩
            cases x with
            | none => cases hp
            | some a => exact ⟨a, argument_eq_ok.1 hx, by cases hp; rfl⟩
          · rintro ⟨a, ha, rfl⟩
            exact ⟨some a, argument_eq_ok.2 ha, rfl⟩

theorem compile_eq_empty {column : Attribute} {key : Key} {v : Operand} {ignoreBlank : Bool} :
    compile column key v ignoreBlank = .ok empty ↔
      isSuppressed ignoreBlank v = true ∨
        key.operator.appliesTo.admits column.type = true ∧ IsVacant key.operator v := by
  unfold compile
  cases isSuppressed ignoreBlank v with
  | true => simp
  | false =>
      cases key.operator.appliesTo.admits column.type with
      | false => simp
      | true =>
          have hn : argument key column.type.literalKind v = .ok none ↔ IsVacant key.operator v := argument_eq_none
          simp only [Bool.false_eq_true, Bool.not_true, if_false, bind_eq_ok, true_and, false_or, ← hn]
          constructor
          · rintro ⟨_ | a, hx, he⟩
            · exact hx
            · cases he
          · exact fun hx => ⟨none, hx, rfl⟩

theorem compile_eq_error {column : Attribute} {key : Key} {v : Operand} {ignoreBlank : Bool}
    {e : CompileError} :
    compile column key v ignoreBlank = .error e ↔
      isSuppressed ignoreBlank v = false ∧
        (key.operator.appliesTo.admits column.type = false ∧ e = .typeMismatch key.operator column ∨
          key.operator.appliesTo.admits column.type = true ∧
            ∃ expected given, Refuses column.type.literalKind key.operator v expected given ∧
              e = .invalidValue key expected given) := by
  unfold compile
  cases isSuppressed ignoreBlank v with
  | true => simp
  | false =>
      cases key.operator.appliesTo.admits column.type with
      | false => simp [eq_comm]
      | true =>
          simp only [Bool.false_eq_true, Bool.not_true, if_false, bind_eq_error, argument_eq_error, true_and,
            Bool.true_eq_false, false_and, false_or]
          refine or_iff_left ?_
          rintro ⟨_ | a, -, he⟩ <;> cases he

/-- Of a key no more than the operator and its form can be seen in a condition. -/
theorem compile_eq_ok_congr {column : Attribute} {k k' : Key} (ho : k'.operator = k.operator)
    (hn : k'.negated = k.negated) {v : Operand} {ignoreBlank : Bool} {c : Condition} :
    compile column k' v ignoreBlank = .ok c ↔ compile column k v ignoreBlank = .ok c := by
  cases c with
  | empty => rw [compile_eq_empty, compile_eq_empty, ho]
  | predicate p => rw [compile_eq_predicate, compile_eq_predicate, ho, hn]

end Condition

end PredicateSearch

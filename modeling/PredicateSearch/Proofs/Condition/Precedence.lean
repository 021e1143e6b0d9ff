import PredicateSearch.Proofs.Condition.Compile

namespace PredicateSearch

open Decimal

namespace Operand

def IsList (v : Operand) : Prop := ∃ items, v = list items

/-- Null, and on request the empty text and the empty list. -/
def AsksNothing (ignoreBlank : Bool) (v : Operand) : Prop :=
  v = null ∨ ignoreBlank = true ∧ (v = text "" ∨ v = list [])

theorem isBlank_iff {v : Operand} : v.isBlank = true ↔ v = text "" ∨ v = list [] := by
  cases v <;> simp [isBlank]

theorem not_isList_iff {v : Operand} (hv : v ≠ null) : ¬ v.IsList ↔ ∃ s, v.toText? = some s := by
  cases v with
  | null => contradiction
  | bool | int | float | text | list => simp [IsList, toText?]

end Operand

/-- Whether a column of the type can be compared with the operand. -/
def ValueType.Fits : ValueType → Operand → Prop
  | .boolean, v => ∃ b, v.toBool? = some b
  | .int, v | .bigInt, v => ∃ n, v.toInt? = some n
  | .float, v | .decimal, v => ∃ x, v.asFloat? = some x ∧ isFinite x = true
  | _, v => ¬ v.IsList

theorem ValueType.not_fits_list (type : ValueType) (items : List Operand) : ¬ type.Fits (.list items) := by
  cases type <;> simp [Fits, Operand.IsList, Operand.toBool?, Operand.toInt?, Operand.asFloat?]

/-- Whether the operator can ask a column of the type for the operand. Nulls in a list do not count. -/
def Operator.Takes (type : ValueType) : Operator → Operand → Prop
  | .nullCheck _, v | .presence _, v | .truth _ _, v => ∃ b, v.toBool? = some b
  | .pattern _ _, v => ¬ v.IsList
  | .membership _, .list items => ∀ u ∈ items, u ≠ .null → type.Fits u
  | .membership _, v | .equality _, v | .comparison _, v => type.Fits v

namespace Condition

theorem isSuppressed_iff {ignoreBlank : Bool} {v : Operand} :
    isSuppressed ignoreBlank v = true ↔ v.AsksNothing ignoreBlank := by
  simp [isSuppressed, Operand.AsksNothing, isNull_iff, Operand.isBlank_iff]

theorem exists_map_eq_some {α β : Type} {f : α → β} {x : Option α} :
    (∃ b, x.map f = some b) ↔ ∃ a, x = some a := by
  cases x <;> simp

theorem fits_iff {type : ValueType} {v : Operand} (hv : v ≠ .null) :
    type.Fits v ↔ ∃ l, type.literalKind.literal? v = some l := by
  cases type with
  | boolean | int | bigInt => exact exists_map_eq_some.symm
  | float | decimal =>
      refine Iff.trans ?_ exists_map_eq_some.symm
      simp only [ValueType.Fits, Operand.toFloat?, Option.filter_eq_some_iff]
  | string | text | date | dateTime | time | uuid | json | bytes =>
      exact (Operand.not_isList_iff hv).trans exists_map_eq_some.symm

theorem takes_membership_iff {type : ValueType} {n : Bool} {v : Operand} (hv : v ≠ .null) :
    (Operator.membership n).Takes type v ↔ ∀ u ∈ members v, ∃ l, type.literalKind.literal? u = some l := by
  cases v with
  | null => contradiction
  | bool | int | float | text => simp [Operator.Takes, members, fits_iff]
  | list items =>
      have hm (u : Operand) : u ∈ members (.list items) ↔ u ∈ items ∧ u ≠ .null := by
        simp [members, ← isNull_iff]
      simp only [hm, and_imp]
      exact forall₃_congr fun u _ hu => fits_iff hu

theorem takes_iff {type : ValueType} {o : Operator} {v : Operand} (hv : v ≠ .null) (hm : ¬ IsVacant o v) :
    o.Takes type v ↔ ∃ a, Accepts type.literalKind o v a := by
  cases o with
  | nullCheck | presence | truth =>
      constructor
      · rintro ⟨b, hb⟩
        refine ⟨.toggle b, ?_⟩
        constructor; exact hb
      · rintro ⟨_, _ | _⟩
        exact ⟨_, ‹_›⟩
  | pattern anchor n =>
      refine (Operand.not_isList_iff hv).trans ?_
      constructor
      · rintro ⟨s, hs⟩
        exact ⟨_, .pattern anchor n hs⟩
      · rintro ⟨_, _ | _⟩
        exact ⟨_, ‹_›⟩
  | membership n =>
      have hne : members v ≠ [] := fun he => hm ⟨⟨n, rfl⟩, members_eq_nil.1 he⟩
      rw [takes_membership_iff hv, ← exists_forall₂]
      constructor
      · rintro ⟨ls, hls⟩
        exact ⟨_, .membership n hne hls⟩
      · rintro ⟨_, _ | _⟩
        exact ⟨_, ‹_›⟩
  | equality | comparison =>
      refine (fits_iff hv).trans ?_
      constructor
      · rintro ⟨l, hl⟩
        refine ⟨.literal l, ?_⟩
        constructor; exact hl
      · rintro ⟨_, _ | _⟩
        exact ⟨_, ‹_›⟩

/-- Suppression goes before the check of the column's type, that before the look for members, and that before
the operand's own check, which no list inside a list passes. What is wrong with an operand is said of the key
that was asked. -/
theorem compile_precedence (column : Attribute) (key : Key) (v : Operand) (ignoreBlank : Bool) :
    (v.AsksNothing ignoreBlank → compile column key v ignoreBlank = .ok empty) ∧
    (¬ v.AsksNothing ignoreBlank →
      (compile column key v ignoreBlank = .error (.typeMismatch key.operator column) ↔
        key.operator.appliesTo.admits column.type = false) ∧
      (key.operator.appliesTo.admits column.type = true →
        (compile column key v ignoreBlank = .ok empty ↔ IsVacant key.operator v) ∧
        (¬ IsVacant key.operator v →
          ((∃ expected given, compile column key v ignoreBlank = .error (.invalidValue key expected given)) ↔
            ¬ key.operator.Takes column.type v) ∧
          ((∃ p, compile column key v ignoreBlank = .ok (predicate p)) ↔
            key.operator.Takes column.type v)))) ∧
    (∀ items, ¬ column.type.Fits (.list items)) ∧
    ∀ e, compile column key v ignoreBlank = .error e →
      e = .typeMismatch key.operator column ∨
        ∃ expected given, e = .invalidValue key expected given ∧
          e.message = "cannot use " ++ String.ofList given.display ++ " as " ++ expected.name ++ " for `" ++
            (key.subject ++ "_" ++ key.operator.id) ++ "`" := by
  refine ⟨fun h => compile_eq_empty.2 (.inl (isSuppressed_iff.2 h)), fun h => ?_,
    column.type.not_fits_list, fun e he => ?_⟩
  · have hs : isSuppressed ignoreBlank v = false := by simpa [← isSuppressed_iff] using h
    have hv : v ≠ .null := fun hn => h (.inl hn)
    refine ⟨by simp [compile_eq_error, hs], fun ha => ⟨by simp [compile_eq_empty, hs, ha], fun hm => ?_⟩⟩
    have hp : (∃ p, compile column key v ignoreBlank = .ok (predicate p)) ↔ key.operator.Takes column.type v := by
      simp only [takes_iff hv hm, compile_eq_predicate, hs, ha, true_and]
      rw [exists_comm]
      simp
    refine ⟨?_, hp⟩
    rw [← hp]
    -- Nothing else is left: the four outcomes are all there are.
    constructor
    · rintro ⟨expected, given, he⟩ ⟨p, hp⟩
      rw [he] at hp
      cases hp
    · intro hn
      rcases hc : compile column key v ignoreBlank with e | _ | p
      · obtain ⟨-, ⟨ha', -⟩ | ⟨-, expected, given, -, rfl⟩⟩ := compile_eq_error.1 hc
        · rw [ha] at ha'
          cases ha'
        · exact ⟨expected, given, rfl⟩
      · rcases compile_eq_empty.1 hc with hs' | ⟨-, hm'⟩
        · rw [hs] at hs'
          cases hs'
        · exact absurd hm' hm
      · exact absurd ⟨p, hc⟩ hn
  · obtain ⟨-, ⟨-, rfl⟩ | ⟨-, expected, given, -, rfl⟩⟩ := compile_eq_error.1 he
    · exact .inl rfl
    · exact .inr ⟨expected, given, rfl, rfl⟩

/-- The empty list inside the list is no blank to be passed over, and fits no column. -/
theorem compile_precedence_nested :
    (∃ expected given, compile ⟨"people", "salary", .int⟩ ⟨"salary", .membership false, false⟩
        (.list [.null, .int 1, .list []]) true =
      .error (.invalidValue ⟨"salary", .membership false, false⟩ expected given)) ∧
    compile ⟨"people", "salary", .int⟩ ⟨"salary", .truth true false, false⟩ (.list []) true = .ok empty := by
  have hb : ¬ (Operand.list [.null, .int 1, .list []]).AsksNothing true := by simp [Operand.AsksNothing]
  have hm : ¬ IsVacant (.membership false) (.list [.null, .int 1, .list []]) := by simp [IsVacant]
  have ht : ¬ (Operator.membership false).Takes .int (.list [.null, .int 1, .list []]) := fun h =>
    ValueType.not_fits_list .int [] (h (.list []) (by simp) (by simp))
  have h := compile_precedence ⟨"people", "salary", .int⟩ ⟨"salary", .membership false, false⟩
    (.list [.null, .int 1, .list []]) true
  have h' := compile_precedence ⟨"people", "salary", .int⟩ ⟨"salary", .truth true false, false⟩ (.list []) true
  exact ⟨(((h.2.1 hb).2 rfl).2 hm).1.2 ht, h'.1 (.inr ⟨rfl, .inr rfl⟩)⟩

end Condition

end PredicateSearch

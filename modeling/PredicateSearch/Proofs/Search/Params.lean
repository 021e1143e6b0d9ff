import PredicateSearch.Proofs.Operand.Document
import PredicateSearch.Proofs.Search.Steps

namespace PredicateSearch

namespace Search

/-- The predicate that a member of the parameters stands for, under the same key. -/
def Supplies (m : String × Json) (e : String × Operand) : Prop := e.1 = m.1 ∧ Operand.ofJson? m.2 = some e.2

theorem operands_eq_ok {members : List (String × Json)} {entries : List (String × Operand)} :
    operands members = .ok entries ↔ List.Forall₂ Supplies members entries := by
  induction members generalizing entries with
  | nil => simp [operands, eq_comm]
  | cons m members ih =>
      obtain ⟨k, d⟩ := m
      rw [operands, List.forall₂_cons_left_iff]
      cases hd : Operand.ofJson? d with
      | none => simp [Supplies, hd]
      | some v =>
          simp only [bind_eq_ok, ih, Supplies, hd]
          constructor
          · rintro ⟨vs, hvs, he⟩
            exact ⟨(k, v), vs, ⟨rfl, rfl⟩, hvs, (Except.ok.inj he).symm⟩
          · rintro ⟨⟨_, _⟩, vs, ⟨rfl, hv⟩, hvs, rfl⟩
            cases hv
            exact ⟨vs, hvs, rfl⟩

theorem ofParams_eq_ok {resolver : Resolver} {dialect : Dialect} {d : Json} {s : Search} :
    ofParams resolver dialect d = .ok s ↔
      ∃ members entries, d = .object members ∧ List.Forall₂ Supplies members entries ∧
        s = fresh resolver dialect {} entries := by
  simp only [fresh_eq]
  constructor
  · intro h
    cases d with
    | object members =>
        obtain ⟨entries, he, hs⟩ := bind_eq_ok.1 h
        exact ⟨members, entries, rfl, operands_eq_ok.1 he, (Except.ok.inj hs).symm⟩
    | null | bool | int | float | string | array => cases h
  · rintro ⟨members, entries, rfl, he, rfl⟩
    exact bind_eq_ok.2 ⟨entries, operands_eq_ok.2 he, rfl⟩

theorem exists_supplies {m : String × Json} : (∃ e, Supplies m e) ↔ ¬ m.2.HoldsObject := by
  rw [← Operand.exists_ofJson?]
  constructor
  · rintro ⟨e, -, he⟩
    exact ⟨e.2, he⟩
  · rintro ⟨v, hv⟩
    exact ⟨(m.1, v), rfl, hv⟩

/-- A document is read alike by its kind at once and kind after kind, and an operand comes back from the
document it is written as. Parameters are read member by member, into the search to which they would be added
one after another. -/
theorem documents_read :
    (∀ d, Operand.firstFit? d = Operand.ofJson? d) ∧
    (∀ d, (∃ v, Operand.ofJson? d = some v) ↔ ¬ d.HoldsObject) ∧
    (∀ d v, Operand.ofJson? d = some v ↔ Operand.Reads d v) ∧
    (∀ v : Operand, (∀ x, v.Holds x → Decimal.isFinite x = true) → Operand.ofJson? v.toJson = some v) ∧
    ∀ (resolver : Resolver) (dialect : Dialect) (d : Json),
      ((∃ s, ofParams resolver dialect d = .ok s) ↔
        ∃ members, d = .object members ∧ ∀ m ∈ members, ¬ m.2.HoldsObject) ∧
      ∀ s, ofParams resolver dialect d = .ok s → ∃ members entries, d = .object members ∧
        List.Forall₂ Supplies members entries ∧ s.entries = entries ∧ s = fresh resolver dialect {} entries ∧
        s.whereClause = (fresh resolver dialect {} entries).whereClause := by
  refine ⟨Operand.firstFit?_eq, fun d => Operand.exists_ofJson?, fun d v => Operand.ofJson?_eq_some,
    fun v => Operand.ofJson?_toJson, fun resolver dialect d => ⟨?_, fun s hs => ?_⟩⟩
  · have hm (members : List (String × Json)) :
        (∃ entries, List.Forall₂ Supplies members entries) ↔ ∀ m ∈ members, ¬ m.2.HoldsObject := by
      simp only [exists_forall₂, exists_supplies]
    simp only [ofParams_eq_ok, ← hm]
    constructor
    · rintro ⟨_, members, entries, hd, he, -⟩
      exact ⟨members, hd, entries, he⟩
    · rintro ⟨members, hd, entries, he⟩
      exact ⟨_, members, entries, hd, he, rfl⟩
  · obtain ⟨members, entries, hd, he, rfl⟩ := ofParams_eq_ok.1 hs
    exact ⟨members, entries, hd, he, by rw [fresh_eq], rfl, rfl⟩

/-- The integer in the list is the first beyond 64 signed bits. -/
theorem documents_read_large :
    Operand.ofJson? (Operand.list [.int Int64.minValue, .list [], .float 2.5, .null]).toJson =
      some (.list [.int Int64.minValue, .list [], .float 2.5, .null]) ∧
    ∃ s members entries, ofParams (fun _ => none) .sqlite
        (.object [("salary_in", .array [.int 9223372036854775808, .array []]), ("age_eq", .int 7)]) = .ok s ∧
      members = [("salary_in", .array [.int 9223372036854775808, .array []]), ("age_eq", .int 7)] ∧
      List.Forall₂ Supplies members entries ∧ s.entries = entries := by
  obtain ⟨-, ho, -, hj, hp⟩ := documents_read
  have hf : ∀ x, (Operand.list [.int Int64.minValue, .list [], .float 2.5, .null]).Holds x →
      Decimal.isFinite x = true := by
    rintro x (_ | ⟨hv, h⟩)
    simp only [List.mem_cons, List.not_mem_nil, or_false] at hv
    rcases hv with rfl | rfl | rfl | rfl
    · cases h
    · rcases h with _ | ⟨hv, -⟩
      cases hv
    · cases h
      decide
    · cases h
  have hm : ∀ m ∈ [("salary_in", Json.array [.int 9223372036854775808, .array []]), ("age_eq", .int 7)],
      ¬ m.2.HoldsObject := by
    refine List.forall_mem_cons.2 ⟨(ho _).1 ⟨_, rfl⟩, List.forall_mem_singleton.2 ((ho _).1 ⟨_, rfl⟩)⟩
  obtain ⟨s, hs⟩ := (hp (fun _ => none) .sqlite _).1.2 ⟨_, rfl, hm⟩
  obtain ⟨members, entries, hd, he, hen, -⟩ := (hp (fun _ => none) .sqlite _).2 s hs
  exact ⟨hj _ hf, s, members, entries, hs, (Json.object.inj hd).symm, he, hen⟩

end Search

end PredicateSearch

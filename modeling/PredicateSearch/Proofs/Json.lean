import PredicateSearch.Json

namespace PredicateSearch.Json

theorem sizeOf_lt_object {members : List (String × Json)} {m : String × Json} (h : m ∈ members) :
    sizeOf m.2 < sizeOf (object members) := by
  have hlt := List.sizeOf_lt_of_mem h
  obtain ⟨k, d⟩ := m
  simp only [Prod.mk.sizeOf_spec, object.sizeOf_spec] at hlt ⊢
  omega

/-- Induction over a document that hands on what holds of its members. -/
@[elab_as_elim, induction_eliminator]
theorem induct {motive : Json → Prop} (null : motive .null) (bool : ∀ b, motive (.bool b))
    (int : ∀ n, motive (.int n)) (float : ∀ x, motive (.float x)) (string : ∀ s, motive (.string s))
    (array : ∀ items, (∀ d ∈ items, motive d) → motive (.array items))
    (object : ∀ members, (∀ m ∈ members, motive m.2) → motive (.object members)) (d : Json) : motive d :=
  match d with
  | .null => null
  | .bool b => bool b
  | .int n => int n
  | .float x => float x
  | .string s => string s
  | .array items => array items fun e _ => induct null bool int float string array object e
  | .object members => object members fun m _ => induct null bool int float string array object m.2
termination_by sizeOf d
decreasing_by
  · simp only [Json.array.sizeOf_spec]
    exact Nat.lt_add_left 1 (List.sizeOf_lt_of_mem ‹_›)
  · exact sizeOf_lt_object ‹_›

/-- Whether an object stands anywhere in the document. -/
inductive HoldsObject : Json → Prop
  | here (members) : HoldsObject (.object members)
  | item {items d} (hd : d ∈ items) (h : HoldsObject d) : HoldsObject (.array items)

theorem holdsObject_array {items : List Json} : (array items).HoldsObject ↔ ∃ d ∈ items, d.HoldsObject := by
  constructor
  · rintro (_ | ⟨hd, h⟩)
    exact ⟨_, hd, h⟩
  · rintro ⟨d, hd, h⟩
    exact .item hd h

end PredicateSearch.Json

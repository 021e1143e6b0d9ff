import Mathlib
import PredicateSearch.Proofs.Schema.Building
import PredicateSearch.Proofs.Schema.Syntax

namespace PredicateSearch

/-! The checks of what is declared find no fault with the writing. -/

theorem Schema.Mark.target_ne (a : Mark) (n : Nat) : a.target ≠ .error (.malformedText n) := by
  rw [target]
  split
  · simp
  · split
    · simp
    · split <;> simp

theorem Schema.mapping_ne (marks : List Mark) (n : Nat) : mapping marks ≠ .error (.malformedText n) := by
  induction marks with
  | nil => simp [mapping]
  | cons a marks ih =>
      rw [mapping, ne_eq, bind_eq_error]
      rintro (h | ⟨t, -, h⟩)
      · exact a.target_ne n h
      · rcases bind_eq_error.1 h with h | ⟨later, -, h⟩
        · exact ih h
        · cases h

theorem Column.ofDeclaration_ne (model : String) (d : Schema.ColumnDeclaration) (n : Nat) :
    ofDeclaration model d ≠ .error (.malformedText n) := by
  rw [ofDeclaration, ne_eq, bind_eq_error]
  rintro (h | ⟨t, -, h⟩)
  · rw [typeOf] at h
    split at h <;> cases h
  · rcases bind_eq_error.1 h with h | ⟨column, -, h⟩
    · exact Schema.mapping_ne d.marks n h
    · cases h

theorem Model.addDeclarations_ne (m : Model) (ds : List Schema.ColumnDeclaration) (n : Nat) :
    m.addDeclarations ds ≠ .error (.malformedText n) := by
  rw [addDeclarations_eq, extendColumns, ne_eq, map_eq_error, Keyed.extend_eq_error]
  rintro ⟨-, d, -, -, -, -, h | ⟨c, -, -, h⟩⟩
  · exact Column.ofDeclaration_ne _ d n h
  · cases h

theorem Model.ofDeclaration_ne (d : Schema.ModelDeclaration) (n : Nat) :
    ofDeclaration d ≠ .error (.malformedText n) := by
  rw [ofDeclaration, ne_eq, bind_eq_error]
  rintro (h | ⟨table, -, h⟩)
  · exact Schema.mapping_ne d.marks n h
  · exact addDeclarations_ne _ d.columns n h

namespace Schema

theorem addDeclarations_ne (s : Schema) (ds : List ModelDeclaration) (n : Nat) :
    addDeclarations s ds ≠ .error (.malformedText n) := by
  rw [addDeclarations_eq, extendModels, ne_eq, map_eq_error, Keyed.extend_eq_error]
  rintro ⟨-, d, -, -, -, -, h | ⟨m, -, -, h⟩⟩
  · exact Model.ofDeclaration_ne d n h
  · cases h

theorem parse_eq_malformedText {text : String} {n : Nat} :
    parse text = .error (.malformedText n) ↔ declarations text.toList = .error (.malformedText n) := by
  rw [parse, bind_eq_error]
  constructor
  · rintro (h | ⟨ds, -, h⟩)
    · exact h
    · exact absurd h (addDeclarations_ne {} ds n)
  · exact .inl

theorem declarations_eq_error (text : List Char) :
    (∃ n, declarations text = .error (.malformedText n)) ↔ ¬ ∃ ds, declarations text = .ok ds := by
  unfold declarations
  split <;> simp

/-- A text is malformed just if it cannot be derived in the grammar, and what is declared in it is what
its derivation says. -/
theorem parse_malformed_iff (text : String) :
    ((∃ n, parse text = .error (.malformedText n)) ↔ ¬ ∃ bs, Form.schema text.toList bs []) ∧
      (∀ bs, Form.schema text.toList bs [] ↔
        ∃ ds, declarations text.toList = .ok ds ∧ ds.map ModelDeclaration.bare = bs) ∧
      (∀ s, parse text = .ok s → ∃ bs, Form.schema text.toList bs [] ∧ addDeclarations {} bs = .ok s.bare) ∧
      (parse "modelA\x7b\x7d").map names = .ok ["A"] ∧
      parse "model A \x7b x Int \x7d\n/// y" = .error (.malformedText 23) ∧
      parse "model A \x7b x Int /// y\n\x7d" = .error (.malformedText 22) ∧
      parse "model A \x7b x Int ? \x7d" = .error (.malformedText 16) ∧
      parse "model A @map (\"x\") \x7b \x7d" = .error (.malformedText 13) := by
  have h : (∃ bs, Form.schema text.toList bs []) ↔ ∃ ds, declarations text.toList = .ok ds := by
    simp only [← declarations_iff]
    exact ⟨fun ⟨_, ds, hd, _⟩ => ⟨ds, hd⟩, fun ⟨ds, hd⟩ => ⟨_, ds, hd, rfl⟩⟩
  refine ⟨?_, fun bs => declarations_iff.symm, ?_, ?_⟩
  · simp only [parse_eq_malformedText, declarations_eq_error, h]
  · intro s hs
    obtain ⟨ds, hd, hs⟩ := bind_eq_ok.1 hs
    have hb := addDeclarations_bare {} ds
    rw [hs] at hb
    exact ⟨_, declarations_iff.1 ⟨ds, hd, rfl⟩, hb.symm⟩
  · simp only [parse_eq]
    exact ⟨by cbv, by cbv, by cbv, by cbv, by cbv⟩

theorem parse_malformed_iff_optional :
    ∃ bs, Form.schema "model A\x7bx Int?\x7d".toList bs [] ∧
      addDeclarations {} bs =
        .ok ⟨[{ name := { text := "A" },
                columns := [{ name := { text := "x" }, type := .int, optional := true }] }]⟩ := by
  have hs : parse "model A\x7bx Int?\x7d" = .ok ⟨[
      { name := ⟨"A", ⟨6, 7⟩⟩, span := ⟨0, 15⟩,
        columns := [{ name := ⟨"x", ⟨8, 9⟩⟩, type := .int, optional := true, span := ⟨8, 14⟩ }] }]⟩ := by
    rw [parse_eq]
    cbv
  exact (parse_malformed_iff _).2.2.1 _ hs

end Schema

end PredicateSearch

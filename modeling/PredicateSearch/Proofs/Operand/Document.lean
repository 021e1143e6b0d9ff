import PredicateSearch.Operand.Document
import PredicateSearch.Proofs.Decimal.Integer
import PredicateSearch.Proofs.Json
import PredicateSearch.Proofs.Outcome

namespace PredicateSearch

namespace Operand

open Decimal

/-- Induction over an operand that hands on what holds of its members. -/
@[elab_as_elim, induction_eliminator]
theorem induct {motive : Operand → Prop} (null : motive .null) (bool : ∀ b, motive (.bool b))
    (int : ∀ n, motive (.int n)) (float : ∀ x, motive (.float x)) (text : ∀ s, motive (.text s))
    (list : ∀ items, (∀ v ∈ items, motive v) → motive (.list items)) (v : Operand) : motive v :=
  match v with
  | .null => null
  | .bool b => bool b
  | .int n => int n
  | .float x => float x
  | .text s => text s
  | .list items => list items fun w _ => induct null bool int float text list w

/-- What a document stands for, kind by kind. Only integers beyond 64 signed bits change theirs. -/
inductive Reads : Json → Operand → Prop
  | null : Reads .null .null
  | bool (b) : Reads (.bool b) (.bool b)
  | int {n m} (h : Int64.toInt m = n) : Reads (.int n) (.int m)
  | large {n : Int} (h : n < Int64.minValue.toInt ∨ Int64.maxValue.toInt < n) :
      Reads (.int n) (.float (Float.ofInt n))
  | float (x) : Reads (.float x) (.float x)
  | text (s) : Reads (.string s) (.text s)
  | list {items vs} (h : List.Forall₂ Reads items vs) : Reads (.array items) (.list vs)

theorem reads_array {items : List Json} {v : Operand} :
    Reads (.array items) v ↔ ∃ vs, List.Forall₂ Reads items vs ∧ v = .list vs := by
  constructor
  · rintro (_ | _ | _ | _ | _ | _ | h)
    exact ⟨_, h, rfl⟩
  · rintro ⟨vs, h, rfl⟩
    exact .list h

/-- Whether the double stands anywhere in the operand. -/
inductive Holds (x : Float) : Operand → Prop
  | here : Holds x (.float x)
  | item {items v} (hv : v ∈ items) (h : Holds x v) : Holds x (.list items)

/-! The operand of a document, by its kind at once -/

theorem ofJsonItems?_eq_some {ds : List Json} {vs : List Operand} :
    ofJsonItems? ds = some vs ↔ List.Forall₂ (fun d v => ofJson? d = some v) ds vs := by
  induction ds generalizing vs with
  | nil => simp [ofJsonItems?, eq_comm]
  | cons d ds ih =>
      simp only [ofJsonItems?, Option.bind_eq_some_iff, Option.map_eq_some_iff, ih, List.forall₂_cons_left_iff]
      constructor
      · rintro ⟨v, hv, ws, hws, rfl⟩
        exact ⟨v, ws, hv, hws, rfl⟩
      · rintro ⟨v, ws, hv, hws, rfl⟩
        exact ⟨v, hv, ws, hws, rfl⟩

theorem ofJson?_array {items : List Json} {v : Operand} :
    ofJson? (.array items) = some v ↔
      ∃ vs, List.Forall₂ (fun d v => ofJson? d = some v) items vs ∧ v = .list vs := by
  simp only [ofJson?, Option.map_eq_some_iff, ofJsonItems?_eq_some, eq_comm (a := v)]

theorem reads_int {n : Int} {v : Operand} : Reads (.int n) v ↔ ofInt n = v := by
  unfold ofInt
  constructor
  · rintro (_ | _ | h | h)
    · rw [← h, int64?_toInt]
    · rw [int64?_eq_none.2 h]
  · rintro rfl
    split
    · next m hm => exact .int (toInt_of_int64? hm)
    · next hm => exact .large (int64?_eq_none.1 hm)

theorem ofJson?_eq_some {d : Json} {v : Operand} : ofJson? d = some v ↔ Reads d v := by
  induction d generalizing v with
  | null | bool | float | string =>
      simp only [ofJson?, Option.some.injEq]
      constructor
      · rintro rfl
        constructor
      · rintro ⟨⟩
        rfl
  | int n => simp only [ofJson?, Option.some.injEq, reads_int]
  | array items ih =>
      rw [ofJson?_array, reads_array]
      simp only [forall₂_congr_of_mem fun d hd b => ih d hd]
  | object members => simpa [ofJson?] using nofun

theorem exists_ofJson? {d : Json} : (∃ v, ofJson? d = some v) ↔ ¬ d.HoldsObject := by
  induction d with
  | null | bool | int | float | string => simpa [ofJson?] using nofun
  | array items ih =>
      have hs : (∃ v, ofJson? (.array items) = some v) ↔ ∀ d ∈ items, ∃ v, ofJson? d = some v := by
        simp only [ofJson?_array, ← exists_forall₂]
        constructor
        · rintro ⟨_, vs, h, rfl⟩
          exact ⟨vs, h⟩
        · rintro ⟨vs, h⟩
          exact ⟨_, vs, h, rfl⟩
      rw [hs, Json.holdsObject_array, forall₂_congr ih]
      simp only [not_exists, not_and]
  | object members => simp [ofJson?, Json.HoldsObject.here]

/-! The operand of a document, kind after kind -/

theorem firstFitItems?_eq {ds : List Json} (h : ∀ d ∈ ds, firstFit? d = ofJson? d) :
    firstFitItems? ds = ofJsonItems? ds := by
  induction ds with
  | nil => rfl
  | cons d ds ih =>
      obtain ⟨hd, hds⟩ := List.forall_mem_cons.1 h
      rw [firstFitItems?, ofJsonItems?, hd, ih hds]

/-- The order in which the kinds are tried does not matter but for one thing: integers go before doubles. -/
theorem firstFit?_eq (d : Json) : firstFit? d = ofJson? d := by
  induction d with
  | null | bool | float | string | object => rfl
  | int n =>
      have hf : firstFit? (.int n) = ((int64? n).map int <|> some (float (Float.ofInt n))) := by
        simp [firstFit?, scalarOf?, nullOf?, boolOf?, intOf?, floatOf?]
      rw [hf, ofJson?, ofInt]
      cases int64? n <;> rfl
  | array items ih =>
      have hf : firstFit? (.array items) = (firstFitItems? items).map list := by
        simp [firstFit?, scalarOf?, nullOf?, boolOf?, intOf?, floatOf?, textOf?]
      rw [hf, firstFitItems?_eq ih, ofJson?]

/-! The document of an operand -/

theorem ofJsonItems?_toJsonItems {vs : List Operand} (h : ∀ v ∈ vs, ofJson? (toJson v) = some v) :
    ofJsonItems? (toJsonItems vs) = some vs := by
  induction vs with
  | nil => rfl
  | cons v vs ih =>
      obtain ⟨hv, hvs⟩ := List.forall_mem_cons.1 h
      rw [toJsonItems, ofJsonItems?, hv, ih hvs]
      rfl

theorem ofJson?_toJson {v : Operand} (h : ∀ x, v.Holds x → isFinite x = true) : ofJson? (toJson v) = some v := by
  induction v with
  | null | bool | text => rfl
  | int n => rw [toJson, ofJson?, ofInt, int64?_toInt]
  | float x => rw [toJson, if_pos (h x .here), ofJson?]
  | list items ih =>
      have hi : ∀ v ∈ items, ofJson? (toJson v) = some v := fun v hv =>
        ih v hv fun x hx => h x (.item hv hx)
      rw [toJson, ofJson?, ofJsonItems?_toJsonItems hi, Option.map_some]

end Operand

end PredicateSearch

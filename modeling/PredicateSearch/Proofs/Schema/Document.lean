import PredicateSearch.Proofs.Json.Reading
import PredicateSearch.Proofs.Schema.Printable
import PredicateSearch.Schema.Document

namespace PredicateSearch

namespace Json

variable {α : Type} {key : α → String} {f : α → Json} {g : Json → Option α}

theorem toOption?_ofOption (hn : ∀ a, f a ≠ null) (hg : ∀ a, g (f a) = some a) (x : Option α) :
    toOption? g (ofOption f x) = some x := by
  cases x with
  | none => rfl
  | some a =>
      have h : toOption? g (f a) = (g (f a)).map some := by
        unfold toOption?
        split
        · next h => exact absurd h (hn a)
        · rfl
      rw [ofOption, h, hg]
      rfl

theorem exact_ofOption (hf : ∀ a, (f a).Exact) (x : Option α) : (ofOption f x).Exact := by
  cases x with
  | none => exact .null
  | some a => exact hf a

theorem toKeyed?_ofKeyed {as : List α} (hg : ∀ a ∈ as, g (f a) = some a) (hn : (as.map key).Nodup) :
    toKeyed? key g (ofKeyed key f as) = some as := by
  change entries? key g (as.map fun a => (key a, f a)) = some as
  induction as with
  | nil => rfl
  | cons a as ih =>
      obtain ⟨ha, has⟩ := List.forall_mem_cons.1 hg
      obtain ⟨hk, hn⟩ := List.nodup_cons.1 hn
      rw [List.map_cons, entries?, ha, ih has hn]
      exact if_pos ⟨rfl, hk⟩

theorem exact_ofKeyed {as : List α} (hf : ∀ a ∈ as, (f a).Exact) : (ofKeyed key f as).Exact := by
  refine .object fun m hm => ?_
  obtain ⟨a, ha, rfl⟩ := List.mem_map.1 hm
  exact hf a ha

end Json

open Json

@[simp] theorem Span.ofJson?_toJson (s : Span) : ofJson? s.toJson = some s := rfl

@[simp] theorem Ident.ofJson?_toJson (i : Ident) : ofJson? i.toJson = some i := rfl

@[simp] theorem Documentation.ofJson?_toJson (c : Documentation) : ofJson? c.toJson = some c := rfl

@[simp] theorem ValueType.ofJson?_toJson (t : ValueType) : ofJson? t.toJson = some t := by
  cases t <;> rfl

@[simp] theorem toOption?_string (x : Option String) : toOption? toString? (.ofOption .string x) = some x :=
  toOption?_ofOption (f := .string) (fun _ => nofun) (fun _ => rfl) x

@[simp] theorem toOption?_documentation (x : Option Documentation) :
    toOption? Documentation.ofJson? (.ofOption Documentation.toJson x) = some x :=
  toOption?_ofOption (f := Documentation.toJson) (fun _ => nofun) Documentation.ofJson?_toJson x

@[simp] theorem Column.ofJson?_toJson (c : Column) : ofJson? c.toJson = some c := by
  simp [ofJson?, toJson, member?, List.lookup, toBool?]

theorem Model.ofJson?_toJson {m : Model} (h : (m.columns.map Column.key).Nodup) : ofJson? m.toJson = some m := by
  have hc := toKeyed?_ofKeyed (fun c _ => Column.ofJson?_toJson c) h
  simp [ofJson?, toJson, member?, List.lookup, hc]

/-! Spans are counted in whole numbers, so no double stands in the document of a schema. -/

theorem Span.exact_toJson (s : Span) : s.toJson.Exact := by
  simp [toJson, exact_object, Exact.int]

theorem Ident.exact_toJson (i : Ident) : i.toJson.Exact := by
  simp [toJson, exact_object, Exact.string, Span.exact_toJson]

theorem Documentation.exact_toJson (c : Documentation) : c.toJson.Exact := by
  simp [toJson, exact_object, Exact.string, Span.exact_toJson]

theorem Column.exact_toJson (c : Column) : c.toJson.Exact := by
  have hm := exact_ofOption Exact.string c.mappedName
  have hd := exact_ofOption Documentation.exact_toJson c.documentation
  simp [toJson, exact_object, Ident.exact_toJson, ValueType.toJson, Exact.string, Exact.bool, hm, hd, Span.exact_toJson]

theorem Model.exact_toJson (m : Model) : m.toJson.Exact := by
  have hc : (ofKeyed Column.key Column.toJson m.columns).Exact := exact_ofKeyed fun c _ => c.exact_toJson
  have ht := exact_ofOption Exact.string m.mappedTable
  have hd := exact_ofOption Documentation.exact_toJson m.documentation
  simp [toJson, exact_object, Ident.exact_toJson, hc, ht, hd, Span.exact_toJson]

namespace Schema

theorem ofJson?_toJson {s : Schema} (hs : s.IsPrintable) : ofJson? s.toJson = some s := by
  have hm := toKeyed?_ofKeyed (fun m hm => Model.ofJson?_toJson (hs.models m hm).distinct) hs.distinct
  simp [ofJson?, toJson, member?, List.lookup, hm]

theorem exact_toJson (s : Schema) : s.toJson.Exact := by
  have hm : (ofKeyed Model.key Model.toJson s.models).Exact := exact_ofKeyed fun m _ => m.exact_toJson
  simp [toJson, exact_object, hm]

/-- A schema that has been read is kept without loss in the text of its document. -/
theorem document_lossless {text : String} {s : Schema} (h : parse text = .ok s) :
    (Json.parse? s.toJson.text).bind ofJson? = some s := by
  rw [Json.parse?_text s.exact_toJson]
  exact ofJson?_toJson (isPrintable_of_parse h)

theorem document_lossless_escapes :
    ∃ s, parse "/// \"\\\u0001\nmodel A @map(\"\\\t\u00e9\")\x7bx Int?\x7d" = .ok s ∧
      (Json.parse? s.toJson.text).bind ofJson? = some s := by
  have h : parse "/// \"\\\u0001\nmodel A @map(\"\\\t\u00e9\")\x7bx Int?\x7d" = .ok ⟨[
      { name := ⟨"A", ⟨14, 15⟩⟩, mappedTable := some "\\\t\u00e9", documentation := some ⟨"\"\\\u0001", ⟨0, 8⟩⟩,
        span := ⟨8, 36⟩,
        columns := [{ name := ⟨"x", ⟨29, 30⟩⟩, type := .int, optional := true, span := ⟨29, 35⟩ }] }]⟩ := by
    rw [parse_eq]
    cbv
  exact ⟨_, h, document_lossless h⟩

end Schema

end PredicateSearch

import PredicateSearch.Json
import PredicateSearch.Schema

namespace PredicateSearch

namespace Json

def ofOption {α : Type} (f : α → Json) : Option α → Json
  | some a => f a
  | none => null

/-- Null stands for a value that is left out. -/
def toOption? {α : Type} (f : Json → Option α) : Json → Option (Option α)
  | null => some none
  | d => (f d).map some

def toString? : Json → Option String
  | string s => some s
  | _ => none

def toBool? : Json → Option Bool
  | bool b => some b
  | _ => none

def toNat? : Json → Option Nat
  | int (.ofNat n) => some n
  | _ => none

def members? : Json → Option (List (String × Json))
  | object members => some members
  | _ => none

/-- Each entry is kept under its own key. -/
def ofKeyed {α : Type} (key : α → String) (f : α → Json) (s : List α) : Json :=
  object (s.map fun a => (key a, f a))

/-- An entry under a key that is not its own is refused, and so is a key that comes twice. -/
def entries? {α : Type} (key : α → String) (f : Json → Option α) : List (String × Json) → Option (List α)
  | [] => some []
  | (k, d) :: s => do
    let a ← f d
    let as ← entries? key f s
    if key a = k ∧ k ∉ as.map key then some (a :: as) else none

def toKeyed? {α : Type} (key : α → String) (f : Json → Option α) (d : Json) : Option (List α) :=
  d.members?.bind (entries? key f)

end Json

namespace Span

def toJson (s : Span) : Json := .object [("start", .int s.start), ("end", .int s.stop)]

def ofJson? (d : Json) : Option Span := do
  let start ← (← d.member? "start").toNat?
  let stop ← (← d.member? "end").toNat?
  return { start, stop }

end Span

namespace Ident

def toJson (i : Ident) : Json := .object [("name", .string i.text), ("span", i.span.toJson)]

def ofJson? (d : Json) : Option Ident := do
  let text ← (← d.member? "name").toString?
  let span ← Span.ofJson? (← d.member? "span")
  return { text, span }

end Ident

namespace Documentation

def toJson (c : Documentation) : Json := .object [("text", .string c.text), ("span", c.span.toJson)]

def ofJson? (d : Json) : Option Documentation := do
  let text ← (← d.member? "text").toString?
  let span ← Span.ofJson? (← d.member? "span")
  return { text, span }

end Documentation

namespace ValueType

def toJson (t : ValueType) : Json := .string t.name

/-- The second spellings of a type are no JSON. -/
def ofJson? (d : Json) : Option ValueType := d.toString?.bind fun s => all.find? fun t => t.name = s

end ValueType

namespace Column

def toJson (c : Column) : Json := .object [
  ("name", c.name.toJson),
  ("value_type", c.type.toJson),
  ("optional", .bool c.optional),
  ("mapped_name", .ofOption .string c.mappedName),
  ("documentation", .ofOption Documentation.toJson c.documentation),
  ("span", c.span.toJson)]

def ofJson? (d : Json) : Option Column := do
  let name ← Ident.ofJson? (← d.member? "name")
  let type ← ValueType.ofJson? (← d.member? "value_type")
  let optional ← (← d.member? "optional").toBool?
  let mappedName ← Json.toOption? Json.toString? (← d.member? "mapped_name")
  let documentation ← Json.toOption? Documentation.ofJson? (← d.member? "documentation")
  let span ← Span.ofJson? (← d.member? "span")
  return { name, type, optional, mappedName, documentation, span }

end Column

namespace Model

def toJson (m : Model) : Json := .object [
  ("name", m.name.toJson),
  ("columns", .ofKeyed Column.key Column.toJson m.columns),
  ("mapped_table", .ofOption .string m.mappedTable),
  ("documentation", .ofOption Documentation.toJson m.documentation),
  ("span", m.span.toJson)]

def ofJson? (d : Json) : Option Model := do
  let name ← Ident.ofJson? (← d.member? "name")
  let columns ← Json.toKeyed? Column.key Column.ofJson? (← d.member? "columns")
  let mappedTable ← Json.toOption? Json.toString? (← d.member? "mapped_table")
  let documentation ← Json.toOption? Documentation.ofJson? (← d.member? "documentation")
  let span ← Span.ofJson? (← d.member? "span")
  return { name, columns, mappedTable, documentation, span }

end Model

namespace Schema

def toJson (s : Schema) : Json := .object [("models", .ofKeyed Model.key Model.toJson s.models)]

def ofJson? (d : Json) : Option Schema := do
  let models ← Json.toKeyed? Model.key Model.ofJson? (← d.member? "models")
  return { models }

end Schema

end PredicateSearch

import PredicateSearch.LoadError
import PredicateSearch.Settings
import PredicateSearch.Settings.Expansion
import PredicateSearch.Toml.Document

namespace PredicateSearch

open Toml

namespace Toml

namespace Item

def toString? : Item → Option String
  | string s => some s
  | _ => none

def toBool? : Item → Option Bool
  | boolean b => some b
  | _ => none

/-- What a list holds, written in brackets or as tables one after another. -/
def elements? : Item → Option (List Item)
  | array items => some items
  | tables ts => some (ts.map (table .header))
  | _ => none

def isEmpty : Item → Bool
  | table _ s => s.isEmpty
  | i => i.elements?.any List.isEmpty

/-- One of several words, alone or as the key of something empty. -/
def toWord? {α : Type} (ofWord? : String → Option α) : Item → Option α
  | string s => ofWord? s
  | table _ [(k, i)] => if i.isEmpty then ofWord? k else none
  | _ => none

/-- The fields of a section: a table of fields that are known, or a list in their order, whose
further values do not count. -/
def fields? (names : List String) : Item → Option Entries
  | table _ s => if s.all fun e => e.1 ∈ names then some s else none
  | i => i.elements?.map names.zip

/-- Here a list has to have all fields. -/
def allFields? (names : List String) (i : Item) : Option Entries :=
  if i.elements?.all fun items => names.length ≤ items.length then i.fields? names else none

end Item

namespace Entries

variable {α : Type}

/-- A field that is not there has its default, but one of the wrong kind is a fault. -/
def field (s : Entries) (name : String) (decode : Item → Option α) (default : α) : Option α :=
  match s.lookup name with
  | none => some default
  | some i => decode i

def field? (s : Entries) (name : String) (decode : Item → Option α) : Option (Option α) :=
  s.field name (fun i => (decode i).map some) none

end Entries

end Toml

namespace Provider

def ofWord? : String → Option Provider
  | "postgresql" | "postgres" => some postgresql
  | "mysql" | "mariadb" => some mysql
  | "sqlite" | "sqlite3" => some sqlite
  | _ => none

end Provider

namespace Combinator

def ofWord? : String → Option Combinator
  | "and" => some all
  | "or" => some any
  | _ => none

end Combinator

namespace DialectOverride

def ofItem? (i : Item) : Option DialectOverride := do
  let s ← i.allFields? ["provider"]
  let provider ← s.field? "provider" (Item.toWord? Provider.ofWord?)
  return { provider }

end DialectOverride

namespace SearchOverride

def ofItem? (i : Item) : Option SearchOverride := do
  let s ← i.allFields? ["combinator", "ignore_blank_strings"]
  let combinator ← s.field? "combinator" (Item.toWord? Combinator.ofWord?)
  let ignoreBlank ← s.field? "ignore_blank_strings" Item.toBool?
  return { combinator, ignoreBlank }

end SearchOverride

namespace DebugOverride

def ofItem? (i : Item) : Option DebugOverride := do
  let s ← i.allFields? ["log_predicates"]
  let logPredicates ← s.field? "log_predicates" Item.toBool?
  return { logPredicates }

end DebugOverride

namespace Override

def ofItem? (i : Item) : Option Override := do
  let s ← i.allFields? ["dialect", "search", "debug"]
  let dialect ← s.field? "dialect" DialectOverride.ofItem?
  let search ← s.field? "search" SearchOverride.ofItem?
  let debug ← s.field? "debug" DebugOverride.ofItem?
  return { dialect, search, debug }

end Override

namespace Settings

def providerOf? (i : Item) : Option Provider := do
  let s ← i.fields? ["provider"]
  s.field "provider" (Item.toWord? Provider.ofWord?) .postgresql

def schemaPathOf? (i : Item) : Option String := do
  let s ← i.fields? ["path"]
  s.field "path" Item.toString? "schema.sift"

def searchOf? (i : Item) : Option (Combinator × Bool) := do
  let s ← i.fields? ["combinator", "ignore_blank_strings"]
  let combinator ← s.field "combinator" (Item.toWord? Combinator.ofWord?) .all
  let ignoreBlank ← s.field "ignore_blank_strings" Item.toBool? true
  return (combinator, ignoreBlank)

def logPredicatesOf? (i : Item) : Option Bool := do
  let s ← i.fields? ["log_predicates"]
  s.field "log_predicates" Item.toBool? false

/-- A name that is there already is left as it is. -/
def insertSorted (name : String) (o : Override) : List (String × Override) → List (String × Override)
  | [] => [(name, o)]
  | e :: s =>
    if name < e.1 then (name, o) :: e :: s
    else if name = e.1 then e :: s
    else e :: insertSorted name o s

theorem mem_insertSorted {name : String} {o : Override} {s : List (String × Override)} {e : String × Override}
    (h : e ∈ insertSorted name o s) : e = (name, o) ∨ e ∈ s := by
  induction s with
  | nil => exact .inl (List.mem_singleton.1 h)
  | cons f s ih =>
      rw [insertSorted] at h
      split at h
      · exact List.mem_cons.1 h
      · split at h
        · exact .inr h
        · rcases List.mem_cons.1 h with rfl | h
          · exact .inr List.mem_cons_self
          · exact (ih h).imp_right (List.mem_cons_of_mem f)

theorem byName_insertSorted (name : String) (o : Override) {s : List (String × Override)} (h : ByName s) :
    ByName (insertSorted name o s) := by
  induction s with
  | nil => exact List.pairwise_singleton _ _
  | cons e s ih =>
      obtain ⟨he, hs⟩ := List.pairwise_cons.1 h
      rw [insertSorted]
      split
      · next hlt =>
          refine List.pairwise_cons.2 ⟨fun f hf => ?_, h⟩
          rcases List.mem_cons.1 hf with rfl | hf
          · exact hlt
          · exact String.lt_trans hlt (he f hf)
      · split
        · exact h
        · next hge hne =>
            have hlt : e.1 < name := by grind
            refine List.pairwise_cons.2 ⟨fun f hf => ?_, ih hs⟩
            rcases mem_insertSorted hf with rfl | hf
            · exact hlt
            · exact he f hf

def overrides? : Entries → Option { es : List (String × Override) // ByName es }
  | [] => some ⟨[], .nil⟩
  | (name, i) :: s => do
    let o ← Override.ofItem? i
    let ⟨es, h⟩ ← overrides? s
    return ⟨insertSorted name o es, byName_insertSorted name o h⟩

/-- The environments must be a table. -/
def environmentsOf? : Item → Option { es : List (String × Override) // ByName es }
  | .table _ s => overrides? s
  | _ => none

def sections : List String := ["dialect", "schema", "search", "debug", "environments"]

def ofEntries? (s : Entries) : Option Settings := do
  let s ← (Item.table .header s).fields? sections
  let provider ← s.field "dialect" providerOf? .postgresql
  let schemaPath ← s.field "schema" schemaPathOf? "schema.sift"
  let (combinator, ignoreBlank) ← s.field "search" searchOf? (.all, true)
  let logPredicates ← s.field "debug" logPredicatesOf? false
  let ⟨environments, byName⟩ ← s.field "environments" environmentsOf? ⟨[], .nil⟩
  return { provider, schemaPath, combinator, ignoreBlank, logPredicates, environments, byName }

/-- Variables are expanded in the whole text first, comments too. -/
def parse (env : Environment) (text : String) : Except LoadError Settings :=
  match (Toml.parse? (env.expand text)).bind ofEntries? with
  | some s => .ok s
  | none => .error .malformedSettings

end Settings

end PredicateSearch

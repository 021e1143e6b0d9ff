import PredicateSearch.Attribute
import PredicateSearch.Keyed
import PredicateSearch.Schema.Span

namespace PredicateSearch

structure Column where
  name : Ident
  type : ValueType
  optional : Bool := false
  mappedName : Option String := none
  documentation : Option Documentation := none
  span : Span := {}
  deriving DecidableEq, Repr

def Column.columnName (c : Column) : String := c.mappedName.getD c.name.text

def Column.key (c : Column) : String := c.name.text

structure Model where
  name : Ident
  columns : List Column := []
  mappedTable : Option String := none
  documentation : Option Documentation := none
  span : Span := {}
  deriving DecidableEq, Repr

namespace Model

def named (name : String) : Model where
  name := { text := name }

def key (m : Model) : String := m.name.text

def tableName (m : Model) : String := m.mappedTable.getD m.name.text

/-- A column added again takes the place of the first. -/
def addColumn (m : Model) (c : Column) : Model := { m with columns := Keyed.upsert Column.key c m.columns }

def withColumn (m : Model) (name : String) (type : ValueType) : Model :=
  m.addColumn { name := { text := name }, type, optional := true }

def withTable (m : Model) (table : String) : Model := { m with mappedTable := some table }

def withDocumentation (m : Model) (d : Documentation) : Model := { m with documentation := some d }

def getColumn? (m : Model) (name : String) : Option Column := Keyed.find? Column.key name m.columns

def hasColumn (m : Model) (name : String) : Bool := (m.getColumn? name).isSome

/-- Columns are found by the name they have in the schema, not by the one in the database. -/
def resolve (m : Model) : Resolver
  | [name] => (m.getColumn? name).map fun c => ⟨m.tableName, c.columnName, c.type⟩
  | _ => none

theorem resolve_eq_none {m : Model} {path : List String} (h : path.length ≠ 1) : m.resolve path = none := by
  match path, h with
  | [], _ | _ :: _ :: _, _ => rfl

end Model

end PredicateSearch

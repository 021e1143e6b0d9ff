import PredicateSearch.LoadError
import PredicateSearch.Schema.Model

namespace PredicateSearch

structure Schema where
  models : List Model := []
  deriving DecidableEq, Repr

namespace Schema

/-- A model added again takes the place of the first. -/
def addModel (s : Schema) (m : Model) : Schema := ⟨Keyed.upsert Model.key m s.models⟩

def getModel? (s : Schema) (name : String) : Option Model := Keyed.find? Model.key name s.models

def orUnknown (name : String) : Option Model → Except LoadError Model
  | some m => .ok m
  | none => .error (.unknownModel name)

def model (s : Schema) (name : String) : Except LoadError Model := orUnknown name (s.getModel? name)

/-- The first model that is kept in the table. -/
def table (s : Schema) (name : String) : Except LoadError Model :=
  orUnknown name (s.models.find? fun m => m.tableName = name)

def names (s : Schema) : List String := s.models.map Model.key

end Schema

end PredicateSearch

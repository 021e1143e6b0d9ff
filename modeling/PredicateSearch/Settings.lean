import PredicateSearch.Dialect
import PredicateSearch.Search.Options

namespace PredicateSearch

inductive Provider where
  | postgresql
  | mysql
  | sqlite
  deriving DecidableEq, Repr

namespace Provider

def name : Provider → String
  | postgresql => "postgresql"
  | mysql => "mysql"
  | sqlite => "sqlite"

def dialect : Provider → Dialect
  | postgresql => .postgres
  | mysql => .mysql
  | sqlite => .sqlite

end Provider

structure DialectOverride where
  provider : Option Provider := none
  deriving DecidableEq, Repr

structure SearchOverride where
  combinator : Option Combinator := none
  ignoreBlank : Option Bool := none
  deriving DecidableEq, Repr

structure DebugOverride where
  logPredicates : Option Bool := none
  deriving DecidableEq, Repr

/-- What an environment sets anew. A section may be there and set nothing. -/
structure Override where
  dialect : Option DialectOverride := none
  search : Option SearchOverride := none
  debug : Option DebugOverride := none
  deriving DecidableEq, Repr

namespace Override

def provider (o : Override) : Option Provider := o.dialect.bind DialectOverride.provider

def combinator (o : Override) : Option Combinator := o.search.bind SearchOverride.combinator

def ignoreBlank (o : Override) : Option Bool := o.search.bind SearchOverride.ignoreBlank

def logPredicates (o : Override) : Option Bool := o.debug.bind DebugOverride.logPredicates

end Override

/-- Overrides under different names, sorted by them. -/
def ByName (es : List (String × Override)) : Prop := es.Pairwise fun e f => e.1 < f.1
  deriving Decidable

theorem ByName.filter {es : List (String × Override)} (h : ByName es) (p : String × Override → Bool) :
    ByName (es.filter p) :=
  List.Pairwise.filter p h

@[ext]
structure Settings where
  provider : Provider := .postgresql
  schemaPath : String := "schema.sift"
  combinator : Combinator := .all
  ignoreBlank : Bool := true
  logPredicates : Bool := false
  environments : List (String × Override) := []
  byName : ByName environments := by decide
  deriving DecidableEq, Repr

namespace Settings

def override (s : Settings) (o : Override) : Settings where
  provider := o.provider.getD s.provider
  schemaPath := s.schemaPath
  combinator := o.combinator.getD s.combinator
  ignoreBlank := o.ignoreBlank.getD s.ignoreBlank
  logPredicates := o.logPredicates.getD s.logPredicates
  environments := s.environments
  byName := s.byName

/-- An environment can be applied once only. A name that is not there changes nothing. -/
def withEnvironment (s : Settings) (name : String) : Settings :=
  match s.environments.lookup name with
  | none => s
  | some o =>
    { s.override o with
      environments := s.environments.filter fun e => e.1 ≠ name
      byName := s.byName.filter _ }

def dialect (s : Settings) : Dialect := s.provider.dialect

def searchOptions (s : Settings) : Search.Options where
  combinator := s.combinator
  ignoreBlank := s.ignoreBlank
  logPredicates := s.logPredicates

end Settings

end PredicateSearch

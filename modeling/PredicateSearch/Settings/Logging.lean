import PredicateSearch.Settings.Expansion

namespace PredicateSearch

inductive LogLevel where
  | trace
  | debug
  | info
  | warn
  | error
  deriving DecidableEq, Repr

def LogLevel.name : LogLevel → String
  | trace => "trace"
  | debug => "debug"
  | info => "info"
  | warn => "warn"
  | error => "error"

inductive LogFormat where
  | json
  | pretty
  | compact
  deriving DecidableEq, Repr

def LogFormat.name : LogFormat → String
  | json => "json"
  | pretty => "pretty"
  | compact => "compact"

structure Logging where
  debug : Bool := false
  level : LogLevel := .warn
  format : LogFormat := .json
  deriving DecidableEq, Repr

namespace Logging

/-- Only ASCII letters matter: the Kelvin sign is the one other letter whose small form is in ASCII, and
no word has a k. -/
def lowercase (s : String) : List Char := s.toList.map Char.toLower

def isSet (word : String) : Bool := ["true".toList, "1".toList, "yes".toList].contains (lowercase word)

def levelOf? (word : String) : Option LogLevel :=
  [LogLevel.trace, .debug, .info, .warn, .error].find? fun l => lowercase word = l.name.toList

def formatOf? (word : String) : Option LogFormat :=
  [LogFormat.json, .pretty, .compact].find? fun f => lowercase word = f.name.toList

def ofEnvironment (env : Environment) : Logging :=
  let debug := (env "SIFT_DEBUG").any isSet
  { debug
    level := ((env "SIFT_LOG_LEVEL").bind levelOf?).getD (if debug then .debug else .warn)
    format := ((env "SIFT_LOG_FORMAT").bind formatOf?).getD .json }

end Logging

end PredicateSearch

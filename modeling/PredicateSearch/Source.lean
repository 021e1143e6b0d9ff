import PredicateSearch.Schema.Reading
import PredicateSearch.Settings.Reading

namespace PredicateSearch

structure Source where
  path : String
  bytes : Option ByteArray

namespace Source

/-- A file that is not UTF-8 is as unreadable as one that is missing. -/
def text (s : Source) : Except LoadError String :=
  match s.bytes.bind String.fromUTF8? with
  | some t => .ok t
  | none => .error (.unreadableFile s.path)

def schema (s : Source) : Except LoadError Schema := do
  let t ← s.text
  Schema.parse t

def settings (env : Environment) (s : Source) : Except LoadError Settings := do
  let t ← s.text
  Settings.parse env t

end Source

end PredicateSearch

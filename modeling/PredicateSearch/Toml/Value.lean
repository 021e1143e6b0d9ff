import PredicateSearch.Toml.Instant
import PredicateSearch.Toml.Number
import PredicateSearch.Toml.Table
import PredicateSearch.Toml.Text

namespace PredicateSearch.Toml

open Text Reader

def scalar : Reader Item :=
  ((fun s => .string (String.ofList s)) <$> string)
    <|> (literal ['t', 'r', 'u', 'e'] *> pure (.boolean true))
    <|> (literal ['f', 'a', 'l', 's', 'e'] *> pure (.boolean false))
    <|> ((fun s => .instant (String.ofList s)) <$> instant)
    <|> (.float <$> float)
    <|> (.integer <$> (based 'x' 16 <|> based 'o' 8 <|> based 'b' 2 <|> integer))

/-- Lines may break between the values, and the last one may have a comma. -/
def array (value : Reader Item) : Reader Item := do
  literal ['[']
  let items ← optional (sepBy1 (filler *> value <* filler) (literal [',']) <* optional (literal [',']))
  filler
  literal [']']
  return .array (items.getD [])

def keyValue (value : Reader Item) : Reader (List String × Item) := do
  let path ← key
  literal ['=']
  blanks
  let i ← value
  return (path, i)

def Entries.assignPath (path : List String) (i : Item) (o : Origin) (s : Entries) : Option Entries :=
  match path.getLast? with
  | some k => Entries.assign path.dropLast k i o s
  | none => none

def Entries.ofPairs : List (List String × Item) → Entries → Option Entries
  | [], s => some s
  | (path, i) :: pairs, s => (Entries.assignPath path i .braces s).bind (Entries.ofPairs pairs)

/-- All on one line, without a comma at the end. -/
def bracedTable (value : Reader Item) : Reader Item := do
  literal ['\x7b']
  let pairs ← sepBy (keyValue value <* blanks) (literal [','])
  blanks
  literal ['\x7d']
  let s ← ofOption (Entries.ofPairs pairs [])
  return .table .braces s

/-- Values are nested no deeper than the limit. -/
def value : Nat → Reader Item
  | 0 => scalar
  | limit + 1 => scalar <|> array (value limit) <|> bracedTable (value limit)

def nestingLimit : Nat := 79

end PredicateSearch.Toml

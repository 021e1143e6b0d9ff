import PredicateSearch.Toml.Item

namespace PredicateSearch.Toml

/-- What goes down into tables: a header or a dotted key. -/
inductive Descent where
  | header
  | dottedKey
  deriving DecidableEq, Repr

namespace Descent

def origin : Descent → Origin
  | header => .implied
  | dottedKey => .dotted

/-- A dotted key may not add to a table that has a header, and nothing may to one in braces. -/
def passes : Descent → Origin → Bool
  | _, .braces => false
  | header, _ => true
  | dottedKey, o => o ≠ .header

end Descent

namespace Entries

def replace (k : String) (i : Item) : Entries → Entries
  | [] => []
  | (l, j) :: s => if l = k then (k, i) :: s else (l, j) :: replace k i s

def alterLast (f : Entries → Option Entries) : List Entries → Option (List Entries)
  | [] => none
  | [t] => (f t).map ([·])
  | t :: u :: s => (alterLast f (u :: s)).map (t :: ·)

/-- Changes the table at the end of a path and makes those that are missing on the way. In an array of
tables the way goes on in the last one. -/
def alter (via : Descent) (f : Origin → Entries → Option Entries) :
    List String → Origin → Entries → Option Entries
  | [], o, s => f o s
  | k :: path, _, s =>
    match s.lookup k with
    | none => (alter via f path via.origin []).map fun t => s ++ [(k, .table via.origin t)]
    | some (.table o t) =>
      if via.passes o then (alter via f path o t).map fun u => replace k (.table o u) s else none
    | some (.tables ts) =>
      (alterLast (fun t => alter via f path .header t) ts).map fun us => replace k (.tables us) s
    | some _ => none

/-- Puts a value under a new key. The last table on a dotted way must itself come from dotted keys. -/
def assign (path : List String) (k : String) (i : Item) : Origin → Entries → Option Entries :=
  alter .dottedKey (fun o s =>
    if o ≠ .dotted ∧ path ≠ [] then none
    else if (s.lookup k).isSome then none
    else some (s ++ [(k, i)])) path

/-- A table gets one header at most, but others may have led to it before. -/
def openTable (path : List String) (k : String) : Entries → Option Entries :=
  alter .header (fun _ s =>
    match s.lookup k with
    | none => some (s ++ [(k, .table .header [])])
    | some (.table .implied t) => some (replace k (.table .header t) s)
    | some _ => none) path .header

def openElement (path : List String) (k : String) : Entries → Option Entries :=
  alter .header (fun _ s =>
    match s.lookup k with
    | none => some (s ++ [(k, .tables [[]])])
    | some (.tables ts) => some (replace k (.tables (ts ++ [[]])) s)
    | some _ => none) path .header

end Entries

end PredicateSearch.Toml

import PredicateSearch.Schema
import PredicateSearch.Schema.Grammar

namespace PredicateSearch

namespace Schema

def Mark.target (a : Mark) : Except LoadError String :=
  if a.name ∉ known then .error (.invalidMark a.name .unknown)
  else
    match a.argument with
    | none => .error (.invalidMark a.name .missingArgument)
    | some s => if s = "" then .error (.invalidMark a.name .missingArgument) else .ok s

/-- Of several marks the last one counts, but all are checked. -/
def mapping : List Mark → Except LoadError (Option String)
  | [] => .ok none
  | a :: s => do
    let t ← a.target
    let later ← mapping s
    return some (later.getD t)

end Schema

namespace Column

def typeOf (model : String) (d : Schema.ColumnDeclaration) : Except LoadError ValueType :=
  match ValueType.ofName? d.type with
  | some t => .ok t
  | none => .error (.unknownType model d.name.text d.type)

def ofDeclaration (model : String) (d : Schema.ColumnDeclaration) : Except LoadError Column := do
  let type ← typeOf model d
  let mappedName ← Schema.mapping d.marks
  return {
    name := d.name, type, optional := d.optional, mappedName, documentation := d.documentation,
    span := d.span }

end Column

namespace Model

/-- Adds the columns one by one, up to the first fault. -/
def addDeclarations (m : Model) : List Schema.ColumnDeclaration → Except LoadError Model
  | [] => .ok m
  | d :: s => do
    let c ← Column.ofDeclaration m.name.text d
    if m.hasColumn c.name.text then .error (.duplicateColumn m.name.text c.name.text)
    else addDeclarations (m.addColumn c) s

def ofDeclaration (d : Schema.ModelDeclaration) : Except LoadError Model := do
  let mappedTable ← Schema.mapping d.marks
  let m : Model := { name := d.name, mappedTable, documentation := d.documentation, span := d.span }
  m.addDeclarations d.columns

end Model

namespace Schema

def addDeclarations (s : Schema) : List ModelDeclaration → Except LoadError Schema
  | [] => .ok s
  | d :: ds => do
    let m ← Model.ofDeclaration d
    if (s.getModel? m.name.text).isSome then .error (.duplicateModel m.name.text)
    else addDeclarations (s.addModel m) ds

/-- The whole text is read before the first declaration is checked. -/
def parse (text : String) : Except LoadError Schema := do
  let ds ← declarations text.toList
  addDeclarations {} ds

end Schema

end PredicateSearch

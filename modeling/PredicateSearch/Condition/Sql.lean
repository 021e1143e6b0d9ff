import PredicateSearch.Condition
import PredicateSearch.Dialect

namespace PredicateSearch

open Decimal

def Literal.sql (d : Dialect) : Literal → String
  | bool b => d.boolText b
  | int n => String.ofList (intText n.toInt)
  | float x => String.ofList (floatText x)
  | text s => d.quoteString s

def Argument.sql (d : Dialect) : Argument → String
  | toggle b => d.boolText b
  | pattern p => d.quoteString p
  | literal l => l.sql d
  | literals ls => ", ".intercalate (ls.map (Literal.sql d))

namespace Predicate

def patternSql (d : Dialect) (positive : Bool) (subject pattern : String) : String :=
  let negation := if positive then "" else "NOT "
  let test :=
    match d.caseMatching with
    | .native => subject ++ " " ++ negation ++ "ILIKE " ++ pattern
    | .fold => "LOWER(" ++ subject ++ ") " ++ negation ++ "LIKE LOWER(" ++ pattern ++ ")"
    | .plain => subject ++ " " ++ negation ++ "LIKE " ++ pattern
  if d.escapeClause then test ++ " ESCAPE " ++ d.quoteString "\\" else test

def equalitySign (positive : Bool) : String := if positive then "=" else "!="

/-- Only texts are matched against a pattern: other columns are cast. -/
def sql (d : Dialect) (p : Predicate) : String :=
  let subject := d.qualify p.column.table p.column.column
  match p.operator with
  | .equality _ => subject ++ " " ++ equalitySign p.isPositive ++ " " ++ p.argument.sql d
  | .nullCheck _ => subject ++ if p.isPositive then " IS NULL" else " IS NOT NULL"
  | .truth target _ => subject ++ " " ++ equalitySign p.isPositive ++ " " ++ d.boolText target
  | .presence _ =>
    if p.isPositive then "(" ++ subject ++ " IS NOT NULL AND " ++ subject ++ " != '')"
    else "(" ++ subject ++ " IS NULL OR " ++ subject ++ " = '')"
  | .pattern _ _ =>
    let subject := if p.column.type.isStringLike then subject else d.castToText subject
    patternSql d p.isPositive subject (p.argument.sql d)
  | .comparison c => subject ++ " " ++ c.symbol ++ " " ++ p.argument.sql d
  | .membership _ =>
    subject ++ (if p.isPositive then " IN (" else " NOT IN (") ++ p.argument.sql d ++ ")"

end Predicate

def Condition.sql (d : Dialect) : Condition → String
  | empty => ""
  | predicate p => p.sql d

end PredicateSearch

namespace PredicateSearch

inductive MarkFault where
  | unknown
  | missingArgument
  deriving DecidableEq, Repr

inductive LoadError where
  | unreadableFile (path : String)
  | malformedText (offset : Nat)
  | duplicateModel (name : String)
  | duplicateColumn (model column : String)
  | unknownType (model column type : String)
  | invalidMark (name : String) (fault : MarkFault)
  | unknownModel (name : String)
  | malformedSettings
  deriving DecidableEq, Repr

def MarkFault.message : MarkFault → String
  | unknown => "unknown attribute"
  | missingArgument => "expected a non-empty string argument"

namespace LoadError

def message : LoadError → String
  | unreadableFile path => "failed to read file: " ++ path
  | malformedText _ => "syntax error in schema"
  | duplicateModel name => "duplicate model `" ++ name ++ "`"
  | duplicateColumn model column => "duplicate column `" ++ model ++ "." ++ column ++ "`"
  | unknownType model column type => "unknown type `" ++ type ++ "` in `" ++ model ++ "." ++ column ++ "`"
  | invalidMark name fault => "invalid attribute `@" ++ name ++ "`: " ++ fault.message
  | unknownModel name => "unknown model `" ++ name ++ "`"
  | malformedSettings => "failed to parse TOML"

def diagnostic : LoadError → String
  | unreadableFile _ => "sift::schema::io_error"
  | malformedText _ => "sift::schema::syntax_error"
  | duplicateModel _ | duplicateColumn _ _ => "sift::schema::duplicate"
  | unknownType _ _ _ => "sift::schema::unknown_type"
  | invalidMark _ _ => "sift::schema::invalid_attribute"
  | unknownModel _ => "sift::schema::unknown_model"
  | malformedSettings => "sift::schema::toml_error"

def help? : LoadError → Option String
  | unknownType _ _ _ =>
    some ("supported types: Boolean, String, Text, Int, BigInt, Float, Decimal, Date, DateTime, Time, " ++
      "Uuid, Json, Bytes")
  | _ => none

end LoadError

end PredicateSearch

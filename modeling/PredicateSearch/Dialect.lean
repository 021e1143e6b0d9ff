namespace PredicateSearch

inductive QuoteStyle where
  | double
  | backtick
  | bracket
  deriving DecidableEq, Repr

namespace QuoteStyle

def opening : QuoteStyle → Char
  | double => '"'
  | backtick => '\x60'
  | bracket => '['

def closing : QuoteStyle → Char
  | double => '"'
  | backtick => '\x60'
  | bracket => ']'

end QuoteStyle

/-- How a pattern is matched without regard to case: with an operator of its own, by folding both
sides, or by a comparison that does so anyway. -/
inductive CaseMatching where
  | native
  | fold
  | plain
  deriving DecidableEq, Repr

/-- The spellings in which SQL backends differ. -/
structure Dialect where
  name : String
  quoteStyle : QuoteStyle := .double
  trueText : String := "TRUE"
  falseText : String := "FALSE"
  caseMatching : CaseMatching := .plain
  backslashEscapes : Bool := false
  escapeClause : Bool := true
  textType : String := "TEXT"
  deriving DecidableEq, Repr

namespace Dialect

def postgres : Dialect where
  name := "postgresql"
  caseMatching := .native
  escapeClause := false

def mysql : Dialect where
  name := "mysql"
  quoteStyle := .backtick
  backslashEscapes := true
  escapeClause := false
  textType := "CHAR"

def sqlite : Dialect where
  name := "sqlite"
  trueText := "1"
  falseText := "0"

def builtIn : List Dialect := [postgres, mysql, sqlite]

def double (q : Char) : List Char → List Char
  | [] => []
  | c :: s => if c = q then c :: c :: double q s else c :: double q s

def quoteIdentifierChars (d : Dialect) (s : List Char) : List Char :=
  d.quoteStyle.opening :: double d.quoteStyle.closing s ++ [d.quoteStyle.closing]

def quoteIdentifier (d : Dialect) (s : String) : String :=
  String.ofList (d.quoteIdentifierChars s.toList)

def qualify (d : Dialect) (table column : String) : String :=
  d.quoteIdentifier table ++ "." ++ d.quoteIdentifier column

/-- A quote is written twice, and so is a backslash where it would escape. -/
def quoteChars (backslash : Bool) (s : List Char) : List Char :=
  let s := double '\'' s
  '\'' :: (if backslash then double '\\' s else s) ++ ['\'']

def quoteString (d : Dialect) (s : String) : String :=
  String.ofList (quoteChars d.backslashEscapes s.toList)

def castToText (d : Dialect) (expression : String) : String :=
  "CAST(" ++ expression ++ " AS " ++ d.textType ++ ")"

def boolText (d : Dialect) (b : Bool) : String := if b then d.trueText else d.falseText

end Dialect

end PredicateSearch

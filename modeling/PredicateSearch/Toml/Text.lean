import PredicateSearch.Text.Reader

namespace PredicateSearch.Toml

open Text Reader

def isBlank (c : Char) : Bool := c = ' ' || c = '\t'

/-- Not a control, the tab apart. -/
def isPlain (c : Char) : Bool := c = '\t' || (0x20 ≤ c.toNat && c.toNat ≠ 0x7F)

def blanks : Reader Unit := do let _ ← run isBlank

/-- A carriage return ends a line only together with a line feed. -/
def newline : Reader Unit := literal ['\n'] <|> literal ['\r', '\n']

def comment : Reader Unit := do
  literal ['#']
  let _ ← run isPlain

/-- What may stand between the parts of an array. -/
def filler : Reader Unit := do
  blanks
  let _ ← many (optional comment *> newline *> blanks)

def unicodeEscape (digits : Nat) : Reader Char := do
  let ds ← times (char isHexDigit) digits
  ofOption (charOfNat? (ofHexDigits 16 ds))

def escapeLetter? : Char → Option Char
  | 'b' => some '\x08'
  | 't' => some '\t'
  | 'n' => some '\n'
  | 'f' => some '\x0c'
  | 'r' => some '\r'
  | '"' => some '"'
  | '\\' => some '\\'
  | _ => none

def escape : Reader Char := do
  literal ['\\']
  let e ← char fun _ => true
  if e = 'u' then unicodeEscape 4
  else if e = 'U' then unicodeEscape 8
  else ofOption (escapeLetter? e)

def basicChar : Reader Char := char (fun c => isPlain c && c ≠ '"' && c ≠ '\\') <|> escape

def basicString : Reader (List Char) := do
  literal ['"']
  let s ← many basicChar
  literal ['"']
  return s

def literalString : Reader (List Char) := do
  literal ['\'']
  let s ← run fun c => isPlain c && c ≠ '\''
  literal ['\'']
  return s

/-- A backslash at the end of a line takes away the break and all blanks and breaks after it. -/
def lineContinuation : Reader Unit := do
  literal ['\\']
  blanks
  newline
  let _ ← many (newline <|> (do let _ ← char isBlank))

def lineFeed : Reader (List Char) := do
  newline
  return ['\n']

/-- One or two quotes that no third one follows. -/
def fewQuotes (q : Char) : Reader (List Char) := do
  let s ← run1 (· = q)
  if s.length < 3 then return s else failure

/-- Up to two quotes may stand in front of the three that close the string. -/
def closingQuotes (q : Char) : Reader (List Char) := do
  let s ← run1 (· = q)
  if 3 ≤ s.length ∧ s.length ≤ 5 then return s.drop 3 else failure

/-- A break right after the opening quotes does not count. -/
def longString (q : Char) (part : Reader (List Char)) : Reader (List Char) := do
  literal [q, q, q]
  let _ ← optional newline
  let parts ← many (part <|> fewQuotes q)
  let quotes ← closingQuotes q
  return parts.flatten ++ quotes

def longBasicString : Reader (List Char) :=
  longString '"' ((([·]) <$> basicChar) <|> lineFeed <|> (do lineContinuation; return []))

def longLiteralString : Reader (List Char) :=
  longString '\'' (run1 (fun c => isPlain c && c ≠ '\'') <|> lineFeed)

def string : Reader (List Char) :=
  longBasicString <|> basicString <|> longLiteralString <|> literalString

def bareKey : Reader (List Char) := run1 fun c => c.isAlphanum || c = '-' || c = '_'

def simpleKey : Reader String := String.ofList <$> (basicString <|> literalString <|> bareKey)

def keyLimit : Nat := 80

def key : Reader (List String) := do
  let names ← sepBy1 (blanks *> simpleKey <* blanks) (literal ['.'])
  if names.length < keyLimit then return names else failure

end PredicateSearch.Toml

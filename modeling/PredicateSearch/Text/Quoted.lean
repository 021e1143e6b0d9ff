import PredicateSearch.Text.Hidden

namespace PredicateSearch.Text

def hexDigits (n : Nat) : List Char := Nat.toDigits 16 n

/-- How a character stands inside a quoted text: controls with a letter of their own by that letter,
other hidden characters by their code point, the rest as they are. -/
def quotedChar (c : Char) : List Char :=
  match c with
  | '\x00' => ['\\', '0']
  | '\t' => ['\\', 't']
  | '\r' => ['\\', 'r']
  | '\n' => ['\\', 'n']
  | '\\' => ['\\', '\\']
  | '"' => ['\\', '"']
  | c => if isHidden c then ['\\', 'u', '\x7b'] ++ hexDigits c.toNat ++ ['\x7d'] else [c]

def quoted (s : List Char) : List Char := '"' :: s.flatMap quotedChar ++ ['"']

end PredicateSearch.Text

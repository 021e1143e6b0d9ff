namespace PredicateSearch.Text

/-- Reads from the front of a text and gives back the rest. -/
abbrev Reader (α : Type) := StateT (List Char) Option α

namespace Reader

variable {α β : Type}

def char (p : Char → Bool) : Reader Char
  | [] => none
  | c :: s => if p c then some (c, s) else none

def literal (s : List Char) : Reader Unit := fun t => (s.isPrefixOf? t).map fun u => ((), u)

def run (p : Char → Bool) : Reader (List Char) := fun s => some (s.takeWhile p, s.dropWhile p)

def run1 (p : Char → Bool) : Reader (List Char) := do
  let c ← char p
  let s ← run p
  return c :: s

def peek : Reader (Option Char) := fun s => some (s.head?, s)

def finish : Reader Unit := fun s => if s = [] then some ((), []) else none

def ofOption : Option α → Reader α
  | some a => pure a
  | none => failure

/-- Repeats for as long as something is read, but so many times at most. -/
def upTo (r : Reader α) : Nat → Reader (List α)
  | 0 => pure []
  | n + 1 => (do
    let a ← r
    let as ← upTo r n
    return a :: as) <|> pure []

/-- No text holds more things to read than characters. -/
def many (r : Reader α) : Reader (List α) := fun s => upTo r s.length s

def sepBy1UpTo (n : Nat) (r : Reader α) (separator : Reader β) : Reader (List α) := do
  let a ← r
  let as ← upTo (separator *> r) n
  return a :: as

def sepByUpTo (n : Nat) (r : Reader α) (separator : Reader β) : Reader (List α) :=
  sepBy1UpTo n r separator <|> pure []

def sepBy1 (r : Reader α) (separator : Reader β) : Reader (List α) := fun s =>
  sepBy1UpTo s.length r separator s

def sepBy (r : Reader α) (separator : Reader β) : Reader (List α) := sepBy1 r separator <|> pure []

def times (r : Reader α) : Nat → Reader (List α)
  | 0 => pure []
  | n + 1 => do
    let a ← r
    let as ← times r n
    return a :: as

def all? (r : Reader α) (s : List Char) : Option α :=
  match r s with
  | some (a, []) => some a
  | _ => none

end Reader

def hexValue? (c : Char) : Option Nat :=
  if c.isDigit then some (c.toNat - '0'.toNat)
  else if 'a' ≤ c ∧ c ≤ 'f' then some (c.toNat - 'a'.toNat + 10)
  else if 'A' ≤ c ∧ c ≤ 'F' then some (c.toNat - 'A'.toNat + 10)
  else none

def isHexDigit (c : Char) : Bool := (hexValue? c).isSome

/-- Digits of any base up to sixteen. -/
def ofHexDigits (base : Nat) (s : List Char) : Nat :=
  s.foldl (fun n c => base * n + (hexValue? c).getD 0) 0

/-- Surrogates and numbers beyond the last code point stand for no character. -/
def charOfNat? (n : Nat) : Option Char := if n.isValidChar then some (Char.ofNat n) else none

end PredicateSearch.Text

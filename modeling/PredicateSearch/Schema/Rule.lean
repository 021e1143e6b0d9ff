import PredicateSearch.Schema.Span

namespace PredicateSearch.Schema

def byteLength (s : List Char) : Nat := s.foldl (fun n c => n + c.utf8Size) 0

/-- What is left of a text, and how many bytes went before. -/
structure Cursor where
  rest : List Char
  offset : Nat
  deriving DecidableEq, Repr

/-- The outcome of a rule: what it read, if it applied, and the furthest place where a rule that
counts was tried in vain on the way, even if the fault was made good later. -/
structure Attempt (α : Type) where
  reach : Nat
  reading : Option (α × Cursor)

def Rule (α : Type) := Cursor → Attempt α

namespace Rule

variable {α β : Type}

protected def pure (a : α) : Rule α := fun c => ⟨0, some (a, c)⟩

protected def bind (r : Rule α) (f : α → Rule β) : Rule β := fun c =>
  match r c with
  | ⟨n, none⟩ => ⟨n, none⟩
  | ⟨n, some (a, d)⟩ =>
    let t := f a d
    ⟨max n t.reach, t.reading⟩

instance : Monad Rule where
  pure := Rule.pure
  bind := Rule.bind

def literal (s : List Char) : Rule Unit := fun c =>
  match s.isPrefixOf? c.rest with
  | some rest => ⟨0, some ((), ⟨rest, c.offset + byteLength s⟩)⟩
  | none => ⟨0, none⟩

def char (p : Char → Bool) : Rule Char := fun c =>
  match c.rest with
  | a :: rest => if p a then ⟨0, some (a, ⟨rest, c.offset + a.utf8Size⟩)⟩ else ⟨0, none⟩
  | [] => ⟨0, none⟩

def run (p : Char → Bool) : Rule (List Char) := fun c =>
  let s := c.rest.takeWhile p
  ⟨0, some (s, ⟨c.rest.dropWhile p, c.offset + byteLength s⟩)⟩

def finish : Rule Unit := fun c => if c.rest = [] then ⟨0, some ((), c)⟩ else ⟨0, none⟩

def optional (r : Rule α) : Rule (Option α) := fun c =>
  match r c with
  | ⟨n, none⟩ => ⟨n, some (none, c)⟩
  | ⟨n, some (a, d)⟩ => ⟨n, some (some a, d)⟩

/-- Counts for the place of a syntax error. -/
def counted (r : Rule α) : Rule α := fun c =>
  match r c with
  | ⟨n, none⟩ => ⟨max n c.offset, none⟩
  | t => t

def spanned (r : Rule α) : Rule (α × Span) := fun c =>
  match r c with
  | ⟨n, none⟩ => ⟨n, none⟩
  | ⟨n, some (a, d)⟩ => ⟨n, some ((a, ⟨c.offset, d.offset⟩), d)⟩

end Rule

def isSpace (c : Char) : Bool := c = ' ' || c = '\t' || c = '\n' || c = '\r'

def isNewline (c : Char) : Bool := c = '\n' || c = '\r'

/-- Passes over white space and comments. A comment runs from two slashes, which no third one follows,
to the end of the line. -/
def skip (commented : Bool) (n : Nat) : List Char → Cursor
  | [] => ⟨[], n⟩
  | c :: s =>
    if commented then skip (!isNewline c) (n + c.utf8Size) s
    else if isSpace c then skip false (n + c.utf8Size) s
    else
      match c, s with
      | '/', '/' :: t => if t.head? = some '/' then ⟨'/' :: '/' :: t, n⟩ else skip true (n + 2) t
      | _, _ => ⟨c :: s, n⟩

namespace Rule

variable {α : Type}

def gap : Rule Unit := fun c => ⟨0, some ((), skip false c.offset c.rest)⟩

/-- Repetitions with a gap in front of each. The gap in front of one that fails is left unread. -/
def more (r : Rule α) (c : Cursor) : Attempt (List α) :=
  match (gap >>= fun _ => r) c with
  | ⟨n, none⟩ => ⟨n, some ([], c)⟩
  | ⟨n, some (a, d)⟩ =>
    if d.rest.length < c.rest.length then
      let t := more r d
      ⟨max n t.reach, t.reading.map fun (s, e) => (a :: s, e)⟩
    else ⟨n, some ([], c)⟩
termination_by c.rest.length

def many (r : Rule α) : Rule (List α) := do
  match ← optional r with
  | none => return []
  | some a =>
    let s ← more r
    return a :: s

/-- The gap after the first belongs to the reading even if nothing follows it. -/
def many1 (r : Rule α) : Rule (List α) := do
  let a ← r
  gap
  let s ← many r
  return a :: s

end Rule

end PredicateSearch.Schema

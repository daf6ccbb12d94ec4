import SchemaAudit.Pattern.Refusal
import SchemaAudit.Pattern.Syntax

/-! # Reading the text of a pattern

The text is read by tokens: single characters, and escapes of a backslash with the character
behind it. A backslash that ends the text is refused as soon as the token before it has been
read.
-/

namespace SchemaAudit

namespace Pattern

inductive Token where
  | plain (c : Char)
  | escape (c : Char)
  /-- A backslash at the end of the text. -/
  | dangling
  deriving DecidableEq, Repr

namespace Token

def chars : Token → List Char
  | plain c => [c]
  | escape c => ['\\', c]
  | dangling => ['\\']

def text (t : Token) : String := String.ofList t.chars

def size (t : Token) : Nat := t.chars.length

def ofChars : List Char → List Token
  | [] => []
  | ['\\'] => [dangling]
  | '\\' :: c :: rest => escape c :: ofChars rest
  | c :: rest => plain c :: ofChars rest

end Token

/-- What is known while a pattern is read. -/
structure Reader where
  rest : List Token
  /-- The position of the rest in the text. -/
  position : Nat
  /-- The mode that holds where no group says otherwise. -/
  mode : Mode
  /-- The flags that have been set for the whole pattern. -/
  flags : List Char
  /-- The widths of the groups so far, `none` for a group that is still open. -/
  groups : List (Option Width)
  names : List (String × Nat)
  /-- The number of groups before the outermost look-behind that is being read. -/
  lookBehindFrom : Option Nat
  /-- Groups that conditions ask for by number, with the place where each is first asked for. -/
  conditions : List (Nat × Nat)

abbrev Reading := StateT Reader (Except Refusal)

namespace Reading

/-- Refuse the pattern for something `back` characters before the present position. -/
def refuse {α : Type} (cause : Cause) (back : Nat) : Reading α := do
  throw (.malformed cause (some ((← get).position - back)))

def position : Reading Nat := do return (← get).position

/-- The token ahead. -/
def peek : Reading (Option Token) := do return (← get).rest.head?

/-- Read the token ahead, if there is one. -/
def take : Reading (Option Token) := do
  let r ← get
  match r.rest with
  | [] => return none
  | t :: rest =>
    let position := r.position + t.size
    if rest.head? = some .dangling then
      throw (.malformed .danglingEscape (some position))
    set { r with rest, position }
    return some t

/-- Read a character if it is the one ahead. -/
def skip (c : Char) : Reading Bool := do
  if (← peek) = some (.plain c) then
    let _ ← take
    return true
  else return false

/-- Read characters of a class, `count` at most. -/
def takeWhile (inClass : Char → Bool) : Nat → Reading (List Char)
  | 0 => return []
  | count + 1 => do
    match ← peek with
    | some (.plain c) =>
      if inClass c then
        let _ ← take
        return c :: (← takeWhile inClass count)
      else return []
    | _ => return []

/-- Read a nonempty text up to a terminator, which is read too. `what` says what it is for, and
    `read` is what has been read of it. -/
def takeUntil (terminator : Char) (what : String) : Nat → List Char → Reading String
  | 0, read => return String.ofList read
  | fuel + 1, read => do
    match ← take with
    | none =>
      if read.isEmpty then refuse (.missingName what) 0
      else refuse (.unterminatedName terminator) read.length
    | some t =>
      if t = .plain terminator then
        if read.isEmpty then refuse (.missingName what) 1
        else return String.ofList read
      else takeUntil terminator what fuel (read ++ t.chars)

def takeName (terminator : Char) (what : String) : Reading String := do
  takeUntil terminator what ((← get).rest.length + 1) []

end Reading

end Pattern

end SchemaAudit

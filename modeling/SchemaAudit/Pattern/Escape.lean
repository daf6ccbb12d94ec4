import SchemaAudit.Pattern.Source
import SchemaAudit.Text.Numeral

/-! # Escapes in patterns

A backslash gives a letter or digit a meaning of its own, and takes the meaning from a mark. No
character is known by its name: `\N` with a name in braces is refused whatever the name is.
-/

namespace SchemaAudit

namespace Pattern

/-- The controls that have an escape of one letter. -/
def controlCode? : Char → Option Nat
  | 'a' => some 7
  | 'f' => some 12
  | 'n' => some 10
  | 'r' => some 13
  | 't' => some 9
  | 'v' => some 11
  | '\\' => some 0x5c
  | _ => none

def category? : Char → Option SetItem
  | 'd' => some (.category .digit false)
  | 'D' => some (.category .digit true)
  | 's' => some (.category .space false)
  | 'S' => some (.category .space true)
  | 'w' => some (.category .word false)
  | 'W' => some (.category .word true)
  | _ => none

def anchor? : Char → Option Anchor
  | 'A' => some .textStart
  | 'Z' => some .textEnd
  | 'b' => some .wordBoundary
  | 'B' => some .noWordBoundary
  | _ => none

/-- An escape as it is shown, with the digits that were read for it. -/
def escapeText (c : Char) (digits : List Char) : String := String.ofList ('\\' :: c :: digits)

/-- The code point that an escape gives by exactly `count` hexadecimal digits. -/
def hexEscape (c : Char) (count : Nat) : Reading Nat := do
  let digits ← Reading.takeWhile Text.isHexDigit count
  if digits.length ≠ count then
    Reading.refuse (.incompleteEscape (escapeText c digits)) (digits.length + 2)
  else
    let code := Text.radixValue 16 digits
    if code < 0x110000 then return code
    else Reading.refuse (.badEscape (escapeText c digits)) (digits.length + 2)

/-- An escape by the name of a character. No names are known. -/
def namedEscape : Reading Nat := do
  if !(← Reading.skip '\x7b') then Reading.refuse .missingBrace 0
  else
    let name ← Reading.takeName '\x7d' "character name"
    Reading.refuse (.undefinedCharacterName name) (name.length + 4)

def octalCode (digits : List Char) : Reading Nat := do
  let code := Text.radixValue 8 digits
  if 0o377 < code then
    Reading.refuse (.octalTooLarge (String.ofList ('\\' :: digits))) (digits.length + 1)
  else return code

/-- The escapes that stand for one character wherever they are, digits apart. -/
def charEscape (c : Char) : Reading Nat := do
  match controlCode? c with
  | some code => return code
  | none =>
    if c = 'x' then hexEscape c 2
    else if c = 'u' then hexEscape c 4
    else if c = 'U' then hexEscape c 8
    else if c = 'N' then namedEscape
    else if c.isAlphanum then Reading.refuse (.badEscape (escapeText c [])) 2
    else return c.toNat

def setEscape (c : Char) : Reading SetItem := do
  if c = 'b' then return .code 8
  else
    match category? c with
    | some item => return item
    | none =>
      if Text.isOctalDigit c then
        let digits ← Reading.takeWhile Text.isOctalDigit 2
        return .code (← octalCode (c :: digits))
      else return .code (← charEscape c)

/-- Whether what a group matched may be looked at again here: it has to be closed, and not to
    belong to a look-behind that is being read. -/
def checkLookBehind (index : Nat) : Reading Unit := do
  let r ← get
  match r.lookBehindFrom with
  | none => return ()
  | some start =>
    if ((r.groups[index - 1]?).getD none).isNone then Reading.refuse .openGroup 0
    else if start < index then Reading.refuse .groupOfSameLookBehind 0
    else return ()

/-- A look back at a group, which has to be closed. The name or number of the group is `back`
    characters behind the present position. -/
def backreference (mode : Mode) (index back : Nat) : Reading Expr := do
  match ((← get).groups[index - 1]?).getD none with
  | none => Reading.refuse .openGroup back
  | some width =>
    checkLookBehind index
    return .backreference mode index width

def numberedReference (mode : Mode) (digits : List Char) : Reading Expr := do
  let index := Text.radixValue 10 digits
  if index ≤ (← get).groups.length then backreference mode index (digits.length + 1)
  else Reading.refuse (.invalidGroupReference index) digits.length

/-- An escape that starts with a digit: a character by three octal digits or by a leading zero,
    otherwise the number of a group. -/
def digitEscape (mode : Mode) (c : Char) : Reading Expr := do
  let single (code : Nat) : Expr := .char mode (.oneOf false [.code code])
  if c = '0' then
    return single (Text.radixValue 8 (← Reading.takeWhile Text.isOctalDigit 2))
  else
    match ← Reading.takeWhile Char.isDigit 1 with
    | [] => numberedReference mode [c]
    | d :: _ =>
      if Text.isOctalDigit c && Text.isOctalDigit d then
        match ← Reading.takeWhile Text.isOctalDigit 1 with
        | [] => numberedReference mode [c, d]
        | e :: _ => return single (← octalCode [c, d, e])
      else numberedReference mode [c, d]

def escape (mode : Mode) (c : Char) : Reading Expr := do
  match anchor? c, category? c with
  | some a, _ => return .anchor mode a
  | none, some item => return .char mode (.oneOf false [item])
  | none, none =>
    if c.isDigit then digitEscape mode c
    else return .char mode (.oneOf false [.code (← charEscape c)])

end Pattern

end SchemaAudit

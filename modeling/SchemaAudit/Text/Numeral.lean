import SchemaAudit.Text.Characters

/-! # Digits and numerals

ASCII digits and letters are digits of numbers in base two up to sixteen. A numeral has white space
around it, one sign, and decimal digits of any script with single underscores between them.
-/

namespace SchemaAudit

namespace Text

/-! ## Digits in a base -/

def hexValue? (c : Char) : Option Nat :=
  if c.isDigit then some (c.toNat - 0x30)
  else if 'a' ≤ c && c ≤ 'f' then some (c.toNat - 0x61 + 10)
  else if 'A' ≤ c && c ≤ 'F' then some (c.toNat - 0x41 + 10)
  else none

def isHexDigit (c : Char) : Bool := (hexValue? c).isSome

def isOctalDigit (c : Char) : Bool := '0' ≤ c && c ≤ '7'

/-- The number that digits denote in a base. -/
def radixValue (base : Nat) (digits : List Char) : Nat :=
  digits.foldl (fun n c => base * n + (hexValue? c).getD 0) 0

/-- The number that a nonempty row of decimal digits denotes. -/
def decimal? (digits : List Char) : Option Nat :=
  if digits.isEmpty || !digits.all Char.isDigit then none else some (radixValue 10 digits)

/-! ## Reading whole numbers -/

/-- White space that may surround a numeral: ASCII layout, and any white space beyond ASCII. -/
def surroundsNumeral (c : Char) : Bool :=
  isAsciiBlank c || (0x80 ≤ c.toNat && isBlank c)

def trimmed (text : List Char) : List Char :=
  ((text.dropWhile surroundsNumeral).reverse.dropWhile surroundsNumeral).reverse

/-- The value of digits with single underscores between them, read behind the value so far. -/
def digitsFrom (value : Nat) : List Char → Option Nat
  | [] => some value
  | '_' :: c :: rest => (digitValue? c).bind fun d => digitsFrom (10 * value + d) rest
  | c :: rest => (digitValue? c).bind fun d => digitsFrom (10 * value + d) rest

/-- The value of a nonempty row of digits. -/
def natural? : List Char → Option Nat
  | [] => none
  | c :: rest => (digitValue? c).bind fun d => digitsFrom d rest

def integer? (text : String) : Option Int :=
  match trimmed text.toList with
  | '-' :: digits => (natural? digits).map fun n => -(n : Int)
  | '+' :: digits => (natural? digits).map fun n => (n : Int)
  | digits => (natural? digits).map fun n => (n : Int)

end Text

end SchemaAudit

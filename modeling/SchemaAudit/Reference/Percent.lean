import SchemaAudit.Text.Numeral

/-! # Percent escapes

In a reference, a percent sign and two hexadecimal digits stand for an octet. The octets that a
row of ASCII characters gives are read as UTF-8; what is no UTF-8 is read as the replacement
character, one for the longest start of a sequence that could have been one.
-/

namespace SchemaAudit

namespace Percent

/-- The octets of a row of ASCII characters. A percent sign without two digits is itself. -/
def octets : List Char → List Nat
  | '%' :: a :: b :: rest =>
    match Text.hexValue? a, Text.hexValue? b with
    | some high, some low => (16 * high + low) :: octets rest
    | _, _ => 0x25 :: octets (a :: b :: rest)
  | c :: rest => c.toNat :: octets rest
  | [] => []

/-- What the first octet of a sequence says: the bits it gives, and the range of each octet that
    has to follow. -/
def lead? (b : Nat) : Option (Nat × List (Nat × Nat)) :=
  let tail : Nat × Nat := (0x80, 0xbf)
  if b < 0x80 then some (b, [])
  else if b < 0xc2 then none
  else if b < 0xe0 then some (b - 0xc0, [tail])
  else if b = 0xe0 then some (0, [(0xa0, 0xbf), tail])
  else if b = 0xed then some (0xd, [(0x80, 0x9f), tail])
  else if b < 0xf0 then some (b - 0xe0, [tail, tail])
  else if b = 0xf0 then some (0, [(0x90, 0xbf), tail, tail])
  else if b < 0xf4 then some (b - 0xf0, [tail, tail, tail])
  else if b = 0xf4 then some (4, [(0x80, 0x8f), tail, tail])
  else none

/-- The code point of a sequence, from the bits so far on; `none` if an octet is missing or out
    of its range. Answers with the octets behind what has been read. -/
def follow (bits : Nat) : List (Nat × Nat) → List Nat → Option Nat × List Nat
  | [], rest => (some bits, rest)
  | _ :: _, [] => (none, [])
  | (low, high) :: ranges, b :: rest =>
    if low ≤ b && b ≤ high then follow (64 * bits + (b - 0x80)) ranges rest else (none, b :: rest)

/-- What stands for octets that are no UTF-8. -/
def replacement : Char := '\ufffd'

/-- The characters of octets in UTF-8; `fuel` bounds their number. -/
def decodeUtf8 : Nat → List Nat → List Char
  | 0, _ | _, [] => []
  | fuel + 1, b :: rest =>
    match lead? b with
    | none => replacement :: decodeUtf8 fuel rest
    | some (bits, ranges) =>
      match follow bits ranges rest with
      | (some code, rest) => Char.ofNat code :: decodeUtf8 fuel rest
      | (none, rest) => replacement :: decodeUtf8 fuel rest

/-- A row of ASCII characters with its escapes read. -/
def decodeAscii (run : List Char) : List Char :=
  let os := octets run
  decodeUtf8 os.length os

def isAscii (c : Char) : Bool := c.toNat < 0x80

/-- A text with its escapes read. -/
def decode (text : List Char) : List Char :=
  (text.splitBy fun a b => isAscii a == isAscii b).flatMap fun run =>
    if run.all isAscii then decodeAscii run else run

end Percent

end SchemaAudit

import SchemaAudit.Text.Printable

/-! # Quoted texts

A text is shown between single quotes, or between double quotes when it holds single quotes
only. Backslashes, the quote in use and characters that are not printable are escaped. Octets
are shown the same way behind a `b`, all that lies outside printable ASCII escaped.
-/

namespace SchemaAudit

namespace Text

def singleQuote : Char := '\x27'

def doubleQuote : Char := '\x22'

def quoteFor (text : List Char) : Char :=
  if text.contains singleQuote && !text.contains doubleQuote then doubleQuote else singleQuote

/-- A number in lower-case hexadecimal digits, at least `width` of them. -/
def hex (width n : Nat) : List Char :=
  let digits := Nat.toDigits 16 n
  List.replicate (width - digits.length) '0' ++ digits

/-- The escape of a character by its code point: two, four or eight digits. -/
def codeEscape (code : Nat) : List Char :=
  if code < 0x100 then '\\' :: 'x' :: hex 2 code
  else if code < 0x10000 then '\\' :: 'u' :: hex 4 code
  else '\\' :: 'U' :: hex 8 code

def showChar (quote : Char) (printable : Char → Bool) (c : Char) : List Char :=
  if c = quote ∨ c = '\\' then ['\\', c]
  else if c = '\n' then ['\\', 'n']
  else if c = '\r' then ['\\', 'r']
  else if c = '\t' then ['\\', 't']
  else if printable c then [c]
  else codeEscape c.toNat

def quoted (text : String) : String :=
  let chars := text.toList
  let quote := quoteFor chars
  String.ofList (quote :: chars.flatMap (showChar quote isPrintable) ++ [quote])

def isPrintableAscii (c : Char) : Bool := 0x20 ≤ c.toNat && c.toNat < 0x7f

def quotedOctets (octets : List UInt8) : String :=
  let chars := octets.map fun o => Char.ofNat o.toNat
  let quote := quoteFor chars
  String.ofList ('b' :: quote :: chars.flatMap (showChar quote isPrintableAscii) ++ [quote])

end Text

end SchemaAudit

import SchemaAudit.Pattern.Escape

/-! # Sets of characters in patterns

A set stands in brackets and lists characters, ranges and classes. Only single characters can
bound a range.
-/

namespace SchemaAudit

namespace Pattern

/-- An item of a set as far as ranges are concerned: only single characters can bound one. -/
def rangeEnd? : SetItem → Option Nat
  | .code c => some c
  | _ => none

def setItem : Token → Reading SetItem
  | .plain c => return .code c.toNat
  | .escape c => setEscape c
  | .dangling => return .code 0x5c

/-- The items of a set up to its closing bracket, which is read too. The set starts at
    `start`. -/
def setItems (start : Nat) : Nat → List SetItem → Reading (List SetItem)
  | 0, items => return items
  | fuel + 1, items => do
    let unterminated : Reading (List SetItem) := do
      Reading.refuse .unterminatedSet ((← Reading.position) - start)
    match ← Reading.take with
    | none => unterminated
    | some t =>
      if t = .plain ']' && !items.isEmpty then return items
      else
        let low ← setItem t
        if !(← Reading.skip '-') then setItems start fuel (items ++ [low])
        else
          match ← Reading.take with
          | none => unterminated
          | some u =>
            if u = .plain ']' then return items ++ [low, .code 0x2d]
            else
              let high ← setItem u
              let bad : Reading (List SetItem) :=
                Reading.refuse (.badRange t.text u.text) (t.size + 1 + u.size)
              match rangeEnd? low, rangeEnd? high with
              | some l, some h =>
                if h < l then bad else setItems start fuel (items ++ [.range l h])
              | _, _ => bad

/-- A set of characters behind its opening bracket. -/
def characterSet (mode : Mode) : Reading Expr := do
  let start := (← Reading.position) - 1
  let negated ← Reading.skip '^'
  let items ← setItems start ((← get).rest.length + 1) []
  return .char mode (.oneOf negated items)

end Pattern

end SchemaAudit

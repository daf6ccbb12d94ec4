import SchemaAudit.Pattern.Escape

/-! # Repetitions in patterns

A sign or a pair of bounds in braces repeats the item before it.
-/

namespace SchemaAudit

namespace Pattern

/-- Counts of repetitions have to be below this. -/
def countLimit : Nat := Nat.pow 2 32 - 1

structure Bounds where
  least : Nat
  most : Option Nat

/-- A count of repetitions, unless there are no digits. -/
def countOf (digits : List Char) : Reading (Option Nat) := do
  if digits.isEmpty then return none
  else
    let n := Text.radixValue 10 digits
    if countLimit ≤ n then throw .countTooLarge else return some n

/-- The bounds behind an opening brace; without a proper closing brace the text is left as it
    was, and the brace stands for itself. -/
def bracedBounds : Reading (Option Bounds) := do
  let before ← get
  if before.rest.head? = some (.plain '\x7d') then return none
  else
    let here := before.position
    let low ← Reading.takeWhile Char.isDigit before.rest.length
    let high ←
      if ← Reading.skip ',' then Reading.takeWhile Char.isDigit before.rest.length
      else pure low
    if !(← Reading.skip '\x7d') then
      set before
      return none
    else
      let least := (← countOf low).getD 0
      let most ← countOf high
      if most.any (· < least) then
        Reading.refuse .repeatBounds ((← Reading.position) - here)
      else return some ⟨least, most⟩

def boundsOf : Char → Reading (Option Bounds)
  | '?' => return some ⟨0, some 1⟩
  | '*' => return some ⟨0, none⟩
  | '+' => return some ⟨1, none⟩
  | _ => bracedBounds

def greedOf : Reading Greed := do
  if ← Reading.skip '?' then return .lazy
  else if ← Reading.skip '+' then return .possessive
  else return .greedy

/-- What a repetition repeats is the last item; the sign of the repetition, `here` being the
    position behind its first character, takes the item's place. The last item comes first. -/
def repeatLast (mode : Mode) (here : Nat) (b : Bounds) :
    List Expr → Reading (List Expr)
  | [] | .anchor .. :: _ => do
    Reading.refuse .nothingToRepeat ((← Reading.position) - here + 1)
  | .repeated .. :: _ => do
    Reading.refuse .multipleRepeat ((← Reading.position) - here + 1)
  | item :: items => do
    return .repeated b.least b.most (← greedOf) mode.template item :: items

end Pattern

end SchemaAudit

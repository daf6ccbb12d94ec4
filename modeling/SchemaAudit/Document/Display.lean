import SchemaAudit.Document.Value
import SchemaAudit.Number.Shortest
import SchemaAudit.Pointer
import SchemaAudit.Text.Quoted

/-! # Values as text

The notation that messages show values in: lists in square brackets, tuples in round ones,
mappings in braces with their keys in document order, texts quoted. A container inside itself
is shown as three dots between its brackets.

Integers are shown however long they are. Where the printing of numbers has a limit, such as 4300
digits, what is said here of messages is meant for integers within it.
-/

namespace SchemaAudit

namespace Value

def displayScalar : Value → String
  | .null => "None"
  | .bool b => if b then "True" else "False"
  | .int n => toString n
  | .float x => x.text
  | .nan _ => "nan"
  | .text s => Text.quoted s
  | .octets os => Text.quotedOctets os
  | .list _ | .tuple _ | .mapping _ => ""

/-- Round brackets around the texts of a tuple's elements; a single one is followed by a
    comma. -/
def bracketTuple : List String → String
  | [t] => "(" ++ t ++ ",)"
  | ts => "(" ++ ", ".intercalate ts ++ ")"

def bracketList (ts : List String) : String := "[" ++ ", ".intercalate ts ++ "]"

def bracketMapping (ts : List (String × String)) : String :=
  "\x7b" ++ ", ".intercalate (ts.map fun (k, t) => Text.quoted k ++ ": " ++ t) ++ "\x7d"

/-- The text of a value inside the containers of `around`. -/
def displayWithin (s : Store) : Nat → List Value → Value → String
  | 0, _, v => displayScalar v
  | fuel + 1, around, v =>
    let inner := displayWithin s fuel (v :: around)
    match v with
    | .list a =>
      if v ∈ around then "[...]" else bracketList ((s.elements a).map inner)
    | .tuple a =>
      if v ∈ around then "(...)" else bracketTuple ((s.elements a).map inner)
    | .mapping a =>
      if v ∈ around then "\x7b...\x7d"
      else bracketMapping ((s.entries a).map fun (k, w) => (k, inner w))
    | _ => displayScalar v

/-- The text of a value. Each level of nesting adds a container to those around, so that there
    are at most as many levels as containers, and one more. -/
def display (s : Store) (v : Value) : String := displayWithin s (s.size + 2) [] v

/-- The text of a value as it stands in a sentence: texts without quotes, all else as
    displayed. -/
def plain (s : Store) : Value → String
  | .text t => t
  | v => v.display s

end Value

/-- A pointer with values as further tokens, each by its text as it stands in a sentence. Without
    a pointer to start from they start at the root. -/
def Pointer.join (s : Store) (base : Option Pointer) (tokens : List Value) : Pointer :=
  extend (base.getD "") (tokens.map (Value.plain s))

end SchemaAudit

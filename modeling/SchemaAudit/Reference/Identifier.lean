import SchemaAudit.Instance.Evaluation
import SchemaAudit.Reference.Uri

/-! # Identifiers of schemas

A schema may have an identifier, against which the references inside it are resolved. A
fragment in its place is a name for the schema.
-/

namespace SchemaAudit

namespace Reference

/-- The key of a schema's identifier. -/
def identifierKey : String := "id"

/-- The key under which a schema refers to another one. -/
def referenceKey : String := "$ref"

/-- The entries of a schema that is looked at for its identifier. -/
def schemaEntries (s : Store) : Value → Except Stop Entries
  | .mapping a => .ok (s.entries a)
  | .text _ | .list _ | .tuple _ => Evaluation.faulted .noSuchPart
  | _ => Evaluation.faulted .kindMismatch

/-- A value under the identifier's key as a text. -/
def identifierText : Value → Except Stop String
  | .text t => .ok t
  | .octets _ => Evaluation.faulted .kindMismatch
  | _ => Evaluation.faulted .noSuchPart

/-- A text without number signs at its end. -/
def withoutEmptyFragment (text : String) : String :=
  String.ofList (text.toList.reverse.dropWhile (· == '#')).reverse

/-- The identifier of a schema. One that refers to another schema has none, and a fragment alone
    is a name, not an identifier. -/
def identifier? (es : Entries) : Except Stop (Option String) :=
  if (es.lookup referenceKey).isSome then .ok none
  else
    match es.lookup identifierKey with
    | none | some .null => .ok none
    | some v => (identifierText v).map fun t =>
      if t.toList.head? = some '#' then none else some (withoutEmptyFragment t)

/-- The name that a schema has, if its identifier is a fragment. -/
def name? (es : Entries) : Except Stop (Option String) :=
  match es.lookup identifierKey with
  | none => .ok none
  | some v => (identifierText v).map fun t =>
    match t.toList with
    | '#' :: name => some (String.ofList name)
    | _ => none

/-- A reference resolved against a base. -/
def joined (base ref : String) : Except Stop String :=
  match Uri.join? base.toList ref.toList with
  | some text => .ok (String.ofList text)
  | none => Evaluation.faulted .invalidValue

def baseInside (base : String) (es : Entries) : Except Stop (Option String) := do
  match ← identifier? es with
  | none => return none
  | some id => return some (← joined base id)

end Reference

end SchemaAudit

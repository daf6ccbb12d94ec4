import SchemaAudit.Document.Order
import SchemaAudit.Instance.Scalars
import SchemaAudit.Instance.Unions

/-! # Keywords on arrays -/

namespace SchemaAudit

namespace Evaluation

/-- The elements of an array with their positions as tokens. -/
def indexed (vs : List Value) : List (String × Value) :=
  vs.zipIdx.map fun (v, i) => (toString i, v)

/-- Each element conforms to the schema, or each to the schema at its position. -/
def checkItems (s : Store) (descend : Descent) (items inst : Value) : Evaluation :=
  match inst.elements? s with
  | none => clean
  | some vs =>
    if items.kind = .object then
      gather (fun (token, v) => descendTo descend token items v) (indexed vs)
    else
      match items.iterate? s with
      | none => faulted .kindMismatch
      | some schemas =>
        gather (fun ((token, v), schema) => descendTo descend token schema v)
          ((indexed vs).zip schemas)

def positionCount (s : Store) (items : Value) : Except Stop Nat :=
  match items.iterate? s with
  | some vs => .ok vs.length
  | none => faulted .kindMismatch

/-- The elements beyond the schemas by position conform to a schema, or there are none. -/
def checkAdditionalItems (s : Store) (descend : Descent) (schema : Entries)
    (additional inst : Value) : Evaluation :=
  match inst.elements? s, schema.lookup "items" with
  | none, _ | _, none => clean
  | some vs, some items =>
    if items.kind = .object then clean
    else do
      let count ← positionCount s items
      let extras := (indexed vs).drop count
      if additional.kind = .object then
        gather (fun (token, v) => descendTo descend token additional v) extras
      else
        violationIf (!additional.truthy s && !extras.isEmpty)
          ("Additional items are not allowed ("
            ++ ", ".intercalate (extras.map fun (_, v) => v.display s)
            ++ (if extras.length = 1 then " was" else " were") ++ " unexpected)")

def checkItemCount (s : Store) (side : Side) (bound inst : Value) : Evaluation :=
  match inst.elements? s with
  | some vs => checkLength s side vs.length bound inst
  | none => clean

def checkUniqueItems (s : Store) (unique inst : Value) : Evaluation :=
  match inst.elements? s with
  | none => clean
  | some vs =>
    violationIf (unique.truthy s && !Value.distinct s vs)
      (inst.display s ++ " has non-unique elements")

end Evaluation

end SchemaAudit

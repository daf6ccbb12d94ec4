import SchemaAudit.Schema.Rules

/-! # What there is to check at a node

The plan of a node lists, in the order of checking, the findings of its own attributes and the
schemas that it holds. Only the default stays apart, as it is judged once all else is in order.
-/

namespace SchemaAudit

/-- One step of checking a node. -/
inductive Step where
  | found (f : Finding)
  | visit (hop : Hop) (v : Value)
  deriving Repr

namespace Place

def noAlternative (p : Place) (a : Attribute) (index : Nat) (v : Value) : Finding :=
  .leaf .invalidUnionElementType
    (p.label ++ ": '" ++ a.key ++ "' attribute union element " ++ toString index ++ " is "
      ++ v.kindPhrase ++ " when it should be either an object (schema) or a string")
    (some (p.pointerTo [a.key, toString index]))

def shortUnion (p : Place) (a : Attribute) (length : Nat) : Finding :=
  .leaf .unionTooShort
    (p.label ++ ": '" ++ a.key ++ "' attribute union length is " ++ toString length
      ++ " when it should be at least 2")
    (some (p.pointerTo [a.key]))

end Place

namespace Node

/-- The step that an element of a union asks for. -/
def alternativeStep (p : Place) (a : Attribute) (index : Nat) (v : Value) : List Step :=
  match Alternative.ofValue? v with
  | some (.name _) => []
  | some (.schema _) => [.visit (.element a index) v]
  | none => [.found (p.noAlternative a index v)]

/-- A type name, whichever, or a union of two alternatives or more. -/
def unionSteps (s : Store) (n : Node) (p : Place) (a : Attribute) : List Step :=
  match n.get? a with
  | none => []
  | some (.text _) => []
  | some v =>
    match v.elements? s with
    | none => [.found (p.mistyped a v "either a string or an array")]
    | some vs =>
      if vs.length < 2 then [.found (p.shortUnion a vs.length)]
      else vs.zipIdx.flatMap fun (w, i) => alternativeStep p a i w

/-- A mapping of names to schemas. -/
def schemaMapSteps (s : Store) (n : Node) (p : Place) (a : Attribute) : List Step :=
  match n.get? a with
  | none => []
  | some v =>
    match v.entries? s with
    | none => [.found (p.mistyped a v Kind.object.phrase)]
    | some es => es.map fun (name, w) => .visit (.entry a name) w

/-- A schema, or `false` for nothing at all. -/
def schemaOrFalseSteps (n : Node) (p : Place) (a : Attribute) : List Step :=
  match n.get? a with
  | none => []
  | some (.bool false) => []
  | some (.mapping m) => [.visit (.value a) (.mapping m)]
  | some v => [.found (p.mistyped a v "either an object (schema) or false")]

/-- One schema for every element, or a list of schemas by position. -/
def itemsSteps (s : Store) (n : Node) (p : Place) : List Step :=
  match n.get? .items with
  | none => []
  | some (.mapping m) => [.visit (.value .items) (.mapping m)]
  | some v =>
    match v.elements? s with
    | none => [.found (p.mistyped .items v "either an object (schema) or an array")]
    | some vs => vs.zipIdx.map fun (w, i) => .visit (.element .items i) w

/-- All steps of checking a node but the default, in order. -/
def plan (s : Store) (n : Node) (p : Place) : List Step :=
  (n.requiredFindings p).map .found
    ++ n.unionSteps s p .type
    ++ n.unionSteps s p .disallow
    ++ (n.enumFindings p).map .found
    ++ n.schemaMapSteps s p .properties
    ++ n.schemaMapSteps s p .patternProperties
    ++ n.schemaOrFalseSteps p .additionalProperties
    ++ (n.itemCountFindings p).map .found
    ++ n.itemsSteps s p
    ++ n.schemaOrFalseSteps p .additionalItems
    ++ (n.uniqueItemsFindings p).map .found
    ++ (n.scalarFindings p).map .found

end Node

end SchemaAudit

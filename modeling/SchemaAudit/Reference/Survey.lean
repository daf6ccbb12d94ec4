import SchemaAudit.Document.Value
import SchemaAudit.Reference.Identifier

/-! # Looking through a schema for identifiers

The root is known by its identifier from the start. The schemas inside it are looked through
once a reference leads to a document that is not known, or to a name: those with identifiers
become documents, and those whose identifier is a fragment become names.
-/

namespace SchemaAudit

/-- The documents and names that looking through a schema has brought to light, latest first. -/
structure Survey where
  documents : List (String × Value)
  names : List ((String × String) × Value)
  deriving Repr

namespace Reference

/-- The keys under which a schema holds a map of schemas. -/
def schemaMapKeys : List String := ["definitions", "patternProperties", "properties"]

/-- The keys under which a schema may hold one schema. -/
def schemaKeys : List String := ["additionalItems", "additionalProperties"]

/-- The schemas that a schema extends, or whatever stands for them. -/
def extendedSchemas (s : Store) (es : Entries) : Except Stop (List Value) :=
  match es.lookup "extends" with
  | none => .ok []
  | some v =>
    match v.iterate? s with
    | some vs => .ok vs
    | none => Evaluation.faulted .kindMismatch

/-- The schemas of a map under a key. -/
def mappedSchemas (s : Store) (es : Entries) (key : String) : Except Stop (List Value) :=
  match es.lookup key with
  | none => .ok []
  | some (.mapping a) => .ok ((s.entries a).map Prod.snd)
  | some _ => Evaluation.faulted .noSuchPart

/-- The schemas that properties depend on, if the first of them depends on one. -/
def dependentSchemas (s : Store) (es : Entries) : Except Stop (List Value) :=
  match es.lookup "dependencies" with
  | none | some .null => .ok []
  | some (.mapping a) =>
    match (s.entries a).map Prod.snd with
    | .mapping b :: rest => .ok (.mapping b :: rest)
    | _ => .ok []
  | some _ => Evaluation.faulted .noSuchPart

/-- The schemas of items, or whatever stands for them. -/
def itemSchemas (s : Store) (es : Entries) : List Value :=
  match es.lookup "items" with
  | none | some .null => []
  | some (.mapping a) => [.mapping a]
  | some v => (v.iterate? s).getD [v]

/-- The schemas under the keys that hold one. -/
def singleSchemas (es : Entries) : List Value :=
  schemaKeys.filterMap fun key =>
    match es.lookup key with
    | some (.mapping a) => some (.mapping a)
    | _ => none

/-- The schemas inside a schema, as far as identifiers are looked for. -/
def subschemas (s : Store) (es : Entries) : Except Stop (List Value) := do
  let extended ← extendedSchemas s es
  let mapped ← schemaMapKeys.mapM (mappedSchemas s es)
  let dependent ← dependentSchemas s es
  return extended ++ mapped.flatten ++ itemSchemas s es ++ dependent ++ singleSchemas es

/-- Look through a schema at an address of documents, and the schemas inside it from the last
    one back. -/
def survey (s : Store) : Nat → String → Value → Survey → Except Stop Survey
  | 0, _, _, _ => Evaluation.faulted .endless
  | fuel + 1, uri, v, found => do
    let es ← schemaEntries s v
    let inside? ← baseInside uri es
    let inside := inside?.getD uri
    let found :=
      if inside?.isSome then { found with documents := (inside, v) :: found.documents } else found
    let found :=
      match ← name? es with
      | none => found
      | some name => { found with names := ((inside, name), v) :: found.names }
    (← subschemas s es).reverse.foldlM (fun found w => survey s fuel inside w found) found

end Reference

end SchemaAudit

import SchemaAudit.Instance.Arrays
import SchemaAudit.Instance.Keyword
import SchemaAudit.Instance.Objects
import SchemaAudit.Reference.Lookup

/-! # Evaluating schemas

The keywords of a schema are evaluated in document order. A schema that refers to another one
is evaluated by that one alone.

All schemas are of one language, Draft 3. A `$schema` in a schema inside could ask for another one;
it is a key like any that is no keyword, and documents that hold it there are beyond what is
described here. So are references that lead in circles for ever: the evaluation ends in a fault
when its fuel does.
-/

namespace SchemaAudit

namespace Evaluation

/-- What a keyword is evaluated with. -/
structure Bench where
  store : Store
  descend : Descent
  refer : String → Value → Evaluation

/-- A reference has to be a text, whatever the value is. -/
def checkRef (refer : String → Value → Evaluation) (ref inst : Value) : Evaluation :=
  match ref with
  | .text t => refer t inst
  | v => flawed (.keyword Keyword.ref.key v.kind "a string")

/-- Whether a key of a schema says yes. -/
def affirms (s : Store) (schema : Entries) (key : String) : Bool :=
  (schema.lookup key).any (Value.truthy s)

def checkKeyword (b : Bench) (schema : Entries) (inst v : Value) : Keyword → Evaluation
  | .type => checkType b.store b.descend v inst
  | .disallow => checkDisallow b.store b.descend v inst
  | .enum => checkEnum b.store v inst
  | .properties => checkProperties b.store b.descend v inst
  | .patternProperties => checkPatternProperties b.store b.descend v inst
  | .additionalProperties => checkAdditionalProperties b.store b.descend schema v inst
  | .items => checkItems b.store b.descend v inst
  | .additionalItems => checkAdditionalItems b.store b.descend schema v inst
  | .minItems => checkItemCount b.store .least v inst
  | .maxItems => checkItemCount b.store .most v inst
  | .uniqueItems => checkUniqueItems b.store v inst
  | .minimum => checkLimit b.store .least (affirms b.store schema "exclusiveMinimum") v inst
  | .maximum => checkLimit b.store .most (affirms b.store schema "exclusiveMaximum") v inst
  | .divisibleBy => checkDivisibleBy b.store v inst
  | .minLength => checkTextLength b.store .least v inst
  | .maxLength => checkTextLength b.store .most v inst
  | .pattern => checkPattern b.store v inst
  | .dependencies => checkDependencies b.store b.descend v inst
  | .extending => checkExtends b.store b.descend v inst
  | .ref => checkRef b.refer v inst

/-- The entries of a schema that are evaluated. -/
def applicable (schema : Entries) : Entries :=
  match schema.lookup Keyword.ref.key with
  | none | some .null => schema
  | some v => [(Keyword.ref.key, v)]

def checkEntries (b : Bench) (schema : Entries) (inst : Value) : Evaluation :=
  gather
    (fun (key, v) =>
      match Keyword.ofKey? key with
      | some k => checkKeyword b schema inst v k
      | none => clean)
    (applicable schema)

/-- How an evaluation comes to a schema: from the one around it, against whose base the schema's
    own identifier is resolved, or by a reference, which knows the base already. -/
inductive Arrival where
  | inside
  | referred
  deriving DecidableEq, Repr

def baseAt (base : String) (es : Entries) : Arrival → Except Stop String
  | .referred => .ok base
  | .inside => (Reference.baseInside base es).map (·.getD base)

/-- Evaluate a schema. True takes any value and false none. Every evaluation inside has less
    fuel, which bounds how deep schemas are nested and referred to. -/
def evaluate (l : Reference.Library) : Nat → Arrival → Scope → Descent
  | 0, _, _, _, _ => faulted .endless
  | fuel + 1, arrival, scope, schema, inst =>
    match schema with
    | .bool true => clean
    | .bool false => violation ("False schema does not allow " ++ inst.display l.store)
    | schema => do
      let es ← Reference.schemaEntries l.store schema
      let scope := { scope with base := ← baseAt scope.base es arrival }
      checkEntries
        { store := l.store
          descend := evaluate l fuel .inside scope
          refer := fun ref w => do
            let (target, beyond) ← l.lookup scope ref
            evaluate l fuel .referred beyond target w }
        es inst

end Evaluation

end SchemaAudit

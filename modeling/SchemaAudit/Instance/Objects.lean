import SchemaAudit.Document.Display
import SchemaAudit.Document.Value
import SchemaAudit.Instance.Scalars
import SchemaAudit.Instance.Unions

/-! # Keywords on objects -/

namespace SchemaAudit

namespace Evaluation

def schemaMap (s : Store) (v : Value) : Except Stop Entries :=
  match v.entries? s with
  | some es => .ok es
  | none => faulted .noSuchPart

/-- Whether a property that is missing is required by its schema. -/
def isRequired (s : Store) (schema : Value) : Except Stop Bool :=
  (schemaMap s schema).map fun es => (es.lookup "required").any (Value.truthy s)

/-- Each named property conforms to its schema. A missing one that is required is a violation at
    the place where it should be. -/
def checkProperties (s : Store) (descend : Descent) (schemas inst : Value) : Evaluation :=
  match inst.entries? s with
  | none => clean
  | some members => do
    gather
      (fun (name, schema) =>
        match members.lookup name with
        | some v => descendTo descend name schema v
        | none => do
          below name
            (violationIf (← isRequired s schema) (Text.quoted name ++ " is a required property")))
      (← schemaMap s schemas)

/-- Each property whose name a pattern matches conforms to the pattern's schema. -/
def checkPatternProperties (s : Store) (descend : Descent) (schemas inst : Value) : Evaluation :=
  match inst.entries? s with
  | none => clean
  | some members => do
    gather
      (fun (pattern, schema) =>
        gather
          (fun (name, v) => do
            if ← occurs pattern name then descendTo descend name schema v else clean)
          members)
      (← schemaMap s schemas)

def isInfix (part whole : List Char) : Bool :=
  (List.range (whole.length + 1)).any fun i => part.isPrefixOf (whole.drop i)

/-- Whether a name is covered by a value that should be a map of properties. -/
def covers (s : Store) (properties : Value) (name : String) : Except Stop Bool :=
  match properties with
  | .mapping a => .ok ((s.entries a).lookup name).isSome
  | .list a | .tuple a => .ok ((s.elements a).contains (.text name))
  | .text t => .ok (isInfix name.toList t.toList)
  | _ => faulted .kindMismatch

/-- The texts that a value is gone through by; all of it has to be texts. -/
def textsOf (s : Store) (v : Value) : Except Stop (List String) :=
  match v.iterate? s with
  | none => faulted .kindMismatch
  | some vs => vs.mapM fun
    | .text t => .ok t
    | _ => faulted .kindMismatch

/-- The patterns of a schema as one: alternatives with bars between them. -/
def joinedPatterns (s : Store) (schema : Entries) : Except Stop String :=
  match schema.lookup "patternProperties" with
  | none => .ok ""
  | some v => (textsOf s v).map "|".intercalate

/-- Whether a property is neither named nor matched by a pattern. -/
def isExtra (s : Store) (schema : Entries) (patterns name : String) : Except Stop Bool := do
  let named ←
    match schema.lookup "properties" with
    | none => pure false
    | some v => covers s v name
  if named then return false
  else if patterns = "" then return true
  else return !(← occurs patterns name)

def sortedTexts (texts : List String) : List String := texts.mergeSort fun t u => decide (t ≤ u)

/-- Texts as they are shown in a row. -/
def shownRow (texts : List String) : String := ", ".intercalate (texts.map Text.quoted)

/-- What is said of properties that are not allowed. -/
def extrasMessage (s : Store) (schema : Entries) (names : List String) :
    Except Stop String :=
  let one := names.length = 1
  let shown := shownRow (sortedTexts names)
  match schema.lookup "patternProperties" with
  | some v => do
    let patterns ← textsOf s v
    return shown ++ (if one then " does" else " do") ++ " not match any of the regexes: "
      ++ shownRow (sortedTexts patterns)
  | none =>
    .ok ("Additional properties are not allowed (" ++ shown ++ (if one then " was" else " were")
      ++ " unexpected)")

/-- The properties that are neither named nor matched conform to a schema, or there are none. -/
def checkAdditionalProperties (s : Store) (descend : Descent) (schema : Entries)
    (additional inst : Value) : Evaluation :=
  match inst.entries? s with
  | none => clean
  | some members => do
    let patterns ← joinedPatterns s schema
    let extras ← members.filterM fun (name, _) => isExtra s schema patterns name
    if additional.kind = .object then
      gather (fun (name, v) => descendTo descend name additional v) extras
    else if !additional.truthy s && !extras.isEmpty then
      violation (← extrasMessage s schema (extras.map Prod.fst))
    else clean

/-! ## Dependencies -/

/-- Whether a value can be what a property depends on. -/
def isDependency (s : Store) (v : Value) : Bool :=
  v.kind == .string || v.kind == .object
    || (v.elements? s).any fun vs => vs.all fun w => w.kind == .string

/-- Whether a value can be a map of dependencies. -/
def isDependencyMap (s : Store) (v : Value) : Bool :=
  (v.entries? s).any fun es => es.all fun (_, d) => isDependency s d

/-- A violation if a property that another one depends on is missing. -/
def checkCompanion (members : Entries) (name : String) : Value → Evaluation
  | .text other =>
    violationIf (members.lookup other).isNone
      (Text.quoted other ++ " is a dependency of " ++ Text.quoted name)
  | _ => clean

/-- A property that is there brings along what it depends on: other properties, or a schema for
    the whole object. The map has to be in shape whatever the value is. -/
def checkDependencies (s : Store) (descend : Descent) (dependencies inst : Value) : Evaluation :=
  if !isDependencyMap s dependencies then
    flawed (.keyword "dependencies" dependencies.kind
      "an object of property names, name arrays or schemas")
  else
    match inst.entries? s, dependencies.entries? s with
    | some members, some es =>
      gather
        (fun (name, dependency) =>
          if (members.lookup name).isNone then clean
          else
            match dependency.elements? s with
            | some others => gather (checkCompanion members name) others
            | none =>
              if dependency.kind = .object then descend dependency inst
              else checkCompanion members name dependency)
        es
    | _, _ => clean

/-- Whether a value can be what a schema extends. -/
def isExtension (s : Store) (v : Value) : Bool :=
  v.kind == .object || (v.elements? s).any fun vs => vs.all fun w => w.kind == .object

/-- The value conforms to each schema that is extended. -/
def checkExtends (s : Store) (descend : Descent) (extended inst : Value) : Evaluation :=
  if !isExtension s extended then
    flawed (.keyword "extends" extended.kind "either an object (schema) or an array of schemas")
  else
    match extended.elements? s with
    | some schemas => gather (fun schema => descend schema inst) schemas
    | none => descend extended inst

end Evaluation

end SchemaAudit

import SchemaAudit.Document.Display
import SchemaAudit.Document.Equality
import SchemaAudit.Document.Value
import SchemaAudit.Instance.Evaluation

/-! # Unions of types, and listed values

A value may be asked to match one of several alternatives, to match none of them, or to be one
of the values of a list. An alternative is the name of a type or a schema.
-/

namespace SchemaAudit

namespace Evaluation

/-! ## Types by name

The language of schemas has a test of its own for each type that it names. An evaluation keeps
most of them, and replaces those of integers, arrays and objects by the kinds of values.
-/

/-- Tests of values by the names of types. The first test under a name counts. -/
abbrev TypeTests := List (String × (Value → Bool))

def isNull : Value → Bool
  | .null => true
  | _ => false

def isBoolean : Value → Bool
  | .bool _ => true
  | _ => false

def isText : Value → Bool
  | .text _ => true
  | _ => false

/-- Whether a value is a number of any form; booleans, which calculate as numbers, are none. -/
def isNumber : Value → Bool
  | .int _ | .float _ | .nan _ => true
  | _ => false

def isInt : Value → Bool
  | .int _ => true
  | _ => false

def isList : Value → Bool
  | .list _ => true
  | _ => false

def isMapping : Value → Bool
  | .mapping _ => true
  | _ => false

/-- The tests of the language itself go by how a value is written: `2.0` is no integer, and a
    tuple no array. -/
def standardTests : TypeTests :=
  [("any", fun _ => true), ("array", isList), ("boolean", isBoolean), ("integer", isInt),
   ("object", isMapping), ("null", isNull), ("number", isNumber), ("string", isText)]

/-- The tests that are replaced. -/
def kindTests : TypeTests :=
  [("integer", fun v => v.isA .integer), ("array", fun v => v.isA .array),
   ("object", fun v => v.isA .object)]

/-- The test that an evaluation makes for the name of a type. -/
def typeTest? (name : String) : Option (Value → Bool) := (kindTests ++ standardTests).lookup name

/-! ## Alternatives -/

/-- Whether a value may serve as a name that is looked up: containers that can change may
    not, nor may tuples that hold such. -/
def isLookupKey (s : Store) : Nat → Value → Bool
  | 0, _ => false
  | fuel + 1, v =>
    match v with
    | .list _ | .mapping _ => false
    | .tuple a => (s.elements a).all (isLookupKey s fuel)
    | _ => true

/-- Whether a value matches an alternative: a schema if it has no violations against it, a
    name if it passes the test of that name. -/
def matchesAlternative (s : Store) (descend : Descent) (inst : Value) :
    Value → Except Stop Bool
  | .text name =>
    match typeTest? name with
    | some test => .ok (test inst)
    | none => flawed (.unknownType name)
  | .mapping a => (descend (.mapping a) inst).map List.isEmpty
  | v =>
    if isLookupKey s (s.size + 2) v then flawed (.unknownType (v.plain s))
    else faulted .kindMismatch

/-- Whether a value matches some alternative; those behind the first match are not looked at. -/
def matchesAny (s : Store) (descend : Descent) (inst : Value) :
    List Value → Except Stop Bool
  | [] => .ok false
  | v :: rest =>
    match matchesAlternative s descend inst v with
    | .error stop => .error stop
    | .ok true => .ok true
    | .ok false => matchesAny s descend inst rest

/-- The alternatives of a union; a text alone is one. -/
def alternatives (s : Store) : Value → Except Stop (List Value)
  | .text t => .ok [.text t]
  | v =>
    match v.iterate? s with
    | some vs => .ok vs
    | none => faulted .kindMismatch

/-- How an alternative is called: a schema by its name, if it has one. -/
def alternativeName (s : Store) : Value → String
  | .mapping a => (((s.entries a).lookup "name").getD (.mapping a)).display s
  | v => v.display s

def checkType (s : Store) (descend : Descent) (union inst : Value) : Evaluation := do
  let vs ← alternatives s union
  let fits ← matchesAny s descend inst vs
  violationIf (!fits)
    (inst.display s ++ " is not of type " ++ ", ".intercalate (vs.map (alternativeName s)))

def checkDisallow (s : Store) (descend : Descent) (union inst : Value) : Evaluation := do
  gather
    (fun v => do
      let fits ← matchesAny s descend inst [v]
      violationIf fits (v.display s ++ " is disallowed for " ++ inst.display s))
    (← alternatives s union)

def checkEnum (s : Store) (listed inst : Value) : Evaluation :=
  match listed.iterate? s with
  | none => faulted .kindMismatch
  | some vs =>
    violationIf (!vs.any fun v => v.same s inst)
      (inst.display s ++ " is not one of " ++ listed.display s)

end Evaluation

end SchemaAudit

import SchemaAudit.Kind
import SchemaAudit.Schema.Finding
import SchemaAudit.Schema.Node
import SchemaAudit.Schema.Place

/-! # Rules on single attributes

What each attribute may hold. Every rule answers with the list of its findings, in the order in
which they are told; nested schemas are no matter of these rules.
-/

namespace SchemaAudit

namespace Value

def isZero : Value → Bool
  | .int n => n == 0
  | .float x => x.isZero
  | _ => false

end Value

namespace Place

def mistyped (p : Place) (a : Attribute) (v : Value) (expected : String) : Finding :=
  .leaf .invalidAttributeType
    (p.label ++ ": '" ++ a.key ++ "' attribute is " ++ v.kindPhrase ++ " when it should be "
      ++ expected)
    (some (p.pointerTo [a.key]))

def zeroDivisor (p : Place) : Finding :=
  .leaf .divisorZero (p.label ++ ": 'divisibleBy' attribute must not be 0")
    (some (p.pointerTo [Attribute.divisibleBy.key]))

end Place

namespace Node

/-- An attribute, if it is set, has to be of a type. -/
def expect (n : Node) (p : Place) (a : Attribute) (t : TypeName) : List Finding :=
  match n.get? a with
  | none => []
  | some v => if t.admits v then [] else [p.mistyped a v t.phrase]

/-- Attributes that have to be of types, in the order given. -/
def expectAll (n : Node) (p : Place) (types : List (Attribute × TypeName)) : List Finding :=
  types.flatMap fun (a, t) => n.expect p a t

def requiredFindings (n : Node) (p : Place) : List Finding :=
  n.expect p .required (.kind .boolean)

/-- The allowed values can be anything, but they have to be in an array. -/
def enumFindings (n : Node) (p : Place) : List Finding :=
  n.expect p .enum (.kind .array)

def itemCountFindings (n : Node) (p : Place) : List Finding :=
  n.expectAll p [(.minItems, .kind .integer), (.maxItems, .kind .integer)]

def uniqueItemsFindings (n : Node) (p : Place) : List Finding :=
  n.expect p .uniqueItems (.kind .boolean)

/-- The types of the attributes that bound numbers. An exclusive bound may stand without the
    bound that it speaks of. -/
def numberTypes : List (Attribute × TypeName) :=
  [(.minimum, .kind .number), (.exclusiveMinimum, .kind .boolean), (.maximum, .kind .number),
   (.exclusiveMaximum, .kind .boolean), (.divisibleBy, .kind .number)]

/-- Nothing is divisible by zero. -/
def divisorFindings (n : Node) (p : Place) : List Finding :=
  match n.get? .divisibleBy with
  | none => []
  | some v => if v.isZero then [p.zeroDivisor] else []

/-- The divisor is looked at once all bounds are of their types. -/
def numberFindings (n : Node) (p : Place) : List Finding :=
  match n.expectAll p numberTypes with
  | [] => n.divisorFindings p
  | findings => findings

/-- A pattern is a text; whether it can be read is not asked here. -/
def textFindings (n : Node) (p : Place) : List Finding :=
  n.expectAll p
    [(.minLength, .kind .integer), (.maxLength, .kind .integer), (.pattern, .kind .string)]

/-- The rules on what bounds a single value. -/
def scalarFindings (n : Node) (p : Place) : List Finding :=
  n.numberFindings p ++ n.textFindings p

end Node

end SchemaAudit

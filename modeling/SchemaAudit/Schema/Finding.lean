import SchemaAudit.Pointer

/-! # Findings

What is wrong with a schema: the rule that is broken, a sentence, and a pointer to the value
that breaks it. A finding inside an inline schema is wrapped in the attribute that holds the
schema; the wrapped finding stays available as the cause.
-/

namespace SchemaAudit

/-- The rules that a schema can break. -/
inductive Rule where
  | schemaMissing
  | invalidRootType
  | missingType
  | invalidRootTypeValue
  | invalidNodeType
  | invalidAttributeType
  | unionTooShort
  | invalidUnionElementType
  | divisorZero
  | invalidDefault
  | cyclicSchema
  | schemaTooDeep
  deriving DecidableEq, Repr

namespace Rule

def all : List Rule :=
  [schemaMissing, invalidRootType, missingType, invalidRootTypeValue, invalidNodeType,
   invalidAttributeType, unionTooShort, invalidUnionElementType, divisorZero, invalidDefault,
   cyclicSchema, schemaTooDeep]

/-- The name of a broken rule in reports. -/
def name : Rule → String
  | schemaMissing => "SchemaMissing"
  | invalidRootType => "InvalidRootType"
  | missingType => "MissingType"
  | invalidRootTypeValue => "InvalidRootTypeValue"
  | invalidNodeType => "InvalidNodeType"
  | invalidAttributeType => "InvalidAttributeType"
  | unionTooShort => "UnionTooShort"
  | invalidUnionElementType => "InvalidUnionElementType"
  | divisorZero => "DivisorZero"
  | invalidDefault => "InvalidDefault"
  | cyclicSchema => "CyclicSchema"
  | schemaTooDeep => "SchemaTooDeep"

/-- The error that a broken rule is raised as. -/
def errorName (r : Rule) : String := r.name ++ "Error"

def ofName? (name : String) : Option Rule := all.find? fun r => r.name = name

end Rule

/-- A broken rule, told in full. -/
inductive Finding where
  | leaf (rule : Rule) (message : String) (pointer : Option Pointer)
  /-- A finding told from the attribute that holds the schema it was found in. -/
  | within (context : String) (cause : Finding)
  deriving DecidableEq, Repr

namespace Finding

/-- The finding at the bottom of the chain of causes. -/
def innermost : Finding → Finding
  | .leaf r m p => .leaf r m p
  | .within _ cause => cause.innermost

/-- The rule that is broken; wrapping keeps it. -/
def rule : Finding → Rule
  | .leaf r _ _ => r
  | .within _ cause => cause.rule

/-- The sentence of a finding; wrapping puts its context in front. -/
def message : Finding → String
  | .leaf _ m _ => m
  | .within context cause => context ++ ": " ++ cause.message

/-- Where the value is that breaks the rule; wrapping keeps it. -/
def pointer : Finding → Option Pointer
  | .leaf _ _ p => p
  | .within _ cause => cause.pointer

def cause? : Finding → Option Finding
  | .leaf .. => none
  | .within _ cause => some cause

def depth : Finding → Nat
  | .leaf .. => 0
  | .within _ cause => cause.depth + 1

/-- A finding and the causes behind it, outermost first. -/
def chain : Finding → List Finding
  | .leaf r m p => [.leaf r m p]
  | .within context cause => .within context cause :: cause.chain

theorem head?_chain (f : Finding) : f.chain.head? = some f := by cases f <;> rfl

theorem rule_innermost (f : Finding) : f.innermost.rule = f.rule := by
  induction f with
  | leaf => rfl
  | within _ _ ih => exact ih

end Finding

end SchemaAudit

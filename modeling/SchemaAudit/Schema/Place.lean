import SchemaAudit.Pointer
import SchemaAudit.Schema.Attribute

/-! # Places of nodes

Where a node sits: the way to it from the root, how deep it is nested, and the nodes around it.
Messages name a nested schema by the properties that lead to it.
-/

namespace SchemaAudit

/-- The names of the properties that lead to a nested schema. -/
abbrev NamePath := List String

namespace NamePath

/-- A name path in words; nothing for the outermost schema. -/
def describe : NamePath → String
  | [] => ""
  | names => " property '" ++ ".".intercalate names ++ "'"

/-- How messages speak of the schema at a name path. -/
def label (names : NamePath) : String := "Schema" ++ describe names

end NamePath

/-- The step from a node to a schema that it holds. -/
inductive Hop where
  /-- To an entry of a map of schemas. -/
  | entry (a : Attribute) (name : String)
  /-- To the schema that is the attribute's value. -/
  | value (a : Attribute)
  /-- To an element of the attribute's list. -/
  | element (a : Attribute) (index : Nat)
  deriving DecidableEq, Repr

namespace Hop

/-- The tokens that a hop adds to a pointer. -/
def tokens : Hop → List String
  | .entry a name => [a.key, name]
  | .value a => [a.key]
  | .element a i => [a.key, toString i]

/-- Whether a hop leads to an inline schema, which has no name of its own. -/
def isInline : Hop → Bool
  | .entry .. => false
  | .value _ | .element .. => true

end Hop

structure Place where
  /-- The properties passed since the root or the last inline schema. -/
  names : NamePath
  pointer : Pointer
  /-- The number of nodes around this one, itself included once it is entered. -/
  depth : Nat
  limit : Nat
  /-- The addresses of the nodes around this one, innermost first. -/
  ancestors : List Nat
  deriving Repr

namespace Place

def root (limit : Nat) : Place := ⟨[], "", 0, limit, []⟩

/-- How messages speak of the node. -/
def label (p : Place) : String := p.names.label

def pointerTo (p : Place) (tokens : List String) : Pointer := Pointer.extend p.pointer tokens

/-- The place of a named schema under one of the node's attributes. -/
def named (p : Place) (container name : String) : Place :=
  { p with names := p.names ++ [name], pointer := p.pointerTo [container, name] }

/-- The place of an inline schema; its names start afresh. -/
def inlined (p : Place) (tokens : List String) : Place :=
  { p with names := [], pointer := p.pointerTo tokens }

def descend (p : Place) : Hop → Place
  | .entry a name => p.named a.key name
  | hop => p.inlined hop.tokens

def enter (p : Place) (addr : Nat) : Place :=
  { p with depth := p.depth + 1, ancestors := addr :: p.ancestors }

theorem pointer_descend (p : Place) (hop : Hop) :
    (p.descend hop).pointer = p.pointerTo hop.tokens := by cases hop <;> rfl

theorem limit_descend (p : Place) (hop : Hop) : (p.descend hop).limit = p.limit := by
  cases hop <;> rfl

theorem depth_descend (p : Place) (hop : Hop) : (p.descend hop).depth = p.depth := by
  cases hop <;> rfl

theorem ancestors_descend (p : Place) (hop : Hop) :
    (p.descend hop).ancestors = p.ancestors := by cases hop <;> rfl

end Place

end SchemaAudit

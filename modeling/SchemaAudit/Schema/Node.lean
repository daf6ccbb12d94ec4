import SchemaAudit.Document.Equality
import SchemaAudit.Schema.Attribute

/-! # Schema nodes

A node is a mapping of a document with its recognised attributes set apart from its other
keys. An attribute is set when its key is there, whatever the value, null included.
-/

namespace SchemaAudit

structure Node where
  /-- The set attributes in the order of listings. -/
  slots : List (Attribute × Value)
  /-- The entries under keys that are not recognised, in document order. -/
  extra : Entries
  deriving Repr

namespace Node

def ofEntries (es : Entries) : Node where
  slots := Attribute.all.filterMap fun a => (es.lookup a.key).map (a, ·)
  extra := es.filter fun (k, _) => (Attribute.ofKey? k).isNone

def get? (n : Node) (a : Attribute) : Option Value := n.slots.lookup a

/-- What is set under the key of an attribute. -/
def get (n : Node) (key : String) : Except Attribute.Unknown (Option Value) :=
  (Attribute.ofKey key).map n.get?

/-- Whether two nodes set the same attributes to values that are loosely the same. -/
def alike (s : Store) (m n : Node) : Bool :=
  Attribute.all.all fun a =>
    match m.get? a, n.get? a with
    | none, none => true
    | some v, some w => v.alike s w
    | _, _ => false

end Node

inductive Alternative where
  | name (name : String)
  /-- A schema in line, by the address of its mapping. -/
  | schema (addr : Nat)
  deriving DecidableEq, Repr

/-- The alternative that an element of a union stands for: a text names a type, a mapping is a
    schema, and nothing else is an alternative. -/
def Alternative.ofValue? : Value → Option Alternative
  | .text t => some (.name t)
  | .mapping a => some (.schema a)
  | _ => none

end SchemaAudit

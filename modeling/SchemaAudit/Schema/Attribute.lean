/-! # Recognised attributes

The attributes of a schema node that rules speak about. Each has a key, under which documents
hold it, and a field name, by which listings call it.
-/

namespace SchemaAudit

/-- A recognised attribute of a schema node. -/
inductive Attribute where
  | type
  | disallow
  | required
  | enum
  | properties
  | patternProperties
  | additionalProperties
  | items
  | additionalItems
  | minItems
  | maxItems
  | uniqueItems
  | minimum
  | maximum
  | exclusiveMinimum
  | exclusiveMaximum
  | divisibleBy
  | minLength
  | maxLength
  | pattern
  | default
  deriving DecidableEq, Repr

namespace Attribute

/-- The attributes in the order of listings: unions, objects, arrays, numbers, texts, and the
    default last. -/
def all : List Attribute :=
  [type, disallow, required, enum, properties, patternProperties, additionalProperties, items,
   additionalItems, minItems, maxItems, uniqueItems, minimum, maximum, exclusiveMinimum,
   exclusiveMaximum, divisibleBy, minLength, maxLength, pattern, default]

theorem mem_all (a : Attribute) : a ∈ all := by cases a <;> decide

def key : Attribute → String
  | type => "type"
  | disallow => "disallow"
  | required => "required"
  | enum => "enum"
  | properties => "properties"
  | patternProperties => "patternProperties"
  | additionalProperties => "additionalProperties"
  | items => "items"
  | additionalItems => "additionalItems"
  | minItems => "minItems"
  | maxItems => "maxItems"
  | uniqueItems => "uniqueItems"
  | minimum => "minimum"
  | maximum => "maximum"
  | exclusiveMinimum => "exclusiveMinimum"
  | exclusiveMaximum => "exclusiveMaximum"
  | divisibleBy => "divisibleBy"
  | minLength => "minLength"
  | maxLength => "maxLength"
  | pattern => "pattern"
  | default => "default"

/-- The name of an attribute in listings. -/
def fieldName : Attribute → String
  | patternProperties => "pattern_properties"
  | additionalProperties => "additional_properties"
  | additionalItems => "additional_items"
  | minItems => "min_items"
  | maxItems => "max_items"
  | uniqueItems => "unique_items"
  | exclusiveMinimum => "exclusive_minimum"
  | exclusiveMaximum => "exclusive_maximum"
  | divisibleBy => "divisible_by"
  | minLength => "min_length"
  | maxLength => "max_length"
  | a => a.key

def ofKey? (k : String) : Option Attribute := all.find? fun a => a.key = k

/-- A key that is asked for as an attribute's and is none. -/
structure Unknown where
  key : String
  deriving DecidableEq, Repr

def Unknown.message (u : Unknown) : String := "Unknown schema attribute: '" ++ u.key ++ "'"

/-- The attribute that has to be under a key. -/
def ofKey (k : String) : Except Unknown Attribute :=
  match ofKey? k with
  | some a => .ok a
  | none => .error ⟨k⟩

end Attribute

end SchemaAudit

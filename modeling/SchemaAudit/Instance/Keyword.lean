/-! # Keywords

The keys of a schema that an evaluation heeds; all others are passed over.
-/

namespace SchemaAudit

/-- A keyword that bears on values. -/
inductive Keyword where
  | type
  | disallow
  | enum
  | properties
  | patternProperties
  | additionalProperties
  | items
  | additionalItems
  | minItems
  | maxItems
  | uniqueItems
  | minimum
  | maximum
  | divisibleBy
  | minLength
  | maxLength
  | pattern
  | dependencies
  | extending
  | ref
  deriving DecidableEq, Repr

namespace Keyword

def all : List Keyword :=
  [type, disallow, enum, properties, patternProperties, additionalProperties, items,
   additionalItems, minItems, maxItems, uniqueItems, minimum, maximum, divisibleBy, minLength,
   maxLength, pattern, dependencies, extending, ref]

def key : Keyword → String
  | type => "type"
  | disallow => "disallow"
  | enum => "enum"
  | properties => "properties"
  | patternProperties => "patternProperties"
  | additionalProperties => "additionalProperties"
  | items => "items"
  | additionalItems => "additionalItems"
  | minItems => "minItems"
  | maxItems => "maxItems"
  | uniqueItems => "uniqueItems"
  | minimum => "minimum"
  | maximum => "maximum"
  | divisibleBy => "divisibleBy"
  | minLength => "minLength"
  | maxLength => "maxLength"
  | pattern => "pattern"
  | dependencies => "dependencies"
  | extending => "extends"
  | ref => "$ref"

def ofKey? (k : String) : Option Keyword := all.find? fun w => w.key = k

end Keyword

end SchemaAudit

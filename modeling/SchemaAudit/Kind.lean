import SchemaAudit.Document.Value

/-! # Kinds of values

Every value is of exactly one kind. A whole number is an integer however it is written, so
`3.0` is one, while fractions, infinities and "not a number" are numbers without being
integers. Rules name kinds, or admit any value at all.
-/

namespace SchemaAudit

/-- The kind of a value. -/
inductive Kind where
  | object
  | array
  | string
  | integer
  | number
  | boolean
  | null
  /-- No kind that a schema could ask for. -/
  | unsupported
  deriving DecidableEq, Repr

/-- What a rule asks of a value. -/
inductive TypeName where
  | kind (k : Kind)
  | any
  deriving DecidableEq, Repr

/-- The kind of a value. -/
def Value.kind : Value → Kind
  | .null => .null
  | .bool _ => .boolean
  | .int _ => .integer
  | .float x => if x.isWhole then .integer else .number
  | .nan _ => .number
  | .text _ => .string
  | .octets _ => .unsupported
  | .list _ | .tuple _ => .array
  | .mapping _ => .object

namespace Kind

def name : Kind → String
  | .object => "object"
  | .array => "array"
  | .string => "string"
  | .integer => "integer"
  | .number => "number"
  | .boolean => "boolean"
  | .null => "null"
  | .unsupported => "unknown"

def all : List Kind := [.object, .array, .string, .integer, .number, .boolean, .null, .unsupported]

def phrase : Kind → String
  | .string => "a string"
  | .number => "a number"
  | .boolean => "a boolean"
  | .object => "an object"
  | .array => "an array"
  | .integer => "an integer"
  | .null => "null"
  | .unsupported => "an unsupported value"

end Kind

namespace TypeName

/-- The type that a name stands for. -/
def ofName? (name : String) : Option TypeName :=
  if name = "any" then some .any
  else (Kind.all.find? fun k => k.name = name).map .kind

/-- Whether a type admits a value. A number may be an integer. -/
def admits : TypeName → Value → Bool
  | .any, _ => true
  | .kind .number, v => v.kind == .number || v.kind == .integer
  | .kind k, v => v.kind == k

def phrase : TypeName → String
  | .any => "any type"
  | .kind k => k.phrase

end TypeName

namespace Value

/-- Whether a value is of a kind, integers being numbers too. -/
def isA (v : Value) (k : Kind) : Bool := (TypeName.kind k).admits v

def kindPhrase (v : Value) : String := v.kind.phrase

end Value

end SchemaAudit

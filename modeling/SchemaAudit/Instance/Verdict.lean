import SchemaAudit.Document.Value
import SchemaAudit.Pointer

/-! # Verdicts on values

Whether a value conforms to a schema. Besides yes and no there are two ways in which a schema
gives no answer: a keyword cannot be used, which is a fault of the schema that can be told, or
the evaluation breaks down at an operation that its operands do not allow.
-/

namespace SchemaAudit

/-- Why an evaluation broke down. -/
inductive Fault where
  | divisionByZero
  /-- A number beyond what the operation can represent. -/
  | overflow
  /-- A value of the right kind that an operation cannot take. -/
  | invalidValue
  /-- An operation on values of kinds it is not made for. -/
  | kindMismatch
  /-- A part was asked of a value that has no such parts. -/
  | noSuchPart
  /-- The evaluation runs into itself. -/
  | endless
  deriving DecidableEq, Repr

/-- The verdict of a schema on a value. -/
inductive Verdict where
  | fits
  | violated (path : Pointer) (message : String)
  | unusable (reason : String)
  | faulted (fault : Fault)
  deriving DecidableEq, Repr

/-- A judge of values: the value, and the address of the schema. -/
abbrev Judge := Value → Nat → Verdict

namespace Verdict

/-- A message with the place it is about, unless that is the whole value. -/
def located (path : Pointer) (message : String) : String :=
  if path = "" then message else message ++ " (at " ++ path ++ ")"

end Verdict

end SchemaAudit

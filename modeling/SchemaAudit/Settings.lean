import SchemaAudit.Document.Display
import SchemaAudit.Document.Equality
import SchemaAudit.Text.Numeral

/-! # Settings

The one setting is how deep schemas may be nested. It is a number of at least one, and may be
given as a text.
-/

namespace SchemaAudit

namespace Settings

/-- Why a setting is refused. -/
inductive Problem where
  | notPositive (shown : String)
  | notANumeral (text : String)
  deriving DecidableEq, Repr

/-- Why a setting is refused, in words. -/
def Problem.message : Problem → String
  | .notPositive shown => "max_depth must be a positive integer, got " ++ shown
  | .notANumeral text => "invalid literal for int() with base 10: " ++ Text.quoted text

/-- The depth that is allowed where nothing else is said. -/
def defaultDepth : Int := 100

/-- A depth has to be at least one. -/
def depthOf (v : Value) : Except Problem Value :=
  match v.looseMagnitude? with
  | some x =>
    if x.less (.ofInt 1) then .error (.notPositive (v.plain .empty)) else .ok v
  | none => .ok v

/-- A whole number as the greatest depth. -/
def limitOf (n : Int) : Except Problem Nat :=
  if n < 1 then .error (.notPositive (toString n)) else .ok n.toNat

/-- The greatest depth that a text, if there is one, gives. -/
def limitOfText (text? : Option String) : Except Problem Nat :=
  match text? with
  | none => limitOf defaultDepth
  | some text =>
    match Text.integer? text with
    | some n => limitOf n
    | none => .error (.notANumeral text)

end Settings

end SchemaAudit

import SchemaAudit.Document.Display
import SchemaAudit.Document.Equality
import SchemaAudit.Instance.Evaluation
import SchemaAudit.Pattern.Reader
import SchemaAudit.Pattern.Search

/-! # Keywords on numbers and texts -/

namespace SchemaAudit

namespace Evaluation

/-- Whether a pattern matches somewhere in a text. A pattern that cannot be read is a flaw of
    the schema. -/
def occurs (pattern text : String) : Except Stop Bool :=
  match Pattern.read pattern with
  | .ok e => .ok (e.occursIn text)
  | .error (.malformed cause position) =>
    flawed (.pattern (Pattern.located pattern cause position))
  | .error .countTooLarge => faulted .overflow
  | .error .contradictoryFlags => faulted .invalidValue

/-- The value of a limit; only numbers and booleans can be one. -/
def limit (v : Value) : Except Stop Magnitude :=
  match v.looseMagnitude? with
  | some x => .ok x
  | none => faulted .kindMismatch

/-- The side of the numbers that a limit allows on which it stands. -/
inductive Side where
  | least
  | most
  deriving DecidableEq, Repr

namespace Side

/-- Whether a number is beyond a limit. An exclusive limit is not allowed itself. -/
def exceeded (exclusive : Bool) (x bound : Magnitude) : Side → Bool
  | .least => if exclusive then x.lessOrEqual bound else x.less bound
  | .most => if exclusive then bound.lessOrEqual x else bound.less x

/-- What is said of a number beyond a limit, before the limit itself. -/
def phrase (exclusive : Bool) : Side → String
  | .least =>
    if exclusive then " is less than or equal to the minimum of " else " is less than the minimum of "
  | .most =>
    if exclusive then " is greater than or equal to the maximum of "
    else " is greater than the maximum of "

/-- What is said of a value with more or fewer parts than a limit. -/
def lengthPhrase (bound : Magnitude) : Side → String
  | .least => if bound.equal (.ofInt 1) then " should be non-empty" else " is too short"
  | .most => if bound.equal (.ofInt 0) then " is expected to be empty" else " is too long"

end Side

/-- A length has to be within a limit. -/
def checkLength (s : Store) (side : Side) (length : Nat) (bound inst : Value) : Evaluation := do
  let x ← limit bound
  violationIf (side.exceeded false (.ofInt length) x) (inst.display s ++ side.lengthPhrase x)

def textLength? : Value → Option Nat
  | .text t => some t.length
  | _ => none

def checkTextLength (s : Store) (side : Side) (bound inst : Value) : Evaluation :=
  match textLength? inst with
  | some n => checkLength s side n bound inst
  | none => clean

def checkPattern (s : Store) (pattern inst : Value) : Evaluation :=
  match inst, pattern with
  | .text t, .text p => do
    violationIf (!(← occurs p t)) (inst.display s ++ " does not match " ++ pattern.display s)
  | .text t, .octets os => do
    let _ ← occurs (String.ofList (os.map fun o => Char.ofNat o.toNat)) t
    faulted .kindMismatch
  | .text _, _ => faulted .kindMismatch
  | _, _ => clean

/-- A number has to be within a limit, and apart from it if the limit is exclusive. -/
def checkLimit (s : Store) (side : Side) (exclusive : Bool) (bound inst : Value) : Evaluation :=
  match inst.magnitude? with
  | none => clean
  | some x => do
    let y ← limit bound
    violationIf (side.exceeded exclusive x y)
      (inst.display s ++ side.phrase exclusive ++ bound.display s)

/-! ## Divisors -/

/-- A number as a double-precision one; `none` for not a number. -/
def asBinary64 : Value → Except Stop (Option Binary64)
  | .int n =>
    match Binary64.ofInt? n with
    | some x => .ok (some x)
    | none => faulted .overflow
  | .float x => .ok (some x)
  | .nan _ => .ok none
  | _ => faulted .kindMismatch

/-- Whether a double-precision divisor goes into a number: the rounded quotient is whole. A
    quotient beyond the finite numbers is decided exactly. -/
def dividesRounded (inst divisor : Value) : Except Stop Bool := do
  let x? ← asBinary64 inst
  let y? ← asBinary64 divisor
  if y?.any Binary64.isZero then faulted .divisionByZero
  else
    match x?, y? with
    | some x, some y =>
      match x.quotient? y with
      | none => faulted .invalidValue
      | some (.finite n m e) => return (Binary64.finite n m e).isWhole
      | some (.infinite _) =>
        match x, y with
        | .finite .., .finite .. =>
          return ((inst.magnitude?.getD .nan).isMultipleOf (divisor.magnitude?.getD .nan))
        | _, _ => faulted .overflow
    | _, _ => faulted .invalidValue

/-- Whether a whole divisor goes into a number without a rest. -/
def dividesExactly (inst : Value) (divisor : Int) : Except Stop Bool :=
  match inst with
  | .int n => if divisor = 0 then faulted .divisionByZero else .ok (n % divisor == 0)
  | _ =>
    match Binary64.ofInt? divisor with
    | none => faulted .overflow
    | some y =>
      if y.isZero then faulted .divisionByZero
      else .ok ((inst.magnitude?.getD .nan).isMultipleOf (.ofBinary64 y))

def checkDivisibleBy (s : Store) (divisor inst : Value) : Evaluation :=
  match inst.magnitude? with
  | none => clean
  | some _ => do
    let fits ←
      match divisor with
      | .float _ | .nan _ => dividesRounded inst divisor
      | .int n => dividesExactly inst n
      | .bool b => dividesExactly inst (if b then 1 else 0)
      | _ => faulted .kindMismatch
    violationIf (!fits) (inst.display s ++ " is not a multiple of " ++ divisor.plain s)

end Evaluation

end SchemaAudit

import SchemaAudit.Instance.Verdict
import SchemaAudit.Kind
import SchemaAudit.Text.Quoted

/-! # Evaluating a schema on a value

An evaluation collects all violations, in the order of the keywords. A flaw that makes a
keyword unusable, or a fault of an operation, stops it and takes back what was collected.
-/

namespace SchemaAudit

/-- A way in which a value does not conform, with the path to the part of the value that it is
    about. -/
structure Violation where
  path : List String
  message : String
  deriving DecidableEq, Repr

/-- Why a reference leads nowhere. -/
inductive BadReference where
  /-- The pointer to follow, and the document as it is shown. -/
  | nowhere (pointer shown : String)
  | noSuchAnchor (name shown : String)
  | invalidAnchor (name : String)
  | unknownDocument (ref : String)
  deriving DecidableEq, Repr

def BadReference.message : BadReference → String
  | .nowhere pointer shown =>
    "PointerToNowhere: " ++ Text.quoted pointer ++ " does not exist within " ++ shown
      ++ (if pointer = "/" then
            ". The pointer '/' is a valid JSON Pointer but it points to an empty string property"
              ++ " ''. If you intended to point to the entire resource, you should use '#'."
          else "")
  | .noSuchAnchor name shown =>
    "NoSuchAnchor: " ++ Text.quoted name ++ " does not exist within " ++ shown
  | .invalidAnchor name =>
    "InvalidAnchor: '#" ++ name ++ "' is not a valid anchor, neither as a plain name anchor nor"
      ++ " as a JSON Pointer. You may have intended to use '#/" ++ name
      ++ "', as the slash is required *before each segment* of a JSON pointer."
  | .unknownDocument ref => "Unresolvable: " ++ ref

/-- Why a schema cannot be used. -/
inductive Flaw where
  | unknownType (shown : String)
  | pattern (problem : String)
  | keyword (key : String) (found : Kind) (expected : String)
  | reference (problem : BadReference)
  deriving DecidableEq, Repr

def Flaw.message : Flaw → String
  | .unknownType shown => "unknown type '" ++ shown ++ "' cannot be checked"
  | .pattern problem => "pattern cannot be compiled: " ++ problem
  | .keyword key found expected =>
    "schema cannot be evaluated: '" ++ key ++ "' is " ++ found.phrase ++ " when it should be "
      ++ expected
  | .reference problem => "reference cannot be resolved: " ++ problem.message

/-- What stops an evaluation. -/
inductive Stop where
  | flaw (f : Flaw)
  | fault (f : Fault)
  deriving DecidableEq, Repr

/-- The violations of an evaluation, unless it was stopped. -/
abbrev Evaluation := Except Stop (List Violation)

namespace Evaluation

def clean : Evaluation := .ok []

/-- One violation, of the value itself. -/
def violation (message : String) : Evaluation := .ok [⟨[], message⟩]

def violationIf (failed : Bool) (message : String) : Evaluation :=
  if failed then violation message else clean

def flawed {α : Type} (f : Flaw) : Except Stop α := .error (.flaw f)

def faulted {α : Type} (f : Fault) : Except Stop α := .error (.fault f)

/-- The violations of all of a list, one after the other. -/
def gather {α : Type} (evaluate : α → Evaluation) : List α → Evaluation
  | [] => clean
  | x :: rest =>
    match evaluate x with
    | .error stop => .error stop
    | .ok found =>
      match gather evaluate rest with
      | .error stop => .error stop
      | .ok more => .ok (found ++ more)

theorem gather_nil {α : Type} (evaluate : α → Evaluation) : gather evaluate [] = .ok [] := rfl

theorem gather_cons {α : Type} (evaluate : α → Evaluation) (x : α) (rest : List α) :
    gather evaluate (x :: rest) =
      (evaluate x).bind fun found => (gather evaluate rest).map (found ++ ·) := by
  rw [gather]
  cases evaluate x with
  | error stop => rfl
  | ok found => cases gather evaluate rest <;> rfl

/-- The violations of a part as violations of the whole. -/
def below (token : String) (e : Evaluation) : Evaluation :=
  e.map (·.map fun v => { v with path := token :: v.path })

/-- How a schema is evaluated on a value. -/
abbrev Descent := Value → Value → Evaluation

/-- Evaluate a schema on a part. That nothing is allowed at all, which is what `false` stands
    for, is a violation of the whole; all others are violations of the part. -/
def descendTo (descend : Descent) (token : String) (schema part : Value) : Evaluation :=
  match schema with
  | .bool false => descend schema part
  | _ => below token (descend schema part)

end Evaluation

end SchemaAudit

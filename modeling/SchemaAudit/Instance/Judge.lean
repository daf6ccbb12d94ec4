import SchemaAudit.Document.Value
import SchemaAudit.Instance.Evaluation
import SchemaAudit.Instance.Schema

/-! # Judging values

Of all violations only the most specific one is told: the first of those that are about the
most deeply nested part of the value. A flaw of the schema goes before any violation.
-/

namespace SchemaAudit

namespace Evaluation

/-- The first of two violations, unless the second is about a part nested more deeply. -/
def deeper (v w : Violation) : Violation :=
  if v.path.length < w.path.length then w else v

/-- The violation that is told. -/
def mostSpecific? : List Violation → Option Violation
  | [] => none
  | v :: rest => some (rest.foldl deeper v)

/-- A bound on how deep an evaluation goes without running into itself: the schemas on the way
    are mappings inside the root, the values are values inside the instance, and the base is one
    that some of these schemas have given. -/
def depthBound (s : Store) (root inst : Value) : Nat :=
  let occurrences := root.unfold s ++ inst.unfold s
  let mappings := occurrences.countP fun v => v.kind == .object
  2 * Nat.pow (mappings + 2) 4 * (occurrences.length + 2)

/-- Evaluate the schema at an address as a root. -/
def ofRoot (s : Store) (addr : Nat) (inst : Value) : Evaluation := do
  let l ← Reference.Library.ofRoot s addr
  evaluate l (depthBound s (.mapping addr) inst) .referred ⟨l.rootUri, false⟩ (.mapping addr) inst

def verdict (e : Evaluation) : Verdict :=
  match e with
  | .error (.flaw f) => .unusable f.message
  | .error (.fault f) => .faulted f
  | .ok found =>
    match mostSpecific? found with
    | none => .fits
    | some v => .violated (Pointer.extend "" v.path) v.message

end Evaluation

/-- The flaw of a root whose identifier is no text. -/
def identifierFlaw? (es : Entries) : Option Flaw :=
  match es.lookup Reference.identifierKey with
  | none | some .null | some (.text _) => none
  | some v => some (.keyword Reference.identifierKey v.kind "a string")

/-- The verdict of the schema at an address, taken as a root, on a value. -/
def judge (s : Store) : Judge := fun inst addr =>
  match identifierFlaw? (s.entries addr) with
  | some f => .unusable f.message
  | none => (Evaluation.ofRoot s addr inst).verdict

/-- The verdict of a schema on a value. A schema has to be a mapping. -/
def judgeBy (s : Store) (schema inst : Value) : Verdict :=
  match schema with
  | .mapping addr => judge s inst addr
  | _ => .faulted .noSuchPart

end SchemaAudit

import SchemaAudit.Instance.Judge
import SchemaAudit.Schema.Walk

/-! # Auditing a schema

The whole check of a schema: its root, its nodes, and its defaults, each judged by the node
that declares it. A validation is an audit that raises what it finds.
-/

namespace SchemaAudit

/-- How a validation fails. -/
inductive Refusal where
  /-- The error of the rule that is broken, its message, and the finding itself. -/
  | invalid (error : String) (message : String) (finding : Finding)
  | faulted (fault : Fault)
  deriving DecidableEq, Repr

/-- The outcome of an audit as that of a validation. -/
def Outcome.validated : Outcome → Except Refusal Unit
  | .accepted => .ok ()
  | .rejected f => .error (.invalid f.rule.errorName f.message f)
  | .faulted fault => .error (.faulted fault)

namespace Document

/-- Audit a document as a schema whose nodes may be nested up to a limit. -/
def audit (d : Document) (limit : Nat) : Report := auditWith (judge d.store) d limit

/-- Validate a document as such a schema. -/
def validate (d : Document) (limit : Nat) : Except Refusal Unit := (d.audit limit).outcome.validated

end Document

end SchemaAudit

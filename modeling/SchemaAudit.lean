import SchemaAudit.Audit
import SchemaAudit.Document.Edit
import SchemaAudit.Settings
import SchemaAudit.Proofs.Acceptance
import SchemaAudit.Proofs.FirstFinding
import SchemaAudit.Proofs.Location
import SchemaAudit.Proofs.Breakdown
import SchemaAudit.Proofs.Lookups
import SchemaAudit.Proofs.Relocation
import SchemaAudit.Proofs.Chain
import SchemaAudit.Proofs.Cycles
import SchemaAudit.Proofs.DepthLimit
import SchemaAudit.Proofs.Trace
import SchemaAudit.Proofs.Defaults
import SchemaAudit.Proofs.Copies
import SchemaAudit.Proofs.Likeness
import SchemaAudit.Proofs.CopyLooks
import SchemaAudit.Proofs.PairedReferences
import SchemaAudit.Proofs.CopyReferences
import SchemaAudit.Proofs.CopyJudgement
import SchemaAudit.Proofs.WalkAgreement
import SchemaAudit.Proofs.Separation
import SchemaAudit.Proofs.Sharing
import SchemaAudit.Proofs.Alternatives
import SchemaAudit.Proofs.Calls
import SchemaAudit.Proofs.Recognition
import SchemaAudit.Proofs.ReorderedReferences
import SchemaAudit.Proofs.Retouching
import SchemaAudit.Proofs.ShapeSafety
import SchemaAudit.Proofs.ViolationPaths
import SchemaAudit.Proofs.Encoding
import SchemaAudit.Proofs.NodeParts
import SchemaAudit.Proofs.Whereabouts

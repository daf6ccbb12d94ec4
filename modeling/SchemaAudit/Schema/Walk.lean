import SchemaAudit.Instance.Verdict
import SchemaAudit.Schema.Plan

/-! # Checking a schema

The walk visits a node, then the schemas that it holds, and stops at the first finding. What it
does is told by a log. Judging a default is left to a function that is given, so that the walk
can be reasoned about whatever that function is.
-/

namespace SchemaAudit

/-- What the log tells. -/
inductive Record where
  | entered (pointer : Pointer) (depth : Nat)
  | unusable (reason : String)
  | violated (path : Pointer) (message : String)
  | rejected (rule : Rule) (message : String)
  deriving DecidableEq, Repr

namespace Record

/-- A pointer in the log, where the root is shown as a slash. -/
def shownPointer (p : Pointer) : String := if p = "" then "/" else p

def sentence : Record → String
  | .entered p d =>
    "Checking schema node '" ++ shownPointer p ++ "' (depth " ++ toString d ++ ")"
  | .unusable reason => "Instance could not be checked: " ++ reason
  | .violated path message =>
    "Instance rejected at '" ++ shownPointer path ++ "': " ++ message
  | .rejected rule message => "Schema rejected (" ++ rule.name ++ "): " ++ message

end Record

/-- What became of checking a schema. -/
inductive Outcome where
  | accepted
  | rejected (f : Finding)
  | faulted (fault : Fault)
  deriving DecidableEq, Repr

/-- An outcome with the log that led to it. -/
structure Report where
  log : List Record
  outcome : Outcome
  deriving DecidableEq, Repr

namespace Report

/-- Nothing done and nothing found. -/
def clear : Report := ⟨[], .accepted⟩

def found (f : Finding) : Report := ⟨[], .rejected f⟩

/-- Go on with more work, unless there is a finding or a fault already. -/
def andThen (r : Report) (next : Unit → Report) : Report :=
  match r.outcome with
  | .accepted => let rest := next (); ⟨r.log ++ rest.log, rest.outcome⟩
  | _ => r

theorem andThen_accepted (log : List Record) (next : Unit → Report) :
    andThen ⟨log, .accepted⟩ next = ⟨log ++ (next ()).log, (next ()).outcome⟩ := rfl

theorem andThen_rejected (log : List Record) (f : Finding) (next : Unit → Report) :
    andThen ⟨log, .rejected f⟩ next = ⟨log, .rejected f⟩ := rfl

theorem andThen_faulted (log : List Record) (fault : Fault) (next : Unit → Report) :
    andThen ⟨log, .faulted fault⟩ next = ⟨log, .faulted fault⟩ := rfl

theorem andThen_assoc (r : Report) (next more : Unit → Report) :
    (r.andThen next).andThen more = r.andThen fun _ => (next ()).andThen more := by
  obtain ⟨log, outcome⟩ := r
  cases outcome with
  | accepted =>
    cases h : (next ()).outcome <;> simp [andThen, h]
  | rejected | faulted => rfl

/-- The report with its finding told from outside. -/
def mapFinding (wrap : Finding → Finding) (r : Report) : Report :=
  match r.outcome with
  | .rejected f => ⟨r.log, .rejected (wrap f)⟩
  | _ => r

/-- Do the steps of a plan, up to the first that is or has a finding. -/
def ofSteps (visit : Hop → Value → Report) : List Step → Report
  | [] => clear
  | .found f :: _ => found f
  | .visit hop v :: rest => (visit hop v).andThen fun _ => ofSteps visit rest

end Report

namespace Place

/-- What a finding behind a hop is told under: the attribute, and the element within it. -/
def hopContext (p : Place) : Hop → String
  | .entry a _ | .value a => p.label ++ ": '" ++ a.key ++ "' attribute is not a valid schema"
  | .element a i =>
    p.label ++ ": '" ++ a.key ++ "' attribute " ++ (if a = .items then "" else "union ")
      ++ "element " ++ toString i ++ " is not a valid schema"

/-- A finding behind a hop as told from the node. Named schemas speak for themselves; inline
    ones are spoken of by the attribute that holds them. -/
def wrap (p : Place) (hop : Hop) (f : Finding) : Finding :=
  if hop.isInline then .within (p.hopContext hop) f else f

def notANode (p : Place) (v : Value) : Finding :=
  .leaf .invalidNodeType (p.label ++ " is " ++ v.kindPhrase ++ " when it should be an object")
    (some p.pointer)

def cyclic (p : Place) : Finding :=
  .leaf .cyclicSchema (p.label ++ " at '" ++ p.pointer ++ "' contains itself") (some p.pointer)

def tooDeep (p : Place) : Finding :=
  .leaf .schemaTooDeep
    (p.label ++ " at '" ++ p.pointer ++ "' is nested deeper than " ++ toString p.limit ++ " levels")
    (some p.pointer)

def unfitDefault (p : Place) (complaint : String) : Finding :=
  .leaf .invalidDefault
    (p.label ++ ": 'default' attribute value is not valid according to the schema: " ++ complaint)
    (some (p.pointerTo [Attribute.default.key]))

end Place

/-- A default, if there is one, has to conform to the node that declares it. -/
def Node.judgeDefault (judge : Judge) (n : Node) (p : Place) (addr : Nat) : Report :=
  match n.get? .default with
  | none => .clear
  | some v =>
    match judge v addr with
    | .fits => .clear
    | .unusable reason => ⟨[.unusable reason], .rejected (p.unfitDefault reason)⟩
    | .violated path message =>
      ⟨[.violated path message], .rejected (p.unfitDefault (Verdict.located path message))⟩
    | .faulted fault => ⟨[], .faulted fault⟩

/-- Check the node at a place and all schemas inside. The nodes around a node are distinct
    mappings, so that nesting is bounded by their number; `fuel` has to exceed it. -/
def walk (judge : Judge) (s : Store) : Nat → Place → Value → Report
  | 0, _, _ => ⟨[], .faulted .endless⟩
  | fuel + 1, p, v =>
    match v with
    | .mapping addr =>
      if addr ∈ p.ancestors then .found p.cyclic
      else if p.limit ≤ p.depth then .found p.tooDeep
      else
        let inside := p.enter addr
        let n := Node.ofEntries (s.entries addr)
        Report.andThen ⟨[.entered inside.pointer inside.depth], .accepted⟩ fun _ =>
          Report.andThen
            (.ofSteps
              (fun hop w =>
                (walk judge s fuel (inside.descend hop) w).mapFinding (inside.wrap hop))
              (n.plan s inside))
            fun _ => n.judgeDefault judge inside addr
    | v => .found (p.notANode v)

def rootTypes : List String := ["object", "array"]

/-- The findings on the root alone, before any walk. -/
def rootFinding? (d : Document) : Option Finding :=
  match d.root with
  | .null => some (.leaf .schemaMissing "Schema is undefined" (some ""))
  | .mapping addr =>
    match (d.store.entries addr).lookup Attribute.type.key with
    | none => some (.leaf .missingType "Schema: 'type' is required" (some ""))
    | some v =>
      let finding (shown : String) : Finding :=
        .leaf .invalidRootTypeValue
          ("Schema: 'type' is " ++ shown ++ " when it should be either 'object' or 'array'")
          (some "/type")
      match v with
      | .text t => if t ∈ rootTypes then none else some (finding ("'" ++ t ++ "'"))
      | v => some (finding v.kindPhrase)
  | v =>
    some (.leaf .invalidRootType ("Schema is " ++ v.kindPhrase ++ " when it should be an object")
      (some ""))

/-- A report with its finding put into the log. -/
def Report.logged (r : Report) : Report :=
  match r.outcome with
  | .rejected f => ⟨r.log ++ [.rejected f.rule f.message], r.outcome⟩
  | _ => r

/-- Check a whole schema: the root, then all nodes. -/
def auditWith (judge : Judge) (d : Document) (limit : Nat) : Report :=
  match rootFinding? d with
  | some f => .found f
  | none => (walk judge d.store (d.store.maps.size + 1) (.root limit) d.root).logged

end SchemaAudit

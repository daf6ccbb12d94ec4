import SchemaAudit.Proofs.Chain
import SchemaAudit.Proofs.Cycles
import SchemaAudit.Proofs.Trace

/-! # What a walk knows of where it is

Every call of a walk is told its place: the names, the pointer, the depth and the nodes around.
These are handed on from call to call, and they stay true to the way through the document. The
calls themselves are told apart by the log, which has a record for each node that is entered.
-/

namespace SchemaAudit

namespace Report

theorem log_andThen (r : Report) (next : Unit → Report) :
    (r.andThen next).log = if r.outcome = .accepted then r.log ++ (next ()).log else r.log := by
  obtain ⟨log, outcome⟩ := r
  cases outcome <;> simp [andThen]

theorem log_mapFinding (wrap : Finding → Finding) (r : Report) :
    (r.mapFinding wrap).log = r.log := by
  obtain ⟨log, outcome⟩ := r
  cases outcome <;> simp [mapFinding]

theorem entered_mem_logged {r : Report} {pointer : Pointer} {depth : Nat} :
    .entered pointer depth ∈ r.logged.log ↔ .entered pointer depth ∈ r.log := by
  obtain ⟨log, outcome⟩ := r
  cases outcome <;> simp [logged]

/-- The log of steps tells what the log of a visit does that is come to with all steps before it
    accepted. -/
theorem mem_log_ofSteps {visit : Hop → Value → Report} {steps : List Step} {r : Record} :
    r ∈ (ofSteps visit steps).log ↔ ∃ before hop v after,
      steps = before ++ .visit hop v :: after ∧ (ofSteps visit before).outcome = .accepted ∧
        r ∈ (visit hop v).log := by
  constructor
  · intro told
    induction steps with
    | nil => simp [ofSteps, clear] at told
    | cons step rest ih =>
        cases step with
        | found f => simp [ofSteps, found] at told
        | visit hop v =>
            rw [ofSteps, log_andThen] at told
            by_cases first : (visit hop v).outcome = .accepted
            · rw [if_pos first, List.mem_append] at told
              obtain here | later := told
              · exact ⟨[], hop, v, rest, rfl, rfl, here⟩
              · obtain ⟨before, hop', v', after, rfl, passed, inner⟩ := ih later
                refine ⟨.visit hop v :: before, hop', v', after, rfl, ?_, inner⟩
                rw [ofSteps, outcome_andThen, if_pos first, passed]
            · rw [if_neg first] at told
              exact ⟨[], hop, v, rest, rfl, rfl, told⟩
  · intro reached
    obtain ⟨before, hop, v, after, rfl, passed, inner⟩ := reached
    rw [ofSteps_append, log_andThen, if_pos passed, ofSteps, log_andThen]
    split <;> simp [inner]

end Report

theorem Node.entered_not_mem_judgeDefault {n : Node} {judge : Judge} {p : Place} {addr : Nat}
    {pointer : Pointer} {depth : Nat} :
    .entered pointer depth ∉ (n.judgeDefault judge p addr).log := by
  rw [judgeDefault]
  cases n.get? .default with
  | none => simp [Report.clear]
  | some v => cases verdict : judge v addr <;> simp [verdict, Report.clear]

namespace Store

/-- One call of a walk makes another. The node is entered, and the steps of its plan are taken in
    order: the visit is come to when all steps before it are visits that were accepted. -/
inductive Calls (s : Store) (judge : Judge) : Place × Value → Place × Value → Prop where
  | visiting {p : Place} {addr : Nat} {hop : Hop} {w : Value} {before after : List Step}
      (fresh : addr ∉ p.ancestors) (shallow : p.depth < p.limit)
      (asked : (s.node addr).plan s (p.enter addr) = before ++ .visit hop w :: after)
      (clear : ∀ f, .found f ∉ before)
      (accepted : ∀ hop w, .visit hop w ∈ before →
        (s.check judge ((p.enter addr).descend hop) w).outcome = .accepted) :
      Calls s judge (p, .mapping addr) ((p.enter addr).descend hop, w)

variable {judge : Judge} {s : Store} {p : Place} {v : Value}

/-- The calls that are made are among those that the plans of nodes ask for. -/
theorem Calls.calledFrom {outer inner : Place × Value} (calls : s.Calls judge outer inner) :
    s.CalledFrom inner outer := by
  cases calls with
  | visiting fresh _ asked _ _ =>
      refine .inside fresh ?_
      rw [asked]
      exact List.mem_append_cons_self

/-- Only a node that can be entered makes calls. -/
theorem Calls.canEnter {inner : Place × Value} (calls : s.Calls judge (p, v) inner) :
    p.CanEnter v := by
  cases calls with
  | visiting fresh shallow _ _ _ => exact ⟨_, rfl, fresh, shallow⟩

/-- Judging its default does not enter a node once more. -/
theorem entered_mem_log_examine {walkAt : Place → Value → Report} {addr : Nat} {pointer : Pointer}
    {depth : Nat} :
    .entered pointer depth ∈ (examine walkAt judge s p addr).log ↔
      .entered pointer depth ∈
        (Report.ofSteps (fun hop w => (walkAt (p.descend hop) w).mapFinding (p.wrap hop))
          ((s.node addr).plan s p)).log := by
  rw [examine, Report.log_andThen]
  split <;> simp [Node.entered_not_mem_judgeDefault]

/-- The log of a node that is entered tells of that, and of what the calls enter that it makes. -/
theorem entered_mem_log_enter {addr : Nat} (fresh : addr ∉ p.ancestors)
    (shallow : p.depth < p.limit) {pointer : Pointer} {depth : Nat} :
    .entered pointer depth ∈ (s.check judge p (.mapping addr)).log ↔
      (p.pointer = pointer ∧ p.depth + 1 = depth) ∨
        ∃ inner, s.Calls judge (p, .mapping addr) inner ∧
          .entered pointer depth ∈ (s.check judge inner.1 inner.2).log := by
  rw [check_enter fresh shallow, Report.andThen_accepted, List.mem_append, List.mem_singleton,
    Record.entered.injEq, entered_mem_log_examine, Report.mem_log_ofSteps]
  refine or_congr (and_congr eq_comm eq_comm) ⟨?_, ?_⟩
  · intro reached
    obtain ⟨before, hop, w, after, asked, passed, inner⟩ := reached
    rw [Report.log_mapFinding] at inner
    obtain ⟨clear, visits⟩ := Report.ofSteps_accepted.mp passed
    refine ⟨_, .visiting fresh shallow asked clear ?_, inner⟩
    intro hop w earlier
    exact Report.mapFinding_accepted.mp (visits hop w earlier)
  · intro called
    obtain ⟨_, calls, inner⟩ := called
    cases calls with
    | @visiting _ _ hop w before after _ _ asked clear accepted =>
        refine ⟨before, hop, w, after, asked, Report.ofSteps_accepted.mpr ⟨clear, ?_⟩, ?_⟩
        · intro hop w earlier
          exact Report.mapFinding_accepted.mpr (accepted hop w earlier)
        · rwa [Report.log_mapFinding]

/-- The log of a walk tells exactly of the calls that enter a node. -/
theorem entered_mem_log (judge : Judge) (s : Store) (p : Place) (v : Value) {pointer : Pointer}
    {depth : Nat} :
    .entered pointer depth ∈ (s.check judge p v).log ↔
      ∃ q w, Relation.ReflTransGen (s.Calls judge) (p, v) (q, w) ∧ q.CanEnter w ∧
        q.pointer = pointer ∧ q.depth + 1 = depth := by
  refine walk_induction s (motive := fun p v =>
    .entered pointer depth ∈ (s.check judge p v).log ↔
      ∃ q w, Relation.ReflTransGen (s.Calls judge) (p, v) (q, w) ∧ q.CanEnter w ∧
        q.pointer = pointer ∧ q.depth + 1 = depth) ?_ p v
  intro p v ih
  by_cases canEnter : p.CanEnter v
  · obtain ⟨addr, rfl, fresh, shallow⟩ := canEnter
    have inside : ∀ inner, s.Calls judge (p, .mapping addr) inner →
        (.entered pointer depth ∈ (s.check judge inner.1 inner.2).log ↔
          ∃ q w, Relation.ReflTransGen (s.Calls judge) inner (q, w) ∧ q.CanEnter w ∧
            q.pointer = pointer ∧ q.depth + 1 = depth) := by
      intro inner calls
      cases calls.calledFrom with
      | inside _ asked => exact ih addr _ _ rfl fresh asked
    rw [entered_mem_log_enter fresh shallow]
    constructor
    · intro told
      obtain ⟨here, deep⟩ | ⟨inner, calls, told⟩ := told
      · exact ⟨p, _, .refl, ⟨addr, rfl, fresh, shallow⟩, here, deep⟩
      · obtain ⟨q, w, further, rest⟩ := (inside inner calls).mp told
        exact ⟨q, w, .head calls further, rest⟩
    · intro reached
      obtain ⟨q, w, further, rest⟩ := reached
      obtain same | ⟨inner, calls, further⟩ := further.cases_head
      · obtain ⟨rfl, rfl⟩ := Prod.mk.inj same
        exact .inl rest.2
      · exact .inr ⟨inner, calls, (inside inner calls).mpr ⟨q, w, further, rest⟩⟩
  · obtain ⟨f, _, refused⟩ := check_barred judge s canEnter
    constructor
    · intro told
      simp [refused, Report.found] at told
    · intro reached
      obtain ⟨q, w, further, enters, _⟩ := reached
      obtain same | ⟨inner, calls, _⟩ := further.cases_head
      · obtain ⟨rfl, rfl⟩ := Prod.mk.inj same
        exact absurd enters canEnter
      · exact absurd calls.canEnter canEnter

end Store

/-- What the place of a call tells of the way from the root of a document to a value. -/
structure Place.Accounts (p : Place) (d : Document) (limit : Nat) (legs : List Leg) (v : Value) :
    Prop where
  trail : Trail d.store d.root legs v
  limited : p.limit = limit
  /-- The pointer tells the way, and followed from the root it leads to the value. -/
  pointer : p.pointer = Pointer.extend "" (Leg.tokens legs)
  resolves : d.resolve? p.pointer = some v
  /-- The nodes around are the mappings at the node positions above, innermost first. -/
  nodes : p.ancestors = (Leg.nodes legs).reverse
  above : ∀ addr, addr ∈ p.ancestors ↔ ∃ before onward, legs = before ++ onward ∧ onward ≠ [] ∧
    d.resolve? (Pointer.extend "" (Leg.tokens before)) = some (.mapping addr)
  distinct : p.ancestors.Nodup
  counted : p.depth = p.ancestors.length
  shallow : p.depth ≤ limit
  /-- The names are those passed since the last inline hop, or since the root. -/
  names : (Hop.stretches (legs.map Leg.hop)).getLast? = some p.names

namespace Document

/-- In the run of an audit the walk is called at a place, for a value. -/
def Calls (d : Document) (limit : Nat) (p : Place) (v : Value) : Prop :=
  rootFinding? d = none ∧
    Relation.ReflTransGen (d.store.Calls (judge d.store)) (.root limit, d.root) (p, v)

variable {d : Document} {limit : Nat} {p : Place} {v : Value}

/-- The log of an audit tells exactly of the calls that enter a node. -/
theorem entered_mem_audit_log {pointer : Pointer} {depth : Nat} :
    .entered pointer depth ∈ (d.audit limit).log ↔
      ∃ p v, d.Calls limit p v ∧ p.CanEnter v ∧ p.pointer = pointer ∧ p.depth + 1 = depth := by
  rw [audit, auditWith]
  simp only [Calls]
  cases told : rootFinding? d with
  | some f => simp [Report.found]
  | none =>
      simp only [Report.entered_mem_logged, true_and]
      exact Store.entered_mem_log (judge d.store) d.store (.root limit) d.root

/-- The nodes around the place of a call are the mappings at the node positions above it. -/
theorem mem_nodes_iff_above (keys : d.store.KeysDistinct) {legs : List Leg} {addr : Nat}
    (trail : Trail d.store d.root legs v) :
    addr ∈ Leg.nodes legs ↔ ∃ before onward, legs = before ++ onward ∧ onward ≠ [] ∧
      d.resolve? (Pointer.extend "" (Leg.tokens before)) = some (.mapping addr) := by
  constructor
  · intro left
    obtain ⟨before, onward, rfl, further, there, _⟩ := trail.through left
    refine ⟨before, onward, rfl, further, ?_⟩
    rw [resolve?_extend]
    exact there.resolves keys
  · intro above
    obtain ⟨before, onward, rfl, further, leads⟩ := above
    obtain ⟨u, there, onward⟩ := trail.split
    rw [resolve?_extend, there.resolves keys] at leads
    obtain rfl := Option.some.inj leads
    cases onward with
    | stay => exact absurd rfl further
    | leg => simp

/-- No call is deeper than the limit: a node makes calls only when it is above it. -/
theorem Calls.shallow (calls : d.Calls limit p v) : p.depth ≤ p.limit := by
  obtain ⟨_, reached⟩ := calls
  cases reached with
  | refl => exact Nat.zero_le _
  | tail _ last =>
      cases last with
      | visiting _ shallow _ _ _ =>
          rw [Place.depth_descend, Place.limit_descend]
          exact shallow

/-- The walk always knows where it is.

    At every call that it makes in an audit, its place accounts for the way to the value it is
    called for: the limit is the one of the audit, the pointer leads to the value, the nodes
    around are the mappings above, distinct and counted by the depth, which the limit bounds, and
    the names are those behind the last inline hop. The calls that enter a node are those that the
    log tells of. -/
theorem calls_accounts (keys : d.store.KeysDistinct) (limit : Nat) :
    (∀ p v, d.Calls limit p v → ∃ legs, p.Accounts d limit legs v) ∧
    ∀ pointer depth, .entered pointer depth ∈ (d.audit limit).log ↔
      ∃ p v, d.Calls limit p v ∧ p.CanEnter v ∧ p.pointer = pointer ∧ p.depth + 1 = depth := by
  refine ⟨fun p v calls => ?_, fun pointer depth => entered_mem_audit_log⟩
  have called : Relation.ReflTransGen (Function.swap d.store.CalledFrom) (.root limit, d.root)
      (p, v) := Relation.ReflTransGen.mono (fun _ _ => Store.Calls.calledFrom) _ _ calls.2
  obtain ⟨legs, place, nested, trail⟩ := Store.called_trail called
  obtain rfl : p = (Place.root limit).after legs := place
  have limited : ((Place.root limit).after legs).limit = limit := Place.limit_after _ _
  have pointer : ((Place.root limit).after legs).pointer = Pointer.extend "" (Leg.tokens legs) :=
    Place.pointer_after _ _
  have nodes := Place.ancestors_after_root limit legs
  refine ⟨legs, trail, limited, pointer, ?resolves, nodes, ?above, nested.distinct,
    nested.counted, calls.shallow.trans_eq limited, ?names⟩
  case resolves =>
    rw [pointer, resolve?_extend]
    exact trail.resolves keys
  case above =>
    intro addr
    rw [nodes, List.mem_reverse]
    exact mem_nodes_iff_above keys trail
  case names =>
    rw [← Hop.stretchesFrom_nil]
    exact Place.names_after (.root limit) legs

/-- The second item of a property with a slash in its name is the root again, and the first is
    what another property has as its schema. -/
def throughItems : Document where
  store :=
    { lists := #[[.mapping 2, .mapping 0]]
      maps := #[[("type", .text "object"), ("properties", .mapping 1)],
        [("a", .mapping 2), ("b/", .mapping 3)], [], [("items", .list 0)]] }
  root := .mapping 0

theorem calls_accounts_throughItems :
    let p : Place := ⟨[], "/properties/b~1/items/1", 2, 7, [3, 0]⟩
    throughItems.store.KeysDistinct ∧ throughItems.Calls 7 p (.mapping 0) ∧
    (∃ legs, p.Accounts throughItems 7 legs (.mapping 0)) ∧
    ∃ p v, throughItems.Calls 7 p v ∧ p.CanEnter v ∧ p.pointer = "/properties/b~1/items/0" ∧
      p.depth + 1 = 3 := by
  intro p
  have keys : throughItems.store.KeysDistinct := by decide +kernel
  let q : Place := ⟨["b/"], "/properties/b~1", 1, 7, [0]⟩
  have toProperty : throughItems.store.Calls (judge throughItems.store) (.root 7, .mapping 0)
      (q, .mapping 3) := by
    refine @Store.Calls.visiting _ _ (.root 7) 0 (.entry .properties "b/") (.mapping 3)
      [.visit (.entry .properties "a") (.mapping 2)] [] (by decide) (by decide) rfl (by simp) ?_
    intro hop w earlier
    obtain ⟨rfl, rfl⟩ := Step.visit.inj (List.mem_singleton.mp earlier)
    decide +kernel
  have toItem : throughItems.store.Calls (judge throughItems.store) (q, .mapping 3)
      (p, .mapping 0) := by
    refine @Store.Calls.visiting _ _ q 3 (.element .items 1) (.mapping 0)
      [.visit (.element .items 0) (.mapping 2)] [] (by decide) (by decide) rfl (by simp) ?_
    intro hop w earlier
    obtain ⟨rfl, rfl⟩ := Step.visit.inj (List.mem_singleton.mp earlier)
    decide +kernel
  have calls : throughItems.Calls 7 p (.mapping 0) :=
    ⟨by decide +kernel, .tail (.single toProperty) toItem⟩
  obtain ⟨accounts, logged⟩ := calls_accounts keys 7
  exact ⟨keys, calls, accounts p (.mapping 0) calls, (logged _ _).mp (by decide +kernel)⟩

end Document

end SchemaAudit

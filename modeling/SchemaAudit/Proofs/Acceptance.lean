import SchemaAudit.Audit
import SchemaAudit.Proofs.Recursion

/-! # The accepted documents

Which documents an audit accepts, said by what they hold. A document is well formed when its
root has one of the types for whole schemas, when every value that a trail of schema positions
leads to is a mapping, outside itself and not too deep, and when each of these mappings keeps
the rules on its attributes and declares no default that it would not admit.
-/

namespace SchemaAudit

namespace Store

/-- What is asked of a mapping at a place, apart from the schemas inside. -/
structure Acceptable (s : Store) (judge : Judge) (p : Place) (addr : Nat) : Prop where
  fresh : addr ∉ p.ancestors
  shallow : p.depth < p.limit
  permitted : ∀ a v, s.attribute? addr a = some v → s.Permits a v
  fits : ∀ v, s.attribute? addr .default = some v → judge v addr = .fits

/-- Every trail from a value ends at an acceptable mapping. -/
def Sound (s : Store) (judge : Judge) (p : Place) (v : Value) : Prop :=
  ∀ legs w, Trail s v legs w → ∃ addr, w = .mapping addr ∧ s.Acceptable judge (p.after legs) addr

variable {judge : Judge} {s : Store} {p : Place}

/-- The plan of a node has a finding exactly when an attribute breaks its rule. -/
theorem plan_clear_iff {addr : Nat} :
    (∀ g, .found g ∉ (s.node addr).plan s p) ↔
      ∀ a v, s.attribute? addr a = some v → s.Permits a v := by
  constructor
  · exact fun clear a v found => Node.permits_of_clear clear found
  · intro permitted g told
    obtain ⟨r, tokens, v, message, broken, _⟩ := Node.plan_grounded told
    obtain ⟨a, u, found, wrong⟩ := broken.not_permits
    exact wrong (permitted a u found)

/-- A node that is entered is accepted when it keeps its rules, every value that it holds is
    accepted, and its default fits. -/
theorem check_enter_accepted {addr : Nat} (fresh : addr ∉ p.ancestors)
    (shallow : p.depth < p.limit) :
    (s.check judge p (.mapping addr)).outcome = .accepted ↔
      (∀ a v, s.attribute? addr a = some v → s.Permits a v) ∧
      (∀ hop v, s.Holds addr hop v →
        (s.check judge ((p.enter addr).descend hop) v).outcome = .accepted) ∧
      ∀ v, s.attribute? addr .default = some v → judge v addr = .fits := by
  rw [outcome_check_enter fresh shallow, examine, Report.outcome_andThen]
  simp only [← Node.judgeDefault_accepted (p := p.enter addr)]
  rw [← plan_clear_iff (p := p.enter addr)]
  constructor
  · intro accepted
    split at accepted
    · next steps =>
        obtain ⟨clear, visits⟩ := Report.ofSteps_accepted.mp steps
        refine ⟨clear, fun hop v held => ?_, accepted⟩
        exact Report.mapFinding_accepted.mp (visits hop v (Node.visit_mem_plan clear held))
    · next steps => exact absurd accepted steps
  · rintro ⟨clear, inside, default⟩
    have steps : (Report.ofSteps
        (fun hop w => (s.check judge ((p.enter addr).descend hop) w).mapFinding
          ((p.enter addr).wrap hop))
        ((s.node addr).plan s (p.enter addr))).outcome = .accepted := by
      refine Report.ofSteps_accepted.mpr ⟨clear, fun hop v member => ?_⟩
      exact Report.mapFinding_accepted.mpr (inside hop v (Node.plan_grounded member))
    rw [if_pos steps]
    exact default

/-- Exactly the sound values are accepted. -/
theorem check_accepted (p : Place) (v : Value) :
    (s.check judge p v).outcome = .accepted ↔ s.Sound judge p v := by
  refine walk_induction s
    (motive := fun p v => (s.check judge p v).outcome = .accepted ↔ s.Sound judge p v) ?_ p v
  intro p v ih
  by_cases object : v.kind = .object
  · obtain ⟨addr, rfl⟩ := Value.kind_eq_object.mp object
    by_cases fresh : addr ∈ p.ancestors
    · rw [check_cyclic fresh]
      refine ⟨fun accepted => by simp [Report.found] at accepted, fun acceptable => ?_⟩
      obtain ⟨_, ⟨⟩, here⟩ := acceptable [] _ (.stay _)
      exact absurd fresh here.fresh
    by_cases deep : p.limit ≤ p.depth
    · rw [check_tooDeep fresh deep]
      refine ⟨fun accepted => by simp [Report.found] at accepted, fun acceptable => ?_⟩
      obtain ⟨_, ⟨⟩, here⟩ := acceptable [] _ (.stay _)
      exact absurd here.shallow (Nat.not_lt.mpr deep)
    have shallow := Nat.not_le.mp deep
    -- without findings at the node, all that it holds is visited
    have onward : (∀ a v, s.attribute? addr a = some v → s.Permits a v) → ∀ {hop w},
        s.Holds addr hop w → ((s.check judge ((p.enter addr).descend hop) w).outcome = .accepted ↔
          s.Sound judge ((p.enter addr).descend hop) w) :=
      fun permitted hop w held =>
        ih addr hop w rfl fresh (Node.visit_mem_plan (plan_clear_iff.mpr permitted) held)
    rw [check_enter_accepted fresh shallow]
    constructor
    · rintro ⟨permitted, inside, fits⟩ legs w trail
      cases trail with
      | stay => exact ⟨addr, rfl, fresh, shallow, permitted, fits⟩
      | leg first further => exact (onward permitted first).mp (inside _ _ first) _ _ further
    · intro acceptable
      obtain ⟨_, ⟨⟩, here⟩ := acceptable [] _ (.stay _)
      refine ⟨here.permitted, fun hop w held => ?_, here.fits⟩
      exact (onward here.permitted held).mpr fun legs u further =>
        acceptable (⟨addr, hop⟩ :: legs) u (.leg held further)
  · rw [check_notANode object]
    refine ⟨fun accepted => by simp [Report.found] at accepted, fun acceptable => ?_⟩
    obtain ⟨addr, rfl, _⟩ := acceptable [] _ (.stay _)
    exact absurd rfl object

end Store

namespace Document

/-- A document that is a schema, with nodes nested up to a limit. -/
structure WellFormed (d : Document) (limit : Nat) : Prop where
  /-- The root is a mapping of one of the types for whole schemas. -/
  rooted : ∃ addr, d.root = .mapping addr ∧
    (d.store.attribute? addr .type = some (.text "object") ∨
      d.store.attribute? addr .type = some (.text "array"))
  /-- There are mappings at all schema positions. -/
  mappings : ∀ legs v, Trail d.store d.root legs v → v.kind = .object
  /-- Each of them keeps the rules on its attributes. -/
  permitted : ∀ legs addr, Trail d.store d.root legs (.mapping addr) →
    ∀ a v, d.store.attribute? addr a = some v → d.store.Permits a v
  /-- Each of them admits the default that it declares. -/
  fits : ∀ legs addr, Trail d.store d.root legs (.mapping addr) →
    ∀ v, d.store.attribute? addr .default = some v → judge d.store v addr = .fits
  /-- None of them is inside itself. -/
  acyclic : ∀ legs addr, Trail d.store d.root legs (.mapping addr) → addr ∉ Leg.nodes legs
  /-- With the nodes around it, each of them stays within the limit. -/
  shallow : ∀ legs addr, Trail d.store d.root legs (.mapping addr) → legs.length < limit

/-- Nothing is wrong with the root alone when it is a mapping of one of the two types. -/
theorem rootFinding?_eq_none {d : Document} :
    rootFinding? d = none ↔ ∃ addr, d.root = .mapping addr ∧
      (d.store.attribute? addr .type = some (.text "object") ∨
        d.store.attribute? addr .type = some (.text "array")) := by
  obtain ⟨s, root⟩ := d
  cases root with
  | mapping addr =>
      simp only [rootFinding?, Value.mapping.injEq, exists_eq_left', Store.attribute?]
      cases (s.entries addr).lookup Attribute.type.key with
      | none => simp
      | some v => cases v <;> simp [rootTypes, or_iff_not_imp_left]
  | _ => simp [rootFinding?]

/-- What an audit accepts is well formed. -/
theorem WellFormed.of_accepted {d : Document} {limit : Nat}
    (accepted : (d.audit limit).outcome = .accepted) : d.WellFormed limit := by
  rw [audit, outcome_auditWith] at accepted
  cases root : rootFinding? d with
  | some f => simp [root] at accepted
  | none =>
      rw [root] at accepted
      have acceptable : d.store.Sound (judge d.store) (.root limit) d.root :=
        (Store.check_accepted _ d.root).mp accepted
      have node : ∀ legs addr, Trail d.store d.root legs (.mapping addr) →
          d.store.Acceptable (judge d.store) ((Place.root limit).after legs) addr := by
        intro legs addr trail
        obtain ⟨_, ⟨⟩, here⟩ := acceptable legs _ trail
        exact here
      refine ⟨rootFinding?_eq_none.mp root, fun legs v trail => ?_,
        fun legs addr trail => (node legs addr trail).permitted,
        fun legs addr trail => (node legs addr trail).fits,
        fun legs addr trail => ?_, fun legs addr trail => ?_⟩
      · obtain ⟨addr, rfl, _⟩ := acceptable legs v trail
        rfl
      · simpa [Place.ancestors_after, Place.root] using (node legs addr trail).fresh
      · simpa [Place.depth_after, Place.limit_after, Place.root] using
          (node legs addr trail).shallow

/-- An audit accepts exactly the well-formed documents. -/
theorem audit_accepts_iff_wellFormed (d : Document) (limit : Nat) :
    (d.audit limit).outcome = .accepted ↔ d.WellFormed limit := by
  refine ⟨.of_accepted, fun wellFormed => ?_⟩
  rw [audit, outcome_auditWith, rootFinding?_eq_none.mpr wellFormed.rooted]
  refine (Store.check_accepted _ d.root).mpr fun legs w trail => ?_
  obtain ⟨addr, rfl⟩ := Value.kind_eq_object.mp (wellFormed.mappings legs w trail)
  refine ⟨addr, rfl, ?_, ?_, wellFormed.permitted legs addr trail,
    wellFormed.fits legs addr trail⟩
  · simpa [Place.ancestors_after, Place.root] using wellFormed.acyclic legs addr trail
  · simpa [Place.depth_after, Place.limit_after, Place.root] using
      wellFormed.shallow legs addr trail

end Document

end SchemaAudit

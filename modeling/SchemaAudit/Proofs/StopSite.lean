import SchemaAudit.Proofs.Acceptance

/-! # Where a walk stops

A walk that is not accepted has come by a trail to the place that stopped it: to a finding at
that place, told outwards from hop to hop, or to a default whose judgement broke down, with
nothing wrong before.
-/

namespace SchemaAudit

namespace Place

/-- A finding at the end of legs as told from their start. -/
def wrapAlong (p : Place) : List Leg → Finding → Finding
  | [], f => f
  | leg :: rest, f =>
    (p.enter leg.node).wrap leg.hop (((p.enter leg.node).descend leg.hop).wrapAlong rest f)

theorem rule_wrap (p : Place) (hop : Hop) (f : Finding) : (p.wrap hop f).rule = f.rule := by
  unfold wrap
  split <;> rfl

theorem pointer_wrap (p : Place) (hop : Hop) (f : Finding) :
    (p.wrap hop f).pointer = f.pointer := by
  unfold wrap
  split <;> rfl

theorem rule_wrapAlong (p : Place) (legs : List Leg) (f : Finding) :
    (p.wrapAlong legs f).rule = f.rule := by
  induction legs generalizing p with
  | nil => rfl
  | cons leg rest ih => rw [wrapAlong, rule_wrap, ih]

theorem pointer_wrapAlong (p : Place) (legs : List Leg) (f : Finding) :
    (p.wrapAlong legs f).pointer = f.pointer := by
  induction legs generalizing p with
  | nil => rfl
  | cons leg rest ih => rw [wrapAlong, pointer_wrap, ih]

end Place

namespace Store

/-- The findings that the value at a place gives rise to itself, not through a value inside. -/
inductive Complains (s : Store) (judge : Judge) (p : Place) : Value → Finding → Prop where
  | notANode {v : Value} (other : v.kind ≠ .object) : Complains s judge p v (p.notANode v)
  | cyclic {addr : Nat} (inside : addr ∈ p.ancestors) :
      Complains s judge p (.mapping addr) p.cyclic
  | tooDeep {addr : Nat} (fresh : addr ∉ p.ancestors) (deep : p.limit ≤ p.depth) :
      Complains s judge p (.mapping addr) p.tooDeep
  | broken {addr : Nat} {g : Finding} (fresh : addr ∉ p.ancestors) (shallow : p.depth < p.limit)
      (told : .found g ∈ (s.node addr).plan s (p.enter addr)) :
      Complains s judge p (.mapping addr) g
  | unfit {addr : Nat} {v : Value} {complaint : String} (fresh : addr ∉ p.ancestors)
      (shallow : p.depth < p.limit) (found : s.attribute? addr .default = some v)
      (verdict : judge v addr = .unusable complaint ∨ ∃ path message,
        judge v addr = .violated path message ∧ complaint = Verdict.located path message) :
      Complains s judge p (.mapping addr) ((p.enter addr).unfitDefault complaint)

variable {judge : Judge} {s : Store} {p : Place}

/-- The plan of a node tells of nothing that the guards do. -/
theorem plan_unguarded {addr : Nat} {g : Finding} (told : .found g ∈ (s.node addr).plan s p) :
    g.rule ≠ .cyclicSchema ∧ g.rule ≠ .schemaTooDeep := by
  obtain ⟨r, _, _, _, broken, rfl⟩ := Node.plan_grounded told
  constructor
  · intro rule
    obtain rfl : r = .cyclicSchema := rule
    cases broken
  · intro rule
    obtain rfl : r = .schemaTooDeep := rule
    cases broken

/-- Only the guard against cycles tells of cycles. -/
theorem Complains.inside {v : Value} {f : Finding} (complains : s.Complains judge p v f)
    (rule : f.rule = .cyclicSchema) :
    ∃ addr, v = .mapping addr ∧ addr ∈ p.ancestors ∧ f = p.cyclic := by
  cases complains with
  | cyclic inside => exact ⟨_, rfl, inside, rfl⟩
  | broken _ _ told => exact absurd rule (plan_unguarded told).1
  | notANode | tooDeep | unfit => cases rule

/-- Only the guard of depth tells of nodes that are too deep. -/
theorem Complains.deep {v : Value} {f : Finding} (complains : s.Complains judge p v f)
    (rule : f.rule = .schemaTooDeep) :
    ∃ addr, v = .mapping addr ∧ addr ∉ p.ancestors ∧ p.limit ≤ p.depth := by
  cases complains with
  | tooDeep fresh deep => exact ⟨_, rfl, fresh, deep⟩
  | broken _ _ told => exact absurd rule (plan_unguarded told).2
  | notANode | cyclic | unfit => cases rule

/-- A rejection tells of what the value at the end of some trail gives rise to. -/
theorem check_rejected (nested : p.Nested s) (v : Value) {f : Finding}
    (rejected : (s.check judge p v).outcome = .rejected f) :
    ∃ legs w g, Trail s v legs w ∧ (p.after legs).Nested s ∧
      s.Complains judge (p.after legs) w g ∧ f = p.wrapAlong legs g := by
  revert nested f
  refine walk_induction s (motive := fun p v => p.Nested s → ∀ {f},
    (s.check judge p v).outcome = .rejected f → ∃ legs w g, Trail s v legs w ∧
      (p.after legs).Nested s ∧ s.Complains judge (p.after legs) w g ∧
        f = p.wrapAlong legs g) ?_ p v
  intro p v ih nested f rejected
  have here : ∀ {g}, s.Complains judge p v g → f = g → ∃ legs w g, Trail s v legs w ∧
      (p.after legs).Nested s ∧ s.Complains judge (p.after legs) w g ∧
        f = p.wrapAlong legs g :=
    fun complains same => ⟨[], v, _, .stay v, nested, complains, same⟩
  by_cases object : v.kind = .object
  · obtain ⟨addr, rfl⟩ := Value.kind_eq_object.mp object
    by_cases fresh : addr ∈ p.ancestors
    · rw [check_cyclic fresh] at rejected
      exact here (.cyclic fresh) (Outcome.rejected.inj rejected).symm
    by_cases deep : p.limit ≤ p.depth
    · rw [check_tooDeep fresh deep] at rejected
      exact here (.tooDeep fresh deep) (Outcome.rejected.inj rejected).symm
    have shallow := Nat.not_le.mp deep
    rw [outcome_check_enter fresh shallow, examine, Report.outcome_andThen] at rejected
    split at rejected
    · obtain ⟨u, complaint, found, rfl, verdict⟩ := Node.judgeDefault_rejected rejected
      exact here (.unfit fresh shallow found verdict) rfl
    · rcases Report.ofSteps_rejected rejected with told | ⟨hop, w, member, inner⟩
      · exact here (.broken fresh shallow told) rfl
      · obtain ⟨g, below, rfl⟩ := Report.mapFinding_rejected.mp inner
        have held : s.Holds addr hop w := Node.plan_grounded member
        obtain ⟨legs, u, g', onward, inside, complains, rfl⟩ :=
          ih addr hop w rfl fresh member (nested.descend fresh held.inside hop) below
        exact ⟨⟨addr, hop⟩ :: legs, u, g', .leg held onward, inside, complains, rfl⟩
  · rw [check_notANode object] at rejected
    exact here (.notANode object) (Outcome.rejected.inj rejected).symm

/-- Steps that a walk passes: no finding is among them, and all visits are to sound values. -/
def Passes (s : Store) (judge : Judge) (p : Place) (steps : List Step) : Prop :=
  (∀ g, .found g ∉ steps) ∧ ∀ hop v, .visit hop v ∈ steps → s.Sound judge (p.descend hop) v

/-- A walk comes to the default of the mapping at an address, with nothing wrong before. -/
inductive Arrives (s : Store) (judge : Judge) : Place → Value → Nat → Prop where
  | here {p : Place} {addr : Nat} (fresh : addr ∉ p.ancestors) (shallow : p.depth < p.limit)
      (passed : s.Passes judge (p.enter addr) ((s.node addr).plan s (p.enter addr))) :
      Arrives s judge p (.mapping addr) addr
  | inside {p : Place} {addr target : Nat} {hop : Hop} {v : Value} {before after : List Step}
      (fresh : addr ∉ p.ancestors) (shallow : p.depth < p.limit)
      (asked : (s.node addr).plan s (p.enter addr) = before ++ .visit hop v :: after)
      (passed : s.Passes judge (p.enter addr) before)
      (onward : Arrives s judge ((p.enter addr).descend hop) v target) :
      Arrives s judge p (.mapping addr) target

theorem Arrives.trail {v : Value} {target : Nat} (arrives : s.Arrives judge p v target) :
    ∃ legs, Trail s v legs (.mapping target) := by
  induction arrives with
  | here => exact ⟨[], .stay _⟩
  | @inside p addr target hop v before after _ _ asked _ _ ih =>
      obtain ⟨legs, onward⟩ := ih
      have member : .visit hop v ∈ (s.node addr).plan s (p.enter addr) := by
        rw [asked]
        exact List.mem_append_right before List.mem_cons_self
      have held : s.Holds addr hop v := Node.plan_grounded member
      exact ⟨⟨addr, hop⟩ :: legs, .leg held onward⟩

/-- The steps of a node are accepted when the walk passes them. -/
theorem ofSteps_passes {steps : List Step} :
    (Report.ofSteps (fun hop w => (s.check judge (p.descend hop) w).mapFinding (p.wrap hop))
      steps).outcome = .accepted ↔ s.Passes judge p steps := by
  simp only [Report.ofSteps_accepted, Report.mapFinding_accepted, check_accepted, Passes]

/-- Inside a node that is entered a walk breaks down at the default, when it passes all steps, or
    at the first visit that it does not pass. -/
theorem examine_faulted {addr : Nat} {fault : Fault} :
    (examine (s.check judge) judge s p addr).outcome = .faulted fault ↔
      (s.Passes judge p ((s.node addr).plan s p) ∧
        ∃ u, s.attribute? addr .default = some u ∧ judge u addr = .faulted fault) ∨
      ∃ before hop w after, (s.node addr).plan s p = before ++ .visit hop w :: after ∧
        s.Passes judge p before ∧ (s.check judge (p.descend hop) w).outcome = .faulted fault := by
  have atVisit : (Report.ofSteps
      (fun hop w => (s.check judge (p.descend hop) w).mapFinding (p.wrap hop))
      ((s.node addr).plan s p)).outcome = .faulted fault ↔
      ∃ before hop w after, (s.node addr).plan s p = before ++ .visit hop w :: after ∧
        s.Passes judge p before ∧ (s.check judge (p.descend hop) w).outcome = .faulted fault := by
    simp only [Report.ofSteps_faulted, Report.mapFinding_faulted, ofSteps_passes]
  rw [examine, Report.outcome_andThen, ← atVisit, ← ofSteps_passes,
    ← Node.judgeDefault_faulted (p := p)]
  split
  · next accepted => simp [accepted]
  · next halted => simp [halted]

/-- A walk breaks down exactly with the fault of judging the first default that it comes to. -/
theorem check_faulted (p : Place) (v : Value) {fault : Fault} :
    (s.check judge p v).outcome = .faulted fault ↔
      ∃ addr u, s.Arrives judge p v addr ∧ s.attribute? addr .default = some u ∧
        judge u addr = .faulted fault := by
  refine walk_induction s (motive := fun p v =>
    (s.check judge p v).outcome = .faulted fault ↔ ∃ addr u, s.Arrives judge p v addr ∧
      s.attribute? addr .default = some u ∧ judge u addr = .faulted fault) ?_ p v
  intro p v ih
  by_cases object : v.kind = .object
  · obtain ⟨addr, rfl⟩ := Value.kind_eq_object.mp object
    by_cases fresh : addr ∈ p.ancestors
    · rw [check_cyclic fresh]
      refine iff_of_false Outcome.noConfusion ?_
      rintro ⟨_, _, arrives, _⟩
      cases arrives with
      | here outside | inside outside => exact outside fresh
    by_cases deep : p.limit ≤ p.depth
    · rw [check_tooDeep fresh deep]
      refine iff_of_false Outcome.noConfusion ?_
      rintro ⟨_, _, arrives, _⟩
      cases arrives with
      | here _ shallow | inside _ shallow => exact Nat.not_lt.mpr deep shallow
    have shallow := Nat.not_le.mp deep
    have asked : ∀ {before hop w after},
        (s.node addr).plan s (p.enter addr) = before ++ .visit hop w :: after →
          .visit hop w ∈ (s.node addr).plan s (p.enter addr) :=
      fun plan => plan ▸ List.mem_append_cons_self
    rw [outcome_check_enter fresh shallow, examine_faulted]
    constructor
    · rintro (⟨passed, u, found, broke⟩ | ⟨before, hop, w, after, plan, passed, inner⟩)
      · exact ⟨addr, u, .here fresh shallow passed, found, broke⟩
      · obtain ⟨target, u, arrives, found, broke⟩ := (ih addr hop w rfl fresh (asked plan)).mp inner
        exact ⟨target, u, .inside fresh shallow plan passed arrives, found, broke⟩
    · rintro ⟨target, u, arrives, found, broke⟩
      cases arrives with
      | here _ _ passed => exact .inl ⟨passed, u, found, broke⟩
      | @inside _ _ _ hop w before after _ _ plan passed onward =>
          have inner := (ih addr hop w rfl fresh (asked plan)).mpr ⟨target, u, onward, found, broke⟩
          exact .inr ⟨before, hop, w, after, plan, passed, inner⟩
  · rw [check_notANode object]
    refine iff_of_false Outcome.noConfusion ?_
    rintro ⟨_, _, arrives, _⟩
    cases arrives with
    | here | inside => exact object rfl

end Store

end SchemaAudit

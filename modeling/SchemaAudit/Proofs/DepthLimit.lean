import SchemaAudit.Audit
import SchemaAudit.Proofs.Contents
import SchemaAudit.Proofs.Recursion
import SchemaAudit.Proofs.StopSite
import SchemaAudit.Proofs.Wording

/-! # What the limit of depth decides

The limit is asked at each node and handed down unchanged, and nothing else of the walk depends
on it. So a walk that does not stop at the limit is the same walk under every higher limit, and
for each document there is one limit from which on nothing changes any more. It is at most the
number of mappings, since the nodes around a node are distinct mappings.
-/

namespace SchemaAudit

/-- An outcome that tells of a node nested too deep. -/
def Outcome.TooDeep (o : Outcome) : Prop := ∃ f, o = .rejected f ∧ f.rule = .schemaTooDeep

namespace Place

def withLimit (p : Place) (limit : Nat) : Place := { p with limit }

theorem descend_withLimit (p : Place) (limit : Nat) (hop : Hop) :
    (p.withLimit limit).descend hop = (p.descend hop).withLimit limit := by
  cases hop <;> rfl

end Place

/-- The plan of a node has nothing to do with the limit. -/
theorem Node.plan_withLimit (s : Store) (n : Node) (p : Place) (limit : Nat) :
    n.plan s (p.withLimit limit) = n.plan s p :=
  n.plan_congr s rfl

namespace Report

theorem mapFinding_tooDeep {r : Report} {p : Place} {hop : Hop} :
    (r.mapFinding (p.wrap hop)).outcome.TooDeep ↔ r.outcome.TooDeep := by
  simp only [Outcome.TooDeep, mapFinding_rejected]
  constructor
  · rintro ⟨_, ⟨g, rejected, rfl⟩, rule⟩
    exact ⟨g, rejected, (p.rule_wrap hop g).symm.trans rule⟩
  · rintro ⟨g, rejected, rule⟩
    exact ⟨_, ⟨g, rejected, rfl⟩, (p.rule_wrap hop g).trans rule⟩

theorem andThen_settled {r : Report} {next : Unit → Report}
    (settled : ¬ (r.andThen next).outcome.TooDeep) : ¬ r.outcome.TooDeep := by
  rintro ⟨f, rejected, rule⟩
  apply settled
  rw [outcome_andThen, rejected]
  exact ⟨f, rfl, rule⟩

/-- Two rows of work are the same when their first parts are, and their second parts as far as
    they are reached. -/
theorem andThen_congr {r q : Report} {next next' : Unit → Report} (first : q = r)
    (onward : r.outcome = .accepted → next' () = next ()) :
    q.andThen next' = r.andThen next := by
  subst first
  obtain ⟨log, outcome⟩ := q
  cases outcome with
  | accepted => rw [andThen_accepted, andThen_accepted, onward rfl]
  | rejected | faulted => rfl

/-- Steps that do not stop at the limit are the same for visits that differ only where they stop
    at the limit. -/
theorem ofSteps_settled {visit visit' : Hop → Value → Report} {steps : List Step}
    (same : ∀ hop w, .visit hop w ∈ steps → ¬ (visit hop w).outcome.TooDeep →
      visit' hop w = visit hop w)
    (settled : ¬ (ofSteps visit steps).outcome.TooDeep) :
    ofSteps visit' steps = ofSteps visit steps := by
  induction steps with
  | nil => rfl
  | cons step rest ih =>
      cases step with
      | found f => rfl
      | visit hop w =>
          rw [ofSteps] at settled
          refine andThen_congr (same hop w List.mem_cons_self (andThen_settled settled)) ?_
          intro accepted
          rw [outcome_andThen, if_pos accepted] at settled
          exact ih (fun hop w later => same hop w (List.mem_cons_of_mem _ later)) settled

end Report

namespace Store

variable {judge : Judge} {s : Store}

/-- A walk that does not stop at the limit is the same walk under every higher limit. -/
theorem check_withLimit (p : Place) (v : Value) : ∀ limit, p.limit ≤ limit →
    ¬ (s.check judge p v).outcome.TooDeep →
    s.check judge (p.withLimit limit) v = s.check judge p v := by
  refine walk_induction s (motive := fun p v => ∀ limit, p.limit ≤ limit →
    ¬ (s.check judge p v).outcome.TooDeep →
    s.check judge (p.withLimit limit) v = s.check judge p v) ?_ p v
  intro p v ih limit higher settled
  by_cases object : v.kind = .object
  · obtain ⟨addr, rfl⟩ := Value.kind_eq_object.mp object
    by_cases fresh : addr ∈ p.ancestors
    · rw [check_cyclic fresh, check_cyclic (p := p.withLimit limit) fresh]
      rfl
    by_cases deep : p.limit ≤ p.depth
    · rw [check_tooDeep fresh deep] at settled
      exact absurd ⟨_, rfl, rfl⟩ settled
    have shallow := Nat.not_le.mp deep
    have shallow' : (p.withLimit limit).depth < (p.withLimit limit).limit :=
      Nat.lt_of_lt_of_le shallow higher
    rw [outcome_check_enter fresh shallow, examine] at settled
    rw [check_enter fresh shallow, check_enter (p := p.withLimit limit) fresh shallow']
    -- neither the record of the node nor the judgement of its default depends on the limit
    refine Report.andThen_congr rfl fun _ => Report.andThen_congr ?_ fun _ => rfl
    have plan : (s.node addr).plan s ((p.withLimit limit).enter addr) =
        (s.node addr).plan s (p.enter addr) := Node.plan_withLimit s _ (p.enter addr) limit
    rw [plan]
    refine Report.ofSteps_settled (fun hop w asked inner => ?_) (Report.andThen_settled settled)
    rw [Report.mapFinding_tooDeep] at inner
    have inside := ih addr hop w rfl fresh asked limit
      (by rw [Place.limit_descend]; exact higher) inner
    rw [← Place.descend_withLimit] at inside
    exact congrArg (Report.mapFinding ((p.enter addr).wrap hop)) inside
  · rw [check_notANode object, check_notANode object]
    rfl

end Store

section

variable {judge : Judge} {d : Document}

theorem auditWith_settled {lower higher : Nat} (raised : lower ≤ higher)
    (settled : ¬ (auditWith judge d lower).outcome.TooDeep) :
    auditWith judge d higher = auditWith judge d lower := by
  rw [outcome_auditWith] at settled
  rw [auditWith, auditWith]
  cases root : rootFinding? d with
  | some f => rfl
  | none =>
      rw [root] at settled
      exact congrArg Report.logged
        (Store.check_withLimit (Place.root lower) d.root higher raised settled)

/-- With a limit as high as the number of mappings no node is too deep: the nodes around it and
    itself are as many mappings. -/
theorem auditWith_not_tooDeep (rooted : rootFinding? d = none) {limit : Nat}
    (high : d.mappings.ncard ≤ limit) : ¬ (auditWith judge d limit).outcome.TooDeep := by
  rintro ⟨f, rejected, rule⟩
  rw [outcome_auditWith, rooted] at rejected
  obtain ⟨legs, v, g, trail, nested, complains, rfl⟩ :=
    Store.check_rejected (.root d.store limit) d.root rejected
  rw [Place.rule_wrapAlong] at rule
  obtain ⟨addr, rfl, fresh, deep⟩ := complains.deep rule
  rw [Place.limit_after, Place.depth_after] at deep
  have deep : limit ≤ 0 + legs.length := deep
  have short : legs.length < d.mappings.ncard := d.length_lt_mappings trail nested fresh
  omega

end

/-- The limit of depth is a threshold. From some limit on, at most the number of mappings, an
    audit of a document with a proper root is one and the same and does not stop at the limit;
    with every limit below, it does. So a limit that is raised changes nothing but an audit that
    stopped at it. -/
theorem Document.auditWith_threshold {d : Document} (rooted : rootFinding? d = none)
    (judge : Judge) :
    (∃ threshold report, 1 ≤ threshold ∧ threshold ≤ d.mappings.ncard ∧
      ¬ report.outcome.TooDeep ∧
      (∀ limit, threshold ≤ limit → auditWith judge d limit = report) ∧
      ∀ limit < threshold, (auditWith judge d limit).outcome.TooDeep) ∧
    ∀ lower higher, lower ≤ higher → (auditWith judge d lower).outcome.TooDeep ∨
      auditWith judge d higher = auditWith judge d lower := by
  classical
  have settles : ∃ limit, ¬ (auditWith judge d limit).outcome.TooDeep :=
    ⟨_, auditWith_not_tooDeep rooted le_rfl⟩
  have least : ¬ (auditWith judge d (Nat.find settles)).outcome.TooDeep := Nat.find_spec settles
  -- without any level the root itself is too deep, so the least such limit is not zero
  have root : (auditWith judge d 0).outcome.TooDeep := by
    obtain ⟨addr, root, _⟩ := rootFinding?_eq_none.mp rooted
    rw [outcome_auditWith_rooted rooted, root,
      Store.check_tooDeep List.not_mem_nil (Nat.le_refl 0)]
    exact ⟨_, rfl, rfl⟩
  refine ⟨⟨Nat.find settles, auditWith judge d (Nat.find settles), ?_, ?_, least,
    fun limit high => auditWith_settled high least,
    fun limit low => not_not.mp (Nat.find_min settles low)⟩, fun lower higher raised => ?_⟩
  · exact Nat.pos_of_ne_zero fun none => least (none ▸ root)
  · exact Nat.find_min' settles (auditWith_not_tooDeep rooted le_rfl)
  · exact or_iff_not_imp_left.mpr (auditWith_settled raised)

/-- A property whose items have to be of the schema that the property is in. -/
def Document.turningBack : Document where
  store :=
    { lists := #[]
      maps := #[[("type", .text "object"), ("properties", .mapping 1)], [("a", .mapping 2)],
        [("items", .mapping 0)]] }
  root := .mapping 0

theorem Document.auditWith_threshold_turningBack :
    let deep : Finding := .leaf .schemaTooDeep
      "Schema property 'a' at '/properties/a' is nested deeper than 1 levels"
      (some "/properties/a")
    let cyclic : Finding :=
      .within "Schema property 'a': 'items' attribute is not a valid schema"
        (.leaf .cyclicSchema "Schema at '/properties/a/items' contains itself"
          (some "/properties/a/items"))
    rootFinding? turningBack = none ∧ (turningBack.audit 1).outcome = .rejected deep ∧
    (turningBack.audit 2).outcome = .rejected cyclic ∧
    ∀ limit, 2 ≤ limit → turningBack.audit limit = turningBack.audit 2 := by
  intro deep cyclic
  have rooted : rootFinding? turningBack = none := by decide +kernel
  have rejected : (turningBack.audit 2).outcome = .rejected cyclic := by decide +kernel
  have settled : ¬ (turningBack.audit 2).outcome.TooDeep := by
    rintro ⟨g, other, rule⟩
    obtain rfl := Outcome.rejected.inj (rejected.symm.trans other)
    cases rule
  refine ⟨rooted, by decide +kernel, rejected, fun limit high => ?_⟩
  exact ((auditWith_threshold rooted (judge turningBack.store)).2 2 limit high).resolve_left settled

end SchemaAudit

import SchemaAudit.Audit
import SchemaAudit.Proofs.Contents
import SchemaAudit.Proofs.Location
import SchemaAudit.Proofs.Recursion

/-! # Schemas inside themselves

A mapping that is met again inside itself ends the walk there, and this guard alone makes every
walk finite. It is exact: what it reports does lead back to itself through schema positions, and
no document with such a mapping in reach of the root is accepted.
-/

namespace SchemaAudit

namespace Store

variable {judge : Judge} {s : Store}

/-- A walk breaks off for want of fuel only if the judgement of a default does. -/
theorem check_ends (lasting : ∀ v addr, judge v addr ≠ .faulted .endless) (p : Place)
    (v : Value) : (s.check judge p v).outcome ≠ .faulted .endless := by
  refine walk_induction s
    (motive := fun p v => (s.check judge p v).outcome ≠ .faulted .endless) ?_ p v
  intro p v ih
  by_cases object : v.kind = .object
  · obtain ⟨addr, rfl⟩ := Value.kind_eq_object.mp object
    by_cases fresh : addr ∈ p.ancestors
    · rw [check_cyclic fresh]
      exact Outcome.noConfusion
    by_cases deep : p.limit ≤ p.depth
    · rw [check_tooDeep fresh deep]
      exact Outcome.noConfusion
    rw [outcome_check_enter fresh (Nat.not_le.mp deep), examine, Report.outcome_andThen]
    split
    · intro faulted
      obtain ⟨u, _, broke⟩ := Node.judgeDefault_faulted.mp faulted
      exact lasting u addr broke
    · intro faulted
      obtain ⟨before, hop, w, after, asked, _, inner⟩ := Report.ofSteps_faulted.mp faulted
      have member : .visit hop w ∈ (s.node addr).plan s (p.enter addr) := by
        rw [asked]
        exact List.mem_append_cons_self
      exact ih addr hop w rfl fresh member (Report.mapFinding_faulted.mp inner)
  · rw [check_notANode object]
    exact Outcome.noConfusion

/-- A walk that is called, at however many removes, from the walk of the root is of a value that
    a trail leads to, at the place after that trail. -/
theorem called_trail {limit : Nat} {v : Value} {call : Place × Value}
    (calls : Relation.ReflTransGen (Function.swap s.CalledFrom) (.root limit, v) call) :
    ∃ legs, call.1 = (Place.root limit).after legs ∧ call.1.Nested s ∧
      Trail s v legs call.2 := by
  induction calls with
  | refl => exact ⟨[], rfl, .root s limit, .stay v⟩
  | @tail outer inner _ called ih =>
      obtain ⟨legs, place, nested, trail⟩ := ih
      cases called with
      | @inside p addr hop w fresh asked =>
          have held : s.Holds addr hop w := Node.plan_grounded asked
          refine ⟨legs ++ [⟨addr, hop⟩], ?_, nested.descend fresh held.inside hop,
            trail.append (.leg held (.stay w))⟩
          obtain rfl : p = (Place.root limit).after legs := place
          rw [Place.after_append]
          rfl

end Store

namespace Document

/-- A node in reach of the root that schema positions lead back to. -/
structure Circle (d : Document) (before around : List Leg) (addr : Nat) : Prop where
  there : Trail d.store d.root before (.mapping addr)
  back : Trail d.store (.mapping addr) around (.mapping addr)
  moves : around ≠ []

variable {d : Document} {before around : List Leg} {addr : Nat}

/-- The node is left on the way back to it. -/
theorem Circle.mem_nodes (circle : d.Circle before around addr) : addr ∈ Leg.nodes around := by
  cases circle.back with
  | stay => exact absurd rfl circle.moves
  | leg => exact List.mem_cons_self

theorem Circle.tokens_ne_nil (circle : d.Circle before around addr) :
    Leg.tokens around ≠ [] := by
  cases circle.back with
  | stay => exact absurd rfl circle.moves
  | @leg _ hop _ _ _ _ _ => cases hop <;> exact List.cons_ne_nil _ _

/-- Where the node is met first, and where it is met again, there is the same mapping. -/
theorem Circle.resolves (circle : d.Circle before around addr) (keys : d.store.KeysDistinct) :
    d.resolve? (Pointer.extend "" (Leg.tokens before)) = some (.mapping addr) ∧
    d.resolve? (Pointer.extend "" (Leg.tokens before ++ Leg.tokens around)) =
      some (.mapping addr) := by
  rw [resolve?_extend, resolve?_extend, ← Leg.tokens_append]
  exact ⟨circle.there.resolves keys, (circle.there.append circle.back).resolves keys⟩

/-- What is reported to contain itself does. -/
theorem circle_of_cyclic {judge : Judge} {limit : Nat} {f : Finding}
    (rejected : (auditWith judge d limit).outcome = .rejected f)
    (rule : f.rule = .cyclicSchema) :
    ∃ before around addr, d.Circle before around addr ∧
      f.pointer = some (Pointer.extend "" (Leg.tokens before ++ Leg.tokens around)) := by
  rw [outcome_auditWith] at rejected
  cases told : rootFinding? d with
  | some g =>
      rw [told] at rejected
      obtain rfl := Outcome.rejected.inj rejected
      -- the root alone breaks other rules, and only circles break this one
      obtain ⟨tokens, v, pointer, broken⟩ := @rootFinding?_breaks d limit g told
      rw [rule] at broken
      cases broken with
      | @cyclic before around addr moves there back =>
          exact ⟨before, around, addr, ⟨there, back, moves⟩, by rw [pointer, Leg.tokens_append]⟩
      | inAttribute _ broken => cases broken
  | none =>
      rw [told] at rejected
      obtain ⟨legs, v, g, trail, _, complains, rfl⟩ :=
        Store.check_rejected (.root d.store limit) d.root rejected
      rw [Place.rule_wrapAlong] at rule
      obtain ⟨addr, rfl, inside, rfl⟩ := complains.inside rule
      rw [Place.ancestors_after_root, List.mem_reverse] at inside
      obtain ⟨before, around, rfl, moves, there, back⟩ := trail.through inside
      refine ⟨before, around, addr, ⟨there, back, moves⟩, ?_⟩
      rw [Place.pointer_wrapAlong, ← Leg.tokens_append]
      exact congrArg some (Place.pointer_after _ _)

/-- With a node in reach that contains itself no document is accepted. -/
theorem Circle.not_accepted (circle : d.Circle before around addr) (judge : Judge)
    (limit : Nat) : (auditWith judge d limit).outcome ≠ .accepted := by
  intro accepted
  rw [outcome_auditWith] at accepted
  cases told : rootFinding? d with
  | some g =>
      rw [told] at accepted
      cases accepted
  | none =>
      rw [told] at accepted
      obtain ⟨_, ⟨⟩, here⟩ := (Store.check_accepted _ d.root).mp accepted _ _
        (circle.there.append circle.back)
      apply here.fresh
      rw [Place.ancestors_after_root, List.mem_reverse, Leg.nodes_append]
      exact List.mem_append_right _ circle.mem_nodes

/-- The guard against cycles is exact and makes the walk finite.

    No row of walks, each called from the one before, is endless, whatever the limit of depth.
    Within such a row that starts at the root, the node that is entered and the nodes around it
    are no more than the mappings of the document. A walk with more fuel than mappings does not
    break off for want of it. What is reported to contain itself is a mapping that is also met on
    the way there; and when a node in reach of the root does contain itself, the document is not
    accepted with any limit. -/
theorem auditWith_cycles (d : Document) :
    WellFounded d.store.CalledFrom ∧
    (∀ limit p addr, addr ∉ p.ancestors →
      Relation.ReflTransGen (Function.swap d.store.CalledFrom) (.root limit, d.root)
        (p, .mapping addr) →
      (p.enter addr).ancestors.length ≤ d.mappings.ncard) ∧
    ∀ judge : Judge,
      ((∀ v addr, judge v addr ≠ .faulted .endless) → ∀ fuel p v, d.store.maps.size < fuel →
        (walk judge d.store fuel p v).outcome ≠ .faulted .endless) ∧
      (∀ limit f, (auditWith judge d limit).outcome = .rejected f → f.rule = .cyclicSchema →
        ∃ before around addr, d.Circle before around addr ∧
          f.pointer = some (Pointer.extend "" (Leg.tokens before ++ Leg.tokens around)) ∧
          Leg.tokens around ≠ [] ∧
          (d.store.KeysDistinct →
            d.resolve? (Pointer.extend "" (Leg.tokens before)) = some (.mapping addr) ∧
            d.resolve? (Pointer.extend "" (Leg.tokens before ++ Leg.tokens around)) =
              some (.mapping addr))) ∧
      ∀ before around addr, d.Circle before around addr →
        ∀ limit, (auditWith judge d limit).outcome ≠ .accepted := by
  refine ⟨d.store.calledFrom_wellFounded, fun limit p addr fresh calls => ?nested,
    fun judge => ⟨fun lasting fuel p v enough => ?ends, fun limit f rejected rule => ?sound,
      fun before around addr circle => circle.not_accepted judge⟩⟩
  case nested =>
    obtain ⟨legs, rfl, nested, trail⟩ := Store.called_trail calls
    have short : legs.length < d.mappings.ncard := d.length_lt_mappings trail nested fresh
    rw [Place.enter, List.length_cons, Place.ancestors_after_root, List.length_reverse,
      Leg.length_nodes]
    exact short
  case ends =>
    rw [Store.walk_eq_check (Nat.lt_of_le_of_lt Place.room_le enough)]
    exact Store.check_ends lasting p v
  case sound =>
    obtain ⟨before, around, addr, circle, pointer⟩ := circle_of_cyclic rejected rule
    exact ⟨before, around, addr, circle, pointer, circle.tokens_ne_nil, circle.resolves⟩

/-- The mapping that holds the properties of the root is also a schema for further properties of
    one of them, and as a schema it leads back there. -/
def throughContainer : Document where
  store :=
    { lists := #[]
      maps := #[[("type", .text "object"), ("properties", .mapping 1)], [("items", .mapping 2)],
        [("additionalProperties", .mapping 1)]] }
  root := .mapping 0

theorem auditWith_cycles_throughContainer :
    let pointer := "/properties/items/additionalProperties/items"
    let f : Finding :=
      .within "Schema property 'items': 'additionalProperties' attribute is not a valid schema"
        (.within "Schema: 'items' attribute is not a valid schema"
          (.leaf .cyclicSchema ("Schema at '" ++ pointer ++ "' contains itself") (some pointer)))
    (throughContainer.audit 100).outcome = .rejected f ∧
    (∃ before around addr, throughContainer.Circle before around addr ∧
      some pointer = some (Pointer.extend "" (Leg.tokens before ++ Leg.tokens around)) ∧
      throughContainer.resolve? (Pointer.extend "" (Leg.tokens before)) = some (.mapping addr) ∧
      throughContainer.resolve? pointer = some (.mapping addr)) ∧
    (∀ limit, (throughContainer.audit limit).outcome ≠ .accepted) ∧
    ∀ limit, (walk (fun _ _ => .fits) throughContainer.store 4 (.root limit)
      throughContainer.root).outcome ≠ .faulted .endless := by
  intro pointer f
  have rejected : (throughContainer.audit 100).outcome = .rejected f := by decide +kernel
  have keys : throughContainer.store.KeysDistinct := by decide +kernel
  obtain ⟨_, _, guarded⟩ := auditWith_cycles throughContainer
  obtain ⟨_, sound, complete⟩ := guarded (judge throughContainer.store)
  obtain ⟨before, around, addr, circle, there, _, resolves⟩ := sound 100 f rejected rfl
  refine ⟨rejected, ⟨before, around, addr, circle, there, (resolves keys).1, ?_⟩,
    complete _ _ _ circle, fun limit => ?_⟩
  · rw [Option.some.inj there]
    exact (resolves keys).2
  · exact (guarded fun _ _ => .fits).1 (fun _ _ => Verdict.noConfusion) 4 _ _ (by decide)

end Document

end SchemaAudit

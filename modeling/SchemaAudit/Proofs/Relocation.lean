import SchemaAudit.Proofs.Acceptance
import SchemaAudit.Proofs.Recursion
import SchemaAudit.Proofs.Wording

/-! # A schema checked at another place

What is wrong with a schema does not depend on where the schema sits, as long as it does not
lead back to a node around it. A place hands three things down: the pointer, the levels that are
left, and the names. So two walks of one value, one at a place that is moved behind a pointer,
go through the same steps, and their findings differ by that pointer and by the names alone.
-/

namespace SchemaAudit

namespace Pointer

theorem extend_behind (base p : Pointer) (tokens : List String) :
    extend (base ++ p) tokens = base ++ extend p tokens := by
  induction tokens generalizing p with
  | nil => rfl
  | cons t rest ih => simp only [extend_cons, String.append_assoc, ih]

end Pointer

namespace Place

/-- The first place is the second one moved behind a pointer, with as many levels left. -/
structure Behind (base : Pointer) (p q : Place) : Prop where
  pointer : p.pointer = base ++ q.pointer
  left : p.limit - p.depth = q.limit - q.depth

variable {base : Pointer} {p q : Place}

theorem Behind.enter (behind : p.Behind base q) (addr : Nat) :
    (p.enter addr).Behind base (q.enter addr) where
  pointer := behind.pointer
  left := by
    have left := behind.left
    simp only [Place.enter]
    omega

theorem Behind.pointerTo (behind : p.Behind base q) (tokens : List String) :
    p.pointerTo tokens = base ++ q.pointerTo tokens := by
  rw [Place.pointerTo, behind.pointer, Pointer.extend_behind]
  rfl

theorem Behind.descend (behind : p.Behind base q) (hop : Hop) :
    (p.descend hop).Behind base (q.descend hop) where
  pointer := by rw [pointer_descend, pointer_descend, behind.pointerTo]
  left := by simpa only [limit_descend, depth_descend] using behind.left

theorem Behind.shallow (behind : p.Behind base q) : p.depth < p.limit ↔ q.depth < q.limit := by
  have left := behind.left
  omega

/-- A hop keeps two places of one name at one name. -/
theorem names_descend (same : p.names = q.names) (hop : Hop) :
    (p.descend hop).names = (q.descend hop).names := by
  cases hop with
  | entry a name => simp only [descend, named, same]
  | value | element => rfl

theorem hopContext_congr (same : p.names = q.names) (hop : Hop) :
    p.hopContext hop = q.hopContext hop := by
  cases hop <;> simp only [hopContext, label, same]

end Place

/-! ## Findings that are moved -/

namespace Finding

/-- The first finding is the second one moved behind a pointer. Their sentences are the same if
    they have to be word for word; only those that tell the pointer or the limit never have to
    be. -/
inductive Moved (base : Pointer) (verbatim : Prop) : Finding → Finding → Prop where
  | leaf {r : Rule} {m m' : String} {pointer : Pointer}
      (words : verbatim → r ≠ .cyclicSchema → r ≠ .schemaTooDeep → m = m') :
      Moved base verbatim (.leaf r m (some (base ++ pointer))) (.leaf r m' (some pointer))
  | within {context context' : String} {f g : Finding} (words : verbatim → context = context')
      (inner : Moved base verbatim f g) :
      Moved base verbatim (.within context f) (.within context' g)

variable {base : Pointer} {verbatim strict : Prop} {f g : Finding}

theorem Moved.weaken (moved : f.Moved base strict g) (weaker : verbatim → strict) :
    f.Moved base verbatim g := by
  induction moved with
  | leaf words => exact .leaf fun v => words (weaker v)
  | within words _ ih => exact .within (fun v => words (weaker v)) ih

theorem Moved.rule (moved : f.Moved base verbatim g) : f.rule = g.rule := by
  induction moved with
  | leaf => rfl
  | within _ _ ih => exact ih

theorem Moved.depth (moved : f.Moved base verbatim g) : f.depth = g.depth := by
  induction moved with
  | leaf => rfl
  | within _ _ ih => exact congrArg (· + 1) ih

theorem Moved.pointer (moved : f.Moved base verbatim g) :
    f.pointer = g.pointer.map (base ++ ·) := by
  induction moved with
  | leaf => rfl
  | within _ _ ih => exact ih

theorem Moved.pointers (moved : f.Moved base verbatim g) :
    f.chain.map Finding.pointer = g.chain.map fun h => h.pointer.map (base ++ ·) := by
  induction moved with
  | leaf => rfl
  | within _ inner ih =>
      rw [chain, chain, List.map_cons, List.map_cons, ih]
      exact congrArg (· :: _) inner.pointer

section

variable (same : verbatim) (notCyclic : f.rule ≠ .cyclicSchema) (notDeep : f.rule ≠ .schemaTooDeep)
include same notCyclic notDeep

theorem Moved.message (moved : f.Moved base verbatim g) : f.message = g.message := by
  induction moved with
  | leaf words => exact words same notCyclic notDeep
  | within words _ ih => rw [Finding.message, Finding.message, words same, ih notCyclic notDeep]

theorem Moved.messages (moved : f.Moved base verbatim g) :
    f.chain.map Finding.message = g.chain.map Finding.message := by
  induction moved with
  | leaf words => exact congrArg (fun m => [m]) (words same notCyclic notDeep)
  | within words inner ih =>
      rw [chain, chain, List.map_cons, List.map_cons, ih notCyclic notDeep]
      exact congrArg (· :: _)
        (Moved.message same notCyclic notDeep (.within words inner))

end

end Finding

namespace Place

variable {base : Pointer} {p q : Place}

theorem tell_moved (behind : p.Behind base q) (r : Rule) (rest : String) (tokens : List String) :
    (p.tell r rest tokens).Moved base (p.names = q.names) (q.tell r rest tokens) := by
  rw [tell, behind.pointerTo]
  exact .leaf fun same _ _ => congrArg (fun names => NamePath.label names ++ rest) same

theorem wrap_moved {f g : Finding} {hop : Hop}
    (moved : f.Moved base ((p.descend hop).names = (q.descend hop).names) g) :
    (p.wrap hop f).Moved base (p.names = q.names) (q.wrap hop g) := by
  have inner := moved.weaken fun same : p.names = q.names => names_descend same hop
  unfold wrap
  split
  · exact .within (fun same => hopContext_congr same hop) inner
  · exact inner

end Place

/-! ## Two walks of one value -/

/-- Two outcomes of which the first is the second one moved behind a pointer. -/
inductive Outcome.Moved (base : Pointer) (verbatim : Prop) : Outcome → Outcome → Prop where
  | accepted : Moved base verbatim .accepted .accepted
  | faulted (fault : Fault) : Moved base verbatim (.faulted fault) (.faulted fault)
  | rejected {f g : Finding} (moved : f.Moved base verbatim g) :
      Moved base verbatim (.rejected f) (.rejected g)

namespace Report

variable {base : Pointer} {verbatim : Prop} {r q : Report} {p p' : Place}

theorem andThen_moved {next next' : Unit → Report}
    (first : r.outcome.Moved base verbatim q.outcome)
    (onward : (next ()).outcome.Moved base verbatim (next' ()).outcome) :
    (r.andThen next).outcome.Moved base verbatim (q.andThen next').outcome := by
  obtain ⟨log, outcome⟩ := r
  obtain ⟨log', outcome'⟩ := q
  cases first with
  | accepted => exact onward
  | faulted fault => exact .faulted fault
  | rejected moved => exact .rejected moved

theorem mapFinding_moved {hop : Hop}
    (moved : r.outcome.Moved base ((p.descend hop).names = (p'.descend hop).names) q.outcome) :
    (r.mapFinding (p.wrap hop)).outcome.Moved base (p.names = p'.names)
      (q.mapFinding (p'.wrap hop)).outcome := by
  obtain ⟨log, outcome⟩ := r
  obtain ⟨log', outcome'⟩ := q
  cases moved with
  | accepted => exact .accepted
  | faulted fault => exact .faulted fault
  | rejected inner => exact .rejected (Place.wrap_moved inner)

/-- Tasks come to the same end at two places when their visits do. -/
theorem ofSteps_moved {visit visit' : Hop → Value → Report} {tasks : List Task}
    (behind : p.Behind base p')
    (visits : ∀ hop w, .visit hop w ∈ tasks →
      (visit hop w).outcome.Moved base (p.names = p'.names) (visit' hop w).outcome) :
    (ofSteps visit (tasks.map (Task.stepAt p))).outcome.Moved base (p.names = p'.names)
      (ofSteps visit' (tasks.map (Task.stepAt p'))).outcome := by
  induction tasks with
  | nil => exact .accepted
  | cons task rest ih =>
      cases task with
      | tell r words tokens => exact .rejected (p.tell_moved behind r words tokens)
      | visit hop w =>
          exact andThen_moved (visits hop w List.mem_cons_self)
            (ih fun hop w later => visits hop w (List.mem_cons_of_mem _ later))

end Report

namespace Store

variable {judge : Judge} {s : Store} {base : Pointer}

theorem judgeDefault_moved {p q : Place} (behind : p.Behind base q) (addr : Nat) :
    ((s.node addr).judgeDefault judge p addr).outcome.Moved base (p.names = q.names)
      ((s.node addr).judgeDefault judge q addr).outcome := by
  have unfit : ∀ complaint, (p.unfitDefault complaint).Moved base (p.names = q.names)
      (q.unfitDefault complaint) := by
    intro complaint
    rw [Place.unfitDefault_eq, Place.unfitDefault_eq]
    exact p.tell_moved behind _ _ _
  unfold Node.judgeDefault
  cases (s.node addr).get? .default with
  | none => exact .accepted
  | some v =>
      cases verdict : judge v addr with
      | fits => simpa only [verdict] using .accepted
      | faulted fault => simpa only [verdict] using .faulted fault
      | unusable reason => simpa only [verdict] using .rejected (unfit reason)
      | violated path message => simpa only [verdict] using .rejected (unfit _)

theorem examine_moved {p q : Place} {addr : Nat} (behind : p.Behind base q)
    (visits : ∀ hop w, .visit hop w ∈ (s.node addr).plan s p →
      (s.check judge (p.descend hop) w).outcome.Moved base
        ((p.descend hop).names = (q.descend hop).names)
        (s.check judge (q.descend hop) w).outcome) :
    (examine (s.check judge) judge s p addr).outcome.Moved base (p.names = q.names)
      (examine (s.check judge) judge s q addr).outcome := by
  obtain ⟨tasks, plan⟩ := (s.node addr).plan_tasks s
  refine Report.andThen_moved ?_ (judgeDefault_moved behind addr)
  rw [plan, plan]
  refine Report.ofSteps_moved behind fun hop w member => Report.mapFinding_moved (visits hop w ?_)
  rw [plan]
  exact List.mem_map_of_mem member

/-- Walks of one value at two places, one moved behind a pointer, come to the same end, as long
    as the mappings that the value leads to are around both places or around none. -/
theorem check_moved (p : Place) (v : Value) : ∀ q, p.Behind base q →
    (∀ legs addr, Trail s v legs (.mapping addr) → (addr ∈ p.ancestors ↔ addr ∈ q.ancestors)) →
    (s.check judge p v).outcome.Moved base (p.names = q.names) (s.check judge q v).outcome := by
  refine walk_induction s (motive := fun p v => ∀ q, p.Behind base q →
    (∀ legs addr, Trail s v legs (.mapping addr) → (addr ∈ p.ancestors ↔ addr ∈ q.ancestors)) →
    (s.check judge p v).outcome.Moved base (p.names = q.names) (s.check judge q v).outcome) ?_ p v
  intro p v ih q behind around
  by_cases object : v.kind = .object
  · obtain ⟨addr, rfl⟩ := Value.kind_eq_object.mp object
    have both := around [] addr (.stay _)
    by_cases fresh : addr ∈ p.ancestors
    · rw [check_cyclic fresh, check_cyclic (both.mp fresh)]
      refine .rejected ?_
      rw [Place.cyclic, behind.pointer]
      exact .leaf fun _ notCyclic => absurd rfl notCyclic
    have fresh' := mt both.mpr fresh
    by_cases deep : p.limit ≤ p.depth
    · have deep' := Nat.not_lt.mp (mt behind.shallow.mpr (Nat.not_lt.mpr deep))
      rw [check_tooDeep fresh deep, check_tooDeep fresh' deep']
      refine .rejected ?_
      rw [Place.tooDeep, behind.pointer]
      exact .leaf fun _ _ notDeep => absurd rfl notDeep
    have shallow := Nat.not_le.mp deep
    rw [outcome_check_enter fresh shallow, outcome_check_enter fresh' (behind.shallow.mp shallow)]
    have inside := behind.enter addr
    change Outcome.Moved base ((p.enter addr).names = (q.enter addr).names) _ _
    refine examine_moved inside fun hop w asked => ?_
    refine ih addr hop w rfl fresh asked _ (inside.descend hop) fun legs other trail => ?_
    have held : s.Holds addr hop w := Node.plan_grounded asked
    -- the node that is entered is from here on around both places
    rw [Place.ancestors_descend, Place.ancestors_descend, Place.enter, Place.enter,
      List.mem_cons, List.mem_cons, around (⟨addr, hop⟩ :: legs) other (.leg held trail)]
  · rw [check_notANode object, check_notANode object]
    refine .rejected ?_
    rw [Place.notANode_eq, Place.notANode_eq]
    exact p.tell_moved behind _ _ _

end Store

/-- Two outcomes of checking one value, at a place and on its own: both accept it, both break
    down in the same way, or both find it to break the same rule. The findings are then chains
    of one length, with pointers that go on from the place, and with the same sentences if the
    place has no names and the rule is none that tells the pointer or the limit. -/
inductive Outcome.AgreesAt (p : Place) : Outcome → Outcome → Prop where
  | accepted : AgreesAt p .accepted .accepted
  | faulted (fault : Fault) : AgreesAt p (.faulted fault) (.faulted fault)
  | rejected {f g : Finding} (rule : f.rule = g.rule) (depth : f.depth = g.depth)
      (pointers : f.chain.map Finding.pointer =
        g.chain.map fun h => h.pointer.map (p.pointer ++ ·))
      (sentences : p.names = [] → f.rule ≠ .cyclicSchema → f.rule ≠ .schemaTooDeep →
        f.chain.map Finding.message = g.chain.map Finding.message) :
      AgreesAt p (.rejected f) (.rejected g)

theorem Outcome.Moved.agreesAt {p : Place} {here alone : Outcome}
    (moved : here.Moved p.pointer (p.names = []) alone) : here.AgreesAt p alone := by
  cases moved with
  | accepted => exact .accepted
  | faulted fault => exact .faulted fault
  | rejected moved =>
      exact .rejected moved.rule moved.depth moved.pointers fun unnamed notCyclic notDeep =>
        moved.messages unnamed notCyclic notDeep

namespace Outcome.AgreesAt

variable {p : Place}

theorem pointer {f g : Finding} (agrees : (Outcome.rejected f).AgreesAt p (.rejected g)) :
    f.pointer = g.pointer.map (p.pointer ++ ·) := by
  cases agrees with
  | rejected _ _ pointers _ =>
      have heads := congrArg List.head? pointers
      rw [List.head?_map, List.head?_map, Finding.head?_chain, Finding.head?_chain] at heads
      exact Option.some.inj heads

/-- Told through one attribute more, a finding stays in agreement but for its depth. -/
theorem within {r : Report} {alone : Outcome} (agrees : r.outcome.AgreesAt p alone)
    (context : String) :
    ((r.mapFinding (.within context)).outcome = .accepted ↔ alone = .accepted) ∧
    (∀ fault, (r.mapFinding (.within context)).outcome = .faulted fault ↔
      alone = .faulted fault) ∧
    ∀ f, (r.mapFinding (.within context)).outcome = .rejected f → ∃ g, alone = .rejected g ∧
      f.rule = g.rule ∧ f.pointer = g.pointer.map (p.pointer ++ ·) ∧ f.depth = g.depth + 1 := by
  simp only [Report.mapFinding_accepted, Report.mapFinding_faulted, Report.mapFinding_rejected]
  generalize r.outcome = here at agrees
  cases agrees with
  | accepted => simp
  | faulted fault => simp
  | @rejected f g rule depth pointers sentences =>
      have told : f.pointer = g.pointer.map (p.pointer ++ ·) :=
        pointer (.rejected rule depth pointers sentences)
      refine ⟨by simp, by simp, ?_⟩
      rintro _ ⟨_, ⟨⟩, rfl⟩
      exact ⟨g, rfl, rule, told, congrArg (· + 1) depth⟩

end Outcome.AgreesAt

namespace Store

variable {judge : Judge} {s : Store}

/-- A value that does not lead back to the nodes around a place is checked there as on its own,
    with the levels that are left. -/
theorem check_agreesAt {p : Place} {v : Value}
    (apart : ∀ legs addr, Trail s v legs (.mapping addr) → addr ∉ p.ancestors) :
    (s.check judge p v).outcome.AgreesAt p
      (s.check judge (.root (p.limit - p.depth)) v).outcome := by
  have behind : p.Behind p.pointer (.root (p.limit - p.depth)) :=
    ⟨String.append_empty.symm, rfl⟩
  have around : ∀ legs addr, Trail s v legs (.mapping addr) →
      (addr ∈ p.ancestors ↔ addr ∈ (Place.root (p.limit - p.depth)).ancestors) :=
    fun legs addr trail => iff_of_false (apart legs addr trail) List.not_mem_nil
  exact (check_moved p v _ behind around).agreesAt

/-! ## A schema as the one schema of the items of an array -/

section

variable {outer inner : Nat}
  (content : s.entries outer = [("type", .text "array"), ("items", .mapping inner)])
include content

theorem attribute?_ofItems (a : Attribute) : s.attribute? outer a =
    if a = .type then some (.text "array")
    else if a = .items then some (.mapping inner) else none := by
  rw [attribute?, content]
  cases a <;> rfl

theorem plan_ofItems (p : Place) :
    (s.node outer).plan s p = [.visit (.value .items) (.mapping inner)] := by
  rw [Node.plan_eq]
  simp [Attribute.checkOrder, Node.stepsAt, Node.unionSteps, Node.schemaMapSteps,
    Node.schemaOrFalseSteps, Node.itemsSteps, Node.divisibleByFindings, Node.divisorFindings,
    Node.expect, Node.get?_node, attribute?_ofItems content]

/-- All that is done at such an array is to check the schema of its items. -/
theorem outcome_examine_ofItems (p : Place) :
    (examine (s.check judge) judge s p outer).outcome =
      ((s.check judge (p.descend (.value .items)) (.mapping inner)).mapFinding
        (p.wrap (.value .items))).outcome := by
  have settled : ((s.node outer).judgeDefault judge p outer).outcome = .accepted := by
    rw [Node.judgeDefault_accepted]
    simp [attribute?_ofItems content]
  rw [examine, plan_ofItems content, Report.ofSteps, Report.ofSteps, Report.andThen_assoc,
    Report.outcome_andThen]
  split
  · next accepted => rw [accepted]; exact settled
  · rfl

end

end Store

/-- The verdict on a schema does not depend on where the schema sits. At any place whose nodes
    it does not lead back to, it is the verdict on the schema alone with the levels that are
    left, told from that place. In particular an array whose items have to be of one schema is
    accepted, with one level more, exactly when that schema is; otherwise the same rule is broken
    behind the items, and told through one attribute more. -/
theorem Store.check_placeInvariant (judge : Judge) (s : Store) :
    (∀ p v, (∀ legs addr, Trail s v legs (.mapping addr) → addr ∉ p.ancestors) →
      (s.check judge p v).outcome.AgreesAt p
        (s.check judge (.root (p.limit - p.depth)) v).outcome) ∧
    ∀ limit inner outer,
      (s.attribute? inner .type = some (.text "object") ∨
        s.attribute? inner .type = some (.text "array")) →
      s.entries outer = [("type", .text "array"), ("items", .mapping inner)] →
      (∀ legs, ¬ Trail s (.mapping inner) legs (.mapping outer)) →
      let whole := (auditWith judge ⟨s, .mapping outer⟩ (limit + 1)).outcome
      let part := (auditWith judge ⟨s, .mapping inner⟩ limit).outcome
      (whole = .accepted ↔ part = .accepted) ∧
      (∀ fault, whole = .faulted fault ↔ part = .faulted fault) ∧
      ∀ f, whole = .rejected f → ∃ g, part = .rejected g ∧ f.rule = g.rule ∧
        f.pointer = g.pointer.map ("/items" ++ ·) ∧ f.depth = g.depth + 1 := by
  refine ⟨fun p v apart => check_agreesAt apart, fun limit inner outer typed content apart => ?_⟩
  have rooted : rootFinding? ⟨s, .mapping inner⟩ = none :=
    Document.rootFinding?_eq_none.mpr ⟨inner, rfl, typed⟩
  have rooted' : rootFinding? ⟨s, .mapping outer⟩ = none :=
    Document.rootFinding?_eq_none.mpr ⟨outer, rfl, .inr (attribute?_ofItems content .type)⟩
  let items := ((Place.root (limit + 1)).enter outer).descend (.value .items)
  have apart' : ∀ legs addr, Trail s (.mapping inner) legs (.mapping addr) →
      addr ∉ items.ancestors := by
    intro legs addr trail around
    obtain rfl : addr = outer := List.mem_singleton.mp around
    exact apart legs trail
  have agrees : (s.check judge items (.mapping inner)).outcome.AgreesAt items
      (s.check judge (.root limit) (.mapping inner)).outcome := check_agreesAt apart'
  rw [outcome_auditWith_rooted rooted, outcome_auditWith_rooted rooted',
    outcome_check_enter List.not_mem_nil (Nat.succ_pos limit), outcome_examine_ofItems content]
  exact agrees.within _

/-- A schema with a limit that is a text, and an array whose items have to be of it. -/
def Store.arrayOfMistyped : Store where
  lists := #[]
  maps := #[[("type", .text "object"), ("minItems", .text "many")],
    [("type", .text "array"), ("items", .mapping 0)]]

theorem Store.trail_arrayOfMistyped {legs : List Leg} {v : Value}
    (trail : Trail arrayOfMistyped (.mapping 0) legs v) : v = .mapping 0 := by
  cases trail with
  | stay => rfl
  | leg first _ =>
      exfalso
      cases first with
      | alternative isUnion found array _ =>
          rcases isUnion with rfl | rfl
          · obtain rfl := Option.some.inj found
            cases array
          · cases found
      | named isMap found _ _ => rcases isMap with rfl | rfl <;> cases found
      | additional isAdditional found _ => rcases isAdditional with rfl | rfl <;> cases found
      | allItems found | item found _ _ => cases found

theorem Store.check_placeInvariant_arrayOfMistyped :
    let s := arrayOfMistyped
    let p : Place := ⟨[], "/a", 3, 9, [1]⟩
    let f : Finding := .within "Schema: 'items' attribute is not a valid schema"
      (.leaf .invalidAttributeType
        "Schema: 'minItems' attribute is a string when it should be an integer"
        (some "/items/minItems"))
    (∀ legs addr, Trail s (.mapping 0) legs (.mapping addr) → addr ∉ p.ancestors) ∧
    (s.check (judge s) p (.mapping 0)).outcome.AgreesAt p
      (s.check (judge s) (.root 6) (.mapping 0)).outcome ∧
    (∀ legs, ¬ Trail s (.mapping 0) legs (.mapping 1)) ∧
    (auditWith (judge s) ⟨s, .mapping 1⟩ 6).outcome = .rejected f ∧
    ∃ g, (auditWith (judge s) ⟨s, .mapping 0⟩ 5).outcome = .rejected g ∧ f.rule = g.rule ∧
      f.pointer = g.pointer.map ("/items" ++ ·) ∧ f.depth = g.depth + 1 := by
  intro s p f
  have apart : ∀ legs addr, Trail s (.mapping 0) legs (.mapping addr) → addr ∉ p.ancestors := by
    intro legs addr trail
    obtain rfl := Value.mapping.inj (trail_arrayOfMistyped trail)
    decide
  have apart' : ∀ legs, ¬ Trail s (.mapping 0) legs (.mapping 1) :=
    fun legs trail => apart legs 1 trail (by decide)
  have rejected : (auditWith (judge s) ⟨s, .mapping 1⟩ 6).outcome = .rejected f := by
    decide +kernel
  obtain ⟨anywhere, asItems⟩ := check_placeInvariant (judge s) s
  exact ⟨apart, anywhere p _ apart, apart', rejected,
    (asItems 5 0 1 (.inl rfl) rfl apart').2.2 f rejected⟩

end SchemaAudit

import SchemaAudit.Audit
import SchemaAudit.Proofs.StopSite

/-! # The first of all findings

All findings of a document, listed attribute by attribute without any of them stopping the
others. An audit stops at its first finding, and that finding is the first of the list.
-/

namespace SchemaAudit

namespace Attribute

instance decidableAllows (a : Attribute) (v : Value) : Decidable (a.Allows v) :=
  match a with
  | .type | .disallow | .additionalProperties | .additionalItems | .items | .minimum | .maximum
  | .divisibleBy => inferInstanceAs (Decidable (_ ∨ _))
  | .properties | .patternProperties | .required | .uniqueItems | .exclusiveMinimum
  | .exclusiveMaximum | .enum | .minItems | .maxItems | .minLength | .maxLength | .pattern =>
    inferInstanceAs (Decidable (_ = _))
  | .default => inferInstanceAs (Decidable True)

/-- What an attribute may have, in words. -/
def expectation : Attribute → String
  | .type | .disallow => "either a string or an array"
  | .properties | .patternProperties => Kind.object.phrase
  | .additionalProperties | .additionalItems => "either an object (schema) or false"
  | .items => "either an object (schema) or an array"
  | .required | .uniqueItems | .exclusiveMinimum | .exclusiveMaximum => Kind.boolean.phrase
  | .enum => Kind.array.phrase
  | .minItems | .maxItems | .minLength | .maxLength => Kind.integer.phrase
  | .minimum | .maximum | .divisibleBy => Kind.number.phrase
  | .pattern => Kind.string.phrase
  | .default => TypeName.any.phrase

end Attribute

namespace Store

/-- Whether the numeric attributes ahead of the divisor are all of their types. -/
def boundsAllowed (s : Store) (addr : Nat) : Bool :=
  [Attribute.minimum, .exclusiveMinimum, .maximum, .exclusiveMaximum].all fun b =>
    (s.attribute? addr b).all fun v => b.Allows v

/-- The findings inside an attribute whose value is of a type that it may have: those of the
    schemas it holds, in document order, and those of elements that are no schemas. -/
def findingsInside (s : Store) (p : Place) (addr : Nat) (inner : Hop → Value → List Finding)
    (a : Attribute) (v : Value) : List Finding :=
  match a with
  | .type | .disallow =>
    match v.elements? s with
    | none => []
    | some vs =>
      if vs.length < 2 then [p.shortUnion a vs.length]
      else vs.zipIdx.flatMap fun (w, i) =>
        if w.kind = .string then []
        else if w.kind = .object then inner (.element a i) w
        else [p.noAlternative a i w]
  | .properties | .patternProperties =>
    ((v.entries? s).getD []).flatMap fun (name, w) => inner (.entry a name) w
  | .additionalProperties | .additionalItems => if v.kind = .object then inner (.value a) v else []
  | .items =>
    if v.kind = .object then inner (.value a) v
    else ((v.elements? s).getD []).zipIdx.flatMap fun (w, i) => inner (.element a i) w
  | .divisibleBy => if s.boundsAllowed addr && v.isZero then [p.zeroDivisor] else []
  | _ => []

/-- The findings at an attribute of the mapping at an address. -/
def findingsAt (s : Store) (p : Place) (addr : Nat) (inner : Hop → Value → List Finding)
    (a : Attribute) : List Finding :=
  match s.attribute? addr a with
  | none => []
  | some v =>
    if a.Allows v then s.findingsInside p addr inner a v
    else [p.mistyped a v a.expectation]

/-- The finding at a default that is not admitted by the mapping that declares it. -/
def findingsOfDefault (s : Store) (judge : Judge) (p : Place) (addr : Nat) : List Finding :=
  match s.attribute? addr .default with
  | none => []
  | some v =>
    match judge v addr with
    | .fits | .faulted _ => []
    | .unusable reason => [p.unfitDefault reason]
    | .violated path message => [p.unfitDefault (Verdict.located path message)]

/-- All findings at a place and in the values inside. The default counts only in a node that has
    no other findings. -/
def findings (s : Store) (judge : Judge) (p : Place) (v : Value) : List Finding :=
  match v with
  | .mapping addr =>
    if addr ∈ p.ancestors then [p.cyclic]
    else if p.limit ≤ p.depth then [p.tooDeep]
    else
      let structural := Attribute.checkOrder.flatMap
        (s.findingsAt (p.enter addr) addr fun hop w =>
          (s.findings judge ((p.enter addr).descend hop) w).map ((p.enter addr).wrap hop))
      structural ++
        if structural = [] then s.findingsOfDefault judge (p.enter addr) addr else []
  | v => [p.notANode v]
termination_by p.limit - p.depth
decreasing_by
  rw [Place.limit_descend, Place.depth_descend]
  simp only [Place.enter]
  omega

end Store

/-- All findings of a document: what is wrong with its root alone, or else all that is wrong in
    its nodes. -/
def Document.findings (d : Document) (limit : Nat) : List Finding :=
  match rootFinding? d with
  | some f => [f]
  | none => d.store.findings (judge d.store) (.root limit) d.root

/-- The outcome that tells the first of a list of findings. -/
def Outcome.first : List Finding → Outcome
  | [] => .accepted
  | f :: _ => .rejected f

/-! ## The steps of a node as findings -/

/-- The findings that a step leads to, given those of the values inside. -/
def Step.findings (inner : Hop → Value → List Finding) : Step → List Finding
  | .found f => [f]
  | .visit hop v => inner hop v

namespace Store

variable {s : Store} {p : Place} {addr : Nat} {inner : Hop → Value → List Finding}
  {a : Attribute}

theorem flatMap_found (fs : List Finding) :
    (fs.map Step.found).flatMap (Step.findings inner) = fs := by
  induction fs with
  | nil => rfl
  | cons f rest ih => simpa [Step.findings] using ih

theorem expect_eq {t : TypeName} (plain : a.plainType? = some t)
    (still : ∀ v, s.findingsInside p addr inner a v = []) :
    (s.node addr).expect p a t = s.findingsAt p addr inner a := by
  have phrase : a.expectation = t.phrase := by
    cases a <;> simp only [Attribute.plainType?, Option.some.injEq, reduceCtorEq] at plain <;>
      subst plain <;> rfl
  rw [Node.expect, Node.get?_node, findingsAt]
  cases s.attribute? addr a with
  | none => rfl
  | some v => simp only [Attribute.allows_iff_admits plain v, still v, phrase]

theorem numbersTyped_eq : (s.node addr).numbersTyped =
    (s.boundsAllowed addr &&
      (s.attribute? addr .divisibleBy).all fun v => Attribute.divisibleBy.Allows v) := by
  have same : ∀ b t, b.plainType? = some t → ((s.node addr).get? b).all t.admits =
      (s.attribute? addr b).all fun v => b.Allows v := by
    intro b t plain
    rw [Node.get?_node]
    cases s.attribute? addr b with
    | none => rfl
    | some v =>
        rw [Option.all_some, Option.all_some, Bool.eq_iff_iff, decide_eq_true_iff]
        exact (Attribute.allows_iff_admits plain v).symm
  simp only [Node.numbersTyped, Node.numberTypes, boundsAllowed, List.all_cons, List.all_nil,
    same .minimum _ rfl, same .exclusiveMinimum _ rfl, same .maximum _ rfl,
    same .exclusiveMaximum _ rfl, same .divisibleBy _ rfl, Bool.and_true, Bool.and_assoc]

theorem divisibleBy_eq :
    (s.node addr).divisibleByFindings p = s.findingsAt p addr inner .divisibleBy := by
  rw [Node.divisibleByFindings, Node.expect, Node.divisorFindings, Node.get?_node, findingsAt,
    numbersTyped_eq]
  cases s.attribute? addr .divisibleBy with
  | none => simp
  | some v =>
      have admits := Attribute.allows_iff_admits (a := .divisibleBy) rfl v
      by_cases allowed : Attribute.divisibleBy.Allows v
      · simp only [admits.mp allowed, if_true, List.nil_append, findingsInside, Option.all_some,
          decide_true, Bool.and_true, allowed]
        cases s.boundsAllowed addr <;> simp
      · simp only [if_neg (mt admits.mpr allowed), Option.all_some, allowed, decide_false,
          Bool.and_false, Bool.false_eq_true, if_false, List.append_nil]
        rfl

theorem alternative_eq {i : Nat} {w : Value} :
    (Node.alternativeStep p a i w).flatMap (Step.findings inner) =
      if w.kind = .string then [] else if w.kind = .object then inner (.element a i) w
      else [p.noAlternative a i w] := by
  cases w with
  | float x =>
      have number : (Value.float x).kind = .integer ∨ (Value.float x).kind = .number := by
        simp only [Value.kind]
        split <;> simp
      rcases number with kind | kind <;> rw [kind] <;> rfl
  | mapping => simp [Node.alternativeStep, Alternative.ofValue?, Value.kind, Step.findings]
  | _ => rfl

theorem union_eq (isUnion : a = .type ∨ a = .disallow) :
    ((s.node addr).unionSteps s p a).flatMap (Step.findings inner) =
      s.findingsAt p addr inner a := by
  have allows : ∀ v, a.Allows v ↔ v.kind = .string ∨ v.kind = .array := by
    rcases isUnion with rfl | rfl <;> exact fun v => Iff.rfl
  have words : a.expectation = "either a string or an array" := by
    rcases isUnion with rfl | rfl <;> rfl
  have inside : ∀ v vs, v.elements? s = some vs → s.findingsInside p addr inner a v =
      if vs.length < 2 then [p.shortUnion a vs.length]
      else vs.zipIdx.flatMap fun (w, i) =>
        (Node.alternativeStep p a i w).flatMap (Step.findings inner) := by
    intro v vs array
    rcases isUnion with rfl | rfl <;> simp only [findingsInside, array, alternative_eq]
  rw [Node.unionSteps, Node.get?_node, findingsAt]
  split
  · next nothing => rw [nothing]; rfl
  · next t found =>
      simp only [found, if_pos ((allows (.text t)).mpr (.inl rfl))]
      rcases isUnion with rfl | rfl <;> rfl
  · next v notText found =>
      simp only [found]
      by_cases array : v.kind = .array
      · obtain ⟨vs, elements⟩ := (Value.kind_eq_array s).mp array
        simp only [if_pos ((allows v).mpr (.inr array)), elements, inside v vs elements]
        split
        · rfl
        · exact List.flatMap_assoc
      · have wrong : ¬ a.Allows v := by
          rw [allows, Value.kind_eq_string]
          rintro (⟨t, rfl⟩ | isArray)
          · exact notText t rfl
          · exact array isArray
        simp only [if_neg wrong, Value.elements?_eq_none array, words]
        rfl

theorem schemaMap_eq (allows : ∀ v, a.Allows v ↔ v.kind = .object)
    (words : a.expectation = Kind.object.phrase)
    (inside : ∀ v, s.findingsInside p addr inner a v =
      ((v.entries? s).getD []).flatMap fun (name, w) => inner (.entry a name) w) :
    ((s.node addr).schemaMapSteps s p a).flatMap (Step.findings inner) =
      s.findingsAt p addr inner a := by
  rw [Node.schemaMapSteps, Node.get?_node, findingsAt]
  cases s.attribute? addr a with
  | none => rfl
  | some v =>
      by_cases object : v.kind = .object
      · obtain ⟨m, rfl⟩ := Value.kind_eq_object.mp object
        simp only [if_pos ((allows _).mpr object), inside, Value.entries?, Option.getD_some,
          List.flatMap_map, Step.findings]
      · simp only [if_neg (mt (allows v).mp object), Value.entries?_eq_none object, words]
        rfl

theorem schemaOrFalse_eq (allows : ∀ v, a.Allows v ↔ v = .bool false ∨ v.kind = .object)
    (words : a.expectation = "either an object (schema) or false")
    (inside : ∀ v, s.findingsInside p addr inner a v =
      if v.kind = .object then inner (.value a) v else []) :
    ((s.node addr).schemaOrFalseSteps p a).flatMap (Step.findings inner) =
      s.findingsAt p addr inner a := by
  rw [Node.schemaOrFalseSteps, Node.get?_node, findingsAt]
  split
  · next nothing => rw [nothing]; rfl
  · next found =>
      rw [found]
      simp [allows, inside, Value.kind]
  · next m found =>
      rw [found]
      simp [allows, inside, Value.kind, Step.findings]
  · next v notFalse notMapping found =>
      have wrong : ¬ a.Allows v := by
        rw [allows, Value.kind_eq_object]
        rintro (rfl | ⟨m, rfl⟩)
        · exact notFalse rfl
        · exact notMapping m rfl
      simp only [found, if_neg wrong, words]
      rfl

theorem items_eq :
    ((s.node addr).itemsSteps s p).flatMap (Step.findings inner) =
      s.findingsAt p addr inner .items := by
  rw [Node.itemsSteps, Node.get?_node, findingsAt]
  split
  · next nothing => rw [nothing]; rfl
  · next m found =>
      rw [found]
      simp [Attribute.Allows, findingsInside, Value.kind, Step.findings]
  · next v notMapping found =>
      simp only [found]
      have noObject : v.kind ≠ .object := by
        rw [Ne, Value.kind_eq_object]
        rintro ⟨m, rfl⟩
        exact notMapping m rfl
      by_cases array : v.kind = .array
      · obtain ⟨vs, elements⟩ := (Value.kind_eq_array s).mp array
        have allowed : Attribute.items.Allows v := .inr array
        simp only [if_pos allowed, elements, findingsInside, if_neg noObject, Option.getD_some,
          List.flatMap_map, Step.findings]
      · have wrong : ¬ Attribute.items.Allows v := fun allowed => allowed.elim noObject array
        simp only [if_neg wrong, Value.elements?_eq_none array]
        rfl

/-- The steps of a node at an attribute lead to the findings at that attribute. -/
theorem flatMap_stepsAt :
    ((s.node addr).stepsAt s p a).flatMap (Step.findings inner) =
      s.findingsAt p addr inner a := by
  have plain : ∀ t, a.plainType? = some t → (∀ v, s.findingsInside p addr inner a v = []) →
      (((s.node addr).expect p a t).map Step.found).flatMap (Step.findings inner) =
        s.findingsAt p addr inner a := by
    intro t typed still
    rw [flatMap_found, expect_eq typed still]
  cases a with
  | type => exact union_eq (.inl rfl)
  | disallow => exact union_eq (.inr rfl)
  | properties | patternProperties =>
      exact schemaMap_eq (fun _ => Iff.rfl) rfl fun _ => rfl
  | additionalProperties | additionalItems =>
      exact schemaOrFalse_eq (fun _ => Iff.rfl) rfl fun _ => rfl
  | items => exact items_eq
  | divisibleBy => exact (flatMap_found _).trans divisibleBy_eq
  | default =>
      rw [findingsAt]
      cases s.attribute? addr .default <;> rfl
  | _ => exact plain _ rfl fun _ => rfl

/-- All steps of a node lead to its findings, attribute by attribute. -/
theorem flatMap_plan :
    ((s.node addr).plan s p).flatMap (Step.findings inner) =
      Attribute.checkOrder.flatMap (s.findingsAt p addr inner) := by
  rw [Node.plan_eq, List.flatMap_assoc]
  simp only [flatMap_stepsAt]

end Store

/-! ## Reports that tell the first finding -/

namespace Report

/-- A report that tells the first of a list of findings, unless it breaks down. -/
def Tells (r : Report) (fs : List Finding) : Prop :=
  (∃ fault, r.outcome = .faulted fault) ∨ r.outcome = .first fs

theorem Tells.map {r : Report} {fs : List Finding} (tells : r.Tells fs)
    (wrap : Finding → Finding) : (r.mapFinding wrap).Tells (fs.map wrap) := by
  rcases tells with ⟨fault, faulted⟩ | first
  · exact .inl ⟨fault, mapFinding_faulted.mpr faulted⟩
  · right
    cases fs with
    | nil => exact mapFinding_accepted.mpr first
    | cons f rest => exact mapFinding_rejected.mpr ⟨f, first, rfl⟩

theorem Tells.append {r : Report} {next : Unit → Report} {fs gs : List Finding}
    (tells : r.Tells fs) (onward : fs = [] → (next ()).Tells gs) :
    (r.andThen next).Tells (fs ++ gs) := by
  rw [Tells, outcome_andThen]
  rcases tells with ⟨fault, faulted⟩ | first
  · left
    exact ⟨fault, by rw [faulted]; rfl⟩
  · cases fs with
    | nil => rw [first]; exact onward rfl
    | cons f rest => right; rw [first]; rfl

/-- Steps are told by the first of the findings that they lead to. -/
theorem ofSteps_tells {visit : Hop → Value → Report} {inner : Hop → Value → List Finding}
    {steps : List Step}
    (visits : ∀ hop v, .visit hop v ∈ steps → (visit hop v).Tells (inner hop v)) :
    (ofSteps visit steps).Tells (steps.flatMap (Step.findings inner)) := by
  induction steps with
  | nil => exact .inr rfl
  | cons step rest ih =>
      cases step with
      | found f => exact .inr rfl
      | visit hop v =>
          rw [ofSteps, List.flatMap_cons]
          apply Tells.append (visits hop v List.mem_cons_self)
          exact fun _ => ih fun hop v later => visits hop v (List.mem_cons_of_mem _ later)

end Report

namespace Store

variable {judge : Judge} {s : Store} {p : Place} {addr : Nat}

theorem judgeDefault_tells :
    ((s.node addr).judgeDefault judge p addr).Tells (s.findingsOfDefault judge p addr) := by
  rw [Node.judgeDefault, Node.get?_node, findingsOfDefault]
  cases s.attribute? addr .default with
  | none => exact .inr rfl
  | some v =>
      cases verdict : judge v addr with
      | faulted fault =>
          left
          exact ⟨fault, by simp only [verdict]⟩
      | _ =>
          right
          simp only [verdict]
          rfl

/-- A walk tells the first of the findings at a place and in the values inside. -/
theorem check_tells (p : Place) (v : Value) :
    (s.check judge p v).Tells (s.findings judge p v) := by
  refine walk_induction s
    (motive := fun p v => (s.check judge p v).Tells (s.findings judge p v)) ?_ p v
  intro p v ih
  by_cases object : v.kind = .object
  · obtain ⟨addr, rfl⟩ := Value.kind_eq_object.mp object
    rw [findings]
    by_cases fresh : addr ∈ p.ancestors
    · rw [check_cyclic fresh, if_pos fresh]
      exact .inr rfl
    by_cases deep : p.limit ≤ p.depth
    · rw [check_tooDeep fresh deep, if_neg fresh, if_pos deep]
      exact .inr rfl
    rw [Report.Tells, outcome_check_enter fresh (Nat.not_le.mp deep), if_neg fresh, if_neg deep]
    have visits : ∀ hop w, .visit hop w ∈ (s.node addr).plan s (p.enter addr) →
        ((s.check judge ((p.enter addr).descend hop) w).mapFinding
          ((p.enter addr).wrap hop)).Tells
        ((s.findings judge ((p.enter addr).descend hop) w).map ((p.enter addr).wrap hop)) :=
      fun hop w member => (ih addr hop w rfl fresh member).map _
    have steps := Report.ofSteps_tells visits
    rw [flatMap_plan] at steps
    apply steps.append
    intro nothing
    rw [if_pos nothing]
    exact judgeDefault_tells
  · have other : s.findings judge p v = [p.notANode v] := by
      cases v with
      | mapping => exact absurd rfl object
      | _ =>
          rw [findings]
          rintro _ ⟨⟩
    rw [check_notANode object, other]
    exact .inr rfl

end Store

/-- An audit ends with the first of all findings of its document, or with the fault of judging a
    default that the document declares at a schema position. -/
theorem Document.audit_tells_first (d : Document) (limit : Nat) :
    (d.audit limit).outcome = .first (d.findings limit) ∨
      ∃ legs addr v fault, Trail d.store d.root legs (.mapping addr) ∧
        d.store.attribute? addr .default = some v ∧ judge d.store v addr = .faulted fault ∧
        (d.audit limit).outcome = .faulted fault := by
  rw [audit, outcome_auditWith, findings]
  cases rootFinding? d with
  | some f => exact .inl rfl
  | none =>
      have tells : (d.store.check (judge d.store) (.root limit) d.root).Tells
          (d.store.findings (judge d.store) (.root limit) d.root) := Store.check_tells _ d.root
      rcases tells with ⟨fault, faulted⟩ | first
      · obtain ⟨addr, v, arrives, found, broke⟩ := (Store.check_faulted _ d.root).mp faulted
        obtain ⟨legs, trail⟩ := arrives.trail
        exact .inr ⟨legs, addr, v, fault, trail, found, broke, faulted⟩
      · exact .inl first

end SchemaAudit

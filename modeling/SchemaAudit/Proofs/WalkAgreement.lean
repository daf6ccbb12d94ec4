import SchemaAudit.Proofs.Pairing
import SchemaAudit.Proofs.Recursion
import SchemaAudit.Proofs.Wording

/-! # Walks side by side

Two schemas that stand for each other attribute by attribute ask for the same checks at the same
places. So their walks go side by side, as long as they meet a node around them at the same time,
and come to reports that are related in the way that the judgements of their defaults are.
-/

namespace SchemaAudit

namespace Pairing

variable {s t : Store} (m : Pairing s t)

/-- The values of an attribute in two schemas that stand for each other. -/
def Kept : Attribute → Value → Value → Prop
  | .type | .disallow | .properties | .patternProperties => Shape s t m.Part
  | .additionalProperties | .additionalItems => m.Part
  | .items => m.Rack
  | _ => m.data

/-- Nodes that set the same attributes, to values that stand for each other. -/
def KeptBy (n n' : Node) : Prop := ∀ x, Option.Rel (m.Kept x) (n.get? x) (n'.get? x)

/-- Steps with the same finding, or at the same hop to what stands for each other. -/
inductive Asks : Step → Step → Prop where
  | found (f : Finding) : Asks (.found f) (.found f)
  | visit (hop : Hop) {v w : Value} (part : m.Part v w) : Asks (.visit hop v) (.visit hop w)

variable {m} {n n' : Node} {v w : Value} {x : Attribute}

theorem Kept.kind (kept : m.Kept x v w) : v.kind = w.kind := by
  cases x with
  | type | disallow | properties | patternProperties => exact Shape.kind kept
  | additionalProperties | additionalItems => exact Part.kind kept
  | items => exact Rack.kind kept
  | _ => exact (m.shape kept).kind

theorem Wide.kept (wide : m.Wide) (same : m.data v w) : m.Kept x v w := by
  cases x with
  | type | disallow | properties | patternProperties => exact wide.parts same
  | additionalProperties | additionalItems => exact wide.part same
  | items => exact wide.rack same
  | _ => exact same

/-- Mappings that stand for each other entry by entry keep each other's attributes. -/
theorem Wide.keptBy (wide : m.Wide) {a b : Nat}
    (entries : Entries.Related m.data (s.entries a) (t.entries b)) :
    m.KeptBy (s.node a) (t.node b) := by
  intro x
  rw [Node.get?_node, Node.get?_node]
  rcases rel_cases (entries.lookup x.key) with ⟨none, none'⟩ | ⟨v, w, found, found', here⟩
  · rw [Store.attribute?, Store.attribute?, none, none']
    exact .none
  · rw [Store.attribute?, Store.attribute?, found, found']
    exact .some (wide.kept here)

/-! ## Plans -/

theorem mistyped_kind (same : v.kind = w.kind) (p : Place) (x : Attribute) (expected : String) :
    p.mistyped x v expected = p.mistyped x w expected := by
  simp only [Place.mistyped, Value.kindPhrase, same]

theorem expect_eq (kept : m.KeptBy n n') (p : Place) (x : Attribute) (name : TypeName) :
    n.expect p x name = n'.expect p x name := by
  rw [Node.expect, Node.expect]
  rcases rel_cases (kept x) with ⟨none, none'⟩ | ⟨v, w, found, found', here⟩
  · rw [none, none']
  · rw [found, found']
    simp only [TypeName.admits_of_kind here.kind, mistyped_kind here.kind]

theorem divisibleByFindings_eq (kept : m.KeptBy n n') (p : Place) :
    n.divisibleByFindings p = n'.divisibleByFindings p := by
  have typed : n.numbersTyped = n'.numbersTyped := by
    rw [Node.numbersTyped, Node.numbersTyped]
    congr 1
    funext typed
    obtain ⟨x, name⟩ := typed
    rcases rel_cases (kept x) with ⟨none, none'⟩ | ⟨v, w, found, found', here⟩
    · simp only [none, none']
    · simp only [found, found']
      exact TypeName.admits_of_kind here.kind name
  have divisor : n.divisorFindings p = n'.divisorFindings p := by
    rw [Node.divisorFindings, Node.divisorFindings]
    rcases rel_cases (kept .divisibleBy) with ⟨none, none'⟩ | ⟨v, w, found, found', here⟩
    · rw [none, none']
    · rw [found, found']
      cases m.shape here <;> rfl
  rw [Node.divisibleByFindings, Node.divisibleByFindings, expect_eq kept, typed, divisor]

theorem found_asks {fs gs : List Finding} (same : fs = gs) :
    List.Forall₂ m.Asks (fs.map .found) (gs.map .found) := by
  subst same
  exact List.forall₂_map_left_iff.mpr (List.forall₂_map_right_iff.mpr
    (List.forall₂_same.mpr fun f _ => .found f))

theorem alternativeStep_asks (part : m.Part v w) (p : Place) (x : Attribute) (i : Nat) :
    List.Forall₂ m.Asks (Node.alternativeStep p x i v) (Node.alternativeStep p x i w) := by
  cases part with
  | node same => exact .cons (.visit _ (.node same)) .nil
  | data same other =>
      have refused : p.noAlternative x i v = p.noAlternative x i w := by
        simp only [Place.noAlternative, Value.kindPhrase, (m.shape same).kind]
      have wrong : List.Forall₂ m.Asks [.found (p.noAlternative x i v)]
          [.found (p.noAlternative x i w)] := by
        rw [refused]
        exact .cons (.found _) .nil
      cases m.shape same with
      | mapping => exact absurd rfl other
      | list | tuple => exact wrong
      | scalar plain => cases v <;> first | exact plain.elim | exact .nil | exact wrong

theorem unionSteps_asks (kept : Option.Rel (Shape s t m.Part) (n.get? x) (n'.get? x)) (p : Place) :
    List.Forall₂ m.Asks (n.unionSteps s p x) (n'.unionSteps t p x) := by
  rw [Node.unionSteps, Node.unionSteps]
  rcases rel_cases kept with ⟨none, none'⟩ | ⟨v, w, found, found', shape⟩
  · rw [none, none']
    exact .nil
  · rw [found, found']
    have other : ∀ expected, List.Forall₂ m.Asks [.found (p.mistyped x v expected)]
        [.found (p.mistyped x w expected)] := by
      intro expected
      rw [mistyped_kind shape.kind]
      exact .cons (.found _) .nil
    have union : ∀ {vs ws : List Value}, List.Forall₂ m.Part vs ws → List.Forall₂ m.Asks
        (if vs.length < 2 then [.found (p.shortUnion x vs.length)]
        else vs.zipIdx.flatMap fun e => Node.alternativeStep p x e.2 e.1)
        (if ws.length < 2 then [.found (p.shortUnion x ws.length)]
        else ws.zipIdx.flatMap fun e => Node.alternativeStep p x e.2 e.1) := by
      intro vs ws row
      rw [row.length_eq]
      split
      · exact .cons (.found _) .nil
      · apply List.rel_flatMap (zipIdx_of_forall₂ row 0)
        rintro ⟨u, i⟩ ⟨u', _⟩ ⟨part, rfl⟩
        exact alternativeStep_asks part p x i
    cases shape with
    | list elements => exact union elements
    | tuple elements => exact union elements
    | mapping => exact other _
    | scalar plain => cases v <;> first | exact plain.elim | exact .nil | exact other _

theorem schemaMapSteps_asks (kept : Option.Rel (Shape s t m.Part) (n.get? x) (n'.get? x))
    (p : Place) : List.Forall₂ m.Asks (n.schemaMapSteps s p x) (n'.schemaMapSteps t p x) := by
  rw [Node.schemaMapSteps, Node.schemaMapSteps]
  rcases rel_cases kept with ⟨none, none'⟩ | ⟨v, w, found, found', shape⟩
  · rw [none, none']
    exact .nil
  · rw [found, found']
    simp only [mistyped_kind shape.kind]
    rcases rel_cases shape.entries? with ⟨none, none'⟩ | ⟨es, fs, map, map', entries⟩
    · rw [none, none']
      exact .cons (.found _) .nil
    · rw [map, map']
      refine List.forall₂_map_left_iff.mpr (List.forall₂_map_right_iff.mpr (entries.imp ?_))
      rintro ⟨name, u⟩ ⟨_, u'⟩ ⟨rfl, part⟩
      exact .visit _ part

theorem schemaOrFalseSteps_asks (kept : Option.Rel m.Part (n.get? x) (n'.get? x)) (p : Place) :
    List.Forall₂ m.Asks (n.schemaOrFalseSteps p x) (n'.schemaOrFalseSteps p x) := by
  rw [Node.schemaOrFalseSteps, Node.schemaOrFalseSteps]
  rcases rel_cases kept with ⟨none, none'⟩ | ⟨v, w, found, found', part⟩
  · rw [none, none']
    exact .nil
  · rw [found, found']
    cases part with
    | node same => exact .cons (.visit _ (.node same)) .nil
    | data same outside =>
        have other : ∀ expected, List.Forall₂ m.Asks [.found (p.mistyped x v expected)]
            [.found (p.mistyped x w expected)] := by
          intro expected
          rw [mistyped_kind (m.shape same).kind]
          exact .cons (.found _) .nil
        cases m.shape same with
        | mapping => exact absurd rfl outside
        | list | tuple => exact other _
        | scalar plain =>
            cases v with
            | bool b => cases b <;> first | exact .nil | exact other _
            | list | tuple | mapping => exact plain.elim
            | _ => exact other _

theorem itemsSteps_asks (kept : Option.Rel m.Rack (n.get? .items) (n'.get? .items)) (p : Place) :
    List.Forall₂ m.Asks (n.itemsSteps s p) (n'.itemsSteps t p) := by
  rw [Node.itemsSteps, Node.itemsSteps]
  rcases rel_cases kept with ⟨none, none'⟩ | ⟨v, w, found, found', rack⟩
  · rw [none, none']
    exact .nil
  · rw [found, found']
    cases rack with
    | node same => exact .cons (.visit _ (.node same)) .nil
    | row shape outside =>
        have other : ∀ expected, List.Forall₂ m.Asks [.found (p.mistyped .items v expected)]
            [.found (p.mistyped .items w expected)] := by
          intro expected
          rw [mistyped_kind shape.kind]
          exact .cons (.found _) .nil
        have each : ∀ {vs ws : List Value}, List.Forall₂ m.Part vs ws → List.Forall₂ m.Asks
            (vs.zipIdx.map fun e => .visit (.element .items e.2) e.1)
            (ws.zipIdx.map fun e => .visit (.element .items e.2) e.1) := by
          intro vs ws row
          refine List.forall₂_map_left_iff.mpr (List.forall₂_map_right_iff.mpr
            ((zipIdx_of_forall₂ row 0).imp ?_))
          rintro ⟨u, i⟩ ⟨u', _⟩ ⟨part, rfl⟩
          exact .visit _ part
        cases shape with
        | mapping => exact absurd rfl outside
        | list elements => exact each elements
        | tuple elements => exact each elements
        | scalar plain => cases v <;> first | exact plain.elim | exact other _

/-- Nodes that keep each other's attributes have the same plan. -/
theorem plan_asks (kept : m.KeptBy n n') (p : Place) :
    List.Forall₂ m.Asks (n.plan s p) (n'.plan t p) := by
  rw [Node.plan_eq, Node.plan_eq]
  apply List.rel_flatMap (List.forall₂_same.mpr fun _ _ => rfl)
  rintro x _ rfl
  cases x with
  | type => exact unionSteps_asks (kept .type) p
  | disallow => exact unionSteps_asks (kept .disallow) p
  | properties => exact schemaMapSteps_asks (kept .properties) p
  | patternProperties => exact schemaMapSteps_asks (kept .patternProperties) p
  | additionalProperties => exact schemaOrFalseSteps_asks (kept .additionalProperties) p
  | additionalItems => exact schemaOrFalseSteps_asks (kept .additionalItems) p
  | items => exact itemsSteps_asks (kept .items) p
  | divisibleBy => exact found_asks (divisibleByFindings_eq kept p)
  | default => exact .nil
  | _ => exact found_asks (expect_eq kept p _ _)

end Pairing

/-! ## Walks -/

/-- Places that are told alike, with different nodes around them. -/
def Place.amid (p : Place) (around : List Nat) : Place := { p with ancestors := around }

theorem Place.descend_amid (p : Place) (around : List Nat) (hop : Hop) :
    (p.amid around).descend hop = (p.descend hop).amid around := by
  cases hop <;> rfl

theorem Place.wrap_amid (p : Place) (around : List Nat) (hop : Hop) :
    (p.amid around).wrap hop = p.wrap hop := by
  funext f
  cases hop <;> rfl

theorem Node.plan_amid (s : Store) (n : Node) (p : Place) (around : List Nat) :
    n.plan s (p.amid around) = n.plan s p :=
  n.plan_congr s rfl

/-- A relation of reports that is kept by all that is done with them. -/
structure Report.Congruence (same : Report → Report → Prop) : Prop where
  refl : ∀ r, same r r
  andThen : ∀ {r q : Report} {next next' : Unit → Report}, same r q → same (next ()) (next' ()) →
    same (r.andThen next) (q.andThen next')
  mapFinding : ∀ {r q : Report} (p : Place) (hop : Hop), same r q →
    same (r.mapFinding (p.wrap hop)) (q.mapFinding (p.wrap hop))
  logged : ∀ {r q : Report}, same r q → same r.logged q.logged

theorem Report.ofSteps_same {same : Report → Report → Prop} (congruence : Congruence same)
    {s t : Store} {m : Pairing s t} {visit visit' : Hop → Value → Report} {steps steps' : List Step}
    (row : List.Forall₂ m.Asks steps steps')
    (each : ∀ hop v w, .visit hop v ∈ steps → m.Part v w → same (visit hop v) (visit' hop w)) :
    same (ofSteps visit steps) (ofSteps visit' steps') := by
  induction row with
  | nil => exact congruence.refl _
  | cons first _ ih =>
      have rest := ih fun hop v w later => each hop v w (List.mem_cons_of_mem _ later)
      cases first with
      | found f => exact congruence.refl _
      | visit hop part => exact congruence.andThen (each hop _ _ List.mem_cons_self part) rest

/-- Walks that meet what stands for each other, with the nodes around it. Neither is inside itself
    unless the other one is, and what they hold is met again. -/
structure Meeting (judge judge' : Judge) (s t : Store) (same : Report → Report → Prop)
    (meet : List Nat → List Nat → Value → Value → Prop) : Prop where
  kind : ∀ {l l' v w}, meet l l' v w → v.kind = w.kind
  fresh : ∀ {l l' a b}, meet l l' (.mapping a) (.mapping b) → (a ∈ l ↔ b ∈ l')
  inside : ∀ {l l' a b}, meet l l' (.mapping a) (.mapping b) → a ∉ l →
    ∃ m : Pairing s t, m.KeptBy (s.node a) (t.node b) ∧
      ∀ hop v w, s.Holds a hop v → m.Part v w → meet (a :: l) (b :: l') v w
  default : ∀ {l l' a b}, meet l l' (.mapping a) (.mapping b) → ∀ p around,
    same ((s.node a).judgeDefault judge p a) ((t.node b).judgeDefault judge' (p.amid around) b)

namespace Store

variable {judge judge' : Judge} {s t : Store} {same : Report → Report → Prop}
  {meet : List Nat → List Nat → Value → Value → Prop}

theorem check_same (congruence : Report.Congruence same) (meeting : Meeting judge judge' s t same meet)
    (p : Place) (v : Value) : ∀ (around : List Nat) (w : Value), meet p.ancestors around v w →
      same (s.check judge p v) (t.check judge' (p.amid around) w) := by
  refine walk_induction s (motive := fun p v => ∀ (around : List Nat) (w : Value),
    meet p.ancestors around v w →
      same (s.check judge p v) (t.check judge' (p.amid around) w)) ?_ p v
  intro p v ih around w met
  have kind := meeting.kind met
  by_cases object : v.kind = .object
  · obtain ⟨a, rfl⟩ := Value.kind_eq_object.mp object
    obtain ⟨b, rfl⟩ := Value.kind_eq_object.mp (kind ▸ object)
    have crossing := meeting.fresh met
    by_cases fresh : a ∈ p.ancestors
    · have fresh' : b ∈ (p.amid around).ancestors := crossing.mp fresh
      rw [check_cyclic fresh, check_cyclic fresh']
      exact congruence.refl _
    have fresh' : b ∉ (p.amid around).ancestors := fun inside => fresh (crossing.mpr inside)
    by_cases deep : p.limit ≤ p.depth
    · rw [check_tooDeep fresh deep, check_tooDeep (p := p.amid around) fresh' deep]
      exact congruence.refl _
    have shallow := Nat.not_le.mp deep
    rw [check_enter fresh shallow, check_enter (p := p.amid around) fresh' shallow]
    obtain ⟨m, kept, onward⟩ := meeting.inside met fresh
    -- apart from the nodes around them, the places inside are the same
    have inner : (p.amid around).enter b = (p.enter a).amid (b :: around) := rfl
    refine congruence.andThen (congruence.refl _) (congruence.andThen ?_ ?_)
    · rw [inner, Node.plan_amid]
      apply Report.ofSteps_same congruence (Pairing.plan_asks kept (p.enter a))
      intro hop v w asked part
      have held : s.Holds a hop v := Node.plan_grounded asked
      rw [Place.wrap_amid, Place.descend_amid]
      apply congruence.mapFinding
      apply ih a hop v rfl fresh asked
      rw [Place.ancestors_descend]
      exact onward hop v w held part
    · exact meeting.default met (p.enter a) (b :: around)
  · rw [check_notANode object, check_notANode (kind ▸ object)]
    have refused : (p.amid around).notANode w = p.notANode v := by
      simp only [Place.notANode, Value.kindPhrase, kind]
      rfl
    rw [refused]
    exact congruence.refl _

end Store

namespace Document

variable {judge judge' : Judge} {d e : Document} {same : Report → Report → Prop}
  {meet : List Nat → List Nat → Value → Value → Prop}

/-- What is wrong with a root that is no mapping shows in its kind. -/
theorem rootFinding?_kind {s : Store} {v : Value} (other : v.kind ≠ .object) :
    rootFinding? ⟨s, v⟩ = some (if v.kind = .null then
        .leaf .schemaMissing "Schema is undefined" (some "")
      else
        .leaf .invalidRootType ("Schema is " ++ v.kind.phrase ++ " when it should be an object")
          (some "")) := by
  cases v with
  | mapping => exact absurd rfl other
  | float x => cases whole : x.isWhole <;> simp [rootFinding?, Value.kindPhrase, Value.kind, whole]
  | _ => rfl

/-- What is wrong with a root that is a mapping shows in its type. -/
theorem rootFinding?_same (meeting : Meeting judge judge' d.store e.store same meet)
    (met : meet [] [] d.root e.root) : rootFinding? d = rootFinding? e := by
  obtain ⟨s, v⟩ := d
  obtain ⟨t, w⟩ := e
  have kind : v.kind = w.kind := meeting.kind met
  by_cases object : v.kind = .object
  · obtain ⟨a, rfl⟩ := Value.kind_eq_object.mp object
    obtain ⟨b, rfl⟩ := Value.kind_eq_object.mp (kind ▸ object)
    obtain ⟨m, kept, _⟩ := meeting.inside met List.not_mem_nil
    have typed := kept .type
    simp only [Node.get?_node, Store.attribute?] at typed
    rw [rootFinding?, rootFinding?]
    rcases rel_cases typed with ⟨none, none'⟩ | ⟨u, x, found, found', shape⟩
    · simp only [none, none']
    · simp only [found, found']
      cases shape with
      | scalar plain => rfl
      | list | tuple | mapping => rfl
  · rw [rootFinding?_kind object, rootFinding?_kind (kind ▸ object), kind]

/-- Audits that meet what stands for each other come to related reports. -/
theorem auditWith_same (congruence : Report.Congruence same)
    (meeting : Meeting judge judge' d.store e.store same meet) (met : meet [] [] d.root e.root)
    (limit : Nat) : same (auditWith judge d limit) (auditWith judge' e limit) := by
  rw [auditWith, auditWith, rootFinding?_same meeting met]
  cases rootFinding? e with
  | some f => exact congruence.refl _
  | none =>
      exact congruence.logged
        (Store.check_same congruence meeting (.root limit) d.root [] e.root met)

end Document

end SchemaAudit

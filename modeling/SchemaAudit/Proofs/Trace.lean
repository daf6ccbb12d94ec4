import SchemaAudit.Proofs.Acceptance
import SchemaAudit.Proofs.Enumeration
import SchemaAudit.Proofs.Recursion
import SchemaAudit.Proofs.StopSite

/-! # The log of an audit

The log tells how a walk went: it goes through the schema positions in their order, and where
the walk stops the log stops too, with a word on the default when one was judged and refused.
-/

namespace SchemaAudit

/-! ## The steps of a node and the schemas that it holds -/

/-- Steps that visit schemas in their order, leaving none out up to the first finding. -/
inductive Covers : List Step → List (Hop × Value) → Prop where
  | nil : Covers [] []
  | visit {hop : Hop} {v : Value} {steps : List Step} {schemas : List (Hop × Value)}
      (rest : Covers steps schemas) : Covers (.visit hop v :: steps) ((hop, v) :: schemas)
  | found (f : Finding) (steps : List Step) (schemas : List (Hop × Value)) :
      Covers (.found f :: steps) schemas

namespace Covers

theorem append {steps more : List Step} {schemas others : List (Hop × Value)}
    (first : Covers steps schemas) (second : Covers more others) :
    Covers (steps ++ more) (schemas ++ others) := by
  induction first with
  | nil => exact second
  | visit _ ih => exact .visit ih
  | found f steps schemas => exact .found f _ _

theorem flatMap {α : Type} {steps : α → List Step} {schemas : α → List (Hop × Value)}
    (each : ∀ x, Covers (steps x) (schemas x)) (xs : List α) :
    Covers (xs.flatMap steps) (xs.flatMap schemas) := by
  induction xs with
  | nil => exact .nil
  | cons x rest ih => exact (each x).append ih

theorem visits {α : Type} (hop : α → Hop) (v : α → Value) (xs : List α) :
    Covers (xs.map fun x => .visit (hop x) (v x)) (xs.map fun x => (hop x, v x)) := by
  induction xs with
  | nil => exact .nil
  | cons x rest ih => exact .visit ih

theorem findings (fs : List Finding) : Covers (fs.map .found) [] := by
  cases fs with
  | nil => exact .nil
  | cons f rest => exact .found f _ _

end Covers

namespace Node

variable {s : Store} {addr : Nat} {p : Place} {a : Attribute}

theorem alternativeStep_covers (i : Nat) (w : Value) :
    Covers (alternativeStep p a i w) (if w.kind = .object then [(.element a i, w)] else []) := by
  cases w with
  | text => exact .nil
  | mapping => exact .visit .nil
  | _ => exact .found _ _ _

theorem unionSteps_covers (isUnion : a = .type ∨ a = .disallow) :
    Covers ((s.node addr).unionSteps s p a) (s.schemasAt addr a) := by
  have listed : ∀ v, s.schemasIn a v = ((v.elements? s).getD []).zipIdx.flatMap fun e =>
      if e.1.kind = .object then [(.element a e.2, e.1)] else [] := by
    rcases isUnion with rfl | rfl <;> exact fun _ => rfl
  rw [unionSteps, get?_node, Store.schemasAt]
  cases s.attribute? addr a with
  | none => exact .nil
  | some v =>
      simp only [listed]
      cases v with
      | text => exact .nil
      | list b | tuple b =>
          simp only [Value.elements?, Option.getD_some]
          split
          · exact .found _ _ _
          · exact .flatMap (fun x : Value × Nat => alternativeStep_covers x.2 x.1) _
      | _ => exact .found _ _ _

theorem schemaMapSteps_covers (isMap : a = .properties ∨ a = .patternProperties) :
    Covers ((s.node addr).schemaMapSteps s p a) (s.schemasAt addr a) := by
  have listed : ∀ v, s.schemasIn a v =
      ((v.entries? s).getD []).map fun e => (.entry a e.1, e.2) := by
    rcases isMap with rfl | rfl <;> exact fun _ => rfl
  rw [schemaMapSteps, get?_node, Store.schemasAt]
  cases s.attribute? addr a with
  | none => exact .nil
  | some v =>
      simp only [listed]
      cases v with
      | mapping b => exact .visits (fun e => .entry a e.1) Prod.snd _
      | _ => exact .found _ _ _

theorem schemaOrFalseSteps_covers
    (isAdditional : a = .additionalProperties ∨ a = .additionalItems) :
    Covers ((s.node addr).schemaOrFalseSteps p a) (s.schemasAt addr a) := by
  have listed : ∀ v, s.schemasIn a v = if v = .bool false then [] else [(.value a, v)] := by
    rcases isAdditional with rfl | rfl <;> exact fun _ => rfl
  rw [schemaOrFalseSteps, get?_node, Store.schemasAt]
  cases s.attribute? addr a with
  | none => exact .nil
  | some v =>
      simp only [listed]
      cases v with
      | bool b =>
          cases b with
          | false => exact .nil
          | true => exact .found _ _ _
      | mapping => exact .visit .nil
      | _ => exact .found _ _ _

theorem itemsSteps_covers :
    Covers ((s.node addr).itemsSteps s p) (s.schemasAt addr .items) := by
  rw [itemsSteps, get?_node, Store.schemasAt]
  cases s.attribute? addr .items with
  | none => exact .nil
  | some v =>
      cases v with
      | mapping => exact .visit .nil
      | list | tuple => exact .visits (fun e => .element .items e.2) Prod.fst _
      | _ => exact .found _ _ _

theorem stepsAt_covers (a : Attribute) :
    Covers ((s.node addr).stepsAt s p a) (s.schemasAt addr a) := by
  have plain : ∀ fs : List Finding, (∀ v, s.schemasIn a v = []) →
      Covers (fs.map .found) (s.schemasAt addr a) := by
    intro fs nothing
    have none : s.schemasAt addr a = [] := by
      rw [Store.schemasAt]
      split
      · rfl
      · exact nothing _
    rw [none]
    exact .findings fs
  cases a with
  | type => exact unionSteps_covers (.inl rfl)
  | disallow => exact unionSteps_covers (.inr rfl)
  | properties => exact schemaMapSteps_covers (.inl rfl)
  | patternProperties => exact schemaMapSteps_covers (.inr rfl)
  | additionalProperties => exact schemaOrFalseSteps_covers (.inl rfl)
  | additionalItems => exact schemaOrFalseSteps_covers (.inr rfl)
  | items => exact itemsSteps_covers
  | default => exact plain [] fun _ => rfl
  | _ => exact plain _ fun _ => rfl

/-- The plan of a node visits the schemas that the node holds, in their order. -/
theorem plan_covers : Covers ((s.node addr).plan s p) (s.schemas addr) := by
  have nothing : ∀ b : Attribute, b ∉ Attribute.schemaOrder → s.schemasAt addr b = [] := by
    intro b other
    rw [Store.schemasAt]
    split
    · rfl
    · cases b <;> first | rfl | exact absurd (by decide) other
  have ordered : Attribute.checkOrder.flatMap (s.schemasAt addr) = s.schemas addr := by
    simp [Attribute.checkOrder, Store.schemas, Attribute.schemaOrder, nothing]
  rw [plan_eq, ← ordered]
  exact .flatMap stepsAt_covers _

end Node

/-! ## Positions as a walk meets them -/

namespace Place

/-- How many levels there may be below a place. -/
def levels (p : Place) : Nat := p.limit - p.depth

theorem levels_root (limit : Nat) : (root limit).levels = limit := Nat.sub_zero limit

/-- Whether a value at a place is a node that may be entered: a mapping, not around the place
    already, and not too deep. -/
def CanEnter (p : Place) (v : Value) : Prop :=
  ∃ addr, v = .mapping addr ∧ addr ∉ p.ancestors ∧ p.depth < p.limit

/-- What the log tells of entering a position that is reached from a place. -/
def record (p : Place) (q : Position) : Record :=
  .entered (p.after q.1).pointer ((p.after q.1).depth + 1)

theorem record_root (limit : Nat) (q : Position) :
    (root limit).record q = .entered (Pointer.extend "" q.tokens) (q.1.length + 1) := by
  rw [record, pointer_after, depth_after]
  simp only [root, Nat.zero_add]
  rfl

theorem canEnter_root {limit : Nat} {legs : List Leg} {v : Value} :
    ((root limit).after legs).CanEnter v ↔
      ∃ addr, v = .mapping addr ∧ addr ∉ Leg.nodes legs ∧ legs.length < limit := by
  simp only [CanEnter, ancestors_after_root, List.mem_reverse, depth_after, limit_after]
  simp only [root, Nat.zero_add]

end Place

/-- A position as it is seen from where the way to some node starts. -/
def Position.beyond (legs : List Leg) (q : Position) : Position := (legs ++ q.1, q.2)

theorem Position.map_beyond_nil (ps : List Position) : [] ++ ps.map (beyond []) = ps :=
  List.map_id' ps

/-- The positions that a step of a node leads to. -/
def Step.positions (s : Store) (addr levels : Nat) : Step → List Position
  | .found _ => []
  | .visit hop v => (s.positions levels v).map (Position.behind ⟨addr, hop⟩)

/-- A verdict that refuses a default, what the log tells of it, and how a finding speaks of it. -/
inductive Verdict.Refuses : Verdict → Record → String → Prop where
  | unusable (reason : String) : Refuses (.unusable reason) (.unusable reason) reason
  | violated (path : Pointer) (message : String) :
      Refuses (.violated path message) (.violated path message) (located path message)

theorem Verdict.Refuses.told {verdict : Verdict} {told : Record} {complaint : String}
    (refuses : verdict.Refuses told complaint) :
    (∃ reason, told = .unusable reason) ∨ ∃ path message, told = .violated path message := by
  cases refuses with
  | unusable => exact .inl ⟨_, rfl⟩
  | violated => exact .inr ⟨_, _, rfl⟩

namespace Store

/-- How a walk comes to its finding: the positions that it has entered, those it has not, what
    the log tells between, and the finding. -/
inductive Stopped (s : Store) (judge : Judge) (p : Place) :
    List Position → List Position → List Record → Finding → Prop where
  /-- The next position cannot be entered. -/
  | barred {seen rest : List Position} {legs : List Leg} {v : Value} {g : Finding}
      (closed : ¬ (p.after legs).CanEnter v) (complains : s.Complains judge (p.after legs) v g) :
      Stopped s judge p seen ((legs, v) :: rest) [] (p.wrapAlong legs g)
  /-- A rule is broken at a node, and what the steps before lead to has been entered. -/
  | broken {seen rest : List Position} {legs : List Leg} {addr : Nat} {g : Finding}
      {done left : List Step}
      (asked : (s.node addr).plan s ((p.after legs).enter addr) = done ++ .found g :: left)
      (clear : ∀ f, .found f ∉ done) :
      Stopped s judge p
        (seen ++ (([], Value.mapping addr) ::
          done.flatMap (Step.positions s addr ((p.after legs).enter addr).levels)).map
            (Position.beyond legs))
        rest [] (p.wrapAlong legs g)
  /-- The default of a node is refused, and all positions inside the node have been entered. -/
  | unfit {seen rest : List Position} {legs : List Leg} {addr : Nat} {u : Value}
      {told : Record} {complaint : String}
      (found : s.attribute? addr .default = some u)
      (refused : (judge u addr).Refuses told complaint) :
      Stopped s judge p
        (seen ++ (s.positions (p.after legs).levels (.mapping addr)).map (Position.beyond legs))
        rest [told] (p.wrapAlong legs (((p.after legs).enter addr).unfitDefault complaint))

/-- A report whose log goes through positions in their order: through all of them, or up to where
    it stops or breaks down. -/
inductive Tracks (s : Store) (judge : Judge) (p : Place) : List Position → Report → Prop where
  | passed {ps : List Position} (entered : ∀ q ∈ ps, (p.after q.1).CanEnter q.2) :
      Tracks s judge p ps ⟨ps.map p.record, .accepted⟩
  | stopped {seen rest : List Position} {told : List Record} {f : Finding}
      (entered : ∀ q ∈ seen, (p.after q.1).CanEnter q.2)
      (stop : s.Stopped judge p seen rest told f) :
      Tracks s judge p (seen ++ rest) ⟨seen.map p.record ++ told, .rejected f⟩
  | faulted {seen rest : List Position} {fault : Fault}
      (entered : ∀ q ∈ seen, (p.after q.1).CanEnter q.2) :
      Tracks s judge p (seen ++ rest) ⟨seen.map p.record, .faulted fault⟩

variable {judge : Judge} {s : Store} {p : Place} {addr : Nat} {hop : Hop}

/-- The stop of a walk inside a node as it is seen from the node. -/
theorem Stopped.behind {seen rest : List Position} {told : List Record} {f : Finding}
    (stop : s.Stopped judge ((p.enter addr).descend hop) seen rest told f)
    (before later : List Position) :
    s.Stopped judge p (before ++ seen.map (Position.behind ⟨addr, hop⟩))
      (rest.map (Position.behind ⟨addr, hop⟩) ++ later) told ((p.enter addr).wrap hop f) := by
  have along : ∀ (legs : List Leg) (ps : List Position),
      (ps.map (Position.beyond legs)).map (Position.behind ⟨addr, hop⟩) =
        ps.map (Position.beyond (⟨addr, hop⟩ :: legs)) := by
    intro legs ps
    rw [List.map_map]
    rfl
  cases stop with
  | @barred _ _ legs _ _ closed complains =>
      exact @Stopped.barred s judge p _ _ (⟨addr, hop⟩ :: legs) _ _ closed complains
  | @broken _ _ legs _ _ _ _ asked clear =>
      rw [List.map_append, along, ← List.append_assoc]
      exact @Stopped.broken s judge p _ _ (⟨addr, hop⟩ :: legs) _ _ _ _ asked clear
  | @unfit _ _ legs _ _ _ _ found refused =>
      rw [List.map_append, along, ← List.append_assoc]
      exact @Stopped.unfit s judge p _ _ (⟨addr, hop⟩ :: legs) _ _ _ _ found refused

/-- From a visit inside a node the log goes on with what comes behind it. -/
theorem Tracks.andThen {seen ps later : List Position} {inner : Report} {next : Unit → Report}
    (entered : ∀ q ∈ seen, (p.after q.1).CanEnter q.2)
    (tracks : s.Tracks judge ((p.enter addr).descend hop) ps inner)
    (onward : (∀ q ∈ seen ++ ps.map (Position.behind ⟨addr, hop⟩), (p.after q.1).CanEnter q.2) →
      s.Tracks judge p (seen ++ ps.map (Position.behind ⟨addr, hop⟩) ++ later)
        (Report.andThen
          ⟨(seen ++ ps.map (Position.behind ⟨addr, hop⟩)).map p.record, .accepted⟩ next)) :
    s.Tracks judge p (seen ++ (ps.map (Position.behind ⟨addr, hop⟩) ++ later))
      (Report.andThen ⟨seen.map p.record, .accepted⟩ fun _ =>
        (inner.mapFinding ((p.enter addr).wrap hop)).andThen next) := by
  have extend : ∀ qs : List Position,
      (∀ q ∈ qs, (((p.enter addr).descend hop).after q.1).CanEnter q.2) →
      ∀ q ∈ seen ++ qs.map (Position.behind ⟨addr, hop⟩), (p.after q.1).CanEnter q.2 := by
    intro qs inside q member
    rcases List.mem_append.mp member with before | behind
    · exact entered q before
    · obtain ⟨q, among, rfl⟩ := List.mem_map.mp behind
      exact inside q among
  have records : ∀ qs : List Position,
      seen.map p.record ++ qs.map ((p.enter addr).descend hop).record =
        (seen ++ qs.map (Position.behind ⟨addr, hop⟩)).map p.record := by
    intro qs
    rw [List.map_append, List.map_map]
    rfl
  cases tracks with
  | passed inside =>
      have rest := onward (extend ps inside)
      rw [← List.append_assoc]
      rw [Report.andThen_accepted, ← records] at rest
      rw [Report.andThen_accepted, Report.mapFinding, Report.andThen_accepted,
        ← List.append_assoc]
      exact rest
  | @stopped front back told f inside stop =>
      have log : seen.map p.record ++
          (front.map ((p.enter addr).descend hop).record ++ told) =
            (seen ++ front.map (Position.behind ⟨addr, hop⟩)).map p.record ++ told := by
        rw [← List.append_assoc, records]
      rw [List.map_append, List.append_assoc, ← List.append_assoc]
      rw [Report.andThen_accepted, Report.mapFinding, Report.andThen_rejected, log]
      exact .stopped (extend front inside) (stop.behind seen later)
  | @faulted front back fault inside =>
      rw [List.map_append, List.append_assoc, ← List.append_assoc]
      rw [Report.andThen_accepted, Report.mapFinding, Report.andThen_faulted, records]
      exact .faulted (extend front inside)

/-- The steps of a node that are left go through the schemas that are left. -/
theorem ofSteps_tracks {visit : Hop → Value → Report} {steps : List Step}
    {schemas : List (Hop × Value)} (covers : Covers steps schemas)
    (visits : ∀ hop w, .visit hop w ∈ steps → s.Tracks judge ((p.enter addr).descend hop)
      (s.positions (p.enter addr).levels w) (visit hop w)) :
    ∀ done seen, (s.node addr).plan s (p.enter addr) = done ++ steps →
    (∀ f, .found f ∉ done) →
    seen = ([], Value.mapping addr) :: done.flatMap (Step.positions s addr (p.enter addr).levels) →
    (∀ q ∈ seen, (p.after q.1).CanEnter q.2) →
    s.Tracks judge p
      (seen ++ schemas.flatMap fun (hop, w) =>
        (s.positions (p.enter addr).levels w).map (Position.behind ⟨addr, hop⟩))
      (Report.andThen ⟨seen.map p.record, .accepted⟩ fun _ =>
        .ofSteps (fun hop w => (visit hop w).mapFinding ((p.enter addr).wrap hop)) steps) := by
  induction covers with
  | nil =>
      intro done seen _ _ _ entered
      rw [List.flatMap_nil, List.append_nil, Report.ofSteps, Report.andThen_accepted]
      simpa only [Report.clear, List.append_nil] using Tracks.passed entered
  | found f steps schemas =>
      intro done seen asked clear sofar entered
      rw [Report.ofSteps, Report.andThen_accepted]
      have stop := @Stopped.broken s judge p [] (schemas.flatMap fun (hop, w) =>
        (s.positions (p.enter addr).levels w).map (Position.behind ⟨addr, hop⟩)) [] addr f done
          steps asked clear
      rw [Position.map_beyond_nil, Place.after_nil, ← sofar] at stop
      exact .stopped entered stop
  | @visit hop w steps schemas _ ih =>
      intro done seen asked clear sofar entered
      rw [Report.ofSteps, List.flatMap_cons]
      apply Tracks.andThen entered (visits hop w List.mem_cons_self)
      intro entered'
      apply ih (fun hop' w' later => visits hop' w' (List.mem_cons_of_mem _ later))
        (done ++ [.visit hop w])
      · rw [asked, List.append_assoc, List.singleton_append]
      · intro f member
        rcases List.mem_append.mp member with earlier | last
        · exact clear f earlier
        · cases List.mem_singleton.mp last
      · rw [sofar, List.flatMap_append, List.flatMap_singleton]
        rfl
      · exact entered'

/-- The default of a node is judged once all positions inside the node have been entered. -/
theorem judgeDefault_tracks {r : Report}
    (tracks : s.Tracks judge p (s.positions p.levels (.mapping addr)) r) :
    s.Tracks judge p (s.positions p.levels (.mapping addr))
      (r.andThen fun _ => (s.node addr).judgeDefault judge (p.enter addr) addr) := by
  generalize all : s.positions p.levels (.mapping addr) = ps at tracks ⊢
  cases tracks with
  | passed entered =>
      have refused : ∀ {u told complaint}, s.attribute? addr .default = some u →
          (judge u addr).Refuses told complaint → s.Tracks judge p ps
            ⟨ps.map p.record ++ [told],
              .rejected ((p.enter addr).unfitDefault complaint)⟩ := by
        intro u told complaint found refuses
        have stop := @Stopped.unfit s judge p [] [] [] addr u told complaint found refuses
        rw [Position.map_beyond_nil, Place.after_nil, all] at stop
        have stopped := Tracks.stopped entered stop
        rwa [List.append_nil] at stopped
      rw [Report.andThen_accepted, Node.judgeDefault, Node.get?_node]
      cases found : s.attribute? addr .default with
      | none => simpa only [Report.clear, List.append_nil] using Tracks.passed entered
      | some u =>
          cases verdict : judge u addr with
          | fits =>
              simpa only [verdict, Report.clear, List.append_nil] using Tracks.passed entered
          | unusable reason =>
              simp only [verdict]
              exact refused found (verdict ▸ .unusable reason)
          | violated path message =>
              simp only [verdict]
              exact refused found (verdict ▸ .violated path message)
          | faulted fault =>
              have broken : s.Tracks judge p (ps ++ []) ⟨ps.map p.record, .faulted fault⟩ :=
                .faulted entered
              simpa only [verdict, List.append_nil] using broken
  | stopped entered stop => exact .stopped entered stop
  | faulted entered => exact .faulted entered

theorem positions_succ_mapping (levels : Nat) :
    s.positions (levels + 1) (.mapping addr) =
      [([], Value.mapping addr)] ++ (s.schemas addr).flatMap fun (hop, w) =>
        (s.positions levels w).map (Position.behind ⟨addr, hop⟩) := rfl

theorem positions_head (s : Store) (levels : Nat) (v : Value) :
    ∃ below, s.positions levels v = ([], v) :: below := by
  cases levels with
  | zero => exact ⟨_, rfl⟩
  | succ => exact ⟨_, rfl⟩

/-- A node that is entered goes through its steps, and then judges its default. -/
theorem check_enter_steps (fresh : addr ∉ p.ancestors) (shallow : p.depth < p.limit) :
    s.check judge p (.mapping addr) =
      Report.andThen
        (Report.andThen ⟨[.entered p.pointer (p.depth + 1)], .accepted⟩ fun _ =>
          .ofSteps (fun hop w => (s.check judge ((p.enter addr).descend hop) w).mapFinding
            ((p.enter addr).wrap hop)) ((s.node addr).plan s (p.enter addr)))
        fun _ => (s.node addr).judgeDefault judge (p.enter addr) addr := by
  rw [Report.andThen_assoc, check_enter fresh shallow]
  rfl

/-- A value that cannot be entered is complained about, and the walk ends there. -/
theorem check_barred (judge : Judge) (s : Store) {v : Value} (closed : ¬ p.CanEnter v) :
    ∃ g, s.Complains judge p v g ∧ s.check judge p v = .found g := by
  by_cases object : v.kind = .object
  · obtain ⟨addr, rfl⟩ := Value.kind_eq_object.mp object
    by_cases fresh : addr ∈ p.ancestors
    · exact ⟨_, .cyclic fresh, check_cyclic fresh⟩
    · have deep : p.limit ≤ p.depth :=
        Nat.not_lt.mp fun shallow => closed ⟨addr, rfl, fresh, shallow⟩
      exact ⟨_, .tooDeep fresh deep, check_tooDeep fresh deep⟩
  · exact ⟨_, .notANode object, check_notANode object⟩

/-- A walk goes through the positions at a place and inside, in their order. -/
theorem check_tracks (judge : Judge) (s : Store) (p : Place) (v : Value) :
    s.Tracks judge p (s.positions p.levels v) (s.check judge p v) := by
  refine walk_induction s
    (motive := fun p v => s.Tracks judge p (s.positions p.levels v) (s.check judge p v)) ?_ p v
  intro p v ih
  by_cases canEnter : p.CanEnter v
  · obtain ⟨addr, rfl, fresh, shallow⟩ := canEnter
    have deeper : p.levels = (p.enter addr).levels + 1 := by
      simp only [Place.levels, Place.enter]
      omega
    rw [check_enter_steps fresh shallow]
    apply judgeDefault_tracks
    rw [deeper, positions_succ_mapping]
    have entered : ∀ q ∈ [(([], .mapping addr) : Position)], (p.after q.1).CanEnter q.2 := by
      intro q member
      obtain rfl := List.mem_singleton.mp member
      exact ⟨addr, rfl, fresh, shallow⟩
    have clear : ∀ f, Step.found f ∉ ([] : List Step) := fun _ => List.not_mem_nil
    have visits : ∀ hop w, .visit hop w ∈ (s.node addr).plan s (p.enter addr) →
        s.Tracks judge ((p.enter addr).descend hop) (s.positions (p.enter addr).levels w)
          (s.check judge ((p.enter addr).descend hop) w) := by
      intro hop w asked
      have same : ((p.enter addr).descend hop).levels = (p.enter addr).levels := by
        rw [Place.levels, Place.limit_descend, Place.depth_descend, Place.levels]
      have inner := ih addr hop w rfl fresh asked
      rwa [same] at inner
    exact ofSteps_tracks Node.plan_covers visits [] [([], .mapping addr)]
      (List.nil_append _).symm clear rfl entered
  · obtain ⟨g, complains, refused⟩ := check_barred judge s canEnter
    obtain ⟨below, positions⟩ := s.positions_head p.levels v
    rw [refused, positions]
    have stop := @Stopped.barred s judge p [] below [] v g canEnter complains
    exact .stopped (fun _ member => absurd member List.not_mem_nil) stop

/-- The log has a word on a default exactly when the finding is that it is unfit. -/
theorem Stopped.told {seen rest : List Position} {told : List Record} {f : Finding}
    (stop : s.Stopped judge p seen rest told f) :
    (told = [] ∧ f.rule ≠ .invalidDefault) ∨
      f.rule = .invalidDefault ∧ ((∃ reason, told = [.unusable reason]) ∨
        ∃ path message, told = [.violated path message]) := by
  cases stop with
  | barred closed complains =>
      left
      rw [Place.rule_wrapAlong]
      refine ⟨rfl, ?_⟩
      cases complains with
      | notANode | cyclic | tooDeep => exact Rule.noConfusion
      | broken fresh shallow _ => exact absurd ⟨_, rfl, fresh, shallow⟩ closed
      | unfit fresh shallow _ _ => exact absurd ⟨_, rfl, fresh, shallow⟩ closed
  | @broken _ _ legs addr g done left asked _ =>
      left
      rw [Place.rule_wrapAlong]
      refine ⟨rfl, ?_⟩
      have member : .found g ∈ (s.node addr).plan s ((p.after legs).enter addr) := by
        simp [asked]
      obtain ⟨r, _, _, _, broken, rfl⟩ := Node.plan_grounded member
      intro rule
      obtain rfl : r = .invalidDefault := rule
      cases broken
  | unfit _ refused =>
      right
      rw [Place.rule_wrapAlong]
      refine ⟨rfl, ?_⟩
      rcases refused.told with ⟨reason, rfl⟩ | ⟨path, message, rfl⟩
      · exact .inl ⟨reason, rfl⟩
      · exact .inr ⟨path, message, rfl⟩

end Store

/-! ## The log of a whole audit -/

namespace Position

/-- What the log tells of a schema position: its pointer, and how many nodes are on the way to
    it, itself included. -/
def record (q : Position) : Record := .entered (Pointer.extend "" q.tokens) (q.1.length + 1)

/-- Whether there is a mapping at a position, outside itself and within a limit of depth. -/
def CanEnter (limit : Nat) (q : Position) : Prop :=
  ∃ addr, q.2 = .mapping addr ∧ addr ∉ Leg.nodes q.1 ∧ q.1.length < limit

theorem pointers_nodup {s : Store} (keys : s.KeysDistinct) (levels : Nat) (v : Value) :
    ((s.positions levels v).map fun q => Pointer.extend "" q.tokens).Nodup := by
  have distinct := Store.tokens_positions_nodup keys levels v
  have apart : Function.Injective (Pointer.extend "") := by
    intro tokens others same
    have read := Pointer.tokens?_extend_empty tokens
    rw [same, Pointer.tokens?_extend_empty] at read
    exact (Option.some.inj read).symm
  have pointers := distinct.map apart
  rwa [List.map_map] at pointers

end Position

namespace Document

/-- The log of an audit that ends with a finding. It goes through the schema positions in their
    order up to where the finding stops it, then has a word on the default if it is one that is
    refused, and ends with the finding. -/
structure Halts (d : Document) (limit : Nat) (f : Finding) (seen rest : List Position)
    (told log : List Record) : Prop where
  ordered : d.store.positions limit d.root = seen ++ rest
  entered : ∀ q ∈ seen, q.CanEnter limit
  log_eq : log = seen.map Position.record ++ told ++ [.rejected f.rule f.message]
  told_iff : told = [] ↔ f.rule ≠ .invalidDefault
  told_eq : told ≠ [] → (∃ reason, told = [.unusable reason]) ∨
    ∃ path message, told = [.violated path message]
  stop : d.store.Stopped (judge d.store) (.root limit) seen rest told f

variable {d : Document} {limit : Nat}

theorem canEnter_root {q : Position} :
    ((Place.root limit).after q.1).CanEnter q.2 ↔ q.CanEnter limit :=
  Place.canEnter_root

/-- An audit of a document with a proper root is logged position by position. -/
theorem audit_tracks (rooted : rootFinding? d = none) (limit : Nat) :
    ∃ r, d.audit limit = r.logged ∧ d.store.Tracks (judge d.store) (.root limit)
      (d.store.positions limit d.root) r := by
  have tracks := Store.check_tracks (judge d.store) d.store (.root limit) d.root
  rw [Place.levels_root] at tracks
  refine ⟨_, ?_, tracks⟩
  rw [audit, auditWith, rooted]
  rfl

theorem audit_log_of_accepted (rooted : rootFinding? d = none)
    (accepted : (d.audit limit).outcome = .accepted) :
    (d.audit limit).log = (d.store.positions limit d.root).map Position.record ∧
      ∀ legs v, Trail d.store d.root legs v → (legs, v) ∈ d.store.positions limit d.root := by
  have wellFormed := WellFormed.of_accepted accepted
  constructor
  · obtain ⟨r, logged, tracks⟩ := audit_tracks rooted limit
    rw [logged, Report.outcome_logged] at accepted
    rw [logged]
    generalize d.store.positions limit d.root = ps at tracks ⊢
    cases tracks with
    | passed entered =>
        simp only [Report.logged]
        exact List.map_congr_left fun q _ => Place.record_root limit q
    | stopped | faulted => cases accepted
  · intro legs v trail
    obtain ⟨addr, rfl⟩ := Value.kind_eq_object.mp (wellFormed.mappings legs v trail)
    exact Store.mem_positions.mpr ⟨trail, Nat.le_of_lt (wellFormed.shallow legs addr trail)⟩

theorem audit_log_of_rejected (rooted : rootFinding? d = none) {f : Finding}
    (rejected : (d.audit limit).outcome = .rejected f) :
    ∃ seen rest told, d.Halts limit f seen rest told (d.audit limit).log := by
  obtain ⟨r, logged, tracks⟩ := audit_tracks rooted limit
  rw [logged, Report.outcome_logged] at rejected
  rw [logged]
  generalize ordered : d.store.positions limit d.root = ps at tracks
  cases tracks with
  | passed | faulted => cases rejected
  | @stopped seen rest told g entered stop =>
      obtain rfl := Outcome.rejected.inj rejected
      have records : seen.map (Place.root limit).record = seen.map Position.record :=
        List.map_congr_left fun q _ => Place.record_root limit q
      refine ⟨seen, rest, told, ordered, fun q member => canEnter_root.mp (entered q member), ?_,
        ?_, ?_, stop⟩
      · simp only [Report.logged, records]
      · rcases stop.told with ⟨rfl, other⟩ | ⟨unfit, ⟨_, rfl⟩ | ⟨_, _, rfl⟩⟩ <;> simp [*]
      · rcases stop.told with ⟨rfl, other⟩ | ⟨unfit, word⟩
        · exact fun some => absurd rfl some
        · exact fun _ => word

/-- The log of an audit is a faithful trace of the walk.

    A finding on the root alone leaves the log empty. Otherwise there is one list of the schema
    positions of the document, each with a pointer of its own. When the document is accepted the
    log tells exactly of these positions, and no position is missing. When it is rejected the log
    tells of the positions up to the one that the walk stops at, of the verdict on a default if
    and only if that is what was found, and then of the finding. -/
theorem audit_log (d : Document) (limit : Nat) :
    (∀ f, rootFinding? d = some f → (d.audit limit).log = []) ∧
    (d.store.KeysDistinct →
      ((d.store.positions limit d.root).map fun q => Pointer.extend "" q.tokens).Nodup) ∧
    (rootFinding? d = none →
      ((d.audit limit).outcome = .accepted →
        (d.audit limit).log = (d.store.positions limit d.root).map Position.record ∧
        (∀ q ∈ d.store.positions limit d.root, q.CanEnter limit) ∧
        ∀ legs v, (legs, v) ∈ d.store.positions limit d.root ↔ Trail d.store d.root legs v) ∧
      ∀ f, (d.audit limit).outcome = .rejected f →
        ∃ seen rest told, d.Halts limit f seen rest told (d.audit limit).log) := by
  refine ⟨fun f told => ?_, fun keys => Position.pointers_nodup keys limit d.root,
    fun rooted => ⟨fun accepted => ?_, fun f => audit_log_of_rejected rooted⟩⟩
  · rw [audit, auditWith, told]
    rfl
  · obtain ⟨log, all⟩ := audit_log_of_accepted rooted accepted
    have wellFormed := WellFormed.of_accepted accepted
    refine ⟨log, ?_, fun legs v => ⟨fun member => (Store.mem_positions.mp member).1, all legs v⟩⟩
    rintro ⟨legs, v⟩ member
    obtain ⟨trail, _⟩ := Store.mem_positions.mp member
    obtain ⟨addr, rfl⟩ := Value.kind_eq_object.mp (wellFormed.mappings legs v trail)
    exact ⟨addr, rfl, wellFormed.acyclic legs addr trail, wellFormed.shallow legs addr trail⟩

/-- A schema for one property that is also the schema for all others, and that declares a default
    it does not admit. -/
def sharedUnfit : Document where
  store :=
    { lists := #[]
      maps := #[[("type", .text "object"), ("properties", .mapping 1),
        ("additionalProperties", .mapping 2)], [("a", .mapping 3), ("b", .mapping 2)],
        [("type", .text "integer"), ("default", .text "one")], []] }
  root := .mapping 0

theorem audit_log_sharedUnfit :
    rootFinding? sharedUnfit = none ∧ sharedUnfit.store.KeysDistinct ∧
    ((sharedUnfit.store.positions 5 sharedUnfit.root).map fun q =>
      Pointer.extend "" q.tokens).Nodup ∧
    ∃ f seen rest told, (sharedUnfit.audit 5).outcome = .rejected f ∧
      (sharedUnfit.audit 5).log =
        [.entered "" 1, .entered "/properties/a" 2, .entered "/properties/b" 2,
          .violated "" "'one' is not of type 'integer'", .rejected f.rule f.message] ∧
      sharedUnfit.Halts 5 f seen rest told (sharedUnfit.audit 5).log := by
  have rooted : rootFinding? sharedUnfit = none := by decide +kernel
  have keys : sharedUnfit.store.KeysDistinct := by decide +kernel
  let f : Finding := .leaf .invalidDefault ("Schema property 'b': 'default' attribute value is " ++
    "not valid according to the schema: 'one' is not of type 'integer'")
    (some "/properties/b/default")
  have rejected : (sharedUnfit.audit 5).outcome = .rejected f := by decide +kernel
  obtain ⟨_, apart, trace⟩ := audit_log sharedUnfit 5
  obtain ⟨seen, rest, told, halts⟩ := (trace rooted).2 f rejected
  exact ⟨rooted, keys, apart keys, f, seen, rest, told, rejected, by decide +kernel, halts⟩

end Document

end SchemaAudit

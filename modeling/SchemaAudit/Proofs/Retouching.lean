import SchemaAudit.Proofs.Recognition
import SchemaAudit.Proofs.Selection

/-! # Schemas with other keys

Keys that are not recognised and the order of keys make no difference to an audit without defaults.
A default is judged by the whole schema, which is evaluated key by key in its order. As long as what
evaluations look at besides recognised attributes is left alone, and no reference is evaluated, the
order may change what is told of a default that does not fit, but not whether it fits.
-/

namespace SchemaAudit

open Evaluation
open Reference (Library)

/-! ## Judging without references -/

namespace Evaluation

/-- Go into schemas as a library does, and break down at every reference. -/
def unreferring (l : Library) : Guide Scope where
  enter := (libraryGuide l).enter
  refer _ _ := faulted .noSuchPart

/-- Evaluate the schema at an address as a root. Should a reference be evaluated on the way, the
    evaluation breaks down. -/
def withoutReferences (s : Store) (addr : Nat) (inst : Value) : Evaluation := do
  let l ← Library.ofRoot s addr
  evaluateBy s (unreferring l) (depthBound s (.mapping addr) inst) .referred ⟨l.rootUri, false⟩
    (.mapping addr) inst

theorem unreferring_leads (s : Store) (l : Library) :
    Mirror.Leads (Mirror.itself s fun _ => True) (unreferring l) (libraryGuide l) Eq where
  enter := by
    rintro scope _ arrival a _ rfl rfl
    exact .of_eq rfl
  refer := by
    rintro scope _ ref rfl
    exact .first trivial _

/-- An evaluation that does not break down, although every reference would break it, is the real
    one. -/
theorem withoutReferences_eq {s : Store} {addr : Nat} {inst : Value}
    (lasting : ∀ fault, withoutReferences s addr inst ≠ faulted fault) :
    ofRoot s addr inst = withoutReferences s addr inst := by
  rw [withoutReferences] at lasting ⊢
  rw [ofRoot]
  cases opened : Library.ofRoot s addr with
  | error stop => simp only [bind, Except.bind]
  | ok l =>
      obtain ⟨_, _, rfl⟩ := ofRoot_eq opened
      simp only [opened, bind, Except.bind] at lasting ⊢
      rw [evaluate_eq_evaluateBy]
      exact (evaluateBy_onward Mirror.itself.faithful (unreferring_leads s _) rfl
        (Mirror.itself.part _) rfl lasting).symm

end Evaluation

/-- The verdict of the schema at an address, if every reference that is evaluated on the way breaks
    the judgement down. -/
def judgeWithoutReferences (s : Store) : Judge := fun inst addr =>
  match identifierFlaw? (s.entries addr) with
  | some f => .unusable f.message
  | none => (withoutReferences s addr inst).verdict

theorem judgeWithoutReferences_eq {s : Store} {addr : Nat} {inst : Value}
    (lasting : ∀ fault, judgeWithoutReferences s inst addr ≠ .faulted fault) :
    judge s inst addr = judgeWithoutReferences s inst addr := by
  rw [judgeWithoutReferences] at lasting ⊢
  rw [judge]
  cases flaw : identifierFlaw? (s.entries addr) with
  | some f => rfl
  | none =>
      simp only [flaw] at lasting ⊢
      rw [withoutReferences_eq]
      intro fault broke
      rw [broke] at lasting
      exact lasting fault rfl

/-! ## Reports of which one may break down -/

namespace Report

def Faulted (r : Report) : Prop := ∃ fault, r.outcome = .faulted fault

/-- Reports that are related unless the first one breaks down, or the second one, if that is an
    excuse as well. -/
def Excusing (second : Prop) (related : Report → Report → Prop) (r q : Report) : Prop :=
  r.Faulted ∨ second ∧ q.Faulted ∨ related r q

variable {second : Prop} {related : Report → Report → Prop} {r q : Report}
  {next next' : Unit → Report}

theorem andThen_halted (halted : r.outcome ≠ .accepted) : r.andThen next = r := by
  obtain ⟨log, outcome⟩ := r
  cases outcome with
  | accepted => exact absurd rfl halted
  | _ => rfl

theorem Faulted.andThen (broke : r.Faulted) : (r.andThen next).Faulted := by
  rwa [andThen_halted]
  obtain ⟨fault, faulted⟩ := broke
  simp [faulted]

theorem Faulted.later (accepted : r.outcome = .accepted) (broke : (next ()).Faulted) :
    (r.andThen next).Faulted := by
  obtain ⟨fault, faulted⟩ := broke
  exact ⟨fault, by rw [outcome_andThen, if_pos accepted, faulted]⟩

theorem Faulted.mapFinding {wrap : Finding → Finding} (broke : r.Faulted) :
    (r.mapFinding wrap).Faulted := broke.imp fun _ => mapFinding_faulted.mpr

theorem Faulted.logged (broke : r.Faulted) : r.logged.Faulted := by
  obtain ⟨fault, faulted⟩ := broke
  exact ⟨fault, by rw [outcome_logged, faulted]⟩

/-- Breaking down excuses all that comes after it. -/
theorem congruence_excusing (refl : ∀ r : Report, ¬ r.Faulted → related r r)
    (settled : ∀ {r q}, related r q → (r.outcome = .accepted ↔ q.outcome = .accepted))
    (onward : ∀ {r q next next'}, related r q → r.outcome = .accepted →
      related (next ()) (next' ()) → related (r.andThen next) (q.andThen next'))
    (mapFinding : ∀ {r q} (p : Place) (hop : Hop), related r q →
      related (r.mapFinding (p.wrap hop)) (q.mapFinding (p.wrap hop)))
    (logged : ∀ {r q}, related r q → related r.logged q.logged) :
    Congruence (Excusing second related) where
  refl r := by
    by_cases broke : r.Faulted
    · exact .inl broke
    · exact .inr (.inr (refl r broke))
  andThen := by
    rintro r q next next' (broke | ⟨excuse, broke⟩ | same) later
    · exact .inl broke.andThen
    · exact .inr (.inl ⟨excuse, broke.andThen⟩)
    · by_cases accepted : r.outcome = .accepted
      · rcases later with broke | ⟨excuse, broke⟩ | same'
        · exact .inl (broke.later accepted)
        · exact .inr (.inl ⟨excuse, broke.later ((settled same).mp accepted)⟩)
        · exact .inr (.inr (onward same accepted same'))
      · have accepted' : q.outcome ≠ .accepted := fun other => accepted ((settled same).mpr other)
        rw [andThen_halted accepted, andThen_halted accepted']
        exact .inr (.inr same)
  mapFinding := by
    rintro r q p hop (broke | ⟨excuse, broke⟩ | same)
    · exact .inl broke.mapFinding
    · exact .inr (.inl ⟨excuse, broke.mapFinding⟩)
    · exact .inr (.inr (mapFinding p hop same))
  logged := by
    rintro r q (broke | ⟨excuse, broke⟩ | same)
    · exact .inl broke.logged
    · exact .inr (.inl ⟨excuse, broke.logged⟩)
    · exact .inr (.inr (logged same))

end Report

/-- Findings that differ at most in what is said of a default that does not fit. -/
structure Finding.Alike (f g : Finding) : Prop where
  rule : f.rule = g.rule
  pointer : f.pointer = g.pointer
  causes : f.chain.length = g.chain.length
  message : f.rule ≠ .invalidDefault → f.message = g.message

/-- Both accepted, or both rejected for the same reason up to what is said of a default. -/
inductive Outcome.Alike : Outcome → Outcome → Prop where
  | accepted : Alike .accepted .accepted
  | rejected {f g : Finding} (alike : f.Alike g) : Alike (.rejected f) (.rejected g)

theorem Finding.Alike.refl (f : Finding) : f.Alike f := ⟨rfl, rfl, rfl, fun _ => rfl⟩

theorem Place.wrap_alike {f g : Finding} (p : Place) (hop : Hop) (alike : f.Alike g) :
    (p.wrap hop f).Alike (p.wrap hop g) := by
  unfold wrap
  split
  · exact {
      rule := alike.rule
      pointer := alike.pointer
      causes := congrArg (· + 1) alike.causes
      message := fun other => congrArg (p.hopContext hop ++ ": " ++ ·) (alike.message other) }
  · exact alike

/-- Whether outcomes are alike, if neither is a breakdown, is kept by all that is done with
    reports. -/
theorem Report.congruence_alike :
    Congruence (Excusing True fun r q => r.outcome.Alike q.outcome) := by
  apply congruence_excusing
  · rintro ⟨log, outcome⟩ lasting
    cases outcome with
    | accepted => exact .accepted
    | rejected f => exact .rejected (.refl f)
    | faulted fault => exact absurd ⟨fault, rfl⟩ lasting
  · intro r q same
    generalize r.outcome = here at same
    generalize q.outcome = there at same
    cases same <;> simp
  · intro r q next next' same accepted later
    rw [accepted] at same
    have accepted' : q.outcome = .accepted := by
      generalize q.outcome = there at same
      cases same
      rfl
    rwa [outcome_andThen, outcome_andThen, if_pos accepted, if_pos accepted']
  · rintro ⟨log, outcome⟩ ⟨log', outcome'⟩ p hop same
    cases same with
    | accepted => exact .accepted
    | rejected alike => exact .rejected (p.wrap_alike hop alike)
  · intro r q same
    rwa [outcome_logged, outcome_logged]

/-! ## Audits without references -/

/-- A walk meets in a schema what another walk does. -/
theorem Meeting.itself {judge judge' : Judge} {s : Store} {related : Report → Report → Prop}
    (defaults : ∀ a p around, related ((s.node a).judgeDefault judge p a)
      ((s.node a).judgeDefault judge' (p.amid around) a)) :
    Meeting judge judge' s s related fun around around' v w => around = around' ∧ v = w where
  kind := by
    rintro _ _ v _ ⟨_, rfl⟩
    rfl
  fresh := by
    rintro _ _ a b ⟨rfl, here⟩
    rw [Value.mapping.inj here]
  inside := by
    rintro _ _ a b ⟨rfl, here⟩ _
    obtain rfl := Value.mapping.inj here
    refine ⟨(Mirror.itself s fun _ => True).toPairing, Mirror.itself.wide.keptBy ?_, ?_⟩
    · exact List.forall₂_same.mpr fun _ _ => ⟨rfl, rfl⟩
    · rintro hop v w _ part
      cases part with
      | node same => exact ⟨rfl, congrArg Value.mapping same⟩
      | data same => exact ⟨rfl, same⟩
  default := by
    rintro _ _ a b ⟨rfl, here⟩
    obtain rfl := Value.mapping.inj here
    exact defaults a

namespace Document

/-- Nothing breaks the audit down, although every reference that is evaluated would. -/
def Unreferring (d : Document) (limit : Nat) : Prop :=
  ∀ fault, (auditWith (judgeWithoutReferences d.store) d limit).outcome ≠ .faulted fault

theorem Unreferring.of_outcome {d : Document} {limit : Nat} {o : Outcome}
    (ended : (auditWith (judgeWithoutReferences d.store) d limit).outcome = o)
    (lasting : ∀ fault, o ≠ .faulted fault) : d.Unreferring limit := by
  intro fault
  rw [ended]
  exact lasting fault

/-- An audit that evaluates no reference and does not break down is the real one. -/
theorem Unreferring.audit_eq {d : Document} {limit : Nat} (unreferring : d.Unreferring limit) :
    auditWith (judgeWithoutReferences d.store) d limit = d.audit limit := by
  have congruence : Report.Congruence (Report.Excusing False Eq) := by
    apply Report.congruence_excusing
    · exact fun _ _ => rfl
    · rintro r _ rfl
      exact Iff.rfl
    · rintro r _ next next' rfl _ later
      exact Report.congruence_eq.andThen rfl later
    · rintro r _ p hop rfl
      rfl
    · rintro r _ rfl
      rfl
  have meeting : Meeting (judgeWithoutReferences d.store) (judge d.store) d.store d.store
      (Report.Excusing False Eq) fun around around' v w => around = around' ∧ v = w := by
    refine .itself fun a p around => ?_
    cases declared : d.store.attribute? a .default with
    | none =>
        refine .inr (.inr (Node.judgeDefault_eq ?_ p around))
        rw [Node.get?_node, declared]
        exact .none
    | some v =>
        by_cases lasting : ∀ fault, judgeWithoutReferences d.store v a ≠ .faulted fault
        · refine .inr (.inr (Node.judgeDefault_eq ?_ p around))
          rw [Node.get?_node, declared]
          exact .some (judgeWithoutReferences_eq lasting).symm
        · obtain ⟨fault, broke⟩ := not_forall_not.mp lasting
          exact .inl ⟨fault, Node.judgeDefault_faulted.mpr ⟨v, declared, broke⟩⟩
  rcases auditWith_same congruence meeting ⟨rfl, rfl⟩ limit with
    ⟨fault, broke⟩ | ⟨excuse, _⟩ | same
  · exact absurd broke (unreferring fault)
  · exact excuse.elim
  · exact same

/-! ## Audits of retouched documents -/

/-- The keys that evaluations heed although they are not recognised. -/
def evaluatedKeys : List String := ["dependencies", "extends", "$ref", "id", "$schema"]

/-- The keys by which evaluations go into a schema, each with the attribute that counts its values
    in the same way. What a schema depends on is kept as properties are, and what it extends as
    items. -/
def heededKeys : List (String × Attribute) :=
  Attribute.all.map (fun x => (x.key, x)) ++
    [(Keyword.dependencies.key, .properties), (Keyword.extending.key, .items)]

/-- What evaluations of schemas lead to, as long as no reference is evaluated. -/
inductive Heeded (d : Document) : Standing → Value → Prop where
  | node {a : Nat} (node : d.IsNode a) : Heeded d .schema (.mapping a)
  | key {a : Nat} {key : String} {x : Attribute} {v : Value}
      (schema : Heeded d .schema (.mapping a)) (counts : (key, x) ∈ heededKeys)
      (found : (d.store.entries a).lookup key = some v) : Heeded d (x.standing v) v
  | part {standing : Standing} {v w : Value} (heeded : Heeded d standing v)
      (plain : standing = .schema → v.kind ≠ .object) (member : w ∈ v.children d.store) :
      Heeded d standing.inner w

/-- What evaluations look at besides recognised attributes is the same in both states: what schemas
    have under certain keys, and the mappings that are used otherwise than as schemas. -/
structure EvaluatedAlike (d e : Document) : Prop where
  keys : ∀ a, d.IsNode a → ∀ key ∈ evaluatedKeys,
    (e.store.entries a).lookup key = (d.store.entries a).lookup key
  beyond : ∀ standing a, d.Heeded standing (.mapping a) → standing ≠ .schema →
    e.store.entries a = d.store.entries a

theorem EvaluatedAlike.outlook {d e : Document} (evaluated : d.EvaluatedAlike e) :
    d.Outlook e d.Heeded where
  key schema found := .key schema (by simp [heededKeys, Attribute.mem_all]) found
  part := .part
  unchanged := evaluated.beyond _ _

/-! ### Computing what evaluations look at -/

/-- The steps of evaluations onward from a value. -/
def heeds (d : Document) : Standing × Value → List (Standing × Value)
  | (.schema, .mapping a) => heededKeys.filterMap fun (key, x) =>
    ((d.store.entries a).lookup key).map fun v => (x.standing v, v)
  | (standing, v) => (v.children d.store).map fun w => (standing.inner, w)

/-- Values that no step leads out of, the nodes among them, are all that evaluations lead to. -/
theorem Heeded.mem_of_closed {d : Document} {among : List (Standing × Value)}
    (nodes : ∀ a, d.IsNode a → (.schema, .mapping a) ∈ among)
    (closed : ∀ here ∈ among, ∀ next ∈ d.heeds here, next ∈ among) {standing : Standing} {v : Value}
    (heeded : d.Heeded standing v) : (standing, v) ∈ among := by
  induction heeded with
  | node node => exact nodes _ node
  | @key a key x v _ counts found ih =>
      refine closed _ ih _ (List.mem_filterMap.mpr ⟨(key, x), counts, ?_⟩)
      simp only [found, Option.map_some]
  | @part standing v w _ plain member ih =>
      have onward : d.heeds (standing, v) =
          (v.children d.store).map fun w => (standing.inner, w) := by
        cases standing with
        | schema =>
            cases v with
            | mapping => exact absurd rfl (plain rfl)
            | _ => rfl
        | row | data => rfl
      refine closed _ ih _ ?_
      rw [onward]
      exact List.mem_map.mpr ⟨w, member, rfl⟩

/-- Whether evaluations look at the same can be seen from all the ways of a walk, and from values
    that no step of an evaluation leads out of. -/
theorem EvaluatedAlike.of_closed {d e : Document} {n : Nat} {among : List (Standing × Value)}
    (size : e.store.maps.size = d.store.maps.size)
    (keys : ∀ a < d.store.maps.size, ∀ key ∈ evaluatedKeys,
      (e.store.entries a).lookup key = (d.store.entries a).lookup key)
    (ways : ∀ way ∈ d.ways n, ∀ next ∈ d.onward way, next ∈ d.ways n)
    (nodes : ∀ way ∈ d.ways n, way.2 ∈ among)
    (closed : ∀ here ∈ among, ∀ next ∈ d.heeds here, next ∈ among)
    (unchanged : ∀ a < d.store.maps.size, ∀ here ∈ among, here.1 ≠ .schema →
      here.2 = .mapping a → e.store.entries a = d.store.entries a) : d.EvaluatedAlike e where
  keys a _ := @Store.forall_entries d.store e.store
    (fun _ es fs => ∀ key ∈ evaluatedKeys, fs.lookup key = es.lookup key) (fun _ _ _ => rfl) size
    keys a
  beyond standing a heeded other := by
    have member := heeded.mem_of_closed
      (fun _ ⟨_, reached⟩ => nodes _ (reached.mem_ways ways)) closed
    exact @Store.forall_entries d.store e.store
      (fun a es fs => ∀ here ∈ among, here.1 ≠ .schema → here.2 = .mapping a → fs = es)
      (fun _ _ _ _ _ => rfl) size unchanged a _ member other rfl

/-! ### The two states side by side -/

namespace Retouched

variable {d e : Document} (same : d.Retouched e) {v w : Value} {a b : Nat}

def likeness : Likeness (same.pairing d.Heeded) where
  seen f f' v w := f = f' ∧ (same.pairing d.Heeded).data v w
  data := And.right
  whole here := ⟨by rw [same.store_size], here⟩
  level := by
    rintro f _ v w ⟨rfl, _⟩
    exact Iff.rfl
  below := by
    rintro f f' v w ⟨level, _⟩
    obtain rfl := Nat.succ.inj level
    exact Iff.rfl
  shape := by
    rintro f f' v w ⟨level, here⟩
    exact ((same.pairing d.Heeded).shape here).mono fun _ _ part => ⟨Nat.succ.inj level, part⟩
  twins := by
    rintro f f' v _ _ ⟨_, rfl, _⟩ ⟨_, rfl, _⟩
    simp [Value.sameWithin, Value.alikeWithin]
  twinned := by
    rintro f f' _ _ v ⟨_, rfl, _⟩ ⟨_, rfl, _⟩
    simp [Value.sameWithin, Value.alikeWithin]

/-- Evaluations cannot tell the two states apart, but for the order of keys. -/
def mirror : Mirror .loose d.store e.store where
  toPairing := same.pairing d.Heeded
  same := same.likeness.same_eq
  distinct := same.likeness.distinct_eq
  lookupKey here := same.likeness.isLookupKey_eq (same.likeness.whole here)
  shown := False.elim
  shownNode := False.elim
  named := False.elim

variable (evaluated : d.EvaluatedAlike e)

include same evaluated

theorem evaluatedKeys_eq (a : Nat) : ∀ key ∈ evaluatedKeys,
    (e.store.entries a).lookup key = (d.store.entries a).lookup key := by
  intro key member
  by_cases node : d.IsNode a
  · exact evaluated.keys a node key member
  · rw [same.others a node]

/-- What a schema has under a keyword stands for itself. -/
theorem keyword_held (here : d.Heeded .schema (.mapping a)) (k : Keyword) :
    Option.Rel ((same.pairing d.Heeded).Held k) ((d.store.entries a).lookup k.key)
      ((e.store.entries a).lookup k.key) := by
  have kept := same.attribute_kept evaluated.outlook here
  have keys : ∀ key ∈ evaluatedKeys, ∀ {related : Value → Value → Prop},
      (∀ v, (d.store.entries a).lookup key = some v → related v v) →
      Option.Rel related ((d.store.entries a).lookup key) ((e.store.entries a).lookup key) := by
    intro key member related each
    rw [same.evaluatedKeys_eq evaluated a key member]
    cases found : (d.store.entries a).lookup key with
    | none => exact .none
    | some v => exact .some (each v found)
  cases k with
  | dependencies =>
      refine keys _ (by decide) fun v found => ?_
      exact same.kept evaluated.outlook (x := .properties) (.key here (by decide) found)
  | extending =>
      refine keys _ (by decide) fun v found => ?_
      exact same.kept evaluated.outlook (x := .items) (.key here (by decide) found)
  | ref => exact keys _ (by decide) fun _ _ => .inr rfl
  | type => exact kept .type
  | disallow => exact kept .disallow
  | enum => exact kept .enum
  | properties => exact kept .properties
  | patternProperties => exact kept .patternProperties
  | additionalProperties => exact kept .additionalProperties
  | items => exact kept .items
  | additionalItems => exact kept .additionalItems
  | minItems => exact kept .minItems
  | maxItems => exact kept .maxItems
  | uniqueItems => exact kept .uniqueItems
  | minimum => exact kept .minimum
  | maximum => exact kept .maximum
  | divisibleBy => exact kept .divisibleBy
  | minLength => exact kept .minLength
  | maxLength => exact kept .maxLength
  | pattern => exact kept .pattern

theorem faithful (keys : d.store.KeysDistinct) (keys' : e.store.KeysDistinct) :
    same.mirror.Faithful := by
  rintro a _ ⟨rfl, node⟩
  have once : ¬ Tolerance.loose.strict → (d.store.entries a).Distinct ∧
      (e.store.entries a).Distinct := fun _ => ⟨keys.entries a, keys'.entries a⟩
  rcases node with heeded | intact
  · exact {
      keyword := same.keyword_held evaluated heeded
      flag := by
        have kept := same.attribute_kept evaluated.outlook heeded
        simp only [flagKeys, List.forall_mem_cons]
        exact ⟨kept .required, kept .exclusiveMinimum, kept .exclusiveMaximum,
          List.forall_mem_nil _⟩
      order := False.elim
      once := once }
  · have unchanged := intact a .refl
    have itself : ∀ key {related : Value → Value → Prop},
        (∀ v, (same.pairing d.Heeded).data v v → related v v) →
        Option.Rel related ((d.store.entries a).lookup key) ((e.store.entries a).lookup key) := by
      intro key related each
      rw [unchanged]
      cases found : (d.store.entries a).lookup key with
      | none => exact .none
      | some v => exact .some (each v ⟨rfl, intact.part (Value.mem_children_of_lookup found)⟩)
    exact {
      keyword := fun k => itself k.key fun _ => same.wide.held k
      flag := fun key _ => itself key fun _ => id
      order := False.elim
      once := once }

/-- Identifiers are looked for under keys that stay as they are. -/
theorem identifier?_eq (a : Nat) :
    Reference.identifier? (e.store.entries a) = Reference.identifier? (d.store.entries a) := by
  have keys := same.evaluatedKeys_eq evaluated a
  rw [Reference.identifier?, Reference.identifier?, keys Reference.identifierKey (by decide),
    keys Reference.referenceKey (by decide)]

theorem leads (l l' : Library) :
    Mirror.Leads same.mirror (unreferring l) (unreferring l') Eq where
  enter := by
    rintro scope _ arrival a _ rfl ⟨rfl, _⟩
    have base : baseAt scope.base (e.store.entries a) arrival =
        baseAt scope.base (d.store.entries a) arrival := by
      cases arrival with
      | referred => rfl
      | inside =>
          rw [baseAt, baseAt, Reference.baseInside, Reference.baseInside,
            same.identifier?_eq evaluated]
    simp only [unreferring, libraryGuide, base]
    exact .of_eq rfl
  refer := by
    rintro scope _ ref rfl
    exact .stop _

/-- However much fuel the two evaluations have, they match unless one of them breaks down. -/
theorem evaluateBy_matches (keys : d.store.KeysDistinct) (keys' : e.store.KeysDistinct)
    (node : d.IsNode a) (inst : (same.pairing d.Heeded).data v v) (l l' : Library) (n k : Nat)
    (scope : Scope) :
    Matches .loose (evaluateBy d.store (unreferring l) n .referred scope (.mapping a) v)
      (evaluateBy e.store (unreferring l') k .referred scope (.mapping a) v) := by
  have faithful := same.faithful evaluated keys keys'
  have part : (same.pairing d.Heeded).Part (.mapping a) (.mapping a) :=
    .node ⟨rfl, .inl (.node node)⟩
  have leads := same.leads evaluated l l'
  rcases Nat.le_total n k with less | more
  · exact Mirror.evaluateBy_matches faithful leads less (fun _ => trivial) .referred scope scope _ _
      _ _ rfl part inst
  · by_cases ends : evaluateBy e.store (unreferring l') k .referred scope (.mapping a) v =
        faulted .endless
    · rw [ends]
      exact .second trivial _
    · rw [evaluateBy_mono more ends]
      exact Mirror.evaluateBy_matches faithful leads (Nat.le_refl n) (fun _ => trivial) .referred
        scope scope _ _ _ _ rfl part inst

/-- A default is judged alike in both states, unless one of the judgements breaks down. -/
theorem judge_alike (keys : d.store.KeysDistinct) (keys' : e.store.KeysDistinct)
    (node : d.IsNode a) (inst : (same.pairing d.Heeded).data v v) :
    (∃ fault, judgeWithoutReferences d.store v a = .faulted fault) ∨
    (∃ fault, judgeWithoutReferences e.store v a = .faulted fault) ∨
      Verdict.Alike (judgeWithoutReferences d.store v a) (judgeWithoutReferences e.store v a) := by
  have flaw : identifierFlaw? (e.store.entries a) = identifierFlaw? (d.store.entries a) := by
    rw [identifierFlaw?, identifierFlaw?,
      same.evaluatedKeys_eq evaluated a Reference.identifierKey (by decide)]
  rw [judgeWithoutReferences, judgeWithoutReferences, flaw]
  cases usable : identifierFlaw? (d.store.entries a) with
  | some f => exact .inr (.inr (.unusable _ _))
  | none =>
      obtain ⟨l, opened⟩ := Store.ofRoot_ok usable
      obtain ⟨id?, identified, rfl⟩ := ofRoot_eq opened
      have opened' : Library.ofRoot e.store a = .ok ⟨e.store, .mapping a, id?.getD ""⟩ := by
        rw [Library.ofRoot, same.identifier?_eq evaluated, identified]
        rfl
      simp only [withoutReferences, opened, opened', bind, Except.bind]
      have matching := same.evaluateBy_matches evaluated keys keys' node inst
        ⟨d.store, .mapping a, id?.getD ""⟩ ⟨e.store, .mapping a, id?.getD ""⟩
        (depthBound d.store (.mapping a) v) (depthBound e.store (.mapping a) v)
        ⟨id?.getD "", false⟩
      rw [or_iff_not_imp_left, or_iff_not_imp_left]
      intro lasting lasting'
      exact matching.verdict (not_exists.mp lasting) (not_exists.mp lasting')

theorem judgeDefault_alike (keys : d.store.KeysDistinct) (keys' : e.store.KeysDistinct)
    (node : d.IsNode a) (p : Place) (around : List Nat) :
    Report.Excusing True (fun r q => r.outcome.Alike q.outcome)
      ((d.store.node a).judgeDefault (judgeWithoutReferences d.store) p a)
      ((e.store.node a).judgeDefault (judgeWithoutReferences e.store) (p.amid around) a) := by
  have kept := same.nodes a node .default
  cases declared : d.store.attribute? a .default with
  | none =>
      rw [declared] at kept
      rw [Node.judgeDefault, Node.judgeDefault, Node.get?_node, Node.get?_node, declared, kept]
      exact .inr (.inr .accepted)
  | some v =>
      rw [declared] at kept
      have inst : (same.pairing d.Heeded).data v v :=
        ⟨rfl, evaluated.outlook.intact (evaluated.outlook.key (.node node) declared)⟩
      rcases same.judge_alike evaluated keys keys' node inst with
        ⟨fault, broke⟩ | ⟨fault, broke⟩ | alike
      · exact .inl ⟨fault, Node.judgeDefault_faulted.mpr ⟨v, declared, broke⟩⟩
      · exact .inr (.inl ⟨trivial, fault, Node.judgeDefault_faulted.mpr ⟨v, kept, broke⟩⟩)
      · rw [Node.judgeDefault, Node.judgeDefault, Node.get?_node, Node.get?_node, declared, kept]
        refine .inr (.inr ?_)
        have unfit : ∀ c c' : String,
            (p.unfitDefault c).Alike ((p.amid around).unfitDefault c') :=
          fun c c' => ⟨rfl, rfl, rfl, fun other => absurd rfl other⟩
        dsimp only
        generalize judgeWithoutReferences d.store v a = here at alike
        generalize judgeWithoutReferences e.store v a = there at alike
        cases alike with
        | fits => exact .accepted
        | violated => exact .rejected (unfit _ _)
        | unusable => exact .rejected (unfit _ _)

end Retouched

/-- Only recognised attributes matter, and not their order. Without defaults a document is audited
    the same whatever schemas have under other keys, and in whatever order. With defaults, as long
    as what evaluations look at besides is left alone, no reference is evaluated and nothing breaks
    down, it is accepted or rejected for the same reason at the same place, and only what is said
    of a default that does not fit may be different. -/
theorem audit_retouched {d e : Document} (same : d.Retouched e) (once : d.ReachedOnce)
    (keys : d.store.KeysDistinct) (keys' : e.store.KeysDistinct) :
    ((∀ a, d.IsNode a → d.store.attribute? a .default = none) →
      ∀ limit, e.audit limit = d.audit limit) ∧
    (d.EvaluatedAlike e → ∀ limit, d.Unreferring limit → e.Unreferring limit →
      (d.audit limit).outcome.Alike (e.audit limit).outcome) := by
  refine ⟨same.audit_eq once, fun evaluated limit unreferring unreferring' => ?_⟩
  have meeting := same.meeting once fun a node =>
    same.judgeDefault_alike evaluated keys keys' node
  have related := auditWith_same Report.congruence_alike meeting ⟨rfl, same.root.symm, [], .root⟩
    limit
  rw [← unreferring.audit_eq, ← unreferring'.audit_eq]
  rcases related with ⟨fault, broke⟩ | ⟨_, fault, broke⟩ | alike
  · exact absurd broke (unreferring fault)
  · exact absurd broke (unreferring' fault)
  · exact alike

/-- A document is retouched if only one schema has other keys. -/
theorem Retouched.of_one {d e : Document} {b : Nat} (root : e.root = d.root)
    (lists : e.store.lists = d.store.lists) (size : e.store.maps.size = d.store.maps.size)
    (node : d.IsNode b)
    (attributes : ∀ x ∈ Attribute.all, e.store.attribute? b x = d.store.attribute? b x)
    (others : ∀ a < d.store.maps.size, a ≠ b → e.store.entries a = d.store.entries a) :
    d.Retouched e := by
  have elsewhere := @Store.forall_entries d.store e.store (fun a es fs => a ≠ b → fs = es)
    (fun _ _ => rfl) size others
  refine ⟨root, lists, size, fun a _ x => ?_, fun a other => elsewhere a ?_⟩
  · by_cases here : a = b
    · subst here
      exact attributes x x.mem_all
    · rw [Store.attribute?, Store.attribute?, elsewhere a here]
  · rintro rfl
    exact other node

/-- A document with two properties, whose schemas have the given entries. -/
def pair (first second : Entries) : Document where
  store :=
    { lists := #[]
      maps := #[[("type", .text "object"), ("properties", .mapping 1)],
        [("a", .mapping 2), ("b", .mapping 3)], first, second] }
  root := .mapping 0

theorem pair_isNode (first second : Entries) : (pair first second).IsNode 2 := by
  have properties : (pair first second).Reached [.key .properties] .row (.mapping 1) :=
    .key (x := .properties) (v := .mapping 1) .root rfl
  have first_mem := List.mem_cons_self (a := ("a", Value.mapping 2)) (l := [("b", .mapping 3)])
  exact ⟨_, (properties.entry rfl first_mem).choose_spec⟩

/-- Two limits. -/
def limits : Entries := [("minimum", .int 3), ("divisibleBy", .int 2)]

/-- The same in another order, and with the schema inside itself under a key of no meaning. -/
def limitsAgain : Entries :=
  [("note", .mapping 2), ("divisibleBy", .int 2), ("minimum", .int 3)]

/-- An extension of the limits, with a default that is beyond both. -/
def beyondLimits : Entries := [("extends", .mapping 2), ("default", .int 1)]

theorem audit_retouched_pair :
    (∀ limit, (pair [("note", .mapping 2), ("type", .text "integer")] []).audit limit =
      (pair [("type", .text "integer"), ("owner", .mapping 0)] []).audit limit) ∧
    ((pair limits beyondLimits).audit 2).outcome.Alike
      ((pair limitsAgain beyondLimits).audit 2).outcome ∧
    ((pair limits beyondLimits).audit 2).outcome ≠
      ((pair limitsAgain beyondLimits).audit 2).outcome := by
  have least : (auditWith (judgeWithoutReferences (pair limits beyondLimits).store)
      (pair limits beyondLimits) 2).outcome =
      .rejected ((Place.root 2).named "properties" "b" |>.unfitDefault
        "1 is less than the minimum of 3") := by
    decide +kernel
  have divided : (auditWith (judgeWithoutReferences (pair limitsAgain beyondLimits).store)
      (pair limitsAgain beyondLimits) 2).outcome =
      .rejected ((Place.root 2).named "properties" "b" |>.unfitDefault
        "1 is not a multiple of 2") := by
    decide +kernel
  have unreferring := Unreferring.of_outcome least nofun
  have unreferring' := Unreferring.of_outcome divided nofun
  refine ⟨?_, ?_, ?_⟩
  · have once : (pair [("type", .text "integer"), ("owner", .mapping 0)] []).ReachedOnce :=
      reachedOnce_of_ways _ 3 (by decide +kernel) (by decide +kernel)
    have same := @Retouched.of_one (pair [("type", .text "integer"), ("owner", .mapping 0)] [])
      (pair [("note", .mapping 2), ("type", .text "integer")] []) 2 rfl rfl rfl (pair_isNode _ _)
      (by decide) (by decide)
    refine (audit_retouched same once (by decide +kernel) (by decide +kernel)).1 fun a _ => ?_
    exact @Store.forall_entries _ _ (fun _ es _ => es.lookup Attribute.default.key = none)
      (fun _ => rfl) rfl (by decide) a
  · have once : (pair limits beyondLimits).ReachedOnce :=
      reachedOnce_of_ways _ 3 (by decide +kernel) (by decide +kernel)
    have same := @Retouched.of_one (pair limits beyondLimits) (pair limitsAgain beyondLimits) 2 rfl
      rfl rfl (pair_isNode _ _) (by decide) (by decide)
    have evaluated := @EvaluatedAlike.of_closed (pair limits beyondLimits)
      (pair limitsAgain beyondLimits) 3
      [(.schema, .mapping 0), (.data, .text "object"), (.row, .mapping 1), (.schema, .mapping 2),
        (.schema, .mapping 3), (.data, .int 1), (.data, .int 2), (.data, .int 3)]
      rfl (by decide) (by decide +kernel) (by decide +kernel) (by decide +kernel)
      (by decide +kernel)
    exact (audit_retouched same once (by decide +kernel) (by decide +kernel)).2 evaluated 2
      unreferring unreferring'
  · rw [← unreferring.audit_eq, ← unreferring'.audit_eq, least, divided]
    decide

/-- A schema without any recognised attribute. As a union of types it has an alternative that is
    none. -/
def asUnion : Entries := [("object", .int 1), ("foo", .int 2)]

def asUnionAgain : Entries := [("foo", .int 2), ("object", .int 1)]

/-- A document with that schema as one property. Another property declares a default and extends a
    schema of which the first is the union of types. -/
def lent (union : Entries) : Document where
  store :=
    { lists := #[]
      maps := #[[("type", .text "object"), ("properties", .mapping 1)],
        [("m", .mapping 2), ("n", .mapping 3)], union,
        [("extends", .mapping 4), ("default", .mapping 5)], [("type", .mapping 2)], []] }
  root := .mapping 0

/-- Inside of what a schema extends, another schema may be something else, of which the order of
    the keys counts. -/
theorem audit_lent :
    (lent asUnion).store.KeysDistinct ∧ (lent asUnionAgain).store.KeysDistinct ∧
    (lent asUnion).Retouched (lent asUnionAgain) ∧ (lent asUnion).ReachedOnce ∧
    (lent asUnionAgain).ReachedOnce ∧
    (∀ a, ∀ key ∈ evaluatedKeys, ((lent asUnionAgain).store.entries a).lookup key =
      ((lent asUnion).store.entries a).lookup key) ∧
    (lent asUnion).Unreferring 100 ∧ (lent asUnionAgain).Unreferring 100 ∧
    ((lent asUnion).audit 100).outcome = .accepted ∧
    ((lent asUnionAgain).audit 100).outcome =
      .rejected ((Place.root 100).named "properties" "n" |>.unfitDefault
        "unknown type 'foo' cannot be checked") := by
  have node : (lent asUnion).IsNode 2 := by
    have properties : (lent asUnion).Reached [.key .properties] .row (.mapping 1) :=
      .key (x := .properties) (v := .mapping 1) .root rfl
    exact ⟨_, (properties.entry rfl (List.mem_cons_self (a := ("m", Value.mapping 2)))).choose_spec⟩
  have first : (auditWith (judgeWithoutReferences (lent asUnion).store) (lent asUnion)
      100).outcome = .accepted := by
    decide +kernel
  have second : (auditWith (judgeWithoutReferences (lent asUnionAgain).store) (lent asUnionAgain)
      100).outcome =
        .rejected ((Place.root 100).named "properties" "n" |>.unfitDefault
          "unknown type 'foo' cannot be checked") := by
    decide +kernel
  have unreferring := Unreferring.of_outcome first nofun
  have unreferring' := Unreferring.of_outcome second nofun
  refine ⟨by decide +kernel, by decide +kernel, .of_one rfl rfl rfl node (by decide) (by decide),
    ?_, ?_, ?_, unreferring, unreferring', ?_, ?_⟩
  · exact reachedOnce_of_ways _ 3 (by decide +kernel) (by decide +kernel)
  · exact reachedOnce_of_ways _ 3 (by decide +kernel) (by decide +kernel)
  · exact @Store.forall_entries (lent asUnion).store (lent asUnionAgain).store
      (fun _ es fs => ∀ key ∈ evaluatedKeys, fs.lookup key = es.lookup key) (fun _ _ _ => rfl) rfl
      (by decide)
  · rw [← unreferring.audit_eq, first]
  · rw [← unreferring'.audit_eq, second]

end Document

end SchemaAudit

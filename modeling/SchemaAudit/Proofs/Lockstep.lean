import SchemaAudit.Proofs.KeywordAgreement

/-! # Evaluations in lockstep

Schemas of two stores that mirror each other, evaluated side by side. How the base changes from
schema to schema and where references lead is left to a guide, so that evaluations can be
compared that are led in different ways.
-/

namespace SchemaAudit

namespace Evaluation

/-- How an evaluation goes on: what its state becomes inside a schema, and where a reference
    leads from there. -/
structure Guide (State : Type) where
  enter : State → Arrival → Entries → Except Stop State
  refer : State → String → Except Stop (Value × State)

/-- The evaluation of a schema that is led by a guide. -/
def evaluateBy {State : Type} (s : Store) (g : Guide State) : Nat → Arrival → State → Descent
  | 0, _, _, _, _ => faulted .endless
  | fuel + 1, arrival, state, schema, inst =>
    match schema with
    | .bool true => clean
    | .bool false => violation ("False schema does not allow " ++ inst.display s)
    | schema => do
      let es ← Reference.schemaEntries s schema
      let inside ← g.enter state arrival es
      checkEntries
        { store := s
          descend := evaluateBy s g fuel .inside inside
          refer := fun ref w => do
            let (target, beyond) ← g.refer inside ref
            evaluateBy s g fuel .referred beyond target w }
        es inst

/-- A library leads by the bases of schemas and by what is found in it. -/
def libraryGuide (l : Reference.Library) : Guide Scope where
  enter scope arrival es := do return { scope with base := ← baseAt scope.base es arrival }
  refer := l.lookup

theorem evaluate_eq_evaluateBy (l : Reference.Library) (fuel : Nat) :
    evaluate l fuel = evaluateBy l.store (libraryGuide l) fuel := by
  induction fuel with
  | zero => rfl
  | succ fuel ih =>
      funext arrival scope schema inst
      rw [evaluate.eq_def, evaluateBy.eq_def]
      dsimp only
      rw [ih]
      split
      · rfl
      · rfl
      · simp only [libraryGuide, bind_assoc, pure_bind]

/-! ## Schemas that mirror each other -/

namespace Mirror

variable {τ : Tolerance} {s t : Store} {m : Mirror τ s t} {d d' : Descent} {v w i j : Value}
  {es fs : Entries} {r r' : String → Value → Evaluation}

theorem checkRef_matches (refers : ∀ ref i j, m.data i j → Matches τ (r ref i) (r' ref j))
    (ref : m.Held .ref v w) (inst : m.data i j) : Matches τ (checkRef r v i) (checkRef r' w j) := by
  rcases ref with ref | rfl
  · cases m.shape ref with
    | list | tuple | mapping => exact .stop _
    | scalar leaf =>
        cases v with
        | text x => exact refers x i j inst
        | list | tuple | mapping => exact leaf.elim
        | _ => exact .stop _
  · cases v with
    | text x => exact refers x i j inst
    | _ => exact .stop _

theorem checkKeyword_matches (faithful : m.Faithful) (descends : m.Descends d d')
    (refers : ∀ ref i j, m.data i j → Matches τ (r ref i) (r' ref j))
    (arranged : m.Arranged es fs) (k : Keyword) (held : m.Held k v w) (inst : m.data i j) :
    Matches τ (checkKeyword ⟨s, d, r⟩ es i v k) (checkKeyword ⟨t, d', r'⟩ fs j w k) := by
  have flag : ∀ key ∈ flagKeys, affirms s es key = affirms t fs key :=
    fun key member => affirmed (arranged.flag key member)
  cases k with
  | type => exact checkType_matches descends held inst
  | disallow => exact checkDisallow_matches descends held inst
  | enum => exact checkEnum_matches held inst
  | properties => exact checkProperties_matches faithful descends held inst
  | patternProperties => exact checkPatternProperties_matches descends held inst
  | additionalProperties => exact checkAdditionalProperties_matches descends arranged held inst
  | items => exact checkItems_matches descends held inst
  | additionalItems =>
      exact checkAdditionalItems_matches descends (arranged.keyword .items) held inst
  | minItems => exact checkItemCount_matches .least held inst
  | maxItems => exact checkItemCount_matches .most held inst
  | uniqueItems => exact checkUniqueItems_matches held inst
  | minimum =>
      rw [checkKeyword, checkKeyword, flag "exclusiveMinimum" (by decide)]
      exact checkLimit_matches .least _ held inst
  | maximum =>
      rw [checkKeyword, checkKeyword, flag "exclusiveMaximum" (by decide)]
      exact checkLimit_matches .most _ held inst
  | divisibleBy => exact checkDivisibleBy_matches held inst
  | minLength => exact checkTextLength_matches .least held inst
  | maxLength => exact checkTextLength_matches .most held inst
  | pattern => exact checkPattern_matches held inst
  | dependencies => exact checkDependencies_matches descends held inst
  | extending => exact checkExtends_matches descends held inst
  | ref => exact checkRef_matches refers held inst

theorem key_of_ofKey? {key : String} {k : Keyword} (found : Keyword.ofKey? key = some k) :
    k.key = key := by
  simpa using List.find?_some found

/-- Entries that are all evaluated come to the same, in whatever order a loose comparison has
    them. -/
theorem gather_entries (arranged : m.Arranged es fs) {e e' : String × Value → Evaluation}
    (passed : ∀ key v, Keyword.ofKey? key = none → e (key, v) = clean ∧ e' (key, v) = clean)
    (same : ∀ key k v w, Keyword.ofKey? key = some k → m.Held k v w →
      Matches τ (e (key, v)) (e' (key, w))) :
    Matches τ (gather e es) (gather e' fs) := by
  by_cases strict : τ.strict
  · apply Matches.gather (arranged.order strict)
    rintro ⟨key, v⟩ ⟨_, w⟩ ⟨rfl, held⟩
    cases found : Keyword.ofKey? key with
    | none =>
        rw [(passed key v found).1, (passed key w found).2]
        exact .clean
    | some k => exact same key k v w found (held k found)
  · obtain ⟨once, once'⟩ := arranged.once strict
    refine gather_loose strict ?_ ?_
    · rintro ⟨key, v⟩ member
      cases found : Keyword.ofKey? key with
      | none =>
          left
          rw [(passed key v found).1]
          exact .clean
      | some k =>
          right
          obtain rfl := key_of_ofKey? found
          obtain ⟨w, among, held⟩ := Entries.counterpart (arranged.keyword k) once member
          exact ⟨(k.key, w), among, same k.key k v w found held⟩
    · rintro ⟨key, w⟩ member
      cases found : Keyword.ofKey? key with
      | none =>
          left
          rw [(passed key w found).2]
          exact .clean
      | some k =>
          right
          obtain rfl := key_of_ofKey? found
          obtain ⟨v, among, held⟩ :=
            Entries.counterpart (rel_flip (arranged.keyword k)) once' member
          exact ⟨(k.key, v), among, same k.key k v w found held⟩

/-- A schema that refers to another one is that one alone. -/
theorem applicable_ref {es : Entries} {u : Value} (there : es.lookup Keyword.ref.key = some u)
    (other : u ≠ .null) : applicable es = [(Keyword.ref.key, u)] := by
  rw [applicable, there]
  split
  · next nothing => cases nothing
  · next same => exact absurd (Option.some.inj same) other
  · next same => rw [Option.some.inj same]

theorem applicable_all {es : Entries}
    (without : es.lookup Keyword.ref.key = none ∨ es.lookup Keyword.ref.key = some .null) :
    applicable es = es := by
  rw [applicable]
  rcases without with absent | null
  · rw [absent]
  · rw [null]

/-- Without a reference all the keywords of a schema count. -/
theorem checkEntries_unreferring (faithful : m.Faithful) (descends : m.Descends d d')
    (refers : ∀ ref i j, m.data i j → Matches τ (r ref i) (r' ref j))
    (arranged : m.Arranged es fs) (inst : m.data i j)
    (without : es.lookup Keyword.ref.key = none ∨ es.lookup Keyword.ref.key = some .null)
    (without' : fs.lookup Keyword.ref.key = none ∨ fs.lookup Keyword.ref.key = some .null) :
    Matches τ (checkEntries ⟨s, d, r⟩ es i) (checkEntries ⟨t, d', r'⟩ fs j) := by
  rw [checkEntries, checkEntries, applicable_all without, applicable_all without']
  apply gather_entries arranged
  · intro key v found
    simp only [found, and_self]
  · intro key k v w found held
    simp only [found]
    exact checkKeyword_matches faithful descends refers arranged k held inst

theorem checkEntries_matches (faithful : m.Faithful) (descends : m.Descends d d')
    (refers : ∀ ref i j, m.data i j → Matches τ (r ref i) (r' ref j))
    (arranged : m.Arranged es fs) (inst : m.data i j) :
    Matches τ (checkEntries ⟨s, d, r⟩ es i) (checkEntries ⟨t, d', r'⟩ fs j) := by
  have all := checkEntries_unreferring faithful descends refers arranged inst
  rcases rel_cases (arranged.keyword .ref) with
    ⟨absent, absent'⟩ | ⟨ref, ref', there, there', held⟩
  · exact all (.inl absent) (.inl absent')
  have nulls : ref = .null ↔ ref' = .null := by
    rcases held with same | rfl
    · exact (m.shape same).scalar_iff trivial
    · exact Iff.rfl
  by_cases null : ref = .null
  · exact all (.inr (null ▸ there)) (.inr (nulls.mp null ▸ there'))
  · have null' : ref' ≠ .null := fun same => null (nulls.mpr same)
    rw [checkEntries, checkEntries, applicable_ref there null, applicable_ref there' null']
    have row : List.Forall₂ (fun e f => e = (Keyword.ref.key, ref) ∧ f = (Keyword.ref.key, ref'))
        [(Keyword.ref.key, ref)] [(Keyword.ref.key, ref')] := .cons ⟨rfl, rfl⟩ .nil
    have found : Keyword.ofKey? Keyword.ref.key = some .ref := by decide
    apply Matches.gather row
    rintro _ _ ⟨rfl, rfl⟩
    simp only [found]
    exact checkKeyword_matches faithful descends refers arranged .ref held inst

/-! ## The whole evaluation -/

variable {State State' : Type} {g : Guide State} {h : Guide State'}

/-- Two guides that lead to mirrored schemas. -/
structure Leads (m : Mirror τ s t) (g : Guide State) (h : Guide State')
    (states : State → State' → Prop) : Prop where
  enter : ∀ x y arrival a b, states x y → m.node a b →
    Agree τ states (g.enter x arrival (s.entries a)) (h.enter y arrival (t.entries b))
  refer : ∀ x y ref, states x y →
    Agree τ (fun p q => m.Part p.1 q.1 ∧ states p.2 q.2) (g.refer x ref) (h.refer y ref)

theorem schemaEntries_eq (same : m.data v w) (other : v.kind ≠ .object) {fault : Fault}
    (refused : Reference.schemaEntries s v = faulted fault) :
    Reference.schemaEntries t w = faulted fault := by
  cases m.shape same with
  | mapping => exact absurd rfl other
  | list | tuple => exact refused
  | scalar leaf =>
      cases v with
      | mapping => exact leaf.elim
      | _ => exact refused

theorem schemaEntries_other (s : Store) (other : v.kind ≠ .object) :
    ∃ fault, Reference.schemaEntries s v = faulted fault := by
  cases v with
  | mapping => exact absurd rfl other
  | _ => exact ⟨_, rfl⟩

theorem evaluateBy_other (s : Store) (g : Guide State) (fuel : Nat) (arrival : Arrival)
    (x : State) (i : Value) {fault : Fault} (plain : ∀ b, v ≠ .bool b)
    (refused : Reference.schemaEntries s v = faulted fault) :
    evaluateBy s g (fuel + 1) arrival x v i = faulted fault := by
  rw [evaluateBy, refused]
  · rfl
  · exact plain true
  · exact plain false

/-- Evaluations of mirrored schemas come to the same, one with no more fuel than the other. They
    have as much, or running out of it is excused. -/
theorem evaluateBy_matches {states : State → State' → Prop} (faithful : m.Faithful)
    (leads : m.Leads g h states) : ∀ {n k : Nat}, n ≤ k → (n < k → τ.first .endless) →
    ∀ arrival x y v w i j, states x y → m.Part v w → m.data i j →
      Matches τ (evaluateBy s g n arrival x v i) (evaluateBy t h k arrival y w j) := by
  intro n
  induction n with
  | zero =>
      intro k _ excused arrival x y v w i j _ _ _
      cases k with
      | zero => exact .stop _
      | succ k => exact .first (excused k.succ_pos) _
  | succ n ih =>
      intro k enough excused arrival x y v w i j here part inst
      obtain ⟨k, rfl⟩ : ∃ l, k = l + 1 := ⟨k - 1, by omega⟩
      have below := @ih k (by omega) (fun less => excused (by omega))
      cases part with
      | @node a b same =>
          rw [evaluateBy, evaluateBy]
          apply (leads.enter x y arrival a b here same).bind
          intro inside inside' there
          refine checkEntries_matches faithful ?_ ?_ (faithful a b same) inst
          · intro v w i j part inst
            exact below .inside inside inside' v w i j there part inst
          · intro ref i j inst
            apply (leads.refer inside inside' ref there).bind
            rintro ⟨target, beyond⟩ ⟨target', beyond'⟩ ⟨part, onward⟩
            exact below .referred beyond beyond' target target' i j onward part inst
          all_goals exact Value.noConfusion
      | data same other =>
          by_cases bool : ∃ c, v = .bool c
          · obtain ⟨c, rfl⟩ := bool
            obtain rfl := ((m.shape same).scalar_iff (u := .bool c) trivial).mp rfl
            cases c with
            | true => exact .clean
            | false =>
                apply Matches.violation
                intro strict
                rw [m.shown strict inst]
          · have plain : ∀ c, v ≠ .bool c := fun c is => bool ⟨c, is⟩
            have plain' : ∀ c, w ≠ .bool c := fun c is =>
              plain c (((m.shape same).scalar_iff (u := .bool c) trivial).mpr is)
            obtain ⟨fault, refused⟩ := schemaEntries_other s other
            rw [evaluateBy_other s g n arrival x i plain refused,
              evaluateBy_other t h k arrival y j plain' (schemaEntries_eq same other refused)]
            exact .stop _

end Mirror

end Evaluation

end SchemaAudit

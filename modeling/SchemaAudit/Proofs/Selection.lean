import SchemaAudit.Proofs.Calls
import SchemaAudit.Proofs.MostSpecific
import SchemaAudit.Proofs.ReorderedReferences
import SchemaAudit.Proofs.Standalone
import SchemaAudit.Proofs.Tokens

/-! # What a judgement tells

A flaw that an evaluation comes to is told before all violations, and of these the first of the most
deeply nested ones is told. Which of the three it comes to, and how deep, does not hang on the order
of the keys of schemas, apart from mappings that are gone through by their keys.
-/

namespace SchemaAudit

open Reference (Library Reshelved)

/-- Verdicts of the same class, with paths of the same length. -/
inductive Verdict.Alike : Verdict → Verdict → Prop where
  | fits : Alike .fits .fits
  | violated {tokens tokens' : List String} (message message' : String)
      (level : tokens.length = tokens'.length) :
      Alike (.violated (Pointer.extend "" tokens) message)
        (.violated (Pointer.extend "" tokens') message')
  | unusable (reason reason' : String) : Alike (.unusable reason) (.unusable reason')

namespace Evaluation

/-- Only places are compared, and all faults are excused. -/
def Tolerance.loose : Tolerance where
  first _ := True
  second _ := True
  strict := False
  lenient _ _ := ⟨trivial, trivial⟩

/-- The schemas that an evaluation of the root may come to: what is nested in the schemas that it
    may come to, and where their references lead. -/
inductive Comes (l : Library) : Arrival → Scope → Value → Prop where
  | root : Comes l .referred ⟨l.rootUri, false⟩ l.root
  | nested {arrival : Arrival} {scope inside : Scope} {b : Nat} {es : Entries} {w : Value}
      (comes : Comes l arrival scope (.mapping b))
      (entered : enter l arrival scope (.mapping b) = .ok (es, inside))
      (nests : l.store.Nests b w) : Comes l .inside inside w
  | referred {arrival : Arrival} {scope inside beyond : Scope} {b : Nat} {es : Entries}
      {ref : String} {target : Value} (comes : Comes l arrival scope (.mapping b))
      (entered : enter l arrival scope (.mapping b) = .ok (es, inside))
      (refers : (l.store.entries b).lookup Keyword.ref.key = some (.text ref))
      (found : l.lookup inside ref = .ok (target, beyond)) : Comes l .referred beyond target

/-- Reordering schemas leaves the order of all mappings in which it counts: those that schemas which
    are evaluated go through by their keys. -/
def SteadyFrom (s t : Store) (addr : Nat) : Prop :=
  ∀ l, Library.ofRoot s addr = .ok l → ∀ arrival scope b, Comes l arrival scope (.mapping b) →
    Steady s t b

variable {s t : Store} {addr : Nat} {l l' : Library} {τ : Tolerance} {arrival : Arrival}
  {scope : Scope} {v inst : Value}

theorem baseAt_congr {es fs : Entries} (lookups : ∀ key, fs.lookup key = es.lookup key)
    (base : String) : baseAt base fs arrival = baseAt base es arrival := by
  cases arrival with
  | referred => rfl
  | inside => rw [baseAt, baseAt, Reference.baseInside_congr lookups]

theorem enter_mapping (l : Library) (b : Nat) :
    enter l arrival scope (.mapping b) = (baseAt scope.base (l.store.entries b) arrival).map
      fun base => (l.store.entries b, { scope with base }) := by
  simp only [enter, Reference.schemaEntries, bind, Except.bind]
  cases baseAt scope.base (l.store.entries b) arrival <;> rfl

/-- What is no schema is told by itself, whatever is around it. -/
theorem evaluate_other (other : v.kind ≠ .object) (loose : ¬ τ.strict) (n : Nat) :
    Matches τ (evaluate l n arrival scope v inst) (evaluate l' n arrival scope v inst) := by
  cases n with
  | zero => exact .stop _
  | succ n =>
      by_cases bool : ∃ c, v = .bool c
      · obtain ⟨c, rfl⟩ := bool
        cases c with
        | true => exact .clean
        | false => exact .violation fun strict => absurd strict loose
      · have plain : ∀ c, v ≠ .bool c := not_exists.mp bool
        obtain ⟨fault, refused⟩ := Mirror.schemaEntries_other l.store other
        have refused' : Reference.schemaEntries l'.store v = faulted fault := by
          cases v with
          | mapping => exact absurd rfl other
          | _ => exact refused
        rw [evaluate_succ plain, evaluate_succ plain, enter, enter, refused, refused']
        exact .stop _

/-- Schemas with their keys in another order come to violations at the same places. -/
theorem evaluate_reordered (moved : Reshelved τ s t addr l l')
    (steady : ∀ arrival scope b, Comes l arrival scope (.mapping b) → Steady s t b) (n : Nat)
    (comes : v.kind = .object → Comes l arrival scope v) :
    Matches τ (evaluate l n arrival scope v inst) (evaluate l' n arrival scope v inst) := by
  have same := moved.same
  have loose := moved.loose
  have lookups := fun scope ref => moved.lookup_agrees scope ref
  obtain ⟨_, _, _, uri, rfl, rfl⟩ := moved
  induction n generalizing arrival scope v inst with
  | zero => exact .stop _
  | succ n ih =>
      by_cases object : v.kind = .object
      · obtain ⟨b, rfl⟩ := Value.kind_eq_object.mp object
        have here := comes rfl
        have entered : enter ⟨s, .mapping addr, uri⟩ arrival scope (.mapping b) = _ :=
          enter_mapping _ b
        rw [evaluate_succ fun _ => Value.noConfusion, evaluate_succ fun _ => Value.noConfusion,
          enter_mapping, enter_mapping, baseAt_congr (same.lookup b)]
        cases based : baseAt scope.base (s.entries b) arrival with
        | error stop => exact .stop stop
        | ok base =>
            rw [based] at entered
            apply same.checkEntries (steady _ _ b here)
            · intro w i nests _
              exact ih fun object => .nested here entered (nests object)
            · intro ref refers
              apply (lookups _ ref).bind_eq
              rintro ⟨target, beyond⟩ found
              exact ih fun _ => .referred here entered refers found
      · exact evaluate_other object loose _

/-! ## Verdicts -/

/-- Violations at the same places are equally deep. -/
theorem deepest_level {found others : List Violation} (same : τ.Tells found others)
    {v w : Violation} (first : Violation.FirstDeepest found v)
    (second : Violation.FirstDeepest others w) : v.path.length = w.path.length := by
  have there := (same.places v.path).mp (List.mem_map_of_mem first.mem)
  have back := (same.places w.path).mpr (List.mem_map_of_mem second.mem)
  obtain ⟨w', among, path⟩ := List.mem_map.mp there
  obtain ⟨v', among', path'⟩ := List.mem_map.mp back
  have least := second.bound among
  have most := first.bound among'
  rw [path] at least
  rw [path'] at most
  exact Nat.le_antisymm least most

/-- Evaluations that match and do not break down come to verdicts of the same class. -/
theorem Matches.verdict {x y : Evaluation} (same : Matches τ x y)
    (lasting : ∀ fault, x.verdict ≠ .faulted fault)
    (lasting' : ∀ fault, y.verdict ≠ .faulted fault) : Verdict.Alike x.verdict y.verdict := by
  cases same with
  | ok tells =>
      rename_i found others
      cases first : mostSpecific? found with
      | none =>
          obtain rfl := mostSpecific?_eq_none.mp first
          have none : others = [] := by
            have empty := tells.isEmpty
            cases others with
            | nil => rfl
            | cons => cases empty
          subst none
          exact .fits
      | some v =>
          cases second : mostSpecific? others with
          | none =>
              obtain rfl := mostSpecific?_eq_none.mp second
              have empty := tells.isEmpty
              cases found with
              | nil => cases first
              | cons => cases empty
          | some w =>
              have level := deepest_level tells (mostSpecific?_eq_some.mp first)
                (mostSpecific?_eq_some.mp second)
              simp only [Evaluation.verdict, first, second]
              exact .violated _ _ level
  | stop stop =>
      cases stop with
      | flaw f => exact .unusable _ _
      | fault fault => exact absurd rfl (lasting fault)
  | flaws => exact .unusable _ _
  | first => exact absurd rfl (lasting _)
  | second => exact absurd rfl (lasting' _)

theorem depthBound_reordered (same : s.Reordered t) (root inst : Value) :
    depthBound t root inst = depthBound s root inst := by
  have perm := (same.unfold root).append (same.unfold inst)
  simp only [depthBound, perm.countP_eq, perm.length_eq]

end Evaluation

namespace Store

open Evaluation

variable {s t : Store} {addr : Nat} {inst : Value}

theorem judge_reordered (keys : s.KeysDistinct) (same : s.Reordered t)
    (unidentified : s.UnidentifiedBelow (.mapping addr)) (steady : SteadyFrom s t addr)
    (lasting : ∀ fault, judge s inst addr ≠ .faulted fault)
    (lasting' : ∀ fault, judge t inst addr ≠ .faulted fault) :
    Verdict.Alike (judge s inst addr) (judge t inst addr) := by
  have moved : Rearranged .loose s t := ⟨same, keys, fun strict => strict.elim⟩
  have lookups := moved.lookup addr
  have flaw : identifierFlaw? (t.entries addr) = identifierFlaw? (s.entries addr) := by
    rw [identifierFlaw?, identifierFlaw?, lookups]
  cases usable : identifierFlaw? (s.entries addr) with
  | some f =>
      rw [judge, judge, flaw, usable]
      exact .unusable _ _
  | none =>
      obtain ⟨l, opened⟩ := ofRoot_ok usable
      obtain ⟨id?, identified, rfl⟩ := ofRoot_eq opened
      have opened' : Library.ofRoot t addr = .ok ⟨t, .mapping addr, id?.getD ""⟩ := by
        rw [Library.ofRoot, Reference.identifier?_congr lookups, identified]
        rfl
      have shelved : Reshelved .loose s t addr ⟨s, .mapping addr, id?.getD ""⟩
          ⟨t, .mapping addr, id?.getD ""⟩ := ⟨moved, id, unidentified, _, rfl, rfl⟩
      have judged : ∀ u uri, identifierFlaw? (u.entries addr) = none →
          Library.ofRoot u addr = .ok ⟨u, .mapping addr, uri⟩ → judge u inst addr =
            (evaluate ⟨u, .mapping addr, uri⟩ (depthBound u (.mapping addr) inst) .referred
              ⟨uri, false⟩ (.mapping addr) inst).verdict := by
        intro u uri usable opened
        rw [judge, usable]
        simp only [Evaluation.ofRoot, opened, bind, Except.bind]
      rw [judged s _ usable opened] at lasting ⊢
      rw [judged t _ (flaw.trans usable) opened', depthBound_reordered same] at lasting' ⊢
      exact (evaluate_reordered shelved (steady _ opened) _ fun _ => .root).verdict lasting lasting'

theorem extend_eq_empty {tokens : List String} : Pointer.extend "" tokens = "" ↔ tokens = [] := by
  constructor
  · intro empty
    have read := Pointer.tokens?_extend_empty tokens
    rw [empty] at read
    exact (Option.some.inj read).symm
  · rintro rfl
    rfl

/-- A judgement is unusable where its schema has an identifier that is none, or where some
    evaluation on the way is halted by a flaw. -/
theorem judge_unusable_iff : (∃ reason, judge s inst addr = .unusable reason) ↔
    (identifierFlaw? (s.entries addr)).isSome ∨
      ∃ l c f, s.Evaluates inst addr l c ∧ c.Halts l (.flaw f) := by
  cases usable : identifierFlaw? (s.entries addr) with
  | some f => simp [judge, usable]
  | none =>
      obtain ⟨l, opened⟩ := ofRoot_ok usable
      have judged : judge s inst addr = (evaluate l (depthBound s (.mapping addr) inst) .referred
          ⟨l.rootUri, false⟩ (.mapping addr) inst).verdict := by
        rw [judge, usable]
        simp only [Evaluation.ofRoot, opened, bind, Except.bind]
      simp only [Option.isSome_none, Bool.false_eq_true, false_or, judged, verdict_unusable]
      constructor
      · rintro ⟨_, f, stopped, _⟩
        obtain ⟨c, made, halts⟩ := (@Call.stops_iff l (s.opening inst addr l) _).mp
          (evaluate_error_iff.mp stopped)
        exact ⟨l, c, f, ⟨opened, made⟩, halts⟩
      · rintro ⟨l', c, f, ⟨opened', made⟩, halts⟩
        obtain rfl := Except.ok.inj (opened.symm.trans opened')
        have stops := (@Call.stops_iff l (s.opening inst addr l) _).mpr ⟨c, made, halts⟩
        exact ⟨f.message, f, evaluate_error_iff.mpr stops, rfl⟩

/-- What a judgement that does not break down tells. If its schema has an identifier that is none,
    or some evaluation on the way comes to a flaw, the schema is unusable. Otherwise the value fits if
    there are no violations, and else the first of the deepest ones is told, with its place exactly
    if that is not the value itself. With the keys of schemas in another order the class of the
    verdict and the length of its path are the same, if no schema below the root has an identifier,
    and mappings that schemas go through by their keys keep their order. -/
theorem judge_selects (keys : s.KeysDistinct)
    (lasting : ∀ fault, judge s inst addr ≠ .faulted fault) :
    ((∃ reason, judge s inst addr = .unusable reason) ↔
      (identifierFlaw? (s.entries addr)).isSome ∨
        ∃ l c f, s.Evaluates inst addr l c ∧ c.Halts l (.flaw f)) ∧
    ((∀ reason, judge s inst addr ≠ .unusable reason) →
      ∃ found, Evaluation.ofRoot s addr inst = .ok found ∧
        (judge s inst addr = .fits ↔ found = []) ∧
        (found ≠ [] → ∃ v, Violation.FirstDeepest found v ∧
          judge s inst addr = .violated (Pointer.extend "" v.path) v.message ∧
          Verdict.located (Pointer.extend "" v.path) v.message =
            if v.path = [] then v.message
            else v.message ++ " (at " ++ Pointer.extend "" v.path ++ ")")) ∧
    ∀ t, s.Reordered t → s.UnidentifiedBelow (.mapping addr) → SteadyFrom s t addr →
      (∀ fault, judge t inst addr ≠ .faulted fault) →
      Verdict.Alike (judge s inst addr) (judge t inst addr) := by
  refine ⟨judge_unusable_iff, fun usable => ?_, fun t same unidentified steady lasting' =>
    judge_reordered keys same unidentified steady lasting lasting'⟩
  rw [judge] at lasting usable ⊢
  split at usable
  · exact absurd rfl (usable _)
  next identified =>
  simp only [identified] at lasting
  cases ended : Evaluation.ofRoot s addr inst with
  | error stop =>
      rw [ended] at lasting usable
      cases stop with
      | flaw f => exact absurd rfl (usable _)
      | fault fault => exact absurd rfl (lasting fault)
  | ok found =>
      refine ⟨found, rfl, ?_, fun some => ?_⟩
      · simp only [verdict_fits, Except.ok.injEq]
      · cases told : mostSpecific? found with
        | none => exact absurd (mostSpecific?_eq_none.mp told) some
        | some v =>
            refine ⟨v, mostSpecific?_eq_some.mp told, ?_, ?_⟩
            · simp only [verdict, told]
            · rw [Verdict.located]
              simp only [extend_eq_empty]

/-- What holds of nothing, and of each mapping that there is, holds at every address. -/
theorem forall_entries {holds : Nat → Entries → Entries → Prop} (nothing : ∀ a, holds a [] [])
    (size : t.maps.size = s.maps.size)
    (each : ∀ a < s.maps.size, holds a (s.entries a) (t.entries a)) (a : Nat) :
    holds a (s.entries a) (t.entries a) := by
  by_cases inside : a < s.maps.size
  · exact each a inside
  · have outside : ∀ u : Store, u.maps.size = s.maps.size → u.entries a = [] := fun u same => by
      simp [Store.entries, Array.getD_eq_getD_getElem?, same, inside]
    rw [outside s rfl, outside t size]
    exact nothing a

/-- A schema with two limits inside, and a value that is beyond both. -/
def limited : Store where
  lists := #[]
  maps := #[
    [("properties", .mapping 1), ("type", .text "object")],
    [("x", .mapping 2)],
    [("minimum", .int 3), ("divisibleBy", .int 2)],
    [("x", .int 1)]]

/-- The same with the keys of the root and of the schema inside the other way round. -/
def limitedAgain : Store where
  lists := #[]
  maps := #[
    [("type", .text "object"), ("properties", .mapping 1)],
    [("x", .mapping 2)],
    [("divisibleBy", .int 2), ("minimum", .int 3)],
    [("x", .int 1)]]

theorem judge_selects_limited :
    judge limited (.mapping 3) 0 = .violated "/x" "1 is less than the minimum of 3" ∧
    judge limitedAgain (.mapping 3) 0 = .violated "/x" "1 is not a multiple of 2" ∧
    Verdict.Alike (judge limited (.mapping 3) 0) (judge limitedAgain (.mapping 3) 0) ∧
    ¬ ∃ l c f, limited.Evaluates (.mapping 3) 0 l c ∧ c.Halts l (.flaw f) := by
  have keys : limited.KeysDistinct := by decide +kernel
  have first : judge limited (.mapping 3) 0 = .violated "/x" "1 is less than the minimum of 3" := by
    decide +kernel
  have second : judge limitedAgain (.mapping 3) 0 = .violated "/x" "1 is not a multiple of 2" := by
    decide +kernel
  have same : limited.Reordered limitedAgain :=
    ⟨rfl, rfl, @forall_entries limited limitedAgain (fun _ es fs => fs.Perm es) (fun _ => .nil) rfl
      (by decide)⟩
  have plain : ∀ b, (limited.entries b).lookup Reference.identifierKey = none :=
    @forall_entries limited limited (fun _ es _ => es.lookup Reference.identifierKey = none)
      (fun _ => rfl) rfl
      (by decide)
  have unions : ∀ b, ((limited.entries b).lookup Keyword.type.key).all (·.kind != .object) :=
    @forall_entries limited limited
      (fun _ es _ => (es.lookup Keyword.type.key).all (·.kind != .object)) (fun _ => rfl) rfl
      (by decide)
  have patterns : ∀ b, (limited.entries b).lookup Keyword.patternProperties.key = none :=
    @forall_entries limited limited
      (fun _ es _ => es.lookup Keyword.patternProperties.key = none) (fun _ => rfl) rfl (by decide)
  have steady : ∀ b, Steady limited limitedAgain b := fun b => {
    types := fun m found => by simpa [found, Value.kind] using unions b
    patterns := fun m found => by simp [patterns b] at found }
  obtain ⟨unusable, _, reordered⟩ := @judge_selects limited 0 (.mapping 3) keys
    fun fault faulted => by rw [first] at faulted; cases faulted
  refine ⟨first, second, ?_, fun halted => ?_⟩
  · exact reordered limitedAgain same (fun b _ => plain b) (fun _ _ _ _ b _ => steady b)
      fun fault faulted => by rw [second] at faulted; cases faulted
  · obtain ⟨reason, told⟩ := unusable.mpr (.inr halted)
    rw [first] at told
    cases told

/-- A schema whose union of types is a mapping, which one inside refers to as a schema. -/
def swayed : Store where
  lists := #[]
  maps := #[
    [("properties", .mapping 1), ("type", .mapping 3)],
    [("x", .mapping 2)],
    [("$ref", .text "#/type")],
    [("object", .int 1), ("foo", .int 2)],
    [("x", .int 1)]]

/-- The same with the keys of the union the other way round. -/
def swayedAgain : Store where
  lists := #[]
  maps := #[
    [("properties", .mapping 1), ("type", .mapping 3)],
    [("x", .mapping 2)],
    [("$ref", .text "#/type")],
    [("foo", .int 2), ("object", .int 1)],
    [("x", .int 1)]]

/-- If a mapping that is evaluated as a schema is a union as well, the order of its keys is that in
    which the names of types are tried, and the class of the verdict hangs on it. -/
theorem judge_swayed :
    swayed.KeysDistinct ∧ swayed.Reordered swayedAgain ∧
    swayed.UnidentifiedBelow (.mapping 0) ∧
    (∀ b, swayedAgain.entries b ≠ swayed.entries b →
      ∃ l c, swayed.Evaluates (.mapping 4) 0 l c ∧ c.schema = .mapping b) ∧
    judge swayed (.mapping 4) 0 = .fits ∧
    judge swayedAgain (.mapping 4) 0 = .unusable "unknown type 'foo' cannot be checked" := by
  refine ⟨by decide +kernel, ⟨rfl, rfl, ?_⟩, ?_, ?_, by decide +kernel, by decide +kernel⟩
  · exact @forall_entries swayed swayedAgain (fun _ es fs => fs.Perm es) (fun _ => .nil) rfl
      (by decide)
  · intro b _
    exact @forall_entries swayed swayed (fun _ es _ => es.lookup Reference.identifierKey = none)
      (fun _ => rfl) rfl (by decide) b
  · intro b other
    obtain rfl : b = 3 := @forall_entries swayed swayedAgain (fun a es fs => fs ≠ es → a = 3)
      (fun _ differs => absurd rfl differs) rfl (by decide +kernel) b other
    let l : Library := ⟨swayed, .mapping 0, ""⟩
    obtain ⟨fuel, enough⟩ : ∃ fuel, depthBound swayed (.mapping 0) (.mapping 4) = fuel + 2 :=
      ⟨_, (Nat.sub_add_cancel (by decide +kernel)).symm⟩
    have found : l.lookup ⟨"", false⟩ "#/type" = .ok (.mapping 3, ⟨"", false⟩) := by decide +kernel
    have inner : Call.Makes l ⟨fuel + 2, .referred, ⟨"", false⟩, .mapping 0, .mapping 4⟩
        ⟨fuel + 1, .inside, ⟨"", false⟩, .mapping 2, .int 1⟩ :=
      .descending ⟨swayed.entries 0, [.perform (.openMap (.mapping 1))], _, rfl, rfl, by
        simp [Bench.stop?, Operation.stop?, Value.kind]⟩
    have union : Call.Makes l ⟨fuel + 1, .inside, ⟨"", false⟩, .mapping 2, .int 1⟩
        ⟨fuel, .referred, ⟨"", false⟩, .mapping 3, .int 1⟩ :=
      .referring ⟨swayed.entries 2, [], [], rfl, rfl, List.forall_mem_nil _⟩ found
    refine ⟨l, ⟨fuel, .referred, ⟨"", false⟩, .mapping 3, .int 1⟩, ⟨rfl, ?_⟩, rfl⟩
    rw [opening, enough]
    exact (Relation.ReflTransGen.single inner).tail union

end Store

end SchemaAudit

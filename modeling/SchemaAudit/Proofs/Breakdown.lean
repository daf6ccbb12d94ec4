import SchemaAudit.Audit
import SchemaAudit.Proofs.KeywordStops
import SchemaAudit.Proofs.Lookups
import SchemaAudit.Proofs.StopSite

/-! # Where evaluations break down

An evaluation comes to a stop at an operation that fails, or at a reference that leads nowhere,
somewhere inside the schemas that it evaluates one inside the other, when everything asked for
before has gone through. A flaw of the schema is told as such. All other stops are faults, which
a judgement breaks down with, and with it the audit of a document whose defaults are judged.
-/

namespace SchemaAudit

namespace Evaluation

open Reference (Library)

/-- What the keywords of a schema are evaluated with, by the scope inside the schema. -/
def bench (l : Library) (fuel : Nat) (inside : Scope) : Bench where
  store := l.store
  descend := evaluate l fuel .inside inside
  refer ref inst := do
    let (target, beyond) ← l.lookup inside ref
    evaluate l fuel .referred beyond target inst

/-- The entries of a schema and the scope inside it. -/
def enter (l : Library) (arrival : Arrival) (scope : Scope) (schema : Value) :
    Except Stop (Entries × Scope) := do
  let es ← Reference.schemaEntries l.store schema
  let base ← baseAt scope.base es arrival
  return (es, { scope with base })

/-- What goes wrong when a schema is entered. Behind a reference the base is known already. -/
def enterFault? (l : Library) (base : String) : Arrival → Value → Option Fault
  | .referred, .mapping _ => none
  | _, schema => Reference.schemaFault? l.store base schema

/-- The evaluation of a schema comes to a demand: all demands before it go through. -/
def Reaches (l : Library) (fuel : Nat) (arrival : Arrival) (scope : Scope) (schema inst : Value)
    (inside : Scope) (demand : Demand) : Prop :=
  ∃ es before after, enter l arrival scope schema = .ok (es, inside) ∧
    entryDemands l.store (bench l fuel inside).admits es inst = before ++ demand :: after ∧
    ∀ earlier ∈ before, (bench l fuel inside).stop? earlier = none

/-- The evaluation of a schema comes to a stop. -/
inductive Stops (l : Library) : Nat → Arrival → Scope → Value → Value → Stop → Prop where
  /-- Schemas are evaluated inside each other without end. -/
  | endless {arrival : Arrival} {scope : Scope} {schema inst : Value} :
      Stops l 0 arrival scope schema inst (.fault .endless)
  /-- What stands for a schema is none, or has no identifier that can be used. -/
  | shut {fuel : Nat} {arrival : Arrival} {scope : Scope} {schema inst : Value} {fault : Fault}
      (plain : ∀ b, schema ≠ .bool b)
      (refused : enterFault? l scope.base arrival schema = some fault) :
      Stops l (fuel + 1) arrival scope schema inst (.fault fault)
  | performing {fuel : Nat} {arrival : Arrival} {scope inside : Scope} {schema inst : Value}
      {op : Operation} {stop : Stop}
      (reached : Reaches l fuel arrival scope schema inst inside (.perform op))
      (failed : op.stop? l.store = some stop) :
      Stops l (fuel + 1) arrival scope schema inst stop
  | descending {fuel : Nat} {arrival : Arrival} {scope inside : Scope}
      {schema inst inner part : Value} {stop : Stop}
      (reached : Reaches l fuel arrival scope schema inst inside (.descend inner part))
      (below : Stops l fuel .inside inside inner part stop) :
      Stops l (fuel + 1) arrival scope schema inst stop
  /-- A reference cannot be looked up. -/
  | lost {fuel : Nat} {arrival : Arrival} {scope inside : Scope} {schema inst part : Value}
      {ref : String} {stop : Stop}
      (reached : Reaches l fuel arrival scope schema inst inside (.refer ref part))
      (astray : l.Loses inside ref stop) :
      Stops l (fuel + 1) arrival scope schema inst stop
  | referring {fuel : Nat} {arrival : Arrival} {scope inside beyond : Scope}
      {schema inst target part : Value} {ref : String} {stop : Stop}
      (reached : Reaches l fuel arrival scope schema inst inside (.refer ref part))
      (found : l.lookup inside ref = .ok (target, beyond))
      (behind : Stops l fuel .referred beyond target part stop) :
      Stops l (fuel + 1) arrival scope schema inst stop

variable {l : Library} {fuel : Nat} {arrival : Arrival} {scope inside : Scope}
  {schema inst : Value} {stop : Stop}

theorem stop?_enter :
    stop? (enter l arrival scope schema) =
      (enterFault? l scope.base arrival schema).map .fault := by
  cases arrival with
  | referred => cases schema <;> rfl
  | inside =>
      rw [enterFault?, ← Reference.stop?_schemaBase, enter]
      · cases opened : Reference.schemaEntries l.store schema with
        | error stop => rfl
        | ok es =>
            change stop? (baseAt scope.base es .inside >>= _) =
              stop? (Reference.baseInside scope.base es)
            rw [stop?_bind_clear fun _ => rfl, baseAt, stop?_map]
      · rintro _ ⟨⟩

/-- A schema that is no truth value is entered, and then its keywords are evaluated. -/
theorem evaluate_succ (plain : ∀ b, schema ≠ .bool b) :
    evaluate l (fuel + 1) arrival scope schema inst =
      enter l arrival scope schema >>= fun (es, inside) =>
        checkEntries (bench l fuel inside) es inst := by
  have entered : evaluate l (fuel + 1) arrival scope schema inst = (do
      let es ← Reference.schemaEntries l.store schema
      let base ← baseAt scope.base es arrival
      checkEntries (bench l fuel { scope with base }) es inst) := by
    cases schema with
    | bool b => exact absurd rfl (plain b)
    | _ => rfl
  simp only [entered, enter, bind_assoc, pure_bind]

/-- The evaluation of what stands for no schema reaches no demand. -/
theorem Reaches.plain {demand : Demand}
    (reached : Reaches l fuel arrival scope schema inst inside demand) (b : Bool) :
    schema ≠ .bool b := by
  rintro rfl
  obtain ⟨es, _, _, entered, _⟩ := reached
  cases entered

/-- A schema that is entered stops at the first demand that does. -/
theorem evaluate_succ_error (plain : ∀ b, schema ≠ .bool b) :
    evaluate l (fuel + 1) arrival scope schema inst = .error stop ↔
      enter l arrival scope schema = .error stop ∨
      ∃ inside demand, Reaches l fuel arrival scope schema inst inside demand ∧
        (bench l fuel inside).stop? demand = some stop := by
  rw [evaluate_succ plain, bind_eq_error]
  refine or_congr_right ⟨?_, ?_⟩
  · rintro ⟨⟨es, inside⟩, entered, stopped⟩
    rw [← stop?_eq_some, stop?_checkEntries] at stopped
    obtain ⟨before, demand, after, asked, here, passed⟩ :=
      List.findSome?_eq_some_iff.mp stopped
    exact ⟨inside, demand, ⟨es, before, after, entered, asked, passed⟩, here⟩
  · rintro ⟨inside, demand, ⟨es, before, after, entered, asked, passed⟩, here⟩
    refine ⟨(es, inside), entered, ?_⟩
    rw [← stop?_eq_some, stop?_checkEntries]
    exact List.findSome?_eq_some_iff.mpr ⟨before, demand, after, asked, here, passed⟩

/-- A reference stops when it cannot be looked up, or at the schema that it leads to. -/
theorem bench_refer_error {ref : String} {part : Value} :
    (bench l fuel inside).refer ref part = .error stop ↔
      l.Loses inside ref stop ∨ ∃ target beyond,
        l.lookup inside ref = .ok (target, beyond) ∧
          evaluate l fuel .referred beyond target part = .error stop := by
  rw [bench, bind_eq_error, Reference.lookup_error_iff]
  simp only [Prod.exists]

/-- An evaluation ends in an error exactly when it comes to a stop. -/
theorem evaluate_error_iff :
    evaluate l fuel arrival scope schema inst = .error stop ↔
      Stops l fuel arrival scope schema inst stop := by
  induction fuel generalizing arrival scope schema inst with
  | zero =>
      constructor
      · intro stopped
        obtain rfl := Except.error.inj stopped
        exact .endless
      · rintro ⟨⟩
        rfl
  | succ fuel ih =>
      constructor
      · intro stopped
        have plain : ∀ b, schema ≠ .bool b := by
          rintro b rfl
          cases b <;> cases stopped
        rcases (evaluate_succ_error plain).mp stopped with refused | ⟨inside, demand, reached, here⟩
        · rw [← stop?_eq_some, stop?_enter] at refused
          obtain ⟨fault, broke, rfl⟩ := Option.map_eq_some_iff.mp refused
          exact .shut plain broke
        · cases demand with
          | perform op => exact .performing reached here
          | descend inner part => exact .descending reached (ih.mp (stop?_eq_some.mp here))
          | refer ref part =>
              rcases bench_refer_error.mp (stop?_eq_some.mp here) with
                astray | ⟨target, beyond, found, behind⟩
              · exact .lost reached astray
              · exact .referring reached found (ih.mp behind)
      · intro stops
        cases stops with
        | shut plain refused =>
            refine (evaluate_succ_error plain).mpr (.inl ?_)
            rw [← stop?_eq_some, stop?_enter, refused]
            rfl
        | performing reached failed =>
            exact (evaluate_succ_error reached.plain).mpr (.inr ⟨_, _, reached, failed⟩)
        | descending reached below =>
            exact (evaluate_succ_error reached.plain).mpr
              (.inr ⟨_, _, reached, stop?_eq_some.mpr (ih.mpr below)⟩)
        | lost reached astray =>
            exact (evaluate_succ_error reached.plain).mpr
              (.inr ⟨_, _, reached, stop?_eq_some.mpr (bench_refer_error.mpr (.inl astray))⟩)
        | referring reached found behind =>
            exact (evaluate_succ_error reached.plain).mpr
              (.inr ⟨_, _, reached, stop?_eq_some.mpr
                (bench_refer_error.mpr (.inr ⟨_, _, found, ih.mpr behind⟩))⟩)

theorem verdict_faulted {e : Evaluation} {fault : Fault} :
    e.verdict = .faulted fault ↔ e = .error (.fault fault) := by
  cases e with
  | error stop => cases stop <;> simp [verdict]
  | ok found => cases told : mostSpecific? found <;> simp [verdict, told]

end Evaluation

namespace Store

/-- Judging a value by the schema at an address breaks down: the schema's own identifier can be
    used, and the evaluation stops with a fault. -/
def BreaksDown (s : Store) (inst : Value) (addr : Nat) (fault : Fault) : Prop :=
  identifierFlaw? (s.entries addr) = none ∧
    ∃ l, Reference.Library.ofRoot s addr = .ok l ∧
      Evaluation.Stops l (Evaluation.depthBound s (.mapping addr) inst) .referred
        ⟨l.rootUri, false⟩ (.mapping addr) inst (.fault fault)

variable {s : Store} {inst : Value} {addr : Nat} {fault : Fault}

/-- A root with an identifier that can be used can be looked up in. -/
theorem ofRoot_ok (usable : identifierFlaw? (s.entries addr) = none) :
    ∃ l, Reference.Library.ofRoot s addr = .ok l := by
  have identified : ∃ id?, Reference.identifier? (s.entries addr) = .ok id? := by
    unfold identifierFlaw? at usable
    unfold Reference.identifier?
    split
    · exact ⟨none, rfl⟩
    · split at usable
      · next absent => exact ⟨none, by rw [absent]⟩
      · next absent => exact ⟨none, by rw [absent]⟩
      · next t text =>
          rw [text]
          exact ⟨_, rfl⟩
      · cases usable
  obtain ⟨id?, identified⟩ := identified
  exact ⟨_, by rw [Reference.Library.ofRoot, identified]; rfl⟩

theorem judge_faulted : judge s inst addr = .faulted fault ↔ s.BreaksDown inst addr fault := by
  unfold judge BreaksDown
  cases usable : identifierFlaw? (s.entries addr) with
  | some flaw => simp
  | none =>
      obtain ⟨l, opened⟩ := ofRoot_ok usable
      have evaluated : Evaluation.ofRoot s addr inst =
          Evaluation.evaluate l (Evaluation.depthBound s (.mapping addr) inst) .referred
            ⟨l.rootUri, false⟩ (.mapping addr) inst := by
        rw [Evaluation.ofRoot, opened]
        rfl
      simp only [Evaluation.verdict_faulted, evaluated, Evaluation.evaluate_error_iff, opened,
        Except.ok.injEq, exists_eq_left', true_and]

end Store

namespace Document

/-- Auditing a document breaks down: nothing is wrong with its root, and the first default that
    the walk comes to with nothing wrong before cannot be judged. -/
def BreaksDown (d : Document) (limit : Nat) (fault : Fault) : Prop :=
  rootFinding? d = none ∧ ∃ addr v,
    d.store.Arrives (judge d.store) (.root limit) d.root addr ∧
    d.store.attribute? addr .default = some v ∧ d.store.BreaksDown v addr fault

theorem audit_faulted {d : Document} {limit : Nat} {fault : Fault} :
    (d.audit limit).outcome = .faulted fault ↔ d.BreaksDown limit fault := by
  rw [audit, outcome_auditWith, BreaksDown]
  cases rootFinding? d with
  | some f => simp
  | none =>
      simp only [Store.check_faulted, Store.judge_faulted, true_and]

/-- Judging a value and auditing a document break down exactly where some operation that is
    reached fails with a fault. -/
theorem faulted_iff_breaksDown (d : Document) (limit addr : Nat) (inst : Value) (fault : Fault) :
    (judge d.store inst addr = .faulted fault ↔ d.store.BreaksDown inst addr fault) ∧
      ((d.audit limit).outcome = .faulted fault ↔ d.BreaksDown limit fault) :=
  ⟨Store.judge_faulted, audit_faulted⟩

/-- A document whose schemas cannot be judged by: a pattern repeats too often, a divisor is
    zero, a reference asks a list for a name, and a limit is a text. -/
def breakable : Document where
  store :=
    { lists := #[[.text "z"]]
      maps := #[
        [("type", .text "object"), ("properties", .mapping 1)],
        [("a", .mapping 2)],
        [("pattern", .text "a\x7b99999999999999999999\x7d"), ("default", .text "a")],
        [("extends", .mapping 4)],
        [("divisibleBy", .int 0)],
        [("$ref", .text "#/x/y"), ("x", .list 0)],
        [("extends", .mapping 7)],
        [("minimum", .text "1")]] }
  root := .mapping 0

theorem breakable_faulted :
    (breakable.audit 100).outcome = .faulted .overflow ∧
      judge breakable.store (.text "a") 2 = .faulted .overflow ∧
      judge breakable.store (.int 1) 3 = .faulted .divisionByZero ∧
      judge breakable.store (.int 1) 5 = .faulted .invalidValue ∧
      judge breakable.store (.int 1) 6 = .faulted .kindMismatch := by
  decide +kernel

end Document

end SchemaAudit

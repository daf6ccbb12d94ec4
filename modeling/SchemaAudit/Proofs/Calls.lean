import SchemaAudit.Proofs.Breakdown
import Mathlib.Logic.Relation

/-! # Evaluations that are made on the way

The evaluation of a schema makes others: of the schemas inside that it descends to and of those that
it refers to. What stops it is what halts one of these, all of them coming to it with everything
before gone through.
-/

namespace SchemaAudit

open Reference (Library)

namespace Evaluation

/-- The evaluation of a schema on a value, on the way of a judgement. -/
structure Call where
  fuel : Nat
  arrival : Arrival
  scope : Scope
  schema : Value
  inst : Value

namespace Call

/-- What an evaluation comes to. -/
inductive Reaches (l : Library) : Call → Scope → Demand → Prop where
  | intro {fuel : Nat} {arrival : Arrival} {scope inside : Scope} {schema inst : Value}
      {demand : Demand}
      (reached : Evaluation.Reaches l fuel arrival scope schema inst inside demand) :
      Reaches l ⟨fuel + 1, arrival, scope, schema, inst⟩ inside demand

/-- One evaluation makes another. -/
inductive Makes (l : Library) : Call → Call → Prop where
  | descending {fuel : Nat} {arrival : Arrival} {scope inside : Scope}
      {schema inst inner part : Value}
      (reached : Evaluation.Reaches l fuel arrival scope schema inst inside (.descend inner part)) :
      Makes l ⟨fuel + 1, arrival, scope, schema, inst⟩ ⟨fuel, .inside, inside, inner, part⟩
  | referring {fuel : Nat} {arrival : Arrival} {scope inside beyond : Scope}
      {schema inst target part : Value} {ref : String}
      (reached : Evaluation.Reaches l fuel arrival scope schema inst inside (.refer ref part))
      (found : l.lookup inside ref = .ok (target, beyond)) :
      Makes l ⟨fuel + 1, arrival, scope, schema, inst⟩ ⟨fuel, .referred, beyond, target, part⟩

/-- An evaluation is halted by what it asks for itself. -/
inductive Halts (l : Library) : Call → Stop → Prop where
  | endless {arrival : Arrival} {scope : Scope} {schema inst : Value} :
      Halts l ⟨0, arrival, scope, schema, inst⟩ (.fault .endless)
  | shut {fuel : Nat} {arrival : Arrival} {scope : Scope} {schema inst : Value} {fault : Fault}
      (plain : ∀ b, schema ≠ .bool b)
      (refused : enterFault? l scope.base arrival schema = some fault) :
      Halts l ⟨fuel + 1, arrival, scope, schema, inst⟩ (.fault fault)
  | performing {c : Call} {inside : Scope} {op : Operation} {stop : Stop}
      (reached : c.Reaches l inside (.perform op)) (failed : op.stop? l.store = some stop) :
      Halts l c stop
  | lost {c : Call} {inside : Scope} {ref : String} {part : Value} {stop : Stop}
      (reached : c.Reaches l inside (.refer ref part)) (astray : l.Loses inside ref stop) :
      Halts l c stop

/-- An evaluation comes to a stop. -/
def Stops (l : Library) (c : Call) (stop : Stop) : Prop :=
  Evaluation.Stops l c.fuel c.arrival c.scope c.schema c.inst stop

variable {l : Library} {c d : Call} {stop : Stop}

theorem Makes.stops (makes : Makes l c d) (stops : d.Stops l stop) : c.Stops l stop := by
  cases makes with
  | descending reached => exact .descending reached stops
  | referring reached found => exact .referring reached found stops

theorem Halts.stops (halts : c.Halts l stop) : c.Stops l stop := by
  cases halts with
  | endless => exact .endless
  | shut plain refused => exact .shut plain refused
  | performing reached failed =>
      obtain ⟨reached⟩ := reached
      exact .performing reached failed
  | lost reached astray =>
      obtain ⟨reached⟩ := reached
      exact .lost reached astray

/-- An evaluation comes to a stop where one that is made on the way is halted. -/
theorem stops_iff :
    c.Stops l stop ↔ ∃ d, Relation.ReflTransGen (Makes l) c d ∧ d.Halts l stop := by
  constructor
  · obtain ⟨fuel, arrival, scope, schema, inst⟩ := c
    intro stops
    change Evaluation.Stops l fuel arrival scope schema inst stop at stops
    induction stops with
    | endless => exact ⟨_, .refl, .endless⟩
    | shut plain refused => exact ⟨_, .refl, .shut plain refused⟩
    | performing reached failed => exact ⟨_, .refl, .performing ⟨reached⟩ failed⟩
    | descending reached _ ih =>
        obtain ⟨d, made, halts⟩ := ih
        exact ⟨d, .head (.descending reached) made, halts⟩
    | lost reached astray => exact ⟨_, .refl, .lost ⟨reached⟩ astray⟩
    | referring reached found _ ih =>
        obtain ⟨d, made, halts⟩ := ih
        exact ⟨d, .head (.referring reached found) made, halts⟩
  · rintro ⟨d, made, halts⟩
    induction made using Relation.ReflTransGen.head_induction_on with
    | refl => exact halts.stops
    | head makes _ stops => exact makes.stops stops

end Call

end Evaluation

namespace Store

open Evaluation

/-- The evaluation that a judgement begins with. -/
def opening (s : Store) (inst : Value) (addr : Nat) (l : Library) : Call where
  fuel := depthBound s (.mapping addr) inst
  arrival := .referred
  scope := ⟨l.rootUri, false⟩
  schema := .mapping addr
  inst := inst

/-- The evaluations that are made while a value is judged by the schema at an address. -/
def Evaluates (s : Store) (inst : Value) (addr : Nat) (l : Library) (c : Call) : Prop :=
  Library.ofRoot s addr = .ok l ∧ Relation.ReflTransGen (Call.Makes l) (s.opening inst addr l) c

variable {s : Store} {inst : Value} {addr : Nat} {l : Library} {c : Call}

theorem Evaluates.store (made : s.Evaluates inst addr l c) : l.store = s := by
  obtain ⟨opened, _⟩ := made
  rw [Library.ofRoot] at opened
  obtain ⟨_, _, same⟩ := bind_eq_ok.mp opened
  exact (congrArg Library.store (Except.ok.inj same)).symm

/-- Where an evaluation on the way comes to a stop, the judgement tells of a flaw or breaks down. -/
theorem Evaluates.stopped (made : s.Evaluates inst addr l c) {stop : Stop}
    (stops : c.Stops l stop) :
    (∃ reason, judge s inst addr = .unusable reason) ∨
      ∃ fault, judge s inst addr = .faulted fault := by
  obtain ⟨d, further, halts⟩ := Call.stops_iff.mp stops
  have whole : evaluate l (depthBound s (.mapping addr) inst) .referred ⟨l.rootUri, false⟩
      (.mapping addr) inst = .error stop :=
    evaluate_error_iff.mpr (Call.stops_iff.mpr ⟨d, made.2.trans further, halts⟩)
  rw [judge]
  split
  · exact .inl ⟨_, rfl⟩
  · simp only [Evaluation.ofRoot, made.1, bind, Except.bind, whole]
    cases stop with
    | flaw f => exact .inl ⟨f.message, rfl⟩
    | fault fault => exact .inr ⟨fault, rfl⟩

end Store

end SchemaAudit

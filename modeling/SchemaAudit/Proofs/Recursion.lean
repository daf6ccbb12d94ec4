import SchemaAudit.Proofs.Outcomes
import SchemaAudit.Proofs.Steps
import Mathlib.Data.Finset.Card

/-! # Why the walk comes to an end

The walk of a node goes on to the values inside it, with that node among the nodes around them,
and a mapping that is around a place is not entered again. So every call leaves one mapping
fewer to enter, wherever the first call was made and however deep nodes may be nested. The fuel
of `walk` is therefore no matter once it exceeds the number of mappings, and `Store.check` is
the walk at any place, told apart by the guards of a node without a word of fuel.
-/

namespace SchemaAudit

namespace Place

/-- The number of mappings that are not around a place. -/
def room (p : Place) (s : Store) : Nat := (Finset.range s.maps.size \ p.ancestors.toFinset).card

variable {s : Store} {p : Place}

theorem room_le : p.room s ≤ s.maps.size :=
  (Finset.card_le_card Finset.sdiff_subset).trans_eq (Finset.card_range _)

/-- Entering a mapping leaves less room. -/
theorem room_descend {addr : Nat} (fresh : addr ∉ p.ancestors) (inside : addr < s.maps.size)
    (hop : Hop) : ((p.enter addr).descend hop).room s < p.room s := by
  have around : ((p.enter addr).descend hop).ancestors.toFinset =
      insert addr p.ancestors.toFinset := by
    rw [ancestors_descend, enter, List.toFinset_cons]
  have free : addr ∈ Finset.range s.maps.size \ p.ancestors.toFinset := by
    simpa using ⟨inside, fresh⟩
  rw [room, around, Finset.sdiff_insert]
  exact Finset.card_erase_lt_of_mem free

end Place

namespace Store

/-- One walk is called from another when it is one of the visits that the plan of a node asks
    for. Of the guards of the node only the one against cycles counts here; the limit of depth
    is left out of account. -/
inductive CalledFrom (s : Store) : Place × Value → Place × Value → Prop where
  | inside {p : Place} {addr : Nat} {hop : Hop} {w : Value} (fresh : addr ∉ p.ancestors)
      (asked : .visit hop w ∈ (s.node addr).plan s (p.enter addr)) :
      CalledFrom s ((p.enter addr).descend hop, w) (p, .mapping addr)

theorem CalledFrom.room_lt {s : Store} {inner outer : Place × Value}
    (called : s.CalledFrom inner outer) : inner.1.room s < outer.1.room s := by
  cases called with
  | @inside _ _ hop _ fresh asked =>
      have held : s.Holds _ _ _ := Node.plan_grounded asked
      exact Place.room_descend fresh held.inside hop

/-- There is no endless row of walks, each called from the one before. -/
theorem calledFrom_wellFounded (s : Store) : WellFounded s.CalledFrom :=
  Subrelation.wf CalledFrom.room_lt (measure fun call : Place × Value => call.1.room s).wf

/-- What holds of a walk whenever it holds of the walks called from it holds of every walk. -/
theorem walk_induction (s : Store) {motive : Place → Value → Prop}
    (step : ∀ p v, (∀ addr hop w, v = .mapping addr → addr ∉ p.ancestors →
      .visit hop w ∈ (s.node addr).plan s (p.enter addr) →
        motive ((p.enter addr).descend hop) w) → motive p v)
    (p : Place) (v : Value) : motive p v := by
  refine (calledFrom_wellFounded s).induction
    (C := fun call => motive call.1 call.2) (p, v) ?_
  rintro ⟨q, u⟩ ih
  refine step q u ?_
  rintro addr hop w rfl fresh asked
  exact ih _ (.inside fresh asked)

end Store

theorem Report.ofSteps_congr {visit other : Hop → Value → Report} {steps : List Step}
    (same : ∀ hop v, .visit hop v ∈ steps → visit hop v = other hop v) :
    ofSteps visit steps = ofSteps other steps := by
  induction steps with
  | nil => rfl
  | cons step rest ih =>
      cases step with
      | found f => rfl
      | visit hop v =>
          rw [ofSteps, ofSteps, same hop v List.mem_cons_self,
            ih fun hop v later => same hop v (List.mem_cons_of_mem _ later)]

namespace Store

/-- What is done inside a node once it is entered, given the walk of the values that it holds. -/
def examine (walkAt : Place → Value → Report) (judge : Judge) (s : Store) (p : Place)
    (addr : Nat) : Report :=
  Report.andThen
    (.ofSteps (fun hop w => (walkAt (p.descend hop) w).mapFinding (p.wrap hop))
      ((s.node addr).plan s p))
    fun _ => (s.node addr).judgeDefault judge p addr

/-- The walk with fuel for all mappings of the store. -/
def check (judge : Judge) (s : Store) (p : Place) (v : Value) : Report :=
  walk judge s (s.maps.size + 1) p v

variable {judge : Judge} {s : Store} {p : Place} {addr : Nat}

theorem examine_congr {walkAt other : Place → Value → Report}
    (same : ∀ hop w, .visit hop w ∈ (s.node addr).plan s p →
      walkAt (p.descend hop) w = other (p.descend hop) w) :
    examine walkAt judge s p addr = examine other judge s p addr := by
  rw [examine, examine, Report.ofSteps_congr fun hop w asked =>
    congrArg (Report.mapFinding (p.wrap hop)) (same hop w asked)]

theorem walk_enter {n : Nat} (fresh : addr ∉ p.ancestors) (shallow : p.depth < p.limit) :
    walk judge s (n + 1) p (.mapping addr) =
      Report.andThen ⟨[.entered p.pointer (p.depth + 1)], .accepted⟩ fun _ =>
        examine (walk judge s n) judge s (p.enter addr) addr := by
  rw [walk, if_neg fresh, if_neg (Nat.not_le.mpr shallow)]
  rfl

/-- Fuel beyond the mappings that are left to enter changes nothing. -/
theorem walk_fuel (p : Place) (v : Value) : ∀ {m n : Nat}, p.room s < m → p.room s < n →
    walk judge s m p v = walk judge s n p v := by
  refine walk_induction s (motive := fun p v => ∀ {m n : Nat}, p.room s < m → p.room s < n →
    walk judge s m p v = walk judge s n p v) ?_ p v
  intro p v ih m n enough enough'
  obtain ⟨m, rfl⟩ := Nat.exists_eq_succ_of_ne_zero (Nat.ne_zero_of_lt enough)
  obtain ⟨n, rfl⟩ := Nat.exists_eq_succ_of_ne_zero (Nat.ne_zero_of_lt enough')
  cases v with
  | mapping addr =>
      by_cases fresh : addr ∈ p.ancestors
      · rw [walk, walk, if_pos fresh, if_pos fresh]
      by_cases deep : p.limit ≤ p.depth
      · rw [walk, walk, if_neg fresh, if_neg fresh, if_pos deep, if_pos deep]
      have shallow := Nat.not_le.mp deep
      rw [walk_enter fresh shallow, walk_enter fresh shallow, examine_congr]
      intro hop w asked
      have less := (CalledFrom.inside fresh asked).room_lt
      exact ih addr hop w rfl fresh asked (Nat.lt_of_lt_of_le less (Nat.le_of_lt_succ enough))
        (Nat.lt_of_lt_of_le less (Nat.le_of_lt_succ enough'))
  | _ => rfl

theorem walk_eq_check {fuel : Nat} (enough : p.room s < fuel) (v : Value) :
    walk judge s fuel p v = s.check judge p v :=
  walk_fuel p v enough (Nat.lt_succ_of_le Place.room_le)

theorem check_notANode {v : Value} (other : v.kind ≠ .object) :
    s.check judge p v = .found (p.notANode v) := by
  cases v with
  | mapping => exact absurd rfl other
  | _ => rfl

theorem check_cyclic (inside : addr ∈ p.ancestors) :
    s.check judge p (.mapping addr) = .found p.cyclic := by
  rw [check, walk, if_pos inside]

theorem check_tooDeep (fresh : addr ∉ p.ancestors) (deep : p.limit ≤ p.depth) :
    s.check judge p (.mapping addr) = .found p.tooDeep := by
  rw [check, walk, if_neg fresh, if_pos deep]

theorem check_enter (fresh : addr ∉ p.ancestors) (shallow : p.depth < p.limit) :
    s.check judge p (.mapping addr) =
      Report.andThen ⟨[.entered p.pointer (p.depth + 1)], .accepted⟩ fun _ =>
        examine (s.check judge) judge s (p.enter addr) addr := by
  rw [check, walk_enter fresh shallow, examine_congr]
  intro hop w asked
  have less := (CalledFrom.inside fresh asked).room_lt
  exact walk_eq_check (Nat.lt_of_lt_of_le less Place.room_le) w

theorem outcome_check_enter (fresh : addr ∉ p.ancestors) (shallow : p.depth < p.limit) :
    (s.check judge p (.mapping addr)).outcome =
      (examine (s.check judge) judge s (p.enter addr) addr).outcome := by
  rw [check_enter fresh shallow, Report.andThen_accepted]

end Store

/-- An audit looks at the root, and then walks from there. -/
theorem outcome_auditWith (judge : Judge) (d : Document) (limit : Nat) :
    (auditWith judge d limit).outcome =
      match rootFinding? d with
      | some f => .rejected f
      | none => (d.store.check judge (.root limit) d.root).outcome := by
  rw [auditWith]
  cases rootFinding? d with
  | some f => rfl
  | none => exact Report.outcome_logged _

/-- An audit of a document with a proper root is the walk of that root. -/
theorem outcome_auditWith_rooted {judge : Judge} {d : Document} (rooted : rootFinding? d = none)
    (limit : Nat) : (auditWith judge d limit).outcome =
      (d.store.check judge (.root limit) d.root).outcome := by
  rw [outcome_auditWith, rooted]

end SchemaAudit

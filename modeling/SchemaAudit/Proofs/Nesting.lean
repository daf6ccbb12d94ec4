import SchemaAudit.Instance.Schema
import SchemaAudit.Proofs.Copies
import SchemaAudit.Proofs.Position
import Mathlib.Logic.Relation

/-! # What is nested in what

The schemas inside a schema that an evaluation may go on to without a reference, and the values
inside a value. All of the latter occur when the value is unfolded, although a container inside
itself is not unfolded again: the shortest way to a value never comes to a container twice.
-/

namespace SchemaAudit

namespace Store

/-- What the schema at an address has inside it: at its schema positions, among the dependencies
    that can be used as such, and among the schemas that it can extend. -/
inductive Nests (s : Store) (addr : Nat) : Value → Prop where
  | held {hop : Hop} {v : Value} (held : s.Holds addr hop v) : Nests s addr v
  | dependency {dependencies v : Value} {es : Entries} {name : String}
      (found : (s.entries addr).lookup Keyword.dependencies.key = some dependencies)
      (usable : Evaluation.isDependencyMap s dependencies = true)
      (object : dependencies.entries? s = some es) (member : (name, v) ∈ es)
      (schema : v.kind = .object) : Nests s addr v
  | extended {v : Value} (found : (s.entries addr).lookup Keyword.extending.key = some v)
      (schema : v.kind = .object) : Nests s addr v
  | extendedMember {extended v : Value} {vs : List Value}
      (found : (s.entries addr).lookup Keyword.extending.key = some extended)
      (usable : Evaluation.isExtension s extended = true)
      (array : extended.elements? s = some vs) (member : v ∈ vs) : Nests s addr v

end Store

namespace Value

/-- A value is inside another one, or is that one. -/
abbrev Reaches (s : Store) : Value → Value → Prop :=
  Relation.ReflTransGen fun v w => w ∈ v.children s

/-- A value is inside another one, and the way to it leaves no container of some. -/
def ReachesPast (s : Store) (passed : List Value) : Value → Value → Prop :=
  Relation.ReflTransGen fun v w => w ∈ v.children s ∧ v.holder ∉ passed

namespace ReachesPast

variable {s : Store} {passed : List Value} {v w : Value}

/-- A way that leaves a value last for a part of it does not come back to the value. -/
theorem onward (reaches : ReachesPast s passed v w) :
    w = v ∨ v.holder ∉ passed ∧ ∃ u ∈ v.children s, ReachesPast s (v.holder :: passed) u w := by
  induction reaches with
  | refl => exact .inl rfl
  | @tail x y _ step ih =>
      obtain ⟨member, fresh⟩ := step
      right
      rcases ih with rfl | ⟨left, u, first, further⟩
      · exact ⟨fresh, y, member, .refl⟩
      · by_cases back : x.holder = v.holder
        · -- a part of this container is one of the first container already
          have direct : y ∈ v.children s := by
            rw [← children_holder, ← back, children_holder]
            exact member
          exact ⟨left, y, direct, .refl⟩
        · refine ⟨left, u, first, further.tail ⟨member, ?_⟩⟩
          simp [back, fresh]

theorem mem_unfoldWithin {fuel : Nat} {around : List Value} (distinct : (around.map holder).Nodup)
    (among : around.map holder ⊆ s.containers) (enough : s.size < fuel + around.length)
    (reaches : ReachesPast s (around.map holder) v w) : w ∈ unfoldWithin s fuel around v := by
  induction fuel generalizing v around with
  | zero =>
      have most := distinct.length_le_of_subset among
      rw [Store.length_containers, List.length_map] at most
      omega
  | succ fuel ih =>
      rw [unfoldWithin]
      rcases reaches.onward with rfl | ⟨fresh, u, first, further⟩
      · exact List.mem_cons_self
      · have new : v ∉ around := fun member => fresh (List.mem_map_of_mem member)
        rw [if_neg new]
        refine List.mem_cons_of_mem v (List.mem_flatMap.mpr ⟨u, first, ?_⟩)
        apply ih
        · exact List.nodup_cons.mpr ⟨fresh, distinct⟩
        · exact List.cons_subset.mpr ⟨Store.holder_mem_containers first, among⟩
        · simp only [List.length_cons]
          omega
        · exact further

end ReachesPast

/-- All that is inside a value occurs in it. -/
theorem Reaches.mem_unfold {s : Store} {v w : Value} (reaches : v.Reaches s w) :
    w ∈ v.unfold s := by
  have past : ReachesPast s ([].map holder) v w :=
    reaches.lift id fun _ _ member => ⟨member, List.not_mem_nil⟩
  exact past.mem_unfoldWithin List.nodup_nil (List.nil_subset _) (by simp)

theorem mem_children_of_elements {s : Store} {v w : Value} {vs : List Value}
    (array : v.elements? s = some vs) (member : w ∈ vs) : w ∈ v.children s := by
  cases v with
  | list | tuple =>
      obtain rfl := Option.some.inj array
      exact member
  | _ => cases array

theorem mem_children_of_entries {s : Store} {v w : Value} {es : Entries} {name : String}
    (object : v.entries? s = some es) (member : (name, w) ∈ es) : w ∈ v.children s := by
  cases v with
  | mapping =>
      obtain rfl := Option.some.inj object
      exact List.mem_map_of_mem member
  | _ => cases object

theorem mem_children_of_lookup {s : Store} {addr : Nat} {key : String} {w : Value}
    (found : (s.entries addr).lookup key = some w) : w ∈ (Value.mapping addr).children s := by
  obtain ⟨before, after, same, _⟩ := List.lookup_eq_some_iff.mp found
  have member : (key, w) ∈ s.entries addr := by simp [same]
  exact mem_children_of_entries rfl member

end Value

namespace Store.Nests

variable {s : Store} {addr : Nat} {v : Value}

/-- What a schema has inside it is a part of it, or a part of one of its parts. -/
theorem parts (nests : s.Nests addr v) :
    v ∈ (Value.mapping addr).children s ∨
      ∃ u ∈ (Value.mapping addr).children s, v ∈ u.children s := by
  open Value in
  cases nests with
  | held held =>
      cases held with
      | alternative _ found array member =>
          exact .inr ⟨_, mem_children_of_lookup found,
            mem_children_of_elements array (List.mem_of_getElem? member)⟩
      | named _ found object member =>
          exact .inr ⟨_, mem_children_of_lookup found, mem_children_of_entries object member⟩
      | additional _ found _ => exact .inl (mem_children_of_lookup found)
      | allItems found => exact .inl (mem_children_of_lookup found)
      | item found array member =>
          exact .inr ⟨_, mem_children_of_lookup found,
            mem_children_of_elements array (List.mem_of_getElem? member)⟩
  | dependency found _ object member _ =>
      exact .inr ⟨_, mem_children_of_lookup found, mem_children_of_entries object member⟩
  | extended found _ => exact .inl (mem_children_of_lookup found)
  | extendedMember found _ array member =>
      exact .inr ⟨_, mem_children_of_lookup found, mem_children_of_elements array member⟩

theorem reaches (nests : s.Nests addr v) : (Value.mapping addr).Reaches s v := by
  rcases nests.parts with direct | ⟨u, first, second⟩
  · exact .single direct
  · exact (Relation.ReflTransGen.single first).tail second

/-- What a schema has inside it has fewer levels than the schema. -/
theorem levels {n : Nat} (nests : s.Nests addr v)
    (copy : Copy s s (n + 1) (.mapping addr) (.mapping addr)) : Copy s s n v v := by
  rcases nests.parts with direct | ⟨u, first, second⟩
  · exact Copy.self_iff.mp copy v direct
  · have inner := Copy.self_iff.mp copy u first
    cases n with
    | zero => exact inner.elim
    | succ n => exact (Copy.self_iff.mp inner v second).mono n.le_succ

end Store.Nests

namespace Copy

variable {s : Store} {n : Nat} {v : Value}

theorem Inside.occurrences {around : List Value} (inside : Inside s s n around around v v) :
    Copy s s (v.unfoldWithin s n around).length v v := by
  induction n generalizing around v with
  | zero => exact (not_zero inside).elim
  | succ n ih =>
      rw [Value.unfoldWithin, if_neg inside.fresh.1, List.length_cons, self_iff]
      intro w member
      have parts := List.forall₂_same.mp inside.shape.children
      have row := List.sublist_flatten_of_mem
        (List.mem_map_of_mem (f := Value.unfoldWithin s n (v :: around)) member)
      exact (ih (parts w member)).mono row.length_le

/-- A value has no more levels than occurrences inside. -/
theorem occurrences (copy : Copy s s n v v) : Copy s s (v.unfold s).length v v := by
  obtain ⟨k, less, _, levels⟩ := copy.bounded
  exact (Inside.start (levels.mono (Nat.le_of_lt less))).occurrences

end Copy

end SchemaAudit

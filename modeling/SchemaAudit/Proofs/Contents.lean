import SchemaAudit.Proofs.Conformity
import Mathlib.Data.Set.Card

/-! # What a document contains

A document contains its root and whatever its lists and mappings hold. These are finitely many
mappings, and since the nodes around a place are distinct, there are fewer of them than mappings
as long as a mapping can be entered there.
-/

namespace SchemaAudit

namespace Store

/-- A container that holds something is one of the store. -/
theorem getD_mem {α : Type} {containers : Array (List α)} {addr : Nat} {x : α}
    (member : x ∈ containers.getD addr []) : containers.getD addr [] ∈ containers.toList := by
  rw [Array.getD_eq_getD_getElem?] at member ⊢
  cases found : containers[addr]? with
  | none => simp [found] at member
  | some xs => exact Array.mem_toList_iff.mpr (Array.mem_of_getElem? found)

theorem mem_lists {s : Store} {addr : Nat} {v : Value} (member : v ∈ s.elements addr) :
    v ∈ s.lists.toList.flatten :=
  List.mem_flatten.mpr ⟨_, getD_mem member, member⟩

theorem mem_maps {s : Store} {addr : Nat} {name : String} {v : Value}
    (member : (name, v) ∈ s.entries addr) :
    v ∈ s.maps.toList.flatMap fun es => es.map Prod.snd :=
  List.mem_flatMap.mpr ⟨_, getD_mem member, List.mem_map_of_mem member⟩

end Store

namespace Document

inductive Contains (d : Document) : Value → Prop where
  | root : Contains d d.root
  | element {v w : Value} {vs : List Value} (outer : Contains d v)
      (array : v.elements? d.store = some vs) (member : w ∈ vs) : Contains d w
  | entry {v w : Value} {es : Entries} {name : String} (outer : Contains d v)
      (object : v.entries? d.store = some es) (member : (name, w) ∈ es) : Contains d w

/-- The addresses of the mappings in a document. -/
def mappings (d : Document) : Set Nat := {addr | d.Contains (.mapping addr)}

variable {d : Document}

/-- Only values that are written down somewhere can be contained. -/
theorem Contains.occurs {v : Value} (inside : d.Contains v) :
    v ∈ d.root :: (d.store.lists.toList.flatten ++
      d.store.maps.toList.flatMap fun es => es.map Prod.snd) := by
  cases inside with
  | root => exact List.mem_cons_self
  | @element u _ vs _ array member =>
      refine List.mem_cons_of_mem _ (List.mem_append_left _ ?_)
      cases u with
      | list a | tuple a =>
          obtain rfl := Option.some.inj array
          exact Store.mem_lists member
      | _ => cases array
  | entry _ object member =>
      obtain ⟨a, rfl, rfl⟩ := Value.entries?_eq_some.mp object
      exact List.mem_cons_of_mem _ (List.mem_append_right _ (Store.mem_maps member))

theorem mappings_finite (d : Document) : d.mappings.Finite := by
  refine ((List.finite_toSet _).preimage ?_).subset fun addr inside => Contains.occurs inside
  exact fun a _ b _ same => Value.mapping.inj same

theorem Contains.attribute {addr : Nat} {a : Attribute} {v : Value}
    (inside : d.Contains (.mapping addr)) (found : d.store.attribute? addr a = some v) :
    d.Contains v := by
  obtain ⟨before, after, split, _⟩ := List.lookup_eq_some_iff.mp found
  exact .entry inside rfl (split ▸ List.mem_append_right before List.mem_cons_self)

/-- What is held by a mapping of a document is in the document. -/
theorem Contains.held {addr : Nat} {hop : Hop} {v : Value} (inside : d.Contains (.mapping addr))
    (held : d.store.Holds addr hop v) : d.Contains v := by
  cases held with
  | alternative _ found array member | item found array member =>
      exact .element (inside.attribute found) array (List.mem_of_getElem? member)
  | named _ found object member => exact .entry (inside.attribute found) object member
  | additional _ found _ | allItems found => exact inside.attribute found

theorem Contains.trail {v w : Value} {legs : List Leg} (inside : d.Contains v)
    (trail : Trail d.store v legs w) : d.Contains w := by
  induction trail with
  | stay => exact inside
  | leg first _ ih => exact ih (inside.held first)

/-- The nodes around a place, and a mapping there that is none of them, are distinct mappings of
    the document. -/
theorem length_lt_mappings {limit : Nat} {legs : List Leg} {addr : Nat}
    (trail : Trail d.store d.root legs (.mapping addr))
    (nested : ((Place.root limit).after legs).Nested d.store)
    (fresh : addr ∉ ((Place.root limit).after legs).ancestors) :
    legs.length < d.mappings.ncard := by
  rw [Place.ancestors_after_root, List.mem_reverse] at fresh
  have distinct : (Leg.nodes legs).Nodup :=
    List.nodup_reverse.mp (Place.ancestors_after_root limit legs ▸ nested.distinct)
  have passed : ∀ node ∈ addr :: Leg.nodes legs, node ∈ d.mappings := by
    intro node member
    rcases List.mem_cons.mp member with rfl | left
    · exact Contains.root.trail trail
    · obtain ⟨before, _, _, _, there, _⟩ := trail.through left
      exact Contains.root.trail there
  have few : (addr :: Leg.nodes legs).toFinset.card ≤ d.mappings.ncard := by
    rw [← Set.ncard_coe_finset]
    exact Set.ncard_le_ncard (fun node member => passed node (List.mem_toFinset.mp member))
      d.mappings_finite
  rw [List.toFinset_card_of_nodup (List.nodup_cons.mpr ⟨fresh, distinct⟩), List.length_cons,
    Leg.length_nodes] at few
  exact few

end Document

end SchemaAudit

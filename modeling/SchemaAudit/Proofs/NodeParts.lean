import SchemaAudit.Proofs.Conformity
import SchemaAudit.Proofs.Keys
import Mathlib.Data.List.Nodup

/-! # A node holds what its mapping holds

A node sets the recognised attributes of a mapping apart from its other keys. Every entry goes to
one side and none to both, whatever its value: an attribute that is null, zero or empty is set,
and only one whose key is missing is not. So the mapping can be put together again from the node.
-/

namespace SchemaAudit

namespace Attribute

/-- The keys that are recognised. -/
def keys : List String := all.map key

theorem mem_keys {k : String} : k ∈ keys ↔ ∃ a : Attribute, a.key = k := by
  simp [keys, mem_all]

theorem ofKey?_key (a : Attribute) : ofKey? a.key = some a := by cases a <;> decide

/-- No two attributes share a key. -/
theorem key_injective : Function.Injective key := by
  intro a b same
  have found : some a = some b := by rw [← ofKey?_key, ← ofKey?_key, same]
  exact Option.some.inj found

theorem ofKey?_eq_none {k : String} : ofKey? k = none ↔ k ∉ keys := by
  simp [ofKey?, keys]

theorem fieldName_mem_keys {a : Attribute} : a.fieldName ∈ keys ↔ a.fieldName = a.key := by
  cases a <;> decide

end Attribute

namespace Node

variable {n : Node} {es : Entries} {key : String} {v : Value}

theorem get_key (n : Node) (a : Attribute) : n.get a.key = .ok (n.get? a) := by
  simp [get, Attribute.ofKey, Attribute.ofKey?_key, Except.map]

/-- Asking for a key that is not recognised is an error, even if it is a field name. -/
theorem get_unknown (unknown : key ∉ Attribute.keys) : n.get key = .error ⟨key⟩ := by
  simp [get, Attribute.ofKey, Attribute.ofKey?_eq_none.mpr unknown, Except.map]

theorem mem_slots_ofEntries {a : Attribute} :
    (a, v) ∈ (ofEntries es).slots ↔ (ofEntries es).get? a = some v := by
  rw [get?_ofEntries]
  simp [ofEntries, Attribute.mem_all]

theorem mem_extra_ofEntries :
    (key, v) ∈ (ofEntries es).extra ↔ (key, v) ∈ es ∧ key ∉ Attribute.keys := by
  simp [ofEntries, Attribute.ofKey?_eq_none]

/-- An attribute is set to a value exactly when the mapping has that value under its key. -/
theorem get?_ofEntries_eq_some (distinct : es.Distinct) {a : Attribute} :
    (ofEntries es).get? a = some v ↔ (a.key, v) ∈ es := by
  rw [get?_ofEntries]
  constructor
  · intro found
    obtain ⟨before, after, rfl, _⟩ := List.lookup_eq_some_iff.mp found
    exact List.mem_append_right before List.mem_cons_self
  · exact Entries.lookup_of_mem distinct

theorem get?_ofEntries_eq_none {a : Attribute} :
    (ofEntries es).get? a = none ↔ a.key ∉ es.map Prod.fst := by
  rw [get?_ofEntries, List.lookup_eq_none_iff]
  constructor
  · intro missing present
    obtain ⟨entry, member, same⟩ := List.mem_map.mp present
    simpa [same] using missing entry member
  · intro missing entry member
    have other : a.key ≠ entry.1 := fun same => missing (same ▸ List.mem_map_of_mem member)
    simpa using other

/-- The entries of a node: its attributes under their keys, and then the rest. -/
def entries (n : Node) : Entries := (n.slots.map fun (a, v) => (a.key, v)) ++ n.extra

/-- Every entry of a mapping is on one side of its node. -/
theorem mem_entries_ofEntries (distinct : es.Distinct) :
    (key, v) ∈ (ofEntries es).entries ↔ (key, v) ∈ es := by
  have slot : (key, v) ∈ ((ofEntries es).slots.map fun (a, v) => (a.key, v)) ↔
      (key, v) ∈ es ∧ key ∈ Attribute.keys := by
    constructor
    · intro member
      obtain ⟨⟨a, w⟩, set, same⟩ := List.mem_map.mp member
      obtain ⟨rfl, rfl⟩ := Prod.mk.inj same
      exact ⟨(get?_ofEntries_eq_some distinct).mp (mem_slots_ofEntries.mp set),
        Attribute.mem_keys.mpr ⟨a, rfl⟩⟩
    · intro both
      obtain ⟨present, recognised⟩ := both
      obtain ⟨a, rfl⟩ := Attribute.mem_keys.mp recognised
      exact List.mem_map.mpr
        ⟨(a, v), mem_slots_ofEntries.mpr ((get?_ofEntries_eq_some distinct).mpr present), rfl⟩
  rw [entries, List.mem_append, slot, mem_extra_ofEntries, ← and_or_left]
  exact and_iff_left (Classical.em _)

/-- The two sides of a node have no key in common, and no key twice. -/
theorem distinct_entries_ofEntries (distinct : es.Distinct) :
    (ofEntries es).entries.Distinct := by
  rw [Entries.Distinct, entries, List.map_append, List.nodup_append]
  refine ⟨?_, (List.filter_sublist.map Prod.fst).nodup distinct, ?_⟩
  · rw [List.map_map, ofEntries, List.map_filterMap]
    apply List.Nodup.filterMap ?_ (show Attribute.all.Nodup by decide)
    intro a b key first second
    simp only [Option.map_map, Option.mem_def, Option.map_eq_some_iff, Function.comp_apply]
      at first second
    obtain ⟨_, _, rfl⟩ := first
    obtain ⟨_, _, same⟩ := second
    exact (Attribute.key_injective same).symm
  · intro k slot l other
    obtain ⟨_, member, rfl⟩ := List.mem_map.mp slot
    obtain ⟨⟨a, v⟩, _, rfl⟩ := List.mem_map.mp member
    obtain ⟨⟨l, w⟩, member, rfl⟩ := List.mem_map.mp other
    intro same
    exact (mem_extra_ofEntries.mp member).2 (Attribute.mem_keys.mpr ⟨a, same⟩)

theorem entries_ofEntries_perm (distinct : es.Distinct) : (ofEntries es).entries.Perm es := by
  have once : (ofEntries es).entries.Nodup := (distinct_entries_ofEntries distinct).of_map
  rw [List.perm_ext_iff_of_nodup once distinct.of_map]
  intro entry
  exact mem_entries_ofEntries distinct

/-- What is set decides on the slots. -/
theorem slots_ofEntries (es : Entries) :
    (ofEntries es).slots =
      Attribute.all.filterMap fun a => ((ofEntries es).get? a).map (a, ·) := by
  simp only [get?_ofEntries]
  rfl

/-- A node takes a mapping apart without losing or inventing anything. -/
structure TakesApart (n : Node) (es : Entries) : Prop where
  /-- An attribute is set to what the mapping has under its key, null included. -/
  set : ∀ (a : Attribute) v, n.get a.key = .ok (some v) ↔ (a.key, v) ∈ es
  unset : ∀ a : Attribute, n.get a.key = .ok none ↔ a.key ∉ es.map Prod.fst
  /-- Only keys of attributes can be asked for, and the other field names are none. -/
  unknown : ∀ key ∉ Attribute.keys, n.get key = .error ⟨key⟩
  unknownField : ∀ a : Attribute, a.fieldName ≠ a.key →
    n.get a.fieldName = .error ⟨a.fieldName⟩
  slots : ∀ a v, (a, v) ∈ n.slots ↔ n.get a.key = .ok (some v)
  extra : ∀ key v, (key, v) ∈ n.extra ↔ (key, v) ∈ es ∧ key ∉ Attribute.keys
  /-- The other keys stay in document order. -/
  ordered : n.extra.Sublist es
  /-- No key is on both sides. -/
  apart : List.Disjoint (n.slots.map fun slot => slot.1.key) (n.extra.map Prod.fst)
  /-- Both sides together are the mapping. -/
  distinct : n.entries.Distinct
  whole : n.entries.Perm es

/-- The node of a mapping takes it apart, and no other mapping has the same parts: where the same
    attributes are set to the same values, and the other entries are the same, all entries are. -/
theorem ofEntries_takesApart (distinct : es.Distinct) :
    (ofEntries es).TakesApart es ∧
    ∀ fs : Entries, fs.Distinct → (∀ a, (ofEntries fs).get? a = (ofEntries es).get? a) →
      (ofEntries fs).extra.Perm (ofEntries es).extra → fs.Perm es := by
  have once := distinct_entries_ofEntries distinct
  constructor
  · refine ⟨?set, ?unset, fun key => get_unknown, ?unknownField, ?slots,
      fun key v => mem_extra_ofEntries, List.filter_sublist, ?apart, once,
      entries_ofEntries_perm distinct⟩
    case set =>
      intro a v
      rw [get_key, Except.ok.injEq, get?_ofEntries_eq_some distinct]
    case unset =>
      intro a
      rw [get_key, Except.ok.injEq, get?_ofEntries_eq_none]
    case unknownField =>
      intro a other
      exact get_unknown fun recognised => other (Attribute.fieldName_mem_keys.mp recognised)
    case slots =>
      intro a v
      rw [get_key, Except.ok.injEq, mem_slots_ofEntries]
    case apart =>
      rw [Entries.Distinct, entries, List.map_append, List.map_map] at once
      exact List.disjoint_of_nodup_append once
  · intro fs distinct' set extra
    have slots : (ofEntries fs).slots = (ofEntries es).slots := by
      simp only [slots_ofEntries, set]
    have parts : (ofEntries fs).entries.Perm (ofEntries es).entries := by
      rw [entries, entries, slots]
      exact extra.append_left _
    exact (entries_ofEntries_perm distinct').symm.trans
      (parts.trans (entries_ofEntries_perm distinct))

/-- Attributes that are null, zero and false, a field name as a key, and the same entries in
    another order. -/
theorem ofEntries_takesApart_falsy :
    let es : Entries := [("min_items", .int 3), ("default", .null), ("title", .text ""),
      ("minItems", .int 0), ("required", .bool false)]
    let fs : Entries := [("required", .bool false), ("min_items", .int 3), ("minItems", .int 0),
      ("title", .text ""), ("default", .null)]
    es.Distinct ∧ (ofEntries es).TakesApart es ∧
    (ofEntries es).get "default" = .ok (some .null) ∧ (ofEntries es).get "maxItems" = .ok none ∧
    (ofEntries es).get "min_items" = .error ⟨"min_items"⟩ ∧
    (ofEntries es).extra = [("min_items", .int 3), ("title", .text "")] ∧ fs.Perm es := by
  intro es fs
  have distinct : es.Distinct := by decide
  obtain ⟨apart, determined⟩ := ofEntries_takesApart distinct
  have same : ∀ a, (ofEntries fs).get? a = (ofEntries es).get? a := by
    intro a
    rw [get?_ofEntries, get?_ofEntries]
    cases a <;> rfl
  exact ⟨distinct, apart, by decide, by decide, by decide, by decide,
    determined fs (by decide) same (by decide)⟩

end Node

end SchemaAudit

import SchemaAudit.Document.Edit

/-! # Mappings have each key once

Mappings are kept as lists of entries, in which a key could occur twice and the later entry
never be looked up. No document starts out like this and no edit leads there.
-/

namespace SchemaAudit

namespace Entries

def Distinct (es : Entries) : Prop := (es.map Prod.fst).Nodup

instance (es : Entries) : Decidable es.Distinct :=
  inferInstanceAs (Decidable (es.map Prod.fst).Nodup)

/-- Every entry is found under its key. -/
theorem lookup_of_mem {es : Entries} (distinct : es.Distinct) {key : String} {v : Value}
    (member : (key, v) ∈ es) : es.lookup key = some v := by
  obtain ⟨before, after, rfl⟩ := List.append_of_mem member
  refine List.lookup_eq_some_iff.mpr ⟨before, after, rfl, fun entry earlier => ?_⟩
  rw [Distinct, List.map_append, List.map_cons, List.nodup_append] at distinct
  obtain ⟨_, _, apart⟩ := distinct
  have other := apart entry.1 (List.mem_map_of_mem earlier) key List.mem_cons_self
  simpa using Ne.symm other

theorem mem_of_lookup {es : Entries} {key : String} {v : Value} (found : es.lookup key = some v) :
    (key, v) ∈ es := by
  obtain ⟨before, after, rfl, _⟩ := List.lookup_eq_some_iff.mp found
  simp

/-- Where lookups find related values, every entry has its counterpart, in any order of the
    entries. -/
theorem counterpart {related : Value → Value → Prop} {es fs : Entries} {key : String} {v : Value}
    (same : Option.Rel related (es.lookup key) (fs.lookup key)) (distinct : es.Distinct)
    (member : (key, v) ∈ es) : ∃ w, (key, w) ∈ fs ∧ related v w := by
  rw [lookup_of_mem distinct member] at same
  cases found : fs.lookup key with
  | none =>
      rw [found] at same
      cases same
  | some w =>
      rw [found] at same
      cases same with
      | some here => exact ⟨w, mem_of_lookup found, here⟩

theorem mem_keys_put {key other : String} {v : Value} {es : Entries} :
    other ∈ (put key v es).map Prod.fst ↔ other = key ∨ other ∈ es.map Prod.fst := by
  induction es with
  | nil => simp [put]
  | cons entry rest ih =>
      obtain ⟨k, w⟩ := entry
      by_cases same : k = key
      · simp [put, same]
      · rw [put, if_neg same, List.map_cons, List.map_cons, List.mem_cons, List.mem_cons, ih]
        exact or_left_comm

theorem distinct_put {es : Entries} (distinct : es.Distinct) (key : String) (v : Value) :
    (put key v es).Distinct := by
  induction es with
  | nil => simp [put, Distinct]
  | cons entry rest ih =>
      obtain ⟨k, w⟩ := entry
      obtain ⟨fresh, others⟩ := List.nodup_cons.mp distinct
      by_cases same : k = key
      · subst same
        rw [put, if_pos rfl]
        exact List.nodup_cons.mpr ⟨fresh, others⟩
      · rw [put, if_neg same]
        refine List.nodup_cons.mpr ⟨fun later => ?_, ih others⟩
        rcases mem_keys_put.mp later with equal | later
        · exact same equal
        · exact fresh later

theorem distinct_remove {es : Entries} (distinct : es.Distinct) (key : String) :
    (remove key es).Distinct :=
  List.Nodup.sublist (List.Sublist.map _ List.filter_sublist) distinct

end Entries

namespace Store

def KeysDistinct (s : Store) : Prop := ∀ es ∈ s.maps, es.Distinct

instance (s : Store) : Decidable s.KeysDistinct :=
  inferInstanceAs (Decidable (∀ es ∈ s.maps, es.Distinct))

theorem KeysDistinct.entries {s : Store} (keys : s.KeysDistinct) (addr : Nat) :
    (s.entries addr).Distinct := by
  rw [Store.entries, Array.getD_eq_getD_getElem?]
  cases found : s.maps[addr]? with
  | none => exact List.nodup_nil
  | some es => exact keys es (Array.mem_of_getElem? found)

theorem KeysDistinct.setEntries {s : Store} (keys : s.KeysDistinct) (addr : Nat) {es : Entries}
    (distinct : es.Distinct) : (s.setEntries addr es).KeysDistinct := by
  intro other member
  rcases Array.mem_or_eq_of_mem_setIfInBounds member with before | rfl
  · exact keys other before
  · exact distinct

end Store

namespace Document

variable {d e : Document} {p : Pointer}

theorem set?_keysDistinct (keys : d.store.KeysDistinct) {v : Value}
    (edited : d.set? p v = some e) : e.store.KeysDistinct := by
  rw [set?] at edited
  split at edited
  · obtain rfl := Option.some.inj edited
    exact keys
  · obtain ⟨⟨parent, token⟩, _, edited⟩ := Option.bind_eq_some_iff.mp edited
    dsimp only at edited
    split at edited
    · obtain rfl := Option.some.inj edited
      exact keys.setEntries _ (Entries.distinct_put (keys.entries _) _ v)
    -- setting an element of a list leaves the mappings as they are
    · obtain rfl := Option.some.inj edited
      exact keys
    · obtain ⟨i, _, edited⟩ := Option.bind_eq_some_iff.mp edited
      obtain ⟨_, edited⟩ := Option.ite_none_right_eq_some.mp edited
      obtain rfl := Option.some.inj edited
      exact keys
    · cases edited

theorem delete?_keysDistinct (keys : d.store.KeysDistinct) (edited : d.delete? p = some e) :
    e.store.KeysDistinct := by
  obtain ⟨⟨parent, token⟩, _, edited⟩ := Option.bind_eq_some_iff.mp edited
  dsimp only at edited
  split at edited
  · obtain ⟨_, _, edited⟩ := Option.bind_eq_some_iff.mp edited
    obtain rfl := Option.some.inj edited
    exact keys.setEntries _ (Entries.distinct_remove (keys.entries _) _)
  · obtain ⟨i, _, edited⟩ := Option.bind_eq_some_iff.mp edited
    obtain ⟨_, edited⟩ := Option.ite_none_right_eq_some.mp edited
    obtain rfl := Option.some.inj edited
    exact keys
  · cases edited

theorem link?_keysDistinct (keys : d.store.KeysDistinct) {target : Pointer}
    (edited : d.link? p target = some e) : e.store.KeysDistinct := by
  obtain ⟨v, _, edited⟩ := Option.bind_eq_some_iff.mp edited
  exact set?_keysDistinct keys edited

end Document

end SchemaAudit

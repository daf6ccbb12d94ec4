import SchemaAudit.Proofs.Copies
import SchemaAudit.Proofs.Keys

/-! # Separate containers

A document in which no container is inside itself comes to an end along every path, so that
whatever is on a path can get a container of its own there. What comes out is a tree, and a copy of
the document.
-/

namespace SchemaAudit

namespace Value

variable {s : Store} {v w : Value}

/-- What a path of positions leads to. -/
def at? (s : Store) : Value → List Nat → Option Value
  | v, [] => some v
  | v, i :: path => (v.children s)[i]?.bind fun w => w.at? s path

theorem at?_append (p q : List Nat) : v.at? s (p ++ q) = (v.at? s p).bind (·.at? s q) := by
  induction p generalizing v with
  | nil => rfl
  | cons i p ih =>
      rw [List.cons_append, at?, at?, Option.bind_assoc]
      congr 1
      funext w
      exact ih

theorem at?_single (i : Nat) : v.at? s [i] = (v.children s)[i]? := by
  simp [at?]

/-- Beyond its first step a path only looks at what a value holds. -/
theorem at?_cons_congr (same : v.children s = w.children s) (i : Nat) (p : List Nat) :
    v.at? s (i :: p) = w.at? s (i :: p) := by
  rw [at?, at?, same]

/-- The paths inside a value, at most `fuel` containers deep. -/
def paths (s : Store) : Nat → Value → List (List Nat)
  | 0, _ => []
  | fuel + 1, v =>
    [] :: (v.children s).zipIdx.flatMap fun (w, i) => (w.paths s fuel).map (i :: ·)

/-- All paths are found in a value of so many levels. -/
theorem mem_paths {n fuel : Nat} {p : List Nat} (copy : Copy s s n v v) (enough : n ≤ fuel)
    (there : v.at? s p = some w) : p ∈ v.paths s fuel := by
  induction p generalizing n fuel v with
  | nil =>
      obtain ⟨fuel, rfl⟩ : ∃ k, fuel = k + 1 := by
        refine Nat.exists_eq_succ_of_ne_zero ?_
        rintro rfl
        obtain rfl := Nat.le_zero.mp enough
        exact copy
      exact List.mem_cons_self
  | cons i p ih =>
      obtain ⟨u, held, onward⟩ := Option.bind_eq_some_iff.mp there
      cases n with
      | zero => exact copy.elim
      | succ n =>
          obtain ⟨fuel, rfl⟩ := Nat.exists_eq_succ_of_ne_zero (Nat.ne_zero_of_lt enough)
          have inner := Copy.self_iff.mp copy u (List.mem_of_getElem? held)
          apply List.mem_cons_of_mem
          exact List.mem_flatMap.mpr ⟨(u, i), List.mem_zipIdx_iff_getElem?.mpr held,
            List.mem_map_of_mem (ih inner (Nat.le_of_succ_le_succ enough) onward)⟩

/-- A value, with its container at an address of its own. -/
def housed (addr : Nat) : Value → Value
  | .list _ => .list addr
  | .tuple _ => .tuple addr
  | .mapping _ => .mapping addr
  | v => v

theorem housed_inj {i j : Nat} (container : ¬ v.IsScalar)
    (same : (v.housed i).holder = (w.housed j).holder) : i = j := by
  cases v with
  | list | tuple | mapping =>
      cases w <;> cases same <;> rfl
  | _ => exact absurd trivial container

end Value

theorem Entries.related_zip {related : Value → Value → Prop} {es : Entries} {vs : List Value}
    (row : List.Forall₂ related (es.map Prod.snd) vs) :
    Related related es ((es.map Prod.fst).zip vs) := by
  induction es generalizing vs with
  | nil => exact .nil
  | cons e es ih =>
      cases row with
      | cons first rest => exact .cons ⟨rfl, first⟩ (ih rest)

namespace Document

/-- No container is inside itself. -/
def Acyclic (d : Document) : Prop :=
  ∀ p q v, d.root.at? d.store p = some v → v.at? d.store q = some v → q = []

/-- No container is reached in two ways. -/
def IsTree (d : Document) : Prop :=
  ∀ p q v w, d.root.at? d.store p = some v → d.root.at? d.store q = some w → ¬ v.IsScalar →
    v.holder = w.holder → p = q

end Document

namespace Copy

variable {s : Store} {v : Value}

/-- Containers around a value are all different if none is inside itself, so there is an end to
    them once there are as many as the store has. -/
theorem of_acyclic_around {k : Nat} {around : List Value}
    (acyclic : ∀ p q u, v.at? s p = some u → u.at? s q = some u → q = [])
    (inside : ∀ u ∈ around, ∃ i p, u.at? s (i :: p) = some v) (distinct : around.Nodup)
    (among : around ⊆ s.containers) (room : s.size < around.length + k) : Copy s s k v v := by
  induction k generalizing v around with
  | zero =>
      have most := distinct.length_le_of_subset among
      rw [Store.length_containers] at most
      omega
  | succ k ih =>
      rw [self_iff]
      intro w member
      obtain ⟨i, held⟩ := List.getElem?_of_mem member
      have step : v.at? s [i] = some w := by rw [Value.at?_single, held]
      have fresh : v.holder ∉ around := by
        intro back
        obtain ⟨j, p, onward⟩ := inside _ back
        rw [Value.at?_cons_congr (Value.children_holder s v)] at onward
        exact List.cons_ne_nil j p (acyclic [] (j :: p) v rfl onward)
      refine @ih w (v.holder :: around) ?_ ?_ ?_ ?_ ?_
      · intro p q u there round
        refine acyclic (i :: p) q u ?_ round
        rw [← List.singleton_append, Value.at?_append, step]
        exact there
      · intro u outer
        rcases List.mem_cons.mp outer with rfl | outer
        · exact ⟨i, [], by rw [Value.at?_cons_congr (Value.children_holder s v), step]⟩
        · obtain ⟨j, p, onward⟩ := inside u outer
          refine ⟨j, p ++ [i], ?_⟩
          rw [← List.cons_append, Value.at?_append, onward]
          exact step
      · exact List.nodup_cons.mpr ⟨fresh, distinct⟩
      · exact List.cons_subset.mpr ⟨Store.holder_mem_containers member, among⟩
      · rw [List.length_cons]
        omega

/-- A value with no container inside itself has no more levels than there are containers. -/
theorem of_acyclic (acyclic : ∀ p q u, v.at? s p = some u → u.at? s q = some u → q = []) :
    Copy s s (s.size + 1) v v :=
  @of_acyclic_around s v (s.size + 1) [] acyclic (by simp) List.nodup_nil (List.nil_subset _)
    (by simp)

/-- What a path leads to has no more levels than the value it starts from. -/
theorem at_path {n : Nat} {p : List Nat} {w : Value} (copy : Copy s s n v v)
    (there : v.at? s p = some w) : Copy s s n w w := by
  induction p generalizing n v with
  | nil =>
      obtain rfl := Option.some.inj there
      exact copy
  | cons i p ih =>
      obtain ⟨u, held, onward⟩ := Option.bind_eq_some_iff.mp there
      cases n with
      | zero => exact copy.elim
      | succ n =>
          have inner := self_iff.mp copy u (List.mem_of_getElem? held)
          exact (ih inner onward).mono n.le_succ

/-- What has only so many levels is not inside itself. -/
theorem not_around {n i : Nat} {p : List Nat} (copy : Copy s s n v v) :
    v.at? s (i :: p) ≠ some v := by
  induction n with
  | zero => exact copy.elim
  | succ n ih =>
      intro round
      obtain ⟨u, held, onward⟩ := Option.bind_eq_some_iff.mp round
      have inner := self_iff.mp copy u (List.mem_of_getElem? held)
      exact ih (inner.at_path onward) round

end Copy

namespace Document

/-- Documents in which no container is inside itself are those with only so many levels. -/
theorem acyclic_iff_copy {d : Document} :
    d.Acyclic ↔ ∃ n, Copy d.store d.store n d.root d.root := by
  constructor
  · exact fun acyclic => ⟨_, Copy.of_acyclic acyclic⟩
  · rintro ⟨n, copy⟩ p q v there round
    cases q with
    | nil => rfl
    | cons i q => exact absurd round (copy.at_path there).not_around

/-! ## A container for each path -/

/-- The paths inside a document, as far as there is an end to them. -/
def paths (d : Document) : List (List Nat) := d.root.paths d.store (d.store.size + 1)

/-- The address for what is on a path. -/
def address (d : Document) (path : List Nat) : Nat := d.paths.idxOf path

/-- What a value on a path holds, each in a container of its own. -/
def parts (d : Document) (path : List Nat) (v : Value) : List Value :=
  (v.children d.store).zipIdx.map fun (w, i) => w.housed (d.address (path ++ [i]))

/-- The elements of a list or tuple on a path. -/
def elementsAt (d : Document) (path : List Nat) : List Value :=
  match d.root.at? d.store path with
  | some (.list a) => d.parts path (.list a)
  | some (.tuple a) => d.parts path (.tuple a)
  | _ => []

/-- The entries of a mapping on a path. -/
def entriesAt (d : Document) (path : List Nat) : Entries :=
  match d.root.at? d.store path with
  | some (.mapping a) => ((d.store.entries a).map Prod.fst).zip (d.parts path (.mapping a))
  | _ => []

/-- The document with a separate container wherever one is held. -/
def separated (d : Document) : Document where
  store := ⟨(d.paths.map d.elementsAt).toArray, (d.paths.map d.entriesAt).toArray⟩
  root := d.root.housed (d.address [])

variable {d : Document} {p q : List Nat} {v w : Value} {n : Nat}

theorem mem_paths_of_acyclic (acyclic : d.Acyclic) (there : d.root.at? d.store p = some v) :
    p ∈ d.paths :=
  Value.mem_paths (Copy.of_acyclic acyclic) (Nat.le_refl _) there

theorem address_inj (first : p ∈ d.paths) (same : d.address p = d.address q) : p = q :=
  (List.idxOf_inj first).mp same

/-- What is kept for each path is found at the address of the path. -/
theorem getD_address {α : Type} (content : List Nat → List α) (among : p ∈ d.paths) :
    (d.paths.map content).toArray.getD (d.address p) [] = content p := by
  have found := List.getElem?_idxOf among
  simp only [address, Array.getD_eq_getD_getElem?, List.getElem?_toArray, List.getElem?_map, found,
    Option.map_some, Option.getD_some]

theorem elements_separated (among : p ∈ d.paths) :
    d.separated.store.elements (d.address p) = d.elementsAt p :=
  getD_address d.elementsAt among

theorem entries_separated (among : p ∈ d.paths) :
    d.separated.store.entries (d.address p) = d.entriesAt p :=
  getD_address d.entriesAt among

theorem length_parts : (d.parts p v).length = (v.children d.store).length := by
  simp [parts]

theorem getElem?_parts (i : Nat) : (d.parts p v)[i]? =
    (v.children d.store)[i]?.map fun w => w.housed (d.address (p ++ [i])) := by
  rw [parts, List.getElem?_map, List.getElem?_zipIdx, Option.map_map, Nat.zero_add]
  rfl

/-- In a container of its own a value holds the same, each part in a container of its own. -/
theorem children_separated (among : p ∈ d.paths) (there : d.root.at? d.store p = some v) :
    (v.housed (d.address p)).children d.separated.store = d.parts p v := by
  cases v with
  | list | tuple => rw [Value.housed, Value.children, elements_separated among, elementsAt, there]
  | mapping a =>
      rw [Value.housed, Value.children, entries_separated among, entriesAt, there]
      apply List.map_snd_zip
      simp [length_parts, Value.children]
  | _ => rfl

theorem at?_separated (acyclic : d.Acyclic) (there : d.root.at? d.store p = some v)
    (found : (v.housed (d.address p)).at? d.separated.store q = some w) :
    ∃ u, d.root.at? d.store (p ++ q) = some u ∧ w = u.housed (d.address (p ++ q)) := by
  induction q generalizing p v with
  | nil =>
      rw [List.append_nil]
      exact ⟨v, there, (Option.some.inj found).symm⟩
  | cons i q ih =>
      rw [Value.at?, children_separated (mem_paths_of_acyclic acyclic there) there,
        getElem?_parts] at found
      obtain ⟨x, part, onward⟩ := Option.bind_eq_some_iff.mp found
      obtain ⟨u, held, rfl⟩ := Option.map_eq_some_iff.mp part
      have here : d.root.at? d.store (p ++ [i]) = some u := by
        rw [Value.at?_append, there]
        exact (Value.at?_single i).trans held
      rw [List.append_cons]
      exact ih here onward

theorem separated_isTree (acyclic : d.Acyclic) : d.separated.IsTree := by
  intro p q v w there there' container same
  obtain ⟨u, found, rfl⟩ := at?_separated (p := []) acyclic rfl there
  obtain ⟨x, found', rfl⟩ := at?_separated (p := []) acyclic rfl there'
  rw [List.nil_append] at *
  have plain : ¬ u.IsScalar := fun plain => container (by cases u <;> exact plain)
  exact address_inj (mem_paths_of_acyclic acyclic found) (Value.housed_inj plain same)

theorem keysDistinct_separated (keys : d.store.KeysDistinct) :
    d.separated.store.KeysDistinct := by
  intro es member
  simp only [separated, List.mem_toArray, List.mem_map] at member
  obtain ⟨p, _, rfl⟩ := member
  rw [entriesAt]
  split
  · next a _ =>
      rw [Entries.Distinct, List.map_fst_zip]
      · exact keys.entries a
      · simp [length_parts, Value.children]
  · exact List.nodup_nil

theorem parts_related {related : Value → Value → Prop}
    (each : ∀ i w, (v.children d.store)[i]? = some w →
      related w (w.housed (d.address (p ++ [i])))) :
    List.Forall₂ related (v.children d.store) (d.parts p v) := by
  refine List.forall₂_iff_get.mpr ⟨length_parts.symm, fun i held there => ?_⟩
  have found := List.getElem?_eq_getElem held
  have part := getElem?_parts (d := d) (p := p) (v := v) i
  rw [found, List.getElem?_eq_getElem there] at part
  rw [List.get_eq_getElem, List.get_eq_getElem, Option.some.inj part]
  exact each i _ found

theorem copy_separated (acyclic : d.Acyclic) (there : d.root.at? d.store p = some v)
    (copy : Copy d.store d.store n v v) :
    Copy d.store d.separated.store n v (v.housed (d.address p)) := by
  induction n generalizing p v with
  | zero => exact copy.elim
  | succ n ih =>
      have among := mem_paths_of_acyclic acyclic there
      have parts : List.Forall₂ (Copy d.store d.separated.store n) (v.children d.store)
          (d.parts p v) := by
        apply parts_related
        intro i w held
        apply ih
        · rw [Value.at?_append, there]
          exact (Value.at?_single i).trans held
        · exact Copy.self_iff.mp copy w (List.mem_of_getElem? held)
      cases v with
      | list | tuple =>
          rw [← children_separated among there] at parts
          constructor
          exact parts
      | mapping a =>
          apply Shape.mapping
          rw [entries_separated among, entriesAt, there]
          exact Entries.related_zip parts
      | _ => exact .scalar trivial

end Document

end SchemaAudit

import SchemaAudit.Proofs.Nesting
import SchemaAudit.Proofs.Sharing

/-! # What recognised attributes lead to

An audit looks at a schema by its recognised attributes. What these lead to, and how, tells schemas
from data, and as long as no mapping is reached twice a mapping is never both. Then schemas may be
given other keys, and recognised ones in another order, without a change of anything else that the
walk comes to.
-/

namespace SchemaAudit

/-! ## Reaching values -/

/-- What a value that is reached counts as. -/
inductive Standing where
  /-- A schema if it is a mapping, and else data. -/
  | schema
  /-- A container of schemas. -/
  | row
  | data
  deriving DecidableEq

/-- What the parts of a value count as, if it is no schema. -/
def Standing.inner : Standing → Standing
  | .row => .schema
  | .schema | .data => .data

/-- What a value of an attribute counts as. -/
def Attribute.standing (v : Value) : Attribute → Standing
  | .type | .disallow => if v.kind = .array then .row else .data
  | .properties | .patternProperties => if v.kind = .object then .row else .data
  | .items => if v.kind = .array then .row else .schema
  | .additionalProperties | .additionalItems => .schema
  | _ => .data

/-- A step from a value to one inside. -/
inductive Passage where
  /-- From a schema to what it has under the key of an attribute. -/
  | key (x : Attribute)
  /-- From anything else to one of its parts. -/
  | part (index : Nat)
  deriving DecidableEq

namespace Document

/-- The values that a document leads to if schemas are only gone through by recognised attributes.
    The last step is the first of the list. -/
inductive Reached (d : Document) : List Passage → Standing → Value → Prop where
  | root : Reached d [] .schema d.root
  | key {path : List Passage} {a : Nat} {x : Attribute} {v : Value}
      (reached : Reached d path .schema (.mapping a)) (found : d.store.attribute? a x = some v) :
      Reached d (.key x :: path) (x.standing v) v
  | part {path : List Passage} {standing : Standing} {v w : Value} {i : Nat}
      (reached : Reached d path standing v) (plain : standing = .schema → v.kind ≠ .object)
      (held : (v.children d.store)[i]? = some w) :
      Reached d (.part i :: path) standing.inner w

/-- A value that a walk comes to, for what it counts as. -/
def Visited (d : Document) (standing : Standing) (v : Value) : Prop :=
  ∃ path, d.Reached path standing v

/-- The mapping at an address is a schema that the document leads to. -/
def IsNode (d : Document) (a : Nat) : Prop := ∃ path, d.Reached path .schema (.mapping a)

/-- No mapping is reached in two ways. -/
def ReachedOnce (d : Document) : Prop :=
  ∀ p q standing standing' a, d.Reached p standing (.mapping a) →
    d.Reached q standing' (.mapping a) → p = q

variable {d : Document} {p q : List Passage} {standing standing' : Standing} {v w : Value} {a : Nat}

/-- One way leads to one value. -/
theorem Reached.unique (reached : d.Reached p standing v) (again : d.Reached p standing' w) :
    standing = standing' ∧ v = w := by
  induction reached generalizing standing' w with
  | root =>
      cases again
      exact ⟨rfl, rfl⟩
  | key _ found ih =>
      cases again with
      | key reached' found' =>
          obtain rfl := Value.mapping.inj (ih reached').2
          obtain rfl := Option.some.inj (found.symm.trans found')
          exact ⟨rfl, rfl⟩
  | part _ _ held ih =>
      cases again with
      | part reached' _ held' =>
          obtain ⟨rfl, rfl⟩ := ih reached'
          exact ⟨rfl, Option.some.inj (held.symm.trans held')⟩

/-- A mapping that is reached as something else is no schema. -/
theorem Reached.not_isNode (once : d.ReachedOnce) (reached : d.Reached p standing (.mapping a))
    (other : standing ≠ .schema) : ¬ d.IsNode a := by
  rintro ⟨q, node⟩
  obtain rfl := once _ _ _ _ _ reached node
  exact other (reached.unique node).1

theorem Reached.element {vs : List Value} {i : Nat} (reached : d.Reached p .row v)
    (array : v.elements? d.store = some vs) (held : vs[i]? = some w) :
    d.Reached (.part i :: p) .schema w := by
  refine .part reached (by rintro ⟨⟩) ?_
  cases v with
  | list | tuple =>
      obtain rfl := Option.some.inj array
      exact held
  | _ => cases array

theorem Reached.entry {es : Entries} {name : String} (reached : d.Reached p .row v)
    (object : v.entries? d.store = some es) (member : (name, w) ∈ es) :
    ∃ i, d.Reached (.part i :: p) .schema w := by
  obtain ⟨i, held⟩ := List.getElem?_of_mem (Value.mem_children_of_entries object member)
  exact ⟨i, .part reached (by rintro ⟨⟩) held⟩

/-- What a schema holds at its schema positions is reached as a schema. -/
theorem Reached.held {hop : Hop} (reached : d.Reached p .schema (.mapping a))
    (held : d.store.Holds a hop v) : ∃ q, d.Reached q .schema v := by
  have row : ∀ {x : Attribute} {u : Value}, d.store.attribute? a x = some u →
      x.standing u = .row → d.Reached (.key x :: p) .row u := by
    intro x u found standing
    have there := Reached.key reached found
    rwa [standing] at there
  cases held with
  | alternative isUnion found array member =>
      have kind := (Value.kind_eq_array d.store).mpr ⟨_, array⟩
      refine ⟨_, (row found ?_).element array member⟩
      rcases isUnion with rfl | rfl <;> simp [Attribute.standing, kind]
  | named isMap found object member =>
      obtain ⟨b, rfl, -⟩ := Value.entries?_eq_some.mp object
      obtain ⟨i, there⟩ := (row found (by
        rcases isMap with rfl | rfl <;> simp [Attribute.standing, Value.kind])).entry object member
      exact ⟨_, there⟩
  | additional isAdditional found =>
      have there := Reached.key reached found
      rcases isAdditional with rfl | rfl <;> exact ⟨_, there⟩
  | allItems found => exact ⟨_, .key reached found⟩
  | item found array member =>
      have kind := (Value.kind_eq_array d.store).mpr ⟨_, array⟩
      exact ⟨_, (row found (by simp [Attribute.standing, kind])).element array member⟩

end Document

/-! ### Computing what is reached -/

namespace Document

/-- A value that is reached, with the way to it and what it counts as. -/
abbrev Way := List Passage × Standing × Value

/-- The steps onward from a value. -/
def onward (d : Document) : Way → List Way
  | (path, .schema, .mapping a) => Attribute.all.filterMap fun x =>
    (d.store.attribute? a x).map fun v => (.key x :: path, x.standing v, v)
  | (path, standing, v) => (v.children d.store).zipIdx.map fun (w, i) =>
    (.part i :: path, standing.inner, w)

/-- All ways that go on from one by at most so many steps. -/
def waysFrom (d : Document) : Nat → Way → List Way
  | 0, way => [way]
  | n + 1, way => way :: (d.onward way).flatMap (d.waysFrom n)

/-- All ways of at most so many steps. -/
def ways (d : Document) (n : Nat) : List Way := d.waysFrom n ([], .schema, d.root)

variable {d : Document} {n : Nat}

/-- Ways that no step leads out of are all ways. -/
theorem Reached.mem_ways {path : List Passage} {standing : Standing} {v : Value}
    (closed : ∀ way ∈ d.ways n, ∀ next ∈ d.onward way, next ∈ d.ways n)
    (reached : d.Reached path standing v) : (path, standing, v) ∈ d.ways n := by
  induction reached with
  | root => cases n <;> exact List.mem_cons_self
  | @key _ _ x _ _ found ih =>
      refine closed _ ih _ (List.mem_filterMap.mpr ⟨x, Attribute.mem_all x, ?_⟩)
      rw [found]
      rfl
  | @part path standing v w i _ plain held ih =>
      have onward : d.onward (path, standing, v) =
          (v.children d.store).zipIdx.map fun (w, i) => (.part i :: path, standing.inner, w) := by
        cases standing with
        | schema =>
            cases v with
            | mapping => exact absurd rfl (plain rfl)
            | _ => rfl
        | row | data => rfl
      refine closed _ ih _ ?_
      rw [onward]
      exact List.mem_map.mpr ⟨(w, i), List.mk_mem_zipIdx_iff_getElem?.mpr held, rfl⟩

/-- Whether no mapping is reached in two ways can be seen from the ways up to some length, if there
    are no longer ones. -/
theorem reachedOnce_of_ways (d : Document) (n : Nat)
    (closed : ∀ way ∈ d.ways n, ∀ next ∈ d.onward way, next ∈ d.ways n)
    (apart : ∀ way ∈ d.ways n, ∀ other ∈ d.ways n, way.2.2.kind = .object →
      way.2.2 = other.2.2 → way.1 = other.1) : d.ReachedOnce :=
  fun _ _ _ _ _ reached reached' =>
    apart _ (reached.mem_ways closed) _ (reached'.mem_ways closed) rfl rfl

end Document

/-! ## Giving schemas other keys -/

namespace Document

/-- Two states of a document, with the same containers at the same addresses. What may differ is
    the order of the keys of schemas, and what they have under keys that are not recognised. -/
structure Retouched (d e : Document) : Prop where
  root : e.root = d.root
  lists : e.store.lists = d.store.lists
  size : e.store.maps.size = d.store.maps.size
  nodes : ∀ a, d.IsNode a → ∀ x, e.store.attribute? a x = d.store.attribute? a x
  others : ∀ a, ¬ d.IsNode a → e.store.entries a = d.store.entries a

end Document

/-- All mappings inside a value are the same in both stores. -/
def Store.Intact (s t : Store) (v : Value) : Prop :=
  ∀ b, v.Reaches s (.mapping b) → t.entries b = s.entries b

theorem Store.Intact.part {s t : Store} {v w : Value} (intact : s.Intact t v)
    (member : w ∈ v.children s) : s.Intact t w :=
  fun b inside => intact b (.head member inside)

/-- A value that is no mapping is intact if its parts are. -/
theorem Store.Intact.of_parts {s t : Store} {v : Value} (plain : v.kind ≠ .object)
    (parts : ∀ w ∈ v.children s, s.Intact t w) : s.Intact t v := by
  intro b inside
  rcases Relation.ReflTransGen.cases_head inside with rfl | ⟨w, member, further⟩
  · exact absurd rfl plain
  · exact parts w member b further

theorem Store.Intact.scalar {s t : Store} {v : Value} (plain : v.IsScalar) : s.Intact t v := by
  refine .of_parts plain.kind fun w member => ?_
  cases v with
  | list | tuple | mapping => exact plain.elim
  | _ => cases member

/-! ## Looking at both states -/

namespace Document

/-- What is looked at, and what it counts as. Schemas are gone through by their recognised
    attributes, all else is by its parts, and whatever is looked at otherwise than as a schema is
    the same in both states. -/
structure Outlook (d e : Document) (looked : Standing → Value → Prop) : Prop where
  key : ∀ {a x v}, looked .schema (.mapping a) → d.store.attribute? a x = some v →
    looked (x.standing v) v
  part : ∀ {standing v w}, looked standing v → (standing = .schema → v.kind ≠ .object) →
    w ∈ v.children d.store → looked standing.inner w
  unchanged : ∀ {standing a}, looked standing (.mapping a) → standing ≠ .schema →
    e.store.entries a = d.store.entries a

namespace Outlook

variable {d e : Document} {looked : Standing → Value → Prop} (outlook : d.Outlook e looked)
  {v w : Value}

include outlook

/-- Everything inside data is data. -/
theorem inside (here : looked .data v) (inside : v.Reaches d.store w) : looked .data w := by
  induction inside with
  | refl => exact here
  | tail _ member ih => exact outlook.part ih (by rintro ⟨⟩) member

theorem intact (here : looked .data v) : d.store.Intact e.store v :=
  fun _ inside => outlook.unchanged (outlook.inside here inside) (by decide)

end Outlook

end Document

namespace Document.Retouched

variable {d e : Document} (same : d.Retouched e) {v w : Value} {a : Nat}

include same

theorem visited_outlook (once : d.ReachedOnce) : d.Outlook e d.Visited where
  key := by
    rintro a x v ⟨p, reached⟩ found
    exact ⟨_, .key reached found⟩
  part := by
    rintro standing v w ⟨p, reached⟩ plain member
    obtain ⟨i, held⟩ := List.getElem?_of_mem member
    exact ⟨_, .part reached plain held⟩
  unchanged := by
    rintro standing a ⟨p, reached⟩ other
    exact same.others a (reached.not_isNode once other)

/-- No mapping has another value under a recognised attribute. -/
theorem attribute_eq (a : Nat) (x : Attribute) :
    e.store.attribute? a x = d.store.attribute? a x := by
  by_cases node : d.IsNode a
  · exact same.nodes a node x
  · rw [Store.attribute?, Store.attribute?, same.others a node]

theorem elements (a : Nat) : e.store.elements a = d.store.elements a := by
  rw [Store.elements, Store.elements, same.lists]

theorem store_size : e.store.size = d.store.size := by
  rw [Store.size, Store.size, same.lists, same.size]

/-- A value looks the same in both states, up to what its parts stand for, unless it is a mapping
    with other keys. -/
theorem shape {related : Value → Value → Prop}
    (untouched : ∀ a, v = .mapping a → e.store.entries a = d.store.entries a)
    (parts : ∀ w ∈ v.children d.store, related w w) : Shape d.store e.store related v v := by
  cases v with
  | list a =>
      apply Shape.list
      rw [same.elements]
      exact List.forall₂_same.mpr parts
  | tuple a =>
      apply Shape.tuple
      rw [same.elements]
      exact List.forall₂_same.mpr parts
  | mapping a =>
      apply Shape.mapping
      rw [untouched a rfl]
      exact List.forall₂_same.mpr fun entry member =>
        ⟨rfl, parts entry.2 (List.mem_map_of_mem member)⟩
  | _ => exact .scalar trivial

/-- Values stand for themselves: schemas that are looked at, and what nothing is different in. -/
def pairing (looked : Standing → Value → Prop) : Pairing d.store e.store where
  data v w := v = w ∧ d.store.Intact e.store v
  node a b := a = b ∧ (looked .schema (.mapping a) ∨ d.store.Intact e.store (.mapping a))
  scalars v plain := ⟨rfl, .scalar plain⟩
  shape := by
    rintro v _ ⟨rfl, intact⟩
    refine same.shape ?_ fun w member => ⟨rfl, intact.part member⟩
    rintro a rfl
    exact intact a .refl

variable {looked : Standing → Value → Prop}

theorem wide : (same.pairing looked).Wide :=
  fun _ _ here => ⟨Value.mapping.inj here.1, .inr here.2⟩

theorem part_eq (part : (same.pairing looked).Part v w) : v = w := by
  cases part with
  | node here => rw [here.1]
  | data here => exact here.1

variable (outlook : d.Outlook e looked)

include outlook

/-- What is looked at as a schema stands for itself as one. -/
theorem part (here : looked .schema v) : (same.pairing looked).Part v v := by
  by_cases object : v.kind = .object
  · obtain ⟨a, rfl⟩ := Value.kind_eq_object.mp object
    exact .node ⟨rfl, .inl here⟩
  · refine .data ⟨rfl, .of_parts object fun w member => ?_⟩ object
    exact outlook.intact (outlook.part here (fun _ => object) member)

/-- The parts of what is looked at as a container of schemas stand for themselves. -/
theorem row (here : looked .row v) :
    Shape d.store e.store (same.pairing looked).Part v v := by
  refine same.shape ?_ fun w member => ?_
  · rintro a rfl
    exact outlook.unchanged here (by decide)
  · exact same.part outlook (outlook.part here (by rintro ⟨⟩) member)

theorem kept {x : Attribute} (here : looked (x.standing v) v) :
    (same.pairing looked).Kept x v v := by
  have data : x.standing v = .data → (same.pairing looked).data v v := fun standing =>
    ⟨rfl, outlook.intact (standing ▸ here)⟩
  have parts : x.standing v = .row ∨ x.standing v = .data →
      Shape d.store e.store (same.pairing looked).Part v v := by
    rintro (standing | standing)
    · exact same.row outlook (standing ▸ here)
    · exact same.wide.parts (data standing)
  cases x with
  | type | disallow | properties | patternProperties =>
      apply parts
      simp only [Attribute.standing]
      split
      · exact .inl rfl
      · exact .inr rfl
  | additionalProperties | additionalItems => exact same.part outlook here
  | items =>
      by_cases array : v.kind = .array
      · have standing : Attribute.standing v .items = .row := by simp [Attribute.standing, array]
        exact .row (parts (.inl standing)) (by simp [array])
      · have standing : Attribute.standing v .items = .schema := by
          simp [Attribute.standing, array]
        rw [standing] at here
        cases same.part outlook here with
        | node schema => exact .node schema
        | data value => exact same.wide.rack value
  | _ => exact data rfl

/-- Schemas keep all that they have under recognised attributes. -/
theorem attribute_kept (here : looked .schema (.mapping a)) (x : Attribute) :
    Option.Rel ((same.pairing looked).Kept x) (d.store.attribute? a x)
      (e.store.attribute? a x) := by
  rw [same.attribute_eq a]
  cases found : d.store.attribute? a x with
  | none => exact .none
  | some v => exact .some (same.kept outlook (outlook.key here found))

omit outlook

variable (once : d.ReachedOnce)

include once

/-- Both walks meet the same schemas. -/
theorem meeting {judge judge' : Judge} {related : Report → Report → Prop}
    (defaults : ∀ a, d.IsNode a → ∀ p around,
      related ((d.store.node a).judgeDefault judge p a)
        ((e.store.node a).judgeDefault judge' (p.amid around) a)) :
    Meeting judge judge' d.store e.store related fun around around' v w =>
      around = around' ∧ v = w ∧ d.Visited .schema v where
  kind := by
    rintro _ _ v _ ⟨_, rfl, _⟩
    rfl
  fresh := by
    rintro _ _ a b ⟨rfl, here, _⟩
    rw [Value.mapping.inj here]
  inside := by
    rintro _ _ a b ⟨rfl, here, p, reached⟩ _
    obtain rfl := Value.mapping.inj here
    refine ⟨same.pairing d.Visited, fun x => ?_, fun hop v w held part => ?_⟩
    · rw [Node.get?_node, Node.get?_node]
      exact same.attribute_kept (same.visited_outlook once) ⟨p, reached⟩ x
    · exact ⟨rfl, same.part_eq part, reached.held held⟩
  default := by
    rintro _ _ a b ⟨rfl, here, p, reached⟩
    obtain rfl := Value.mapping.inj here
    exact defaults a ⟨p, reached⟩

/-- Without defaults there is no difference between the audits. -/
theorem audit_eq (without : ∀ a, d.IsNode a → d.store.attribute? a .default = none) (limit : Nat) :
    e.audit limit = d.audit limit := by
  refine (auditWith_same Report.congruence_eq (same.meeting once ?_) ?_ limit).symm
  · intro a node p around
    apply Node.judgeDefault_eq
    rw [Node.get?_node, Node.get?_node, same.nodes a node, without a node]
    exact .none
  · exact ⟨rfl, same.root.symm, [], .root⟩

end Document.Retouched

end SchemaAudit

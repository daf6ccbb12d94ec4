import SchemaAudit.Document.Value
import SchemaAudit.Schema.Place
import Mathlib.Tactic.ByContra

/-! # Schema positions

Where a document holds schemas, said without the walk that checks them. A mapping holds a
value at the end of each of its hops, whether or not that value is a schema. A trail goes from
one value to another by legs, each of them a mapping that is left and the hop taken from it.
-/

namespace SchemaAudit

namespace Store

/-- What the mapping at an address holds under the key of an attribute. -/
def attribute? (s : Store) (addr : Nat) (a : Attribute) : Option Value :=
  (s.entries addr).lookup a.key

/-- The values at the schema positions of the mapping at an address. -/
inductive Holds (s : Store) (addr : Nat) : Hop → Value → Prop where
  /-- A mapping among the alternatives of a union. -/
  | alternative {a : Attribute} {union : Value} {vs : List Value} {i inner : Nat}
      (isUnion : a = .type ∨ a = .disallow) (found : s.attribute? addr a = some union)
      (array : union.elements? s = some vs) (member : vs[i]? = some (.mapping inner)) :
      Holds s addr (.element a i) (.mapping inner)
  /-- An entry of a map of schemas. -/
  | named {a : Attribute} {schemas v : Value} {es : Entries} {name : String}
      (isMap : a = .properties ∨ a = .patternProperties)
      (found : s.attribute? addr a = some schemas) (object : schemas.entries? s = some es)
      (member : (name, v) ∈ es) : Holds s addr (.entry a name) v
  /-- What further properties or items have to conform to, unless there may be none. -/
  | additional {a : Attribute} {v : Value}
      (isAdditional : a = .additionalProperties ∨ a = .additionalItems)
      (found : s.attribute? addr a = some v) (allowed : v ≠ .bool false) :
      Holds s addr (.value a) v
  /-- One schema for all items. -/
  | allItems {inner : Nat} (found : s.attribute? addr .items = some (.mapping inner)) :
      Holds s addr (.value .items) (.mapping inner)
  /-- One of the schemas for items by position. -/
  | item {schemas v : Value} {vs : List Value} {i : Nat}
      (found : s.attribute? addr .items = some schemas)
      (array : schemas.elements? s = some vs) (member : vs[i]? = some v) :
      Holds s addr (.element .items i) v

/-- Nothing is held at an address where no mapping is. -/
theorem Holds.inside {s : Store} {addr : Nat} {hop : Hop} {v : Value}
    (held : s.Holds addr hop v) : addr < s.maps.size := by
  have present : ∃ a u, s.attribute? addr a = some u := by
    cases held with
    | alternative _ found _ _ | named _ found _ _ | additional _ found _ | allItems found
    | item found _ _ => exact ⟨_, _, found⟩
  obtain ⟨a, u, found⟩ := present
  by_contra outside
  have nothing : s.entries addr = [] := by
    simp only [entries, Array.getD_eq_getD_getElem?,
      Array.getElem?_eq_none (Nat.le_of_not_lt outside), Option.getD_none]
  simp [attribute?, nothing] at found

end Store

structure Leg where
  /-- The address of the mapping that is left. -/
  node : Nat
  hop : Hop
  deriving DecidableEq, Repr

namespace Leg

/-- The addresses of the mappings that are left, outermost first. -/
def nodes (legs : List Leg) : List Nat := legs.map Leg.node

def tokens (legs : List Leg) : List String := legs.flatMap fun leg => leg.hop.tokens

@[simp] theorem nodes_nil : nodes [] = [] := rfl

@[simp] theorem nodes_cons (leg : Leg) (rest : List Leg) :
    nodes (leg :: rest) = leg.node :: nodes rest := rfl

@[simp] theorem nodes_append (legs rest : List Leg) :
    nodes (legs ++ rest) = nodes legs ++ nodes rest := by
  simp [nodes]

@[simp] theorem length_nodes (legs : List Leg) : (nodes legs).length = legs.length := by
  simp [nodes]

@[simp] theorem tokens_nil : tokens [] = [] := rfl

@[simp] theorem tokens_cons (leg : Leg) (rest : List Leg) :
    tokens (leg :: rest) = leg.hop.tokens ++ tokens rest := rfl

@[simp] theorem tokens_append (legs rest : List Leg) :
    tokens (legs ++ rest) = tokens legs ++ tokens rest := by
  simp [tokens]

end Leg

/-- The way from one value to another through schema positions. -/
inductive Trail (s : Store) : Value → List Leg → Value → Prop where
  | stay (v : Value) : Trail s v [] v
  | leg {addr : Nat} {hop : Hop} {u w : Value} {rest : List Leg}
      (first : s.Holds addr hop u) (onward : Trail s u rest w) :
      Trail s (.mapping addr) (⟨addr, hop⟩ :: rest) w

namespace Trail

theorem append {s : Store} {u v w : Value} {legs rest : List Leg}
    (there : Trail s u legs v) (onward : Trail s v rest w) : Trail s u (legs ++ rest) w := by
  induction there with
  | stay => exact onward
  | leg first _ ih => exact .leg first (ih onward)

theorem split {s : Store} {v w : Value} {before rest : List Leg}
    (trail : Trail s v (before ++ rest) w) : ∃ u, Trail s v before u ∧ Trail s u rest w := by
  induction before generalizing v with
  | nil => exact ⟨v, .stay v, trail⟩
  | cons leg before ih =>
      cases trail with
      | leg first onward =>
          obtain ⟨u, there, further⟩ := ih onward
          exact ⟨u, .leg first there, further⟩

/-- A trail passes through every mapping that it leaves. -/
theorem through {s : Store} {v w : Value} {legs : List Leg} {addr : Nat}
    (trail : Trail s v legs w) (left : addr ∈ Leg.nodes legs) :
    ∃ before onward, legs = before ++ onward ∧ onward ≠ [] ∧
      Trail s v before (.mapping addr) ∧ Trail s (.mapping addr) onward w := by
  obtain ⟨leg, member, rfl⟩ := List.mem_map.mp left
  obtain ⟨before, after, rfl⟩ := List.append_of_mem member
  obtain ⟨u, there, onward⟩ := trail.split
  cases onward with
  | leg first further => exact ⟨before, _, rfl, List.cons_ne_nil _ _, there, .leg first further⟩

end Trail

namespace Place

def after (p : Place) : List Leg → Place
  | [] => p
  | leg :: rest => ((p.enter leg.node).descend leg.hop).after rest

@[simp] theorem after_nil (p : Place) : p.after [] = p := rfl

@[simp] theorem after_cons (p : Place) (leg : Leg) (rest : List Leg) :
    p.after (leg :: rest) = ((p.enter leg.node).descend leg.hop).after rest := rfl

theorem after_append (p : Place) (legs rest : List Leg) :
    p.after (legs ++ rest) = (p.after legs).after rest := by
  induction legs generalizing p with
  | nil => rfl
  | cons leg legs ih => exact ih _

theorem pointer_after (p : Place) (legs : List Leg) :
    (p.after legs).pointer = p.pointerTo (Leg.tokens legs) := by
  induction legs generalizing p with
  | nil => rfl
  | cons leg rest ih =>
      rw [after_cons, ih, Leg.tokens_cons, pointerTo, pointer_descend]
      exact (Pointer.extend_append _ _ _).symm

theorem limit_after (p : Place) (legs : List Leg) : (p.after legs).limit = p.limit := by
  induction legs generalizing p with
  | nil => rfl
  | cons leg rest ih => rw [after_cons, ih, limit_descend, enter]

theorem depth_after (p : Place) (legs : List Leg) :
    (p.after legs).depth = p.depth + legs.length := by
  induction legs generalizing p with
  | nil => rfl
  | cons leg rest ih =>
      simp only [after_cons, ih, depth_descend, enter, List.length_cons]
      omega

theorem ancestors_after (p : Place) (legs : List Leg) :
    (p.after legs).ancestors = (Leg.nodes legs).reverse ++ p.ancestors := by
  induction legs generalizing p with
  | nil => rfl
  | cons leg rest ih => simp [ih, ancestors_descend, enter]

theorem ancestors_after_root (limit : Nat) (legs : List Leg) :
    ((Place.root limit).after legs).ancestors = (Leg.nodes legs).reverse := by
  rw [ancestors_after, root, List.append_nil]

/-- The nodes around a place are distinct mappings of the document, and counted by its depth. -/
structure Nested (p : Place) (s : Store) : Prop where
  distinct : p.ancestors.Nodup
  inside : ∀ addr ∈ p.ancestors, addr < s.maps.size
  counted : p.depth = p.ancestors.length

namespace Nested

variable {s : Store} {p : Place}

theorem root (s : Store) (limit : Nat) : (Place.root limit).Nested s :=
  ⟨List.nodup_nil, by simp [Place.root], rfl⟩

/-- Around a place inside a mapping there is one node more. -/
theorem descend (nested : p.Nested s) {addr : Nat} (fresh : addr ∉ p.ancestors)
    (inside : addr < s.maps.size) (hop : Hop) : ((p.enter addr).descend hop).Nested s where
  distinct := by
    rw [ancestors_descend]
    exact List.nodup_cons.mpr ⟨fresh, nested.distinct⟩
  inside := by
    intro other member
    rw [ancestors_descend] at member
    rcases List.mem_cons.mp member with rfl | member
    · exact inside
    · exact nested.inside other member
  counted := by
    rw [depth_descend, ancestors_descend, enter, List.length_cons, nested.counted]

end Nested

end Place

end SchemaAudit

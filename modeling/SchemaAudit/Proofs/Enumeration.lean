import SchemaAudit.Proofs.Location
import Mathlib.Data.List.Nodup

/-! # The schema positions one after the other

A document is unfolded from its root: every trail of schema positions is a position of its own,
whether or not another leads to the same value. Positions are listed with a node ahead of what
is inside it, and inside a node by attribute and in document order. A circle makes endlessly
many positions, so they are listed down to a number of levels.
-/

namespace SchemaAudit

/-- The attributes under which a node holds schemas, in the order in which they are checked. -/
def Attribute.schemaOrder : List Attribute :=
  [.type, .disallow, .properties, .patternProperties, .additionalProperties, .items,
   .additionalItems]

/-- The way to a schema position, and the value there. -/
abbrev Position := List Leg × Value

namespace Position

/-- A position as it is seen from the mapping that is left first. -/
def behind (leg : Leg) (q : Position) : Position := (leg :: q.1, q.2)

def tokens (q : Position) : List String := Leg.tokens q.1

end Position

namespace Store

/-- The schemas in the value of an attribute, in document order. -/
def schemasIn (s : Store) (a : Attribute) (v : Value) : List (Hop × Value) :=
  match a with
  | .type | .disallow =>
    ((v.elements? s).getD []).zipIdx.flatMap fun (w, i) =>
      if w.kind = .object then [(.element a i, w)] else []
  | .properties | .patternProperties =>
    ((v.entries? s).getD []).map fun (name, w) => (.entry a name, w)
  | .additionalProperties | .additionalItems => if v = .bool false then [] else [(.value a, v)]
  | .items =>
    if v.kind = .object then [(.value a, v)]
    else ((v.elements? s).getD []).zipIdx.map fun (w, i) => (.element a i, w)
  | _ => []

/-- The schemas under an attribute of the mapping at an address. -/
def schemasAt (s : Store) (addr : Nat) (a : Attribute) : List (Hop × Value) :=
  match s.attribute? addr a with
  | none => []
  | some v => s.schemasIn a v

/-- The schemas that the mapping at an address holds. -/
def schemas (s : Store) (addr : Nat) : List (Hop × Value) :=
  Attribute.schemaOrder.flatMap (s.schemasAt addr)

/-- The positions inside a value, given those at and inside each schema that it holds. -/
def inside (s : Store) (positions : Value → List Position) : Value → List Position
  | .mapping addr =>
    (s.schemas addr).flatMap fun (hop, w) => (positions w).map (Position.behind ⟨addr, hop⟩)
  | _ => []

/-- The schema positions at a value and inside it, down to a number of levels below it. -/
def positions (s : Store) : Nat → Value → List Position
  | 0, v => [([], v)]
  | levels + 1, v => ([], v) :: s.inside (s.positions levels) v

variable {s : Store} {addr : Nat} {hop : Hop} {v w : Value} {a : Attribute}

/-! ## The list has all positions -/

theorem mem_schemasIn_union (isUnion : a = .type ∨ a = .disallow) {u : Value} :
    (hop, w) ∈ s.schemasIn a u ↔ ∃ vs i inner, u.elements? s = some vs ∧
      vs[i]? = some (.mapping inner) ∧ hop = .element a i ∧ w = .mapping inner := by
  have listed : s.schemasIn a u = ((u.elements? s).getD []).zipIdx.flatMap fun (w, i) =>
      if w.kind = .object then [(.element a i, w)] else [] := by
    rcases isUnion with rfl | rfl <;> rfl
  rw [listed]
  constructor
  · intro member
    obtain ⟨⟨x, i⟩, located, chosen⟩ := List.mem_flatMap.mp member
    have located := List.mem_zipIdx_iff_getElem?.mp located
    dsimp only at located chosen
    split at chosen
    · next object =>
        obtain ⟨inner, rfl⟩ := Value.kind_eq_object.mp object
        obtain ⟨rfl, rfl⟩ := Prod.mk.inj (List.mem_singleton.mp chosen)
        cases array : u.elements? s with
        | none => simp [array] at located
        | some vs =>
            rw [array, Option.getD_some] at located
            exact ⟨vs, i, inner, rfl, located, rfl, rfl⟩
    · cases chosen
  · rintro ⟨vs, i, inner, array, located, rfl, rfl⟩
    rw [array, Option.getD_some]
    refine List.mem_flatMap.mpr ⟨(.mapping inner, i), List.mem_zipIdx_iff_getElem?.mpr located, ?_⟩
    exact List.mem_singleton_self _

theorem mem_schemasIn_map (isMap : a = .properties ∨ a = .patternProperties) {u : Value} :
    (hop, w) ∈ s.schemasIn a u ↔
      ∃ es name, u.entries? s = some es ∧ (name, w) ∈ es ∧ hop = .entry a name := by
  have listed : s.schemasIn a u =
      ((u.entries? s).getD []).map fun (name, w) => (.entry a name, w) := by
    rcases isMap with rfl | rfl <;> rfl
  rw [listed, List.mem_map]
  constructor
  · rintro ⟨⟨name, x⟩, member, same⟩
    obtain ⟨rfl, rfl⟩ := Prod.mk.inj same
    cases object : u.entries? s with
    | none => simp [object] at member
    | some es =>
        rw [object, Option.getD_some] at member
        exact ⟨es, name, rfl, member, rfl⟩
  · rintro ⟨es, name, object, member, rfl⟩
    rw [object, Option.getD_some]
    exact ⟨_, member, rfl⟩

theorem mem_schemasIn_additional
    (isAdditional : a = .additionalProperties ∨ a = .additionalItems) {u : Value} :
    (hop, w) ∈ s.schemasIn a u ↔ u ≠ .bool false ∧ hop = .value a ∧ w = u := by
  have listed : s.schemasIn a u = if u = .bool false then [] else [(.value a, u)] := by
    rcases isAdditional with rfl | rfl <;> rfl
  rw [listed]
  split
  · next nothing => simp [nothing]
  · next allowed => simp [allowed]

theorem mem_schemasIn_items {u : Value} :
    (hop, w) ∈ s.schemasIn .items u ↔
      (∃ inner, u = .mapping inner ∧ hop = .value .items ∧ w = u) ∨
      ∃ vs i, u.elements? s = some vs ∧ vs[i]? = some w ∧ hop = .element .items i := by
  rw [schemasIn]
  split
  · next object =>
      obtain ⟨inner, rfl⟩ := Value.kind_eq_object.mp object
      simp [Value.elements?]
  · next other =>
      have noMapping : ∀ inner, u ≠ .mapping inner := by
        rintro inner rfl
        exact other rfl
      cases array : u.elements? s with
      | none => simp [noMapping]
      | some vs =>
          simp only [Option.getD_some, List.mem_map, Prod.exists, Prod.mk.injEq,
            List.mem_zipIdx_iff_getElem?, noMapping, false_and, exists_false, false_or,
            Option.some.injEq]
          constructor
          · rintro ⟨x, i, located, rfl, rfl⟩
            exact ⟨vs, i, rfl, located, rfl⟩
          · rintro ⟨_, i, rfl, located, rfl⟩
            exact ⟨w, i, located, rfl, rfl⟩

/-- The schemas of a mapping are the values at its schema positions. -/
theorem mem_schemas : (hop, w) ∈ s.schemas addr ↔ s.Holds addr hop w := by
  rw [schemas, List.mem_flatMap]
  constructor
  · rintro ⟨a, ordered, member⟩
    rw [schemasAt] at member
    split at member
    · cases member
    · next u found =>
        simp only [Attribute.schemaOrder, List.mem_cons, List.not_mem_nil, or_false] at ordered
        rcases ordered with rfl | rfl | rfl | rfl | rfl | rfl | rfl
        · obtain ⟨vs, i, inner, array, located, rfl, rfl⟩ :=
            (mem_schemasIn_union (.inl rfl)).mp member
          exact .alternative (.inl rfl) found array located
        · obtain ⟨vs, i, inner, array, located, rfl, rfl⟩ :=
            (mem_schemasIn_union (.inr rfl)).mp member
          exact .alternative (.inr rfl) found array located
        · obtain ⟨es, name, object, among, rfl⟩ := (mem_schemasIn_map (.inl rfl)).mp member
          exact .named (.inl rfl) found object among
        · obtain ⟨es, name, object, among, rfl⟩ := (mem_schemasIn_map (.inr rfl)).mp member
          exact .named (.inr rfl) found object among
        · obtain ⟨allowed, rfl, rfl⟩ := (mem_schemasIn_additional (.inl rfl)).mp member
          exact .additional (.inl rfl) found allowed
        · rcases mem_schemasIn_items.mp member with
            ⟨inner, rfl, rfl, rfl⟩ | ⟨vs, i, array, located, rfl⟩
          · exact .allItems found
          · exact .item found array located
        · obtain ⟨allowed, rfl, rfl⟩ := (mem_schemasIn_additional (.inr rfl)).mp member
          exact .additional (.inr rfl) found allowed
  · intro held
    have among : ∀ (b : Attribute) u, b ∈ Attribute.schemaOrder → s.attribute? addr b = some u →
        (hop, w) ∈ s.schemasIn b u → ∃ b ∈ Attribute.schemaOrder, (hop, w) ∈ s.schemasAt addr b := by
      intro b u ordered found member
      refine ⟨b, ordered, ?_⟩
      rw [schemasAt, found]
      exact member
    cases held with
    | @alternative a union vs i inner isUnion found array located =>
        refine among a union ?_ found
          ((mem_schemasIn_union isUnion).mpr ⟨vs, i, inner, array, located, rfl, rfl⟩)
        rcases isUnion with rfl | rfl <;> decide
    | @named a schemas _ es name isMap found object member =>
        refine among a schemas ?_ found
          ((mem_schemasIn_map isMap).mpr ⟨es, name, object, member, rfl⟩)
        rcases isMap with rfl | rfl <;> decide
    | @additional a _ isAdditional found allowed =>
        refine among a w ?_ found
          ((mem_schemasIn_additional isAdditional).mpr ⟨allowed, rfl, rfl⟩)
        rcases isAdditional with rfl | rfl <;> decide
    | @allItems inner found =>
        exact among .items _ (by decide) found
          (mem_schemasIn_items.mpr (.inl ⟨inner, rfl, rfl, rfl⟩))
    | @item schemas _ vs i found array located =>
        exact among .items schemas (by decide) found
          (mem_schemasIn_items.mpr (.inr ⟨vs, i, array, located, rfl⟩))

theorem mem_inside {positions : Value → List Position} {q : Position} :
    q ∈ s.inside positions v ↔ ∃ addr hop w rest, v = .mapping addr ∧ s.Holds addr hop w ∧
      rest ∈ positions w ∧ q = Position.behind ⟨addr, hop⟩ rest := by
  cases v with
  | mapping addr =>
      rw [inside, List.mem_flatMap]
      constructor
      · rintro ⟨⟨hop, w⟩, held, member⟩
        obtain ⟨rest, below, rfl⟩ := List.mem_map.mp member
        exact ⟨addr, hop, w, rest, rfl, mem_schemas.mp held, below, rfl⟩
      · rintro ⟨_, hop, w, rest, ⟨⟩, held, member, rfl⟩
        exact ⟨(hop, w), mem_schemas.mpr held, List.mem_map_of_mem member⟩
  | _ => simp [inside]

/-- The positions down to some level are the trails of no more legs. -/
theorem mem_positions {levels : Nat} {legs : List Leg} :
    (legs, w) ∈ s.positions levels v ↔ Trail s v legs w ∧ legs.length ≤ levels := by
  induction levels generalizing v legs with
  | zero =>
      rw [positions, List.mem_singleton, Prod.mk.injEq]
      constructor
      · rintro ⟨rfl, rfl⟩
        exact ⟨.stay _, Nat.le_refl 0⟩
      · rintro ⟨trail, short⟩
        obtain rfl := List.eq_nil_of_length_eq_zero (Nat.le_zero.mp short)
        cases trail
        exact ⟨rfl, rfl⟩
  | succ levels ih =>
      rw [positions, List.mem_cons, Prod.mk.injEq]
      constructor
      · rintro (⟨rfl, rfl⟩ | member)
        · exact ⟨.stay _, Nat.zero_le _⟩
        · obtain ⟨addr, hop, u, ⟨rest, x⟩, rfl, held, below, same⟩ := mem_inside.mp member
          obtain ⟨rfl, rfl⟩ := Prod.mk.inj same
          obtain ⟨onward, short⟩ := ih.mp below
          exact ⟨.leg held onward, Nat.succ_le_succ short⟩
      · rintro ⟨trail, short⟩
        cases trail with
        | stay => exact .inl ⟨rfl, rfl⟩
        | @leg addr hop u _ rest first onward =>
            have short : rest.length ≤ levels := Nat.le_of_succ_le_succ short
            exact .inr (mem_inside.mpr
              ⟨addr, hop, u, (rest, w), rfl, first, ih.mpr ⟨onward, short⟩, rfl⟩)

/-! ## The list has each position once -/

end Store

/-- Hops whose tokens lead apart, however they go on. -/
def Hop.Apart (hop other : Hop) : Prop := ∀ rest more, hop.tokens ++ rest ≠ other.tokens ++ more

namespace Hop

variable {a b : Attribute}

theorem Apart.of_key {hop other : Hop} {rest more : List String} (first : hop.tokens = a.key :: rest)
    (second : other.tokens = b.key :: more) (distinct : a.key ≠ b.key) : hop.Apart other := by
  intro tail tail' same
  rw [first, second] at same
  exact distinct (List.cons.inj same).1

theorem apart_element {i j : Nat} (distinct : i ≠ j) : (element a i).Apart (element a j) := by
  intro rest more same
  have tokens : toString i = toString j := by
    simp only [tokens, List.cons_append, List.cons.injEq] at same
    exact same.2.1
  have read := Text.decimal?_toString i
  rw [tokens, Text.decimal?_toString] at read
  exact distinct (Option.some.inj read).symm

theorem apart_entry {name other : String} (distinct : name ≠ other) :
    (entry a name).Apart (entry a other) := by
  intro rest more same
  simp only [tokens, List.cons_append, List.cons.injEq] at same
  exact distinct same.2.1

end Hop

namespace Store

variable {s : Store} {addr : Nat}

/-- The elements of a list are at places of their own. -/
theorem zipIdx_apart {α : Type} (vs : List α) :
    vs.zipIdx.Pairwise fun x y => x.2 ≠ y.2 := by
  have places : (vs.zipIdx.map Prod.snd).Nodup := by
    rw [List.zipIdx_map_snd]
    exact List.nodup_range'
  exact List.pairwise_map.mp places

theorem schemasIn_apart (keys : s.KeysDistinct) (a : Attribute) (v : Value) :
    (s.schemasIn a v).Pairwise fun x y => x.1.Apart y.1 := by
  have elements : ∀ vs : List Value, (vs.zipIdx.map fun (w, i) => (Hop.element a i, w)).Pairwise
      fun x y => x.1.Apart y.1 := by
    intro vs
    rw [List.pairwise_map]
    exact (zipIdx_apart vs).imp Hop.apart_element
  have union : ∀ vs : List Value, (vs.zipIdx.flatMap fun (w, i) =>
      if w.kind = .object then [(Hop.element a i, w)] else []).Pairwise
        fun x y => x.1.Apart y.1 := by
    intro vs
    rw [List.pairwise_flatMap]
    refine ⟨fun x _ => ?_, (zipIdx_apart vs).imp ?_⟩
    · dsimp only
      split
      · exact List.pairwise_singleton _ _
      · exact List.Pairwise.nil
    · intro x y distinct p first q second
      simp only [List.mem_ite_nil_right, List.mem_singleton] at first second
      rw [first.2, second.2]
      exact Hop.apart_element distinct
  have named : ((v.entries? s).getD []).Distinct →
      (((v.entries? s).getD []).map fun (name, w) => (Hop.entry a name, w)).Pairwise
        fun x y => x.1.Apart y.1 := by
    intro distinct
    rw [List.pairwise_map]
    exact (List.pairwise_map.mp distinct).imp Hop.apart_entry
  have distinct : ((v.entries? s).getD []).Distinct := by
    cases v with
    | mapping inner => exact keys.entries inner
    | _ => exact List.nodup_nil
  cases a with
  | type | disallow => exact union _
  | properties | patternProperties => exact named distinct
  | additionalProperties | additionalItems =>
      rw [schemasIn]
      split
      · exact List.Pairwise.nil
      · exact List.pairwise_singleton _ _
  | items =>
      rw [schemasIn]
      split
      · exact List.pairwise_singleton _ _
      · exact elements _
  | _ => exact List.Pairwise.nil

/-- A hop to a schema under an attribute starts with the key of the attribute. -/
theorem tokens_of_mem_schemasIn {a : Attribute} {v w : Value} {hop : Hop}
    (member : (hop, w) ∈ s.schemasIn a v) : ∃ rest, hop.tokens = a.key :: rest := by
  cases a with
  | type =>
      obtain ⟨_, _, _, _, _, rfl, _⟩ := (mem_schemasIn_union (.inl rfl)).mp member
      exact ⟨_, rfl⟩
  | disallow =>
      obtain ⟨_, _, _, _, _, rfl, _⟩ := (mem_schemasIn_union (.inr rfl)).mp member
      exact ⟨_, rfl⟩
  | properties =>
      obtain ⟨_, _, _, _, rfl⟩ := (mem_schemasIn_map (.inl rfl)).mp member
      exact ⟨_, rfl⟩
  | patternProperties =>
      obtain ⟨_, _, _, _, rfl⟩ := (mem_schemasIn_map (.inr rfl)).mp member
      exact ⟨_, rfl⟩
  | additionalProperties =>
      obtain ⟨_, rfl, _⟩ := (mem_schemasIn_additional (.inl rfl)).mp member
      exact ⟨_, rfl⟩
  | additionalItems =>
      obtain ⟨_, rfl, _⟩ := (mem_schemasIn_additional (.inr rfl)).mp member
      exact ⟨_, rfl⟩
  | items =>
      rcases mem_schemasIn_items.mp member with ⟨_, _, rfl, _⟩ | ⟨_, _, _, _, rfl⟩
      · exact ⟨_, rfl⟩
      · exact ⟨_, rfl⟩
  | _ => cases member

theorem schemas_apart (keys : s.KeysDistinct) :
    (s.schemas addr).Pairwise fun x y => x.1.Apart y.1 := by
  have distinct : Attribute.schemaOrder.Pairwise fun a b => a.key ≠ b.key := by decide
  rw [schemas, List.pairwise_flatMap]
  refine ⟨fun a _ => ?_, distinct.imp ?_⟩
  · rw [schemasAt]
    split
    · exact List.Pairwise.nil
    · exact schemasIn_apart keys a _
  · intro a b distinct x first y second
    rw [schemasAt] at first second
    split at first
    · cases first
    split at second
    · cases second
    obtain ⟨rest, tokens⟩ := tokens_of_mem_schemasIn first
    obtain ⟨more, tokens'⟩ := tokens_of_mem_schemasIn second
    exact .of_key tokens tokens' distinct

/-- No two positions have the same tokens. -/
theorem tokens_positions_nodup (keys : s.KeysDistinct) (levels : Nat) (v : Value) :
    ((s.positions levels v).map Position.tokens).Nodup := by
  induction levels generalizing v with
  | zero => exact List.pairwise_singleton _ _
  | succ levels ih =>
      rw [positions, List.map_cons, List.nodup_cons]
      constructor
      · intro member
        obtain ⟨q, deeper, nothing⟩ := List.mem_map.mp member
        obtain ⟨addr, hop, w, rest, rfl, _, _, rfl⟩ := mem_inside.mp deeper
        have nothing : hop.tokens ++ rest.tokens = [] := nothing
        cases hop <;> simp [Hop.tokens] at nothing
      · cases v with
        | mapping addr =>
            rw [inside, List.map_flatMap, List.Nodup, List.pairwise_flatMap]
            refine ⟨?_, (schemas_apart keys).imp ?_⟩
            · rintro ⟨hop, w⟩ _
              have behind : ((s.positions levels w).map (Position.behind ⟨addr, hop⟩)).map
                  Position.tokens =
                    ((s.positions levels w).map Position.tokens).map (hop.tokens ++ ·) := by
                simp only [List.map_map]
                rfl
              rw [behind]
              exact List.Nodup.map (fun _ _ same => List.append_cancel_left same) (ih w)
            · rintro ⟨hop, w⟩ ⟨other, u⟩ apart x first y second rfl
              simp only [List.map_map, List.mem_map, Function.comp_apply] at first second
              obtain ⟨q, _, rfl⟩ := first
              obtain ⟨q', _, same⟩ := second
              exact apart _ _ same.symm
        | _ => exact List.nodup_nil

end Store

end SchemaAudit

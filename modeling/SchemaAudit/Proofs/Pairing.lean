import SchemaAudit.Document.Equality
import SchemaAudit.Document.Value
import SchemaAudit.Kind
import SchemaAudit.Schema.Attribute
import Mathlib.Data.List.Forall2

/-! # Pairs of values

Values of two stores, or of one, that stand for each other. Some are looked at as a whole: these
have the same outside, and their parts stand for each other as well. Mappings may also stand for
each other as schemas, of which only some keys count.
-/

namespace SchemaAudit

/-- A value without parts. -/
def Value.IsScalar : Value → Prop
  | .list _ | .tuple _ | .mapping _ => False
  | _ => True

theorem Value.IsScalar.kind {v : Value} (plain : v.IsScalar) : v.kind ≠ .object := by
  cases v with
  | mapping => exact plain.elim
  | float x =>
      simp only [Value.kind]
      split <;> simp
  | _ => simp [Value.kind]

section Lists

variable {α β γ : Type} {related : α → β → Prop} {xs : List α} {ys : List β}

theorem isEmpty_of_forall₂ (same : List.Forall₂ related xs ys) : xs.isEmpty = ys.isEmpty := by
  cases same <;> rfl

theorem map_of_forall₂ {f : α → γ} {g : β → γ} (same : List.Forall₂ related xs ys)
    (each : ∀ x y, related x y → f x = g y) : xs.map f = ys.map g := by
  induction same with
  | nil => rfl
  | cons first _ ih => rw [List.map_cons, List.map_cons, each _ _ first, ih]

theorem all_of_forall₂ {p : α → Bool} {q : β → Bool} (same : List.Forall₂ related xs ys)
    (each : ∀ x y, related x y → p x = q y) : xs.all p = ys.all q := by
  simpa only [List.all_map, Function.id_comp] using
    congrArg (List.all · id) (map_of_forall₂ same each)

theorem any_of_forall₂ {p : α → Bool} {q : β → Bool} (same : List.Forall₂ related xs ys)
    (each : ∀ x y, related x y → p x = q y) : xs.any p = ys.any q := by
  simpa only [List.any_map, Function.id_comp] using
    congrArg (List.any · id) (map_of_forall₂ same each)

theorem mapM_of_forall₂ {ε : Type} {f : α → Except ε γ} {g : β → Except ε γ}
    (same : List.Forall₂ related xs ys) (each : ∀ x y, related x y → f x = g y) :
    xs.mapM f = ys.mapM g := by
  induction same with
  | nil => rfl
  | cons first _ ih => rw [List.mapM_cons, List.mapM_cons, each _ _ first, ih]

theorem getElem?_of_forall₂ (same : List.Forall₂ related xs ys) (i : Nat) :
    Option.Rel related xs[i]? ys[i]? := by
  induction same generalizing i with
  | nil => exact .none
  | cons first _ ih =>
      cases i with
      | zero => exact .some first
      | succ i => exact ih i

theorem zipIdx_of_forall₂ (same : List.Forall₂ related xs ys) (n : Nat) :
    List.Forall₂ (fun x y => related x.1 y.1 ∧ x.2 = y.2) (xs.zipIdx n) (ys.zipIdx n) := by
  induction same generalizing n with
  | nil => exact .nil
  | cons first _ ih => exact .cons ⟨first, rfl⟩ (ih (n + 1))

theorem countP_of_forall₂ {p : α → Bool} {q : β → Bool} (same : List.Forall₂ related xs ys)
    (each : ∀ x y, related x y → p x = q y) : xs.countP p = ys.countP q := by
  simpa only [List.countP_map, Function.id_comp] using
    congrArg (List.countP id) (map_of_forall₂ same each)

/-- Under each key there is the same, up to what is related. -/
theorem lookup_of_forall₂ {κ : Type} [BEq κ] {es : List (κ × α)} {fs : List (κ × β)}
    (same : List.Forall₂ (fun e f => e.1 = f.1 ∧ related e.2 f.2) es fs) (key : κ) :
    Option.Rel related (es.lookup key) (fs.lookup key) := by
  induction same with
  | nil => exact .none
  | @cons e f es fs first _ ih =>
      obtain ⟨k, v⟩ := e
      obtain ⟨k', w⟩ := f
      obtain ⟨rfl, here⟩ := first
      rw [List.lookup_cons, List.lookup_cons]
      cases key == k with
      | true => exact .some here
      | false => exact ih

theorem rel_cases {x : Option α} {y : Option β} (rel : Option.Rel related x y) :
    (x = none ∧ y = none) ∨ ∃ a b, x = some a ∧ y = some b ∧ related a b := by
  cases rel with
  | none => exact .inl ⟨rfl, rfl⟩
  | some same => exact .inr ⟨_, _, rfl, rfl, same⟩

theorem rel_flip {x : Option α} {y : Option β} (rel : Option.Rel related x y) :
    Option.Rel (fun b a => related a b) y x := by
  cases rel with
  | none => exact .none
  | some same => exact .some same

end Lists

/-- What a type admits hangs on the kind alone. -/
theorem TypeName.admits_of_kind {v w : Value} (same : v.kind = w.kind) (name : TypeName) :
    name.admits v = name.admits w := by
  cases name with
  | any => rfl
  | kind k => cases k <;> simp only [TypeName.admits, same]

theorem Value.kind_mapping (a : Nat) : (Value.mapping a).kind = .object := rfl

/-- Entries under the same keys with related values. -/
def Entries.Related (related : Value → Value → Prop) : Entries → Entries → Prop :=
  List.Forall₂ fun e f => e.1 = f.1 ∧ related e.2 f.2

theorem Entries.Related.lookup {related : Value → Value → Prop} {es fs : Entries}
    (same : Related related es fs) (key : String) :
    Option.Rel related (es.lookup key) (fs.lookup key) :=
  lookup_of_forall₂ same key

/-- Values with the same outside and related parts. -/
inductive Shape (s t : Store) (related : Value → Value → Prop) : Value → Value → Prop where
  | scalar {v : Value} (plain : v.IsScalar) : Shape s t related v v
  | list {a b : Nat} (elements : List.Forall₂ related (s.elements a) (t.elements b)) :
      Shape s t related (.list a) (.list b)
  | tuple {a b : Nat} (elements : List.Forall₂ related (s.elements a) (t.elements b)) :
      Shape s t related (.tuple a) (.tuple b)
  | mapping {a b : Nat} (entries : Entries.Related related (s.entries a) (t.entries b)) :
      Shape s t related (.mapping a) (.mapping b)

namespace Shape

variable {s t : Store} {related : Value → Value → Prop} {v w : Value}

theorem mono {other : Value → Value → Prop} (shape : Shape s t related v w)
    (weaken : ∀ v w, related v w → other v w) : Shape s t other v w := by
  cases shape with
  | scalar plain => exact .scalar plain
  | list elements => exact .list (elements.imp weaken)
  | tuple elements => exact .tuple (elements.imp weaken)
  | mapping entries => exact .mapping (entries.imp fun _ _ same => ⟨same.1, weaken _ _ same.2⟩)

theorem kind (shape : Shape s t related v w) : v.kind = w.kind := by
  cases shape <;> rfl

theorem magnitude? (shape : Shape s t related v w) : v.magnitude? = w.magnitude? := by
  cases shape <;> rfl

theorem looseMagnitude? (shape : Shape s t related v w) :
    v.looseMagnitude? = w.looseMagnitude? := by
  cases shape <;> rfl

theorem truthy (shape : Shape s t related v w) : v.truthy s = w.truthy t := by
  cases shape with
  | scalar plain => cases v <;> first | rfl | exact plain.elim
  | list elements | tuple elements => simp only [Value.truthy, isEmpty_of_forall₂ elements]
  | mapping entries => simp only [Value.truthy, isEmpty_of_forall₂ entries]

theorem elements? (shape : Shape s t related v w) :
    Option.Rel (List.Forall₂ related) (v.elements? s) (w.elements? t) := by
  cases shape with
  | scalar plain => cases v <;> first | exact .none | exact plain.elim
  | list elements | tuple elements => exact .some elements
  | mapping => exact .none

theorem entries? (shape : Shape s t related v w) :
    Option.Rel (Entries.Related related) (v.entries? s) (w.entries? t) := by
  cases shape with
  | scalar plain => cases v <;> first | exact .none | exact plain.elim
  | list | tuple => exact .none
  | mapping entries => exact .some entries

/-- What a value gives when it is gone through. -/
theorem iterate? (shape : Shape s t related v w)
    (scalars : ∀ v : Value, v.IsScalar → related v v) :
    Option.Rel (List.Forall₂ related) (v.iterate? s) (w.iterate? t) := by
  have plain : ∀ vs : List Value, (∀ v ∈ vs, v.IsScalar) → List.Forall₂ related vs vs :=
    fun vs all => List.forall₂_same.mpr fun v member => scalars v (all v member)
  cases shape with
  | list elements | tuple elements => exact .some elements
  | mapping entries =>
      apply Option.Rel.some
      refine List.forall₂_map_left_iff.mpr (List.forall₂_map_right_iff.mpr (entries.imp ?_))
      rintro ⟨k, v⟩ ⟨k', w⟩ ⟨rfl, _⟩
      exact scalars _ trivial
  | scalar leaf =>
      cases v with
      | octets | text =>
          apply Option.Rel.some
          apply plain
          intro u member
          obtain ⟨_, _, rfl⟩ := List.mem_map.mp member
          exact trivial
      | list | tuple | mapping => exact leaf.elim
      | _ => exact .none

theorem scalar_iff (shape : Shape s t related v w) {u : Value} (plain : u.IsScalar) :
    v = u ↔ w = u := by
  cases shape with
  | scalar => exact Iff.rfl
  | list | tuple | mapping =>
      constructor
      · rintro rfl
        exact plain.elim
      · rintro rfl
        exact plain.elim

end Shape

/-- Values and schemas of two stores that stand for each other. -/
structure Pairing (s t : Store) where
  /-- Values that are looked at as a whole. -/
  data : Value → Value → Prop
  /-- The addresses of mappings that are looked at as schemas. -/
  node : Nat → Nat → Prop
  scalars : ∀ v : Value, v.IsScalar → data v v
  shape : ∀ {v w}, data v w → Shape s t data v w

namespace Pairing

variable {s t : Store} (m : Pairing s t)

/-- Values where a schema is expected: mappings that are schemas, and whatever else is there. -/
inductive Part : Value → Value → Prop where
  | node {a b : Nat} (same : m.node a b) : Part (.mapping a) (.mapping b)
  | data {v w : Value} (same : m.data v w) (other : v.kind ≠ .object) : Part v w

/-- One schema, or a list of them. -/
inductive Rack : Value → Value → Prop where
  | node {a b : Nat} (same : m.node a b) : Rack (.mapping a) (.mapping b)
  | row {v w : Value} (shape : Shape s t m.Part v w) (other : v.kind ≠ .object) : Rack v w

variable {m} {v w : Value}

theorem entries_related {a b : Nat} (same : m.data (.mapping a) (.mapping b)) :
    Entries.Related m.data (s.entries a) (t.entries b) := by
  cases m.shape same with
  | scalar plain => exact plain.elim
  | mapping entries => exact entries

namespace Part

theorem kind (part : m.Part v w) : v.kind = w.kind := by
  cases part with
  | node => rfl
  | data same => exact (m.shape same).kind

theorem scalar (plain : v.IsScalar) : m.Part v v :=
  .data (m.scalars v plain) plain.kind

theorem scalar_iff (part : m.Part v w) {u : Value} (plain : u.IsScalar) : v = u ↔ w = u := by
  cases part with
  | node =>
      constructor
      · rintro rfl
        exact plain.elim
      · rintro rfl
        exact plain.elim
  | data same => exact (m.shape same).scalar_iff plain

end Part

theorem Rack.kind (rack : m.Rack v w) : v.kind = w.kind := by
  cases rack with
  | node => rfl
  | row shape => exact shape.kind

theorem Rack.iterate? (rack : m.Rack v w) (other : v.kind ≠ .object) :
    Option.Rel (List.Forall₂ m.Part) (v.iterate? s) (w.iterate? t) := by
  cases rack with
  | node => exact absurd rfl other
  | row shape => exact shape.iterate? fun v plain => .scalar plain

/-- Whether every mapping among the data counts as a schema as well. -/
def Wide (m : Pairing s t) : Prop := ∀ a b, m.data (.mapping a) (.mapping b) → m.node a b

theorem Wide.part (wide : m.Wide) (same : m.data v w) : m.Part v w := by
  cases m.shape same with
  | mapping => exact .node (wide _ _ same)
  | list | tuple => exact .data same (by rintro ⟨⟩)
  | scalar plain => exact .scalar plain

theorem Wide.parts (wide : m.Wide) (same : m.data v w) : Shape s t m.Part v w :=
  (m.shape same).mono fun _ _ => wide.part

theorem Wide.rack (wide : m.Wide) (same : m.data v w) : m.Rack v w := by
  cases m.shape same with
  | mapping => exact .node (wide _ _ same)
  | list | tuple => exact .row (wide.parts same) (by rintro ⟨⟩)
  | scalar plain => exact .row (wide.parts same) plain.kind

end Pairing

end SchemaAudit

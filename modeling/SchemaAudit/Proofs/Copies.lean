import SchemaAudit.Document.Value
import SchemaAudit.Proofs.Pairing

/-! # Copies of values

A copy of a value looks the same all the way down, with containers of its own or with shared ones.
Only values that come to an end have copies, so copies are told level by level. Containers inside
each other are all different, as none of them is inside itself, and so there are no more levels
than a store has containers.
-/

namespace SchemaAudit

theorem forall₂_trans {α β γ : Type} {first : α → β → Prop} {second : β → γ → Prop}
    {both : α → γ → Prop} {xs : List α} {ys : List β} {zs : List γ}
    (there : List.Forall₂ first xs ys) (onward : List.Forall₂ second ys zs)
    (join : ∀ x y z, first x y → second y z → both x z) : List.Forall₂ both xs zs := by
  induction there generalizing zs with
  | nil =>
      cases onward
      exact .nil
  | cons here _ ih =>
      cases onward with
      | cons next rest => exact .cons (join _ _ _ here next) (ih rest)

namespace Shape

variable {s t u : Store} {related other both : Value → Value → Prop} {v w x : Value}

theorem symm (shape : Shape s t related v w) (turn : ∀ v w, related v w → other w v) :
    Shape t s other w v := by
  have turned : ∀ {vs ws : List Value}, List.Forall₂ related vs ws → List.Forall₂ other ws vs :=
    fun same => same.flip.imp fun w v here => turn v w here
  cases shape with
  | scalar plain => exact .scalar plain
  | list elements => exact .list (turned elements)
  | tuple elements => exact .tuple (turned elements)
  | mapping entries =>
      exact .mapping (entries.flip.imp fun f e here => ⟨here.1.symm, turn _ _ here.2⟩)

theorem trans (first : Shape s t related v w) (second : Shape t u other w x)
    (join : ∀ v w x, related v w → other w x → both v x) : Shape s u both v x := by
  cases first with
  | scalar plain =>
      cases second with
      | scalar => exact .scalar plain
      | list | tuple | mapping => exact plain.elim
  | list elements =>
      cases second with
      | scalar plain => exact plain.elim
      | list more => exact .list (forall₂_trans elements more join)
  | tuple elements =>
      cases second with
      | scalar plain => exact plain.elim
      | tuple more => exact .tuple (forall₂_trans elements more join)
  | mapping entries =>
      cases second with
      | scalar plain => exact plain.elim
      | mapping more =>
          exact .mapping (forall₂_trans entries more fun e f g here next =>
            ⟨here.1.trans next.1, join _ _ _ here.2 next.2⟩)

/-- The parts of values that look the same are related one by one. -/
theorem children (shape : Shape s t related v w) :
    List.Forall₂ related (v.children s) (w.children t) := by
  cases shape with
  | scalar plain =>
      cases v with
      | list | tuple | mapping => exact plain.elim
      | _ => exact .nil
  | list elements | tuple elements => exact elements
  | mapping entries =>
      exact List.forall₂_map_left_iff.mpr (List.forall₂_map_right_iff.mpr
        (entries.imp fun _ _ same => same.2))

/-- A value looks like itself if each of its parts does. -/
theorem of_children (all : ∀ w ∈ v.children s, related w w) : Shape s s related v v := by
  cases v with
  | list a => exact .list (List.forall₂_same.mpr all)
  | tuple a => exact .tuple (List.forall₂_same.mpr all)
  | mapping a =>
      exact .mapping (List.forall₂_same.mpr fun e member =>
        ⟨rfl, all e.2 (List.mem_map_of_mem member)⟩)
  | _ => exact .scalar trivial

/-- Compare two values from the outside, and their parts one by one. -/
def holds (s t : Store) (related : Value → Value → Prop) [DecidableRel related] (v w : Value) :
    Bool :=
  match v with
  | .list a =>
    match w with
    | .list b => decide (List.Forall₂ related (s.elements a) (t.elements b))
    | _ => false
  | .tuple a =>
    match w with
    | .tuple b => decide (List.Forall₂ related (s.elements a) (t.elements b))
    | _ => false
  | .mapping a =>
    match w with
    | .mapping b =>
      decide (List.Forall₂ (fun e f => e.1 = f.1 ∧ related e.2 f.2) (s.entries a) (t.entries b))
    | _ => false
  | v => v == w

theorem holds_iff [DecidableRel related] :
    holds s t related v w = true ↔ Shape s t related v w := by
  cases v with
  | list a =>
      cases w with
      | list b => exact decide_eq_true_iff.trans ⟨.list, fun | .list elements => elements⟩
      | _ => exact ⟨nofun, nofun⟩
  | tuple a =>
      cases w with
      | tuple b => exact decide_eq_true_iff.trans ⟨.tuple, fun | .tuple elements => elements⟩
      | _ => exact ⟨nofun, nofun⟩
  | mapping a =>
      cases w with
      | mapping b => exact decide_eq_true_iff.trans ⟨.mapping, fun | .mapping entries => entries⟩
      | _ => exact ⟨nofun, nofun⟩
  | _ =>
      refine beq_iff_eq.trans ⟨?_, fun | .scalar _ => rfl⟩
      rintro rfl
      exact .scalar trivial

instance decidable [DecidableRel related] : DecidableRel (Shape s t related) :=
  fun _ _ => decidable_of_iff _ holds_iff

end Shape

/-- A value and its copy, with less than so many containers inside each other that hold something,
    the outermost included. -/
def Copy (s t : Store) : Nat → Value → Value → Prop
  | 0 => fun _ _ => False
  | n + 1 => Shape s t (Copy s t n)

namespace Copy

instance decidable (s t : Store) : (n : Nat) → DecidableRel (Copy s t n)
  | 0 => fun _ _ => isFalse id
  | n + 1 => @Shape.decidable s t (Copy s t n) (decidable s t n)

variable {s t u : Store} {n k : Nat} {v w x : Value}

theorem mono (copy : Copy s t n v w) (less : n ≤ k) : Copy s t k v w := by
  induction n generalizing k v w with
  | zero => exact copy.elim
  | succ n ih =>
      obtain ⟨k, rfl⟩ : ∃ l, k = l + 1 := ⟨k - 1, by omega⟩
      exact Shape.mono copy fun v w inner => ih inner (by omega)

theorem symm (copy : Copy s t n v w) : Copy t s n w v := by
  induction n generalizing v w with
  | zero => exact copy.elim
  | succ n ih => exact Shape.symm copy fun v w inner => ih inner

/-- A copy of a copy is a copy, of as many levels as the first. -/
theorem trans (first : Copy s t n v w) (second : Copy t u k w x) : Copy s u n v x := by
  induction n generalizing k v w x with
  | zero => exact first.elim
  | succ n ih =>
      cases k with
      | zero => exact second.elim
      | succ k => exact Shape.trans first second fun v w x here next => ih here next

/-- A value that has a copy is one of itself. -/
theorem left (copy : Copy s t n v w) : Copy s s n v v := copy.trans copy.symm

theorem right (copy : Copy s t n v w) : Copy t t n w w := copy.symm.trans copy

theorem children (copy : Copy s t (n + 1) v w) :
    List.Forall₂ (Copy s t n) (v.children s) (w.children t) :=
  Shape.children copy

/-- The levels of a value are those of its parts, and one more. -/
theorem self_iff : Copy s s (n + 1) v v ↔ ∀ w ∈ v.children s, Copy s s n w w := by
  constructor
  · intro copy
    exact List.forall₂_same.mp copy.children
  · exact Shape.of_children

end Copy

/-! ## No more levels than containers -/

namespace Value

/-- A tuple counts as the list at its address. -/
def holder : Value → Value
  | .tuple a => .list a
  | v => v

theorem children_holder (s : Store) (v : Value) : v.holder.children s = v.children s := by
  cases v <;> rfl

end Value

namespace Store

def containers (s : Store) : List Value :=
  (List.range s.lists.size).map .list ++ (List.range s.maps.size).map .mapping

theorem length_containers (s : Store) : s.containers.length = s.size := by
  simp [containers, size]

/-- Only containers of the store hold something. -/
theorem holder_mem_containers {s : Store} {v w : Value} (member : w ∈ v.children s) :
    v.holder ∈ s.containers := by
  have lists : ∀ a, w ∈ s.elements a → Value.list a ∈ s.containers := by
    intro a member
    have inside : a < s.lists.size := by
      by_contra outside
      simp [elements, Array.getD_eq_getD_getElem?, Array.getElem?_eq_none (Nat.le_of_not_lt outside)]
        at member
    simp [containers, inside]
  cases v with
  | list a | tuple a => exact lists a member
  | mapping a =>
      have inside : a < s.maps.size := by
        by_contra outside
        simp [Value.children, entries, Array.getD_eq_getD_getElem?,
          Array.getElem?_eq_none (Nat.le_of_not_lt outside)] at member
      simp [Value.holder, containers, inside]
  | _ => cases member

end Store

namespace Copy

variable {s t : Store} {n : Nat} {v w : Value}

theorem holder_iff : Copy s s n v.holder v.holder ↔ Copy s s n v v := by
  cases n with
  | zero => exact Iff.rfl
  | succ n => rw [self_iff, self_iff, Value.children_holder]

/-- Containers around a value have more levels than it, so each of them takes one from those that
    are left. -/
theorem bounded_around {around : List Value} (copy : Copy s s n v v) (distinct : around.Nodup)
    (among : around ⊆ s.containers) (deeper : ∀ u ∈ around, ¬ Copy s s n u u) :
    Copy s s (s.size - around.length + 1) v v := by
  induction n generalizing v around with
  | zero => exact copy.elim
  | succ n ih =>
      by_cases shallow : Copy s s n v v
      · exact ih shallow distinct among fun u member levels => deeper u member (levels.mono n.le_succ)
      rw [self_iff]
      intro w member
      have fresh : v.holder ∉ around := by
        intro inside
        exact deeper _ inside (holder_iff.mpr copy)
      have more : (v.holder :: around).Nodup := List.nodup_cons.mpr ⟨fresh, distinct⟩
      have within : v.holder :: around ⊆ s.containers :=
        List.cons_subset.mpr ⟨Store.holder_mem_containers member, among⟩
      have room := more.length_le_of_subset within
      rw [Store.length_containers, List.length_cons] at room
      have inner := ih (self_iff.mp copy w member) more within ?_
      · rw [List.length_cons] at inner
        exact inner.mono (by omega)
      · intro u member levels
        rcases List.mem_cons.mp member with rfl | before
        · exact shallow (holder_iff.mp levels)
        · exact deeper u before (levels.mono n.le_succ)

/-- There are no more levels than containers in the one store or in the other. -/
theorem bounded (copy : Copy s t n v w) :
    ∃ k, k < s.size + 2 ∧ k < t.size + 2 ∧ Copy s t k v w := by
  have levels : ∀ {s : Store} {v : Value}, Copy s s n v v → Copy s s (s.size + 1) v v := by
    intro s v copy
    exact bounded_around copy List.nodup_nil (List.nil_subset _) (by simp)
  have first : Copy s t (s.size + 1) v w := (levels copy.left).trans copy
  have second : Copy s t (t.size + 1) v w := ((levels copy.right).trans copy.symm).symm
  rcases Nat.le_total s.size t.size with less | less
  · exact ⟨s.size + 1, by omega, by omega, first⟩
  · exact ⟨t.size + 1, by omega, by omega, second⟩

/-- In one store, copies have no more levels than it has containers. -/
theorem exists_iff : (∃ n, Copy s s n v w) ↔ Copy s s (s.size + 1) v w := by
  constructor
  · rintro ⟨_, copy⟩
    obtain ⟨k, less, _, copy⟩ := copy.bounded
    exact copy.mono (Nat.le_of_lt_succ less)
  · exact fun copy => ⟨_, copy⟩

/-- A value and its copy inside other containers, here and there, all of which have more levels. -/
def Inside (s t : Store) (n : Nat) (around around' : List Value) (v w : Value) : Prop :=
  ∃ k ≤ n, Copy s t k v w ∧ (∀ u ∈ around, ¬ Copy s s k u u) ∧ ∀ u ∈ around', ¬ Copy t t k u u

namespace Inside

variable {around around' : List Value}

theorem start (copy : Copy s t n v w) : Inside s t n [] [] v w :=
  ⟨n, Nat.le_refl n, copy, by simp, by simp⟩

theorem not_zero : ¬ Inside s t 0 around around' v w := by
  rintro ⟨k, none, copy, _⟩
  obtain rfl := Nat.le_zero.mp none
  exact copy

/-- Neither is inside itself. -/
theorem fresh (inside : Inside s t n around around' v w) : v ∉ around ∧ w ∉ around' := by
  obtain ⟨k, _, copy, deeper, deeper'⟩ := inside
  exact ⟨fun member => deeper v member copy.left, fun member => deeper' w member copy.right⟩

/-- The parts are inside the value and the containers around it. -/
theorem shape (inside : Inside s t (n + 1) around around' v w) :
    Shape s t (Inside s t n (v :: around) (w :: around')) v w := by
  obtain ⟨k, less, copy, deeper, deeper'⟩ := inside
  induction k with
  | zero => exact copy.elim
  | succ k ih =>
      -- parts are compared by the exact number of levels of the value
      by_cases shallow : Copy s t k v w
      · apply ih (by omega) shallow
        · exact fun u member levels => deeper u member (levels.mono k.le_succ)
        · exact fun u member levels => deeper' u member (levels.mono k.le_succ)
      have all : ∀ u x, Copy s t k u x → Inside s t n (v :: around) (w :: around') u x := by
        intro u x inner
        refine ⟨k, by omega, inner, ?_, ?_⟩
        · intro y member levels
          rcases List.mem_cons.mp member with rfl | before
          · exact shallow (levels.trans copy)
          · exact deeper y before (levels.mono k.le_succ)
        · intro y member levels
          rcases List.mem_cons.mp member with rfl | before
          · exact shallow (levels.trans copy.symm).symm
          · exact deeper' y before (levels.mono k.le_succ)
      exact Shape.mono copy all

end Inside

end Copy

end SchemaAudit

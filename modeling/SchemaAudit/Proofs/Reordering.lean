import SchemaAudit.Document.Order
import SchemaAudit.Document.Value
import SchemaAudit.Instance.Unions
import SchemaAudit.Proofs.Keys
import Mathlib.Data.List.Perm.Basic

/-! # Reordering mappings

A store in which the keys of mappings stand in another order, all containers at their addresses.
Values are looked up, compared and sorted as before.
-/

namespace SchemaAudit

namespace Store

/-- The keys of any mappings stand in another order, and nothing else is different. -/
structure Reordered (s t : Store) : Prop where
  lists : t.lists = s.lists
  size : t.maps.size = s.maps.size
  entries : ∀ addr, (t.entries addr).Perm (s.entries addr)

end Store

theorem Entries.lookup_perm {es fs : Entries} (keys : es.Distinct) (perm : fs.Perm es)
    (key : String) : fs.lookup key = es.lookup key := by
  have keys' : fs.Distinct := (perm.map Prod.fst).nodup_iff.mpr keys
  cases found : es.lookup key with
  | some v =>
      obtain ⟨before, after, rfl, _⟩ := List.lookup_eq_some_iff.mp found
      exact lookup_of_mem keys' (perm.mem_iff.mpr (by simp))
  | none =>
      rw [List.lookup_eq_none_iff] at found ⊢
      exact fun entry member => found entry (perm.mem_iff.mp member)

namespace Store.Reordered

variable {s t : Store} (same : s.Reordered t)

theorem refl (s : Store) : s.Reordered s := ⟨rfl, rfl, fun _ => .refl _⟩

include same

theorem elements (addr : Nat) : t.elements addr = s.elements addr := by
  rw [Store.elements, Store.elements, same.lists]

theorem elements? (v : Value) : v.elements? t = v.elements? s := by
  cases v <;> simp [Value.elements?, same.elements]

theorem sequence? (v : Value) : v.sequence? t = v.sequence? s := by
  cases v <;> simp [Value.sequence?, same.elements]

/-- Going through a value that is no mapping. -/
theorem iterate? {v : Value} (other : v.kind ≠ .object) : v.iterate? t = v.iterate? s := by
  cases v with
  | mapping => exact absurd rfl other
  | _ => simp [Value.iterate?, same.elements]

theorem truthy (v : Value) : v.truthy t = v.truthy s := by
  cases v with
  | mapping a => rw [Value.truthy, Value.truthy, (same.entries a).isEmpty_eq]
  | _ => simp [Value.truthy, same.elements]

theorem children (v : Value) : (v.children t).Perm (v.children s) := by
  cases v with
  | mapping a => exact (same.entries a).map Prod.snd
  | list a | tuple a =>
      rw [Value.children, Value.children, same.elements]
  | _ => exact .refl _

theorem size_eq : t.size = s.size := by rw [Store.size, Store.size, same.lists, same.size]

theorem lookup (keys : s.KeysDistinct) (addr : Nat) (key : String) :
    (t.entries addr).lookup key = (s.entries addr).lookup key :=
  Entries.lookup_perm (keys.entries addr) (same.entries addr) key

/-! ## Comparing values -/

theorem keywise (keys : s.KeysDistinct) (agree : Value → Value → Bool) (a b : Nat) :
    Value.keywise agree (t.entries a) (t.entries b) =
      Value.keywise agree (s.entries a) (s.entries b) := by
  simp only [Value.keywise, (same.entries a).length_eq, (same.entries b).length_eq,
    same.lookup keys b, (same.entries a).all_eq]

theorem sameWithin (keys : s.KeysDistinct) (fuel : Nat) :
    Value.sameWithin t fuel = Value.sameWithin s fuel := by
  induction fuel with
  | zero => rfl
  | succ fuel ih =>
      funext v w
      rw [Value.sameWithin, Value.sameWithin, ih, same.sequence?, same.sequence?]
      cases v with
      | mapping a =>
          cases w with
          | mapping b => simp only [Value.entries?, same.keywise keys]
          | _ => rfl
      | _ => rfl

theorem alikeWithin (keys : s.KeysDistinct) (fuel : Nat) :
    Value.alikeWithin t fuel = Value.alikeWithin s fuel := by
  induction fuel with
  | zero => rfl
  | succ fuel ih =>
      funext v w
      rw [Value.alikeWithin.eq_def, Value.alikeWithin.eq_def]
      simp only [ih, same.elements, same.keywise keys]

theorem beforeWithin? (keys : s.KeysDistinct) (fuel : Nat) :
    Value.beforeWithin? t fuel = Value.beforeWithin? s fuel := by
  have alike : Value.alike t = Value.alike s := by
    funext v w
    rw [Value.alike, Value.alike, same.size_eq, same.alikeWithin keys]
  induction fuel with
  | zero => rfl
  | succ fuel ih =>
      funext v w
      rw [Value.beforeWithin?.eq_def, Value.beforeWithin?.eq_def]
      simp only [ih, same.elements, alike]

theorem same_eq (keys : s.KeysDistinct) : Value.same t = Value.same s := by
  funext v w
  rw [Value.same, Value.same, same.size_eq, same.sameWithin keys]

theorem hasEqualNeighbours (keys : s.KeysDistinct) (vs : List Value) :
    Value.hasEqualNeighbours t vs = Value.hasEqualNeighbours s vs := by
  induction vs with
  | nil => rfl
  | cons v rest ih =>
      cases rest with
      | nil => rfl
      | cons w rest =>
          rw [Value.hasEqualNeighbours, Value.hasEqualNeighbours, ih, same.same_eq keys]

theorem hasEqualPair (keys : s.KeysDistinct) (vs : List Value) :
    Value.hasEqualPair t vs = Value.hasEqualPair s vs := by
  induction vs with
  | nil => rfl
  | cons v rest ih => rw [Value.hasEqualPair, Value.hasEqualPair, ih, same.same_eq keys]

theorem distinct (keys : s.KeysDistinct) (vs : List Value) :
    Value.distinct t vs = Value.distinct s vs := by
  have before : Value.elementBefore? t = Value.elementBefore? s := by
    funext v w
    rw [Value.elementBefore?.eq_def, Value.elementBefore?.eq_def]
    simp only [Value.before?, same.size_eq, same.beforeWithin? keys]
  rw [Value.distinct, Value.distinct, before]
  cases Sorting.sort? (Value.elementBefore? s) vs with
  | none => simp only [same.hasEqualPair keys]
  | some sorted => simp only [same.hasEqualNeighbours keys]

theorem isLookupKey (fuel : Nat) : Evaluation.isLookupKey t fuel = Evaluation.isLookupKey s fuel := by
  induction fuel with
  | zero => rfl
  | succ fuel ih =>
      funext v
      rw [Evaluation.isLookupKey.eq_def, Evaluation.isLookupKey.eq_def]
      simp only [ih, same.elements]

/-- What is inside a value is the same, in another order. -/
theorem unfold (v : Value) : (v.unfold t).Perm (v.unfold s) := by
  rw [Value.unfold, Value.unfold, same.size_eq]
  generalize s.size + 2 = fuel
  generalize [] = around
  induction fuel generalizing around v with
  | zero => exact .refl _
  | succ fuel ih =>
      rw [Value.unfoldWithin, Value.unfoldWithin]
      split
      · exact .refl _
      · exact ((same.children v).flatMap fun w _ => ih w (v :: around)).cons v

end Store.Reordered

end SchemaAudit

import SchemaAudit.Document.Display
import SchemaAudit.Proofs.Copies
import SchemaAudit.Proofs.Keys
import SchemaAudit.Proofs.Likeness

/-! # What copies look like

Copies are compared and displayed as what they are copies of. Comparisons take a look inside where
a shared container would do without, but what they find there is the same.
-/

namespace SchemaAudit

variable {s t : Store} {n f f' : Nat} {v w : Value}

namespace Value

theorem pairwise_true {related : Value → Value → Prop} {agree : Value → Value → Bool}
    {vs ws : List Value} (row : List.Forall₂ related vs ws)
    (each : ∀ v w, related v w → agree v w = true) : pairwise agree vs ws = true := by
  induction row with
  | nil => rfl
  | cons first _ ih => simp only [pairwise, each _ _ first, ih, Bool.and_self]

theorem keywise_true {related : Value → Value → Prop} {agree : Value → Value → Bool}
    {es fs : Entries} (keys : es.Distinct) (map : Entries.Related related es fs)
    (each : ∀ v w, related v w → agree v w = true) : keywise agree es fs = true := by
  rw [keywise, map.length_eq, Bool.and_eq_true, List.all_eq_true]
  refine ⟨beq_self_eq_true _, ?_⟩
  rintro ⟨key, v⟩ member
  have found := Entries.lookup_of_mem keys member
  rcases rel_cases (map.lookup key) with ⟨nothing, _⟩ | ⟨u, w, here, there, same⟩
  · rw [found] at nothing
    cases nothing
  · rw [found] at here
    obtain rfl := Option.some.inj here
    simp only [there, each _ _ same]

end Value

namespace Copy

/-- Either way of comparing takes a value and a copy of it in one store for the same. -/
theorem compared (keys : s.KeysDistinct) (copy : Copy s s n v w) (enough : n < f) :
    v.sameWithin s f w = true ∧ v.alikeWithin s f w = true := by
  induction n generalizing f v w with
  | zero => exact copy.elim
  | succ n ih =>
      obtain ⟨f, rfl⟩ := Nat.exists_eq_succ_of_ne_zero (Nat.ne_zero_of_lt enough)
      have less : n < f := Nat.lt_of_succ_lt_succ enough
      have same : ∀ v w, Copy s s n v w → v.sameWithin s f w = true :=
        fun v w copy => (ih copy less).1
      have alike : ∀ v w, Copy s s n v w → v.alikeWithin s f w = true :=
        fun v w copy => (ih copy less).2
      rw [Value.sameWithin, Value.alikeWithin.eq_def]
      cases copy with
      | scalar => simp
      | list elements | tuple elements =>
          simp [Value.looseMagnitude?, Value.magnitude?, Value.sequence?,
            Value.pairwise_true elements same, Value.pairwise_true elements alike]
      | mapping entries =>
          simp [Value.looseMagnitude?, Value.magnitude?, Value.sequence?, Value.entries?,
            Value.keywise_true (keys.entries _) entries same,
            Value.keywise_true (keys.entries _) entries alike]

/-- Values and their copies stand for each other, as data and as schemas. -/
def pairing (s t : Store) : Pairing s t where
  data v w := ∃ n, Copy s t n v w
  node a b := ∃ n, Copy s t n (.mapping a) (.mapping b)
  scalars _ plain := ⟨1, .scalar plain⟩
  shape := by
    rintro v w ⟨n, copy⟩
    cases n with
    | zero => exact copy.elim
    | succ n => exact Shape.mono copy fun v w inner => ⟨n, inner⟩

def likeness (keys : s.KeysDistinct) (keys' : t.KeysDistinct) : Likeness (pairing s t) where
  seen f f' v w := ∃ n, n < f ∧ n < f' ∧ Copy s t n v w
  data := fun ⟨n, _, _, copy⟩ => ⟨n, copy⟩
  whole := fun ⟨_, copy⟩ => copy.bounded
  level := by
    rintro f f' v w ⟨n, less, less', _⟩
    omega
  below := by
    rintro f f' v w ⟨n, less, less', copy⟩
    have some : n ≠ 0 := by
      rintro rfl
      exact copy
    omega
  shape := by
    rintro f f' v w ⟨n, less, less', copy⟩
    cases n with
    | zero => exact copy.elim
    | succ n => exact Shape.mono copy fun v w inner => ⟨n, by omega, by omega, inner⟩
  twins := by
    rintro f f' v w w' ⟨n, _, less, copy⟩ ⟨_, _, _, copy'⟩
    exact (copy.symm.trans copy').compared keys' less
  twinned := by
    rintro f f' v v' w ⟨n, less, _, copy⟩ ⟨_, _, _, copy'⟩
    exact (copy.trans copy'.symm).compared keys less

/-! ## Display -/

theorem displayWithin_eq {around around' : List Value}
    (inside : Inside s t n around around' v w) (enough : n < f) (enough' : n < f') :
    v.displayWithin s f around = w.displayWithin t f' around' := by
  induction n generalizing f f' around around' v w with
  | zero => exact (inside.not_zero).elim
  | succ n ih =>
      obtain ⟨f, rfl⟩ := Nat.exists_eq_succ_of_ne_zero (Nat.ne_zero_of_lt enough)
      obtain ⟨f', rfl⟩ := Nat.exists_eq_succ_of_ne_zero (Nat.ne_zero_of_lt enough')
      obtain ⟨fresh, fresh'⟩ := inside.fresh
      have inner : ∀ u x, Inside s t n (v :: around) (w :: around') u x →
          u.displayWithin s f (v :: around) = x.displayWithin t f' (w :: around') :=
        fun u x inside => ih inside (Nat.lt_of_succ_lt_succ enough) (Nat.lt_of_succ_lt_succ enough')
      cases inside.shape with
      | scalar plain => cases v <;> first | exact plain.elim | rfl
      | list elements =>
          rw [Value.displayWithin, Value.displayWithin, if_neg fresh, if_neg fresh',
            map_of_forall₂ elements inner]
      | tuple elements =>
          rw [Value.displayWithin, Value.displayWithin, if_neg fresh, if_neg fresh',
            map_of_forall₂ elements inner]
      | mapping entries =>
          rw [Value.displayWithin, Value.displayWithin, if_neg fresh, if_neg fresh',
            map_of_forall₂ entries]
          rintro ⟨key, u⟩ ⟨_, x⟩ ⟨rfl, here⟩
          simp only [inner u x here]

theorem display_eq (copy : Copy s t n v w) : v.display s = w.display t := by
  obtain ⟨k, less, less', copy⟩ := copy.bounded
  exact displayWithin_eq (.start copy) less less'

/-! ## Unfolding -/

theorem unfoldWithin_related {around around' : List Value}
    (inside : Inside s t n around around' v w) (enough : n < f) (enough' : n < f') :
    List.Forall₂ (pairing s t).data (v.unfoldWithin s f around) (w.unfoldWithin t f' around') := by
  induction n generalizing f f' around around' v w with
  | zero => exact (inside.not_zero).elim
  | succ n ih =>
      obtain ⟨f, rfl⟩ := Nat.exists_eq_succ_of_ne_zero (Nat.ne_zero_of_lt enough)
      obtain ⟨f', rfl⟩ := Nat.exists_eq_succ_of_ne_zero (Nat.ne_zero_of_lt enough')
      obtain ⟨fresh, fresh'⟩ := inside.fresh
      rw [Value.unfoldWithin, Value.unfoldWithin, if_neg fresh, if_neg fresh']
      have parts := inside.shape.children
      obtain ⟨k, _, copy, _⟩ := inside
      refine .cons ⟨k, copy⟩ (List.rel_flatMap parts fun u x inner => ?_)
      exact ih inner (Nat.lt_of_succ_lt_succ enough) (Nat.lt_of_succ_lt_succ enough')

theorem unfold_related (copy : Copy s t n v w) :
    List.Forall₂ (pairing s t).data (v.unfold s) (w.unfold t) := by
  obtain ⟨k, less, less', copy⟩ := copy.bounded
  exact unfoldWithin_related (.start copy) less less'

end Copy

end SchemaAudit

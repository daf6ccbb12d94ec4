import SchemaAudit.Proofs.Lockstep

/-! # One schema led in several ways

The mirror in which every value is its own image compares evaluations of the very same schema
that differ only in what leads them: in their fuel, or in their guide. Where the first does not
break down, the second comes to the same.
-/

namespace SchemaAudit

theorem Shape.refl (s : Store) {related : Value → Value → Prop} (all : ∀ v, related v v)
    (v : Value) : Shape s s related v v := by
  have row : ∀ vs : List Value, List.Forall₂ related vs vs :=
    fun vs => List.forall₂_same.mpr fun v _ => all v
  cases v with
  | list => exact .list (row _)
  | tuple => exact .tuple (row _)
  | mapping => exact .mapping (List.forall₂_same.mpr fun e _ => ⟨rfl, all e.2⟩)
  | _ => exact .scalar trivial

namespace Evaluation

/-- Faults of the first evaluation excuse the second, and nothing else does. -/
def Tolerance.excusing (first : Fault → Prop) : Tolerance where
  first := first
  second _ := False
  strict := True
  lenient loose := absurd trivial loose

/-- An evaluation without an excuse is matched by its like only. -/
theorem Matches.eq_of_excusing {first : Fault → Prop} {x y : Evaluation}
    (same : Matches (.excusing first) x y) (inexcusable : ∀ fault, first fault → x ≠ faulted fault) :
    x = y := by
  cases same with
  | ok tells => rw [tells.alike trivial]
  | stop => rfl
  | flaws _ _ loose => exact absurd trivial loose
  | first excused => exact absurd rfl (inexcusable _ excused)
  | second excused => exact excused.elim

/-- Every value mirrors itself. -/
def Mirror.itself (s : Store) (first : Fault → Prop) : Mirror (.excusing first) s s where
  data := Eq
  node := Eq
  scalars _ _ := rfl
  shape := by
    rintro v _ rfl
    exact .refl s (fun _ => rfl) v
  same := by
    rintro v _ v' _ rfl rfl
    rfl
  distinct := by
    intro vs ws same
    rw [List.forall₂_eq_eq_eq] at same
    rw [same]
  lookupKey := by
    rintro v _ rfl
    rfl
  shown := by
    rintro _ v _ rfl
    rfl
  shownNode := by
    rintro _ a _ rfl
    rfl
  named := by
    rintro _ a _ rfl
    rfl

namespace Mirror.itself

variable {s : Store} {first : Fault → Prop}

theorem wide : (itself s first).Wide := by
  rintro a _ ⟨⟩
  rfl

theorem part (v : Value) : (itself s first).Part v v := wide.part rfl

theorem faithful : (itself s first).Faithful := by
  apply faithful_of_entries trivial wide
  rintro a _ rfl
  exact List.forall₂_same.mpr fun _ _ => ⟨rfl, rfl⟩

end Mirror.itself

variable {State State' : Type} {s : Store} {g : Guide State} {h : Guide State'} {n k : Nat}
  {arrival : Arrival} {v i : Value}

/-- An evaluation that does not run out of fuel is the same with more of it. -/
theorem evaluateBy_mono {x : State} (less : n ≤ k)
    (ends : evaluateBy s g n arrival x v i ≠ faulted .endless) :
    evaluateBy s g n arrival x v i = evaluateBy s g k arrival x v i := by
  have leads : Mirror.Leads (Mirror.itself s (· = .endless)) g g Eq := {
    enter := by
      rintro x _ arrival a _ rfl rfl
      exact .of_eq rfl
    refer := by
      rintro x _ ref rfl
      apply (Agree.of_eq rfl).mono
      rintro p _ rfl
      exact ⟨Mirror.itself.part p.1, rfl⟩ }
  have same := Mirror.evaluateBy_matches Mirror.itself.faithful leads less (fun _ => rfl) arrival
    x x v v i i rfl (Mirror.itself.part v) rfl
  apply same.eq_of_excusing
  rintro _ rfl
  exact ends

/-- An evaluation that does not break down goes on alike by a second guide that leads to schemas
    that mirror those the first leads to. -/
theorem evaluateBy_onward {m : Mirror (.excusing fun _ => True) s s} (faithful : m.Faithful)
    {x : State} {y : State'} {states : State → State' → Prop} (leads : m.Leads g h states)
    (here : states x y) (part : m.Part v v) (inst : m.data i i)
    (lasting : ∀ fault, evaluateBy s g n arrival x v i ≠ faulted fault) :
    evaluateBy s g n arrival x v i = evaluateBy s h n arrival y v i := by
  have same := Mirror.evaluateBy_matches faithful leads (Nat.le_refl n)
    (fun less => absurd less (Nat.lt_irrefl n)) arrival x y v v i i here part inst
  exact same.eq_of_excusing fun fault _ => lasting fault

end Evaluation

end SchemaAudit

import SchemaAudit.Document.Equality
import SchemaAudit.Instance.Evaluation
import Mathlib.Data.List.Forall2

/-! # Evaluations that agree

Two evaluations are compared step by step. They agree when both come to an end with related
results, or both stop for the same reason. Some faults may be excused: behind such a fault of one
evaluation the other may do anything. And evaluations may be compared loosely, so that only the
places of violations count, and of two flaws only that there are some.
-/

namespace SchemaAudit

namespace Evaluation

/-- How two evaluations may come apart and still agree. -/
structure Tolerance where
  /-- The faults of the first evaluation that excuse the second. -/
  first : Fault → Prop
  /-- The faults of the second evaluation that excuse the first. -/
  second : Fault → Prop
  /-- Whether violations and flaws have to be the same in every detail. -/
  strict : Prop
  /-- A loose comparison may come to the faults in another order, so it excuses them all. -/
  lenient : ¬ strict → ∀ fault, first fault ∧ second fault

inductive Agree (τ : Tolerance) {α β : Type} (related : α → β → Prop) :
    Except Stop α → Except Stop β → Prop where
  | ok {a : α} {b : β} (same : related a b) : Agree τ related (.ok a) (.ok b)
  | stop (stop : Stop) : Agree τ related (.error stop) (.error stop)
  | flaws (f g : Flaw) (loose : ¬ τ.strict) :
      Agree τ related (.error (.flaw f)) (.error (.flaw g))
  | first {fault : Fault} (excused : τ.first fault) (y : Except Stop β) :
      Agree τ related (.error (.fault fault)) y
  | second {fault : Fault} (excused : τ.second fault) (x : Except Stop α) :
      Agree τ related x (.error (.fault fault))

/-- Violations at the same places, and the very same ones in a strict comparison. -/
structure Tolerance.Tells (τ : Tolerance) (found others : List Violation) : Prop where
  places : ∀ path, path ∈ found.map Violation.path ↔ path ∈ others.map Violation.path
  alike : τ.strict → found = others

/-- The agreement of whole evaluations. -/
abbrev Matches (τ : Tolerance) : Evaluation → Evaluation → Prop := Agree τ τ.Tells

variable {τ : Tolerance} {α β α' β' : Type} {related : α → β → Prop} {related' : α' → β' → Prop}

namespace Agree

/-- What stops where two that agree do, and else goes on alike, agrees as well. -/
theorem carry {x : Except Stop α} {y : Except Stop β} {x' : Except Stop α'} {y' : Except Stop β'}
    (agree : Agree τ related x y) (stops : ∀ stop, x = .error stop → x' = .error stop)
    (stops' : ∀ stop, y = .error stop → y' = .error stop)
    (onward : ∀ a b, x = .ok a → y = .ok b → related a b → Agree τ related' x' y') :
    Agree τ related' x' y' := by
  cases agree with
  | ok same => exact onward _ _ rfl rfl same
  | stop stop =>
      rw [stops _ rfl, stops' _ rfl]
      exact .stop stop
  | flaws f g loose =>
      rw [stops _ rfl, stops' _ rfl]
      exact .flaws f g loose
  | first excused =>
      rw [stops _ rfl]
      exact .first excused _
  | second excused =>
      rw [stops' _ rfl]
      exact .second excused _

theorem bind {x : Except Stop α} {y : Except Stop β} {f : α → Except Stop α'}
    {g : β → Except Stop β'} (agree : Agree τ related x y)
    (onward : ∀ a b, related a b → Agree τ related' (f a) (g b)) :
    Agree τ related' (x >>= f) (y >>= g) := by
  refine agree.carry (by rintro _ rfl; rfl) (by rintro _ rfl; rfl) ?_
  rintro a b rfl rfl same
  exact onward a b same

/-- What goes on from the same result goes on alike, if it does from that result. -/
theorem bind_eq {x y : Except Stop α} {f : α → Except Stop α'} {g : α → Except Stop β'}
    (agree : Agree τ Eq x y) (onward : ∀ a, x = .ok a → Agree τ related' (f a) (g a)) :
    Agree τ related' (x >>= f) (y >>= g) := by
  refine agree.carry (by rintro _ rfl; rfl) (by rintro _ rfl; rfl) ?_
  rintro a _ rfl rfl rfl
  exact onward a rfl

theorem map {x : Except Stop α} {y : Except Stop β} {f : α → α'} {g : β → β'}
    (agree : Agree τ related x y) (onward : ∀ a b, related a b → related' (f a) (g b)) :
    Agree τ related' (x.map f) (y.map g) := by
  refine agree.carry (by rintro _ rfl; rfl) (by rintro _ rfl; rfl) ?_
  rintro a b rfl rfl same
  exact .ok (onward a b same)

theorem mono {other : α → β → Prop} {x : Except Stop α} {y : Except Stop β}
    (agree : Agree τ related x y) (weaken : ∀ a b, related a b → other a b) :
    Agree τ other x y := by
  refine agree.carry (fun _ => id) (fun _ => id) ?_
  rintro a b rfl rfl same
  exact .ok (weaken a b same)

/-- What does the same agrees with itself. -/
theorem of_eq {x y : Except Stop α} (same : x = y) : Agree τ Eq x y := by
  subst same
  cases x with
  | error stop => exact .stop stop
  | ok a => exact .ok rfl

/-- A loose comparison excuses all faults and takes any flaw for any other, so that only a flaw on
    one side and a result on the other come apart. -/
theorem of_loose (loose : ¬ τ.strict) {x : Except Stop α} {y : Except Stop β}
    (flawed : ∀ f b, x = .error (.flaw f) → y ≠ .ok b)
    (unflawed : ∀ a f, x = .ok a → y ≠ .error (.flaw f))
    (same : ∀ a b, x = .ok a → y = .ok b → related a b) : Agree τ related x y := by
  cases x with
  | error stop =>
      cases stop with
      | fault fault => exact .first (τ.lenient loose fault).1 _
      | flaw f =>
          cases y with
          | error stop =>
              cases stop with
              | fault fault => exact .second (τ.lenient loose fault).2 _
              | flaw g => exact .flaws f g loose
          | ok b => exact absurd rfl (flawed f b rfl)
  | ok a =>
      cases y with
      | error stop =>
          cases stop with
          | fault fault => exact .second (τ.lenient loose fault).2 _
          | flaw f => exact absurd rfl (unflawed a f rfl)
      | ok b => exact .ok (same a b rfl rfl)

end Agree

/-! ## Violations -/

namespace Tolerance.Tells

theorem nil : τ.Tells [] [] := ⟨fun _ => Iff.rfl, fun _ => rfl⟩

theorem append {found others more rest : List Violation} (here : τ.Tells found others)
    (there : τ.Tells more rest) : τ.Tells (found ++ more) (others ++ rest) where
  places path := by
    simp only [List.map_append, List.mem_append, here.places path, there.places path]
  alike strict := by rw [here.alike strict, there.alike strict]

theorem isEmpty {found others : List Violation} (same : τ.Tells found others) :
    found.isEmpty = others.isEmpty := by
  cases found with
  | nil =>
      cases others with
      | nil => rfl
      | cons v rest =>
          have place := (same.places v.path).mpr List.mem_cons_self
          cases place
  | cons v rest =>
      cases others with
      | nil =>
          have place := (same.places v.path).mp List.mem_cons_self
          cases place
      | cons w more => rfl

end Tolerance.Tells

namespace Matches

theorem clean : Matches τ clean clean := .ok .nil

theorem violation {m n : String} (same : τ.strict → m = n) :
    Matches τ (violation m) (violation n) := by
  refine .ok ⟨fun path => ?_, fun strict => ?_⟩
  · simp
  · rw [same strict]

theorem violationIf {p q : Bool} {m n : String} (cond : p = q) (same : τ.strict → m = n) :
    Matches τ (violationIf p m) (violationIf q n) := by
  subst cond
  cases p with
  | false => exact .clean
  | true => exact .violation same

theorem below {x y : Evaluation} (token : String) (same : Matches τ x y) :
    Matches τ (below token x) (below token y) := by
  apply same.map
  intro found others tells
  constructor
  · have moved : ∀ vs : List Violation, (vs.map fun v => { v with path := token :: v.path }).map
        Violation.path = (vs.map Violation.path).map (token :: ·) := by
      intro vs
      simp
    intro path
    rw [moved, moved]
    simp only [List.mem_map (f := (token :: ·)), tells.places]
  · intro strict
    rw [tells.alike strict]

/-! ## Gathering violations -/

variable {evaluate : α → Evaluation} {evaluate' : β → Evaluation} {xs : List α} {ys : List β}

theorem gather (parts : List.Forall₂ related xs ys)
    (each : ∀ x y, related x y → Matches τ (evaluate x) (evaluate' y)) :
    Matches τ (gather evaluate xs) (gather evaluate' ys) := by
  induction parts with
  | nil => exact .clean
  | cons first _ ih =>
      rw [gather_cons, gather_cons]
      apply (each _ _ first).bind
      intro found others here
      apply ih.map
      intro more rest there
      exact here.append there

end Matches

theorem gather_ok {evaluate : α → Evaluation} {xs : List α} {found : List Violation} :
    gather evaluate xs = .ok found →
      (∀ x ∈ xs, ∃ part, evaluate x = .ok part) ∧
      ∀ path, path ∈ found.map Violation.path ↔
        ∃ x ∈ xs, ∃ part, evaluate x = .ok part ∧ path ∈ part.map Violation.path := by
  induction xs generalizing found with
  | nil =>
      intro gathered
      obtain rfl := Except.ok.inj gathered
      simp
  | cons x rest ih =>
      intro gathered
      rw [gather_cons] at gathered
      cases here : evaluate x with
      | error stop =>
          rw [here] at gathered
          cases gathered
      | ok part =>
          rw [here] at gathered
          cases there : gather evaluate rest with
          | error stop =>
              rw [there] at gathered
              cases gathered
          | ok more =>
              rw [there] at gathered
              obtain rfl := Except.ok.inj gathered
              obtain ⟨all, places⟩ := ih there
              constructor
              · intro y member
                rcases List.mem_cons.mp member with rfl | later
                · exact ⟨part, here⟩
                · exact all y later
              · intro path
                simp [places, here]

theorem gather_error {evaluate : α → Evaluation} {xs : List α} {stop : Stop} :
    gather evaluate xs = .error stop → ∃ x ∈ xs, evaluate x = .error stop := by
  induction xs with
  | nil =>
      intro impossible
      cases impossible
  | cons x rest ih =>
      intro gathered
      rw [gather_cons] at gathered
      cases here : evaluate x with
      | error other =>
          rw [here] at gathered
          obtain rfl := Except.error.inj gathered
          exact ⟨x, List.mem_cons_self, here⟩
      | ok part =>
          rw [here] at gathered
          cases there : gather evaluate rest with
          | error other =>
              rw [there] at gathered
              obtain rfl := Except.error.inj gathered
              obtain ⟨y, later, broke⟩ := ih there
              exact ⟨y, List.mem_cons_of_mem _ later, broke⟩
          | ok more =>
              rw [there] at gathered
              cases gathered

/-- What one evaluation of a part matches, on either side, there is some part on the other side
    that does. Then the order of the parts does not matter to a loose comparison that excuses
    all faults: a flaw or a violation of one is one of the other, wherever it stands. -/
theorem gather_loose (loose : ¬ τ.strict) {evaluate : α → Evaluation} {evaluate' : β → Evaluation}
    {xs : List α} {ys : List β}
    (there : ∀ x ∈ xs, Matches τ (evaluate x) clean ∨
      ∃ y ∈ ys, Matches τ (evaluate x) (evaluate' y))
    (back : ∀ y ∈ ys, Matches τ clean (evaluate' y) ∨
      ∃ x ∈ xs, Matches τ (evaluate x) (evaluate' y)) :
    Matches τ (gather evaluate xs) (gather evaluate' ys) := by
  apply Agree.of_loose loose
  · -- a part with a flaw matches a part that goes through, which it cannot
    intro f others left right
    obtain ⟨x, member, broke⟩ := gather_error left
    obtain ⟨all, _⟩ := gather_ok right
    rcases there x member with same | ⟨y, among, same⟩
    · rw [broke] at same
      cases same
    · obtain ⟨part, fine⟩ := all y among
      rw [broke, fine] at same
      cases same
  · intro found f left right
    obtain ⟨all, _⟩ := gather_ok left
    obtain ⟨y, member, broke⟩ := gather_error right
    rcases back y member with same | ⟨x, among, same⟩
    · rw [broke] at same
      cases same
    · obtain ⟨part, fine⟩ := all x among
      rw [broke, fine] at same
      cases same
  · intro found others left right
    obtain ⟨all, places⟩ := gather_ok left
    obtain ⟨all', places'⟩ := gather_ok right
    refine ⟨fun path => ?_, fun strict => absurd strict loose⟩
    rw [places, places']
    constructor
    · rintro ⟨x, member, part, fine, place⟩
      rcases there x member with same | ⟨y, among, same⟩
      · rw [fine] at same
        cases same with
        | ok tells => cases (tells.places path).mp place
      · obtain ⟨part', fine'⟩ := all' y among
        rw [fine, fine'] at same
        cases same with
        | ok tells => exact ⟨y, among, part', fine', (tells.places path).mp place⟩
    · rintro ⟨y, member, part, fine, place⟩
      rcases back y member with same | ⟨x, among, same⟩
      · rw [fine] at same
        cases same with
        | ok tells => cases (tells.places path).mpr place
      · obtain ⟨part', fine'⟩ := all x among
        rw [fine, fine'] at same
        cases same with
        | ok tells => exact ⟨x, among, part', fine', (tells.places path).mpr place⟩

end Evaluation

end SchemaAudit

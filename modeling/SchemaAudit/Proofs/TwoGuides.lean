import SchemaAudit.Proofs.CopyLooks
import SchemaAudit.Proofs.Guides
import SchemaAudit.Proofs.PairedReferences

/-! # One schema led by two guides at once

Two guides lead through a schema side by side, each with a state of its own. The evaluation goes on
only while both lead to the same schema, or to copies of one, and then it is what either guide
comes to alone: an evaluation does not tell a copy from what it is a copy of.
-/

namespace SchemaAudit

namespace Store

/-- The very same value or a copy of it. Comparisons look mappings up by key, so copies count only
    where no key occurs twice. -/
def Alike (s : Store) (v w : Value) : Prop := v = w ∨ s.KeysDistinct ∧ ∃ n, Copy s s n v w

instance (s : Store) : DecidableRel s.Alike := fun v w =>
  decidable_of_iff (v = w ∨ s.KeysDistinct ∧ Copy s s (s.size + 1) v w)
    (or_congr_right (and_congr_right fun _ => Copy.exists_iff.symm))

/-- Alike with less than so many levels, unless it is the very same value. -/
def AlikeWithin (s : Store) (f : Nat) (v w : Value) : Prop :=
  v = w ∨ s.KeysDistinct ∧ ∃ n < f, Copy s s n v w

variable {s : Store} {f : Nat} {v w x : Value}

namespace AlikeWithin

theorem symm (alike : s.AlikeWithin f v w) : s.AlikeWithin f w v := by
  rcases alike with rfl | ⟨keys, n, less, copy⟩
  · exact .inl rfl
  · exact .inr ⟨keys, n, less, copy.symm⟩

theorem trans (first : s.AlikeWithin f v w) (second : s.AlikeWithin f w x) :
    s.AlikeWithin f v x := by
  rcases first with rfl | ⟨keys, n, less, copy⟩
  · exact second
  · rcases second with rfl | ⟨_, _, _, copy'⟩
    · exact .inr ⟨keys, n, less, copy⟩
    · exact .inr ⟨keys, n, less, copy.trans copy'⟩

theorem compared (alike : s.AlikeWithin (f + 1) v w) :
    v.sameWithin s (f + 1) w = true ∧ v.alikeWithin s (f + 1) w = true := by
  rcases alike with rfl | ⟨keys, n, less, copy⟩
  · simp [Value.sameWithin, Value.alikeWithin]
  · exact copy.compared keys less

theorem shape (alike : s.AlikeWithin (f + 1) v w) : Shape s s (s.AlikeWithin f) v w := by
  rcases alike with rfl | ⟨keys, n, less, copy⟩
  · exact .refl s (fun _ => .inl rfl) v
  · cases n with
    | zero => exact copy.elim
    | succ n =>
        exact Shape.mono copy fun _ _ inner => .inr ⟨keys, n, Nat.lt_of_succ_lt_succ less, inner⟩

end AlikeWithin

namespace Alike

theorem within (alike : s.Alike v w) : s.AlikeWithin (s.size + 2) v w := by
  rcases alike with rfl | ⟨keys, _, copy⟩
  · exact .inl rfl
  · obtain ⟨k, less, _, copy⟩ := copy.bounded
    exact .inr ⟨keys, k, less, copy⟩

theorem of_within (alike : s.AlikeWithin f v w) : s.Alike v w := by
  rcases alike with rfl | ⟨keys, n, _, copy⟩
  · exact .inl rfl
  · exact .inr ⟨keys, n, copy⟩

theorem display_eq (alike : s.Alike v w) : v.display s = w.display s := by
  rcases alike with rfl | ⟨_, _, copy⟩
  · rfl
  · exact copy.display_eq

/-- Values that are alike stand for each other, as data and as schemas. -/
def pairing (s : Store) : Pairing s s where
  data := s.Alike
  node a b := s.Alike (.mapping a) (.mapping b)
  scalars _ _ := .inl rfl
  shape alike := (AlikeWithin.shape (within alike)).mono fun _ _ => of_within

def likeness (s : Store) : Likeness (pairing s) where
  seen f f' v w := f = f' ∧ s.AlikeWithin f v w
  data := fun ⟨_, alike⟩ => of_within alike
  whole alike := ⟨rfl, within alike⟩
  level := by
    rintro f _ v w ⟨rfl, _⟩
    exact Iff.rfl
  below := by
    rintro f _ v w ⟨⟨⟩, _⟩
    exact Iff.rfl
  shape := by
    rintro f _ v w ⟨⟨⟩, alike⟩
    exact alike.shape.mono fun _ _ inner => ⟨rfl, inner⟩
  twins := by
    rintro f _ v w w' ⟨⟨⟩, first⟩ ⟨_, second⟩
    exact (first.symm.trans second).compared
  twinned := by
    rintro f _ v v' w ⟨⟨⟩, first⟩ ⟨_, second⟩
    exact (first.trans second.symm).compared

open Evaluation

/-- Faults of the first evaluation excuse the second. -/
def mirror (s : Store) : Mirror (.excusing fun _ => True) s s := (likeness s).mirror id display_eq

theorem wide : (mirror s).Wide := fun _ _ => id

theorem entries_related {a b : Nat} (alike : s.Alike (.mapping a) (.mapping b)) :
    Entries.Related s.Alike (s.entries a) (s.entries b) :=
  Pairing.entries_related (m := pairing s) alike

theorem faithful : (mirror s).Faithful :=
  Mirror.faithful_of_entries trivial wide fun _ _ => entries_related

theorem part (v : Value) : (mirror s).Part v v := wide.part (.inl rfl)

end Alike

end Store

namespace Evaluation

variable {State State' Other : Type} {s : Store} {g : Guide State} {h : Guide State'}
  {arrival : Arrival} {now inside beyond : State × State'} {es : Entries} {ref : String} {v : Value}

namespace Guide

/-- Go on only where two guides both do, and only to what both lead to, be it to copies. -/
def both (s : Store) (g : Guide State) (h : Guide State') : Guide (State × State') where
  enter now arrival es :=
    match g.enter now.1 arrival es, h.enter now.2 arrival es with
    | .ok inside, .ok inside' => .ok (inside, inside')
    | _, _ => faulted .noSuchPart
  refer now ref :=
    match g.refer now.1 ref, h.refer now.2 ref with
    | .ok (v, beyond), .ok (w, beyond') =>
      if s.Alike v w then .ok (v, beyond, beyond') else faulted .noSuchPart
    | _, _ => faulted .noSuchPart

theorem both_enter (entered : (both s g h).enter now arrival es = .ok inside) :
    g.enter now.1 arrival es = .ok inside.1 ∧ h.enter now.2 arrival es = .ok inside.2 := by
  simp only [both] at entered
  split at entered
  · next left right =>
      obtain rfl := Except.ok.inj entered
      exact ⟨left, right⟩
  · cases entered

theorem both_refer (found : (both s g h).refer now ref = .ok (v, beyond)) :
    g.refer now.1 ref = .ok (v, beyond.1) ∧
      ∃ w, s.Alike v w ∧ h.refer now.2 ref = .ok (w, beyond.2) := by
  simp only [both] at found
  split at found
  · next v inside w inside' left right =>
      by_cases alike : s.Alike v w
      · rw [if_pos alike] at found
        cases found
        exact ⟨left, w, alike, right⟩
      · rw [if_neg alike] at found
        cases found
  · cases found

theorem both_enter_unflawed (now : State × State') (es : Entries) (f : Flaw) :
    (both s g h).enter now arrival es ≠ flawed f := by
  simp only [both]
  split <;> rintro ⟨⟩

theorem both_refer_unflawed (now : State × State') (ref : String) (f : Flaw) :
    (both s g h).refer now ref ≠ flawed f := by
  simp only [both]
  split
  · split <;> rintro ⟨⟩
  · rintro ⟨⟩

end Guide

/-- What does not stop for a flaw agrees with all that comes to the same where it succeeds. -/
theorem Agree.of_success {α β : Type} {related : α → β → Prop} {x : Except Stop α}
    {y : Except Stop β} (unflawed : ∀ f, x ≠ flawed f)
    (success : ∀ a, x = .ok a → ∃ b, y = .ok b ∧ related a b) :
    Agree (.excusing fun _ => True) related x y := by
  cases x with
  | ok a =>
      obtain ⟨b, rfl, same⟩ := success a rfl
      exact .ok same
  | error stop =>
      cases stop with
      | flaw f => exact absurd rfl (unflawed f)
      | fault fault => exact .first trivial y

/-- A guide goes into a schema as into what is alike. -/
def Guide.Steady (s : Store) (g : Guide State) : Prop :=
  ∀ x arrival a b, s.Alike (.mapping a) (.mapping b) →
    g.enter x arrival (s.entries a) = g.enter x arrival (s.entries b)

theorem libraryGuide_steady (l : Reference.Library) : (libraryGuide l).Steady s := by
  intro scope arrival a b alike
  simp only [libraryGuide, Pairing.baseAt_eq (m := Store.Alike.pairing s) alike.entries_related]

/-- What two guides do at once, a guide does alone that does what one of them does. -/
theorem Guide.both_leads {k : Guide Other} (pick : State × State' → Other) (steady : k.Steady s)
    (enters : ∀ {now inside arrival es}, (both s g h).enter now arrival es = .ok inside →
      k.enter (pick now) arrival es = .ok (pick inside))
    (refers : ∀ {now beyond ref v}, (both s g h).refer now ref = .ok (v, beyond) →
      ∃ w, s.Alike v w ∧ k.refer (pick now) ref = .ok (w, pick beyond)) :
    (Store.Alike.mirror s).Leads (both s g h) k (fun now x => pick now = x) where
  enter := by
    rintro now _ arrival a b rfl alike
    apply Agree.of_success (both_enter_unflawed now _)
    intro inside entered
    rw [← steady _ _ a b alike]
    exact ⟨_, enters entered, rfl⟩
  refer := by
    rintro now _ ref rfl
    apply Agree.of_success (both_refer_unflawed now ref)
    rintro ⟨target, beyond⟩ found
    obtain ⟨w, alike, led⟩ := refers found
    exact ⟨_, led, Store.Alike.wide.part alike, rfl⟩

end Evaluation

end SchemaAudit

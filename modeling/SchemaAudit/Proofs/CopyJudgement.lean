import SchemaAudit.Instance.Judge
import SchemaAudit.Proofs.CopyReferences
import SchemaAudit.Proofs.Guides

/-! # Judging copies

A schema judges a value as a copy of the schema judges a copy of the value.
-/

namespace SchemaAudit

open Evaluation Reference

namespace Copy

variable {s t : Store} {n : Nat} {v w : Value} {a b : Nat}

/-- Nothing excuses a difference. -/
abbrev exactly : Tolerance := .excusing fun _ => False

def mirror (keys : s.KeysDistinct) (keys' : t.KeysDistinct) : Mirror exactly s t :=
  (likeness keys keys').mirror id fun ⟨_, copy⟩ => copy.display_eq

theorem entries_related (same : (pairing s t).node a b) :
    Entries.Related (pairing s t).data (s.entries a) (t.entries b) :=
  Pairing.entries_related (m := pairing s t) same

variable (keys : s.KeysDistinct) (keys' : t.KeysDistinct)

theorem wide : (mirror keys keys').Wide := fun _ _ => id

theorem faithful : (mirror keys keys').Faithful :=
  Mirror.faithful_of_entries trivial (wide keys keys') fun _ _ => entries_related

theorem leads {l l' : Library} (same : Shelved s t l l') :
    Mirror.Leads (mirror keys keys') (libraryGuide l) (libraryGuide l') Eq where
  enter := by
    rintro scope _ arrival a b rfl node
    simp only [libraryGuide, Pairing.baseAt_eq (entries_related node)]
    exact .of_eq rfl
  refer := by
    rintro scope _ ref rfl
    apply (lookup_agrees same scope ref).mono
    rintro p q ⟨target, beyond⟩
    exact ⟨(wide keys keys').part target, beyond⟩

theorem depthBound_eq {i j : Value} (root : (pairing s t).data v w)
    (inst : (pairing s t).data i j) : depthBound s v i = depthBound t w j := by
  obtain ⟨_, root⟩ := root
  obtain ⟨_, inst⟩ := inst
  have occurrences : List.Forall₂ (pairing s t).data (v.unfold s ++ i.unfold s)
      (w.unfold t ++ j.unfold t) := List.rel_append root.unfold_related inst.unfold_related
  have mappings : (v.unfold s ++ i.unfold s).countP (fun v => v.kind == .object) =
      (w.unfold t ++ j.unfold t).countP (fun v => v.kind == .object) :=
    countP_of_forall₂ occurrences fun v w same => by rw [((pairing s t).shape same).kind]
  simp only [depthBound, occurrences.length_eq, mappings]

include keys keys'

/-- Copies are judged alike by copies. -/
theorem judge_eq {i j : Value} (node : (pairing s t).node a b) (inst : (pairing s t).data i j) :
    judge s i a = judge t j b := by
  have flawed : identifierFlaw? (s.entries a) = identifierFlaw? (t.entries b) := by
    rw [identifierFlaw?, identifierFlaw?]
    rcases rel_cases ((entries_related node).lookup identifierKey) with
      ⟨none, none'⟩ | ⟨v, w, found, found', same⟩
    · rw [none, none']
    · rw [found, found']
      cases (pairing s t).shape same <;> rfl
  have evaluated : Matches exactly (ofRoot s a i) (ofRoot t b j) := by
    obtain ⟨n, copy⟩ := node
    rw [ofRoot, ofRoot]
    apply (ofRoot_agrees copy).bind
    intro l l' same
    rw [evaluate_eq_evaluateBy, evaluate_eq_evaluateBy, same.store, same.store', same.rootUri,
      depthBound_eq ⟨n, copy⟩ inst]
    exact Mirror.evaluateBy_matches (faithful keys keys') (leads keys keys' same) (Nat.le_refl _)
      (fun less => absurd less (Nat.lt_irrefl _)) .referred _ _ _ _ _ _ rfl (.node ⟨n, copy⟩) inst
  rw [judge, judge, flawed, evaluated.eq_of_excusing fun _ => False.elim]

end Copy

end SchemaAudit

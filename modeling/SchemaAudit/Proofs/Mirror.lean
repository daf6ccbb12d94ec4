import SchemaAudit.Instance.Schema
import SchemaAudit.Proofs.Agreement
import SchemaAudit.Proofs.Keys
import SchemaAudit.Proofs.Likeness

/-! # Stores that mirror each other

Two stores hold values that are told apart by nothing an evaluation looks at. What is asked of a
schema is asked keyword by keyword, so that two schemas may differ under all other keys.
-/

namespace SchemaAudit

namespace Evaluation

/-- Keys that an evaluation looks at besides those of keywords. -/
def flagKeys : List String := ["required", "exclusiveMinimum", "exclusiveMaximum"]

/-- Two stores that cannot be told apart through the values that are paired. -/
structure Mirror (τ : Tolerance) (s t : Store) extends Pairing s t where
  same : ∀ {v w v' w'}, data v w → data v' w' → v.same s v' = w.same t w'
  distinct : ∀ {vs ws}, List.Forall₂ data vs ws → Value.distinct s vs = Value.distinct t ws
  lookupKey : ∀ {v w}, data v w → isLookupKey s (s.size + 2) v = isLookupKey t (t.size + 2) w
  shown : τ.strict → ∀ {v w}, data v w → v.display s = w.display t
  shownNode : τ.strict → ∀ {a b}, node a b →
    (Value.mapping a).display s = (Value.mapping b).display t
  named : τ.strict → ∀ {a b}, node a b →
    alternativeName s (.mapping a) = alternativeName t (.mapping b)

end Evaluation

open Evaluation

/-- Values mirror each other that compare alike, as deep as one looks, and are displayed alike. Here
    schemas are values like any other. -/
def Likeness.mirror {τ : Tolerance} {s t : Store} {m : Pairing s t} (l : Likeness m)
    (whole : ∀ {a b}, m.node a b → m.data (.mapping a) (.mapping b))
    (shown : ∀ {v w}, m.data v w → v.display s = w.display t) : Mirror τ s t where
  toPairing := m
  same := l.same_eq
  distinct := l.distinct_eq
  lookupKey same := l.isLookupKey_eq (l.whole same)
  shown _ _ _ := shown
  shownNode _ _ _ same := shown (whole same)
  named _ a b same := by
    rw [alternativeName, alternativeName]
    rcases rel_cases ((Pairing.entries_related (whole same)).lookup "name") with
      ⟨none, none'⟩ | ⟨v, w, found, found', name⟩
    · rw [none, none']
      exact shown (whole same)
    · rw [found, found']
      exact shown name

/-- The values of a keyword in two schemas that stand for each other. A reference is not looked
    into. -/
def Pairing.Held {s t : Store} (m : Pairing s t) : Keyword → Value → Value → Prop
  | .type | .disallow | .properties | .patternProperties | .dependencies => Shape s t m.Part
  | .additionalProperties | .additionalItems => m.Part
  | .items | .extending => m.Rack
  | .ref => fun v w => m.data v w ∨ v = w
  | _ => m.data

theorem Pairing.Wide.held {s t : Store} {m : Pairing s t} {v w : Value} (wide : m.Wide)
    (k : Keyword) (same : m.data v w) : m.Held k v w := by
  cases k with
  | type | disallow | properties | patternProperties | dependencies => exact wide.parts same
  | additionalProperties | additionalItems => exact wide.part same
  | items | extending => exact wide.rack same
  | ref => exact .inl same
  | _ => exact same

variable {τ : Tolerance} {s t : Store} {m : Mirror τ s t} {v w : Value}

namespace Pairing.Part

theorem shown (strict : τ.strict) (part : m.Part v w) : v.display s = w.display t := by
  cases part with
  | node same => exact m.shownNode strict same
  | data same => exact m.shown strict same

theorem named (strict : τ.strict) (part : m.Part v w) :
    alternativeName s v = alternativeName t w := by
  cases part with
  | node same => exact m.named strict same
  | @data _ _ same other =>
      have plain : ∀ (s : Store) {u : Value}, u.kind ≠ .object →
          alternativeName s u = u.display s := by
        intro s u other
        cases u with
        | mapping => exact absurd rfl other
        | _ => rfl
      have other' : w.kind ≠ .object := (m.shape same).kind ▸ other
      rw [plain s other, plain t other', m.shown strict same]

end Pairing.Part

namespace Evaluation.Mirror

/-- The entries of two schemas that mirror each other. In a strict comparison the keys are the
    same in the same order; in a loose one only those of keywords count, in any order. -/
structure Arranged (m : Mirror τ s t) (es fs : Entries) : Prop where
  keyword : ∀ k : Keyword, Option.Rel (m.Held k) (es.lookup k.key) (fs.lookup k.key)
  flag : ∀ key ∈ flagKeys, Option.Rel m.data (es.lookup key) (fs.lookup key)
  order : τ.strict → List.Forall₂
    (fun e f => e.1 = f.1 ∧ ∀ k, Keyword.ofKey? e.1 = some k → m.Held k e.2 f.2) es fs
  once : ¬ τ.strict → es.Distinct ∧ fs.Distinct

/-- Schemas that mirror each other are so through and through. -/
def Faithful (m : Mirror τ s t) : Prop :=
  ∀ a b, m.node a b → m.Arranged (s.entries a) (t.entries b)

/-- Schemas with related entries, key by key in the same order, mirror each other through and
    through. -/
theorem faithful_of_entries (strict : τ.strict) (wide : m.Wide)
    (entries : ∀ a b, m.node a b → Entries.Related m.data (s.entries a) (t.entries b)) :
    m.Faithful := by
  intro a b same
  have held_at : ∀ {related : Value → Value → Prop} key, (∀ v w, m.data v w → related v w) →
      Option.Rel related ((s.entries a).lookup key) ((t.entries b).lookup key) := by
    intro related key weaken
    rcases rel_cases ((entries a b same).lookup key) with
      ⟨none, none'⟩ | ⟨v, w, found, found', here⟩
    · rw [none, none']
      exact .none
    · rw [found, found']
      exact .some (weaken v w here)
  exact {
    keyword := fun k => held_at k.key fun _ _ => wide.held k
    flag := fun key _ => held_at key fun _ _ => id
    order := fun _ => (entries a b same).imp fun _ _ here =>
      ⟨here.1, fun k _ => wide.held k here.2⟩
    once := fun loose => absurd strict loose }

end Evaluation.Mirror

end SchemaAudit

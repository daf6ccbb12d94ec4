import SchemaAudit.Instance.Schema
import SchemaAudit.Proofs.Agreement
import SchemaAudit.Proofs.Pairing
import SchemaAudit.Reference.Lookup

/-! # References in values that stand for each other

Identifiers, names and the schemas inside a schema are found alike in values that stand for each
other, and tokens lead to what stands for each other.
-/

namespace SchemaAudit

open Evaluation Reference

namespace Pairing

variable {s t : Store} {m : Pairing s t} {τ : Tolerance} {v w : Value} {es fs : Entries}

theorem identifierText_eq (same : m.data v w) : identifierText v = identifierText w := by
  cases m.shape same <;> rfl

/-- A value that is null or a text stands for itself alone. -/
theorem lookup_cases (map : Entries.Related m.data es fs) (key : String) :
    (es.lookup key = none ∧ fs.lookup key = none) ∨
      ∃ v w, es.lookup key = some v ∧ fs.lookup key = some w ∧ m.data v w :=
  rel_cases (map.lookup key)

theorem identifier?_eq (map : Entries.Related m.data es fs) : identifier? es = identifier? fs := by
  have referring : (es.lookup referenceKey).isSome = (fs.lookup referenceKey).isSome := by
    rcases lookup_cases map referenceKey with ⟨none, none'⟩ | ⟨v, w, found, found', _⟩
    · rw [none, none']
    · rw [found, found']
      rfl
  rw [identifier?, identifier?, referring]
  congr 1
  rcases lookup_cases map identifierKey with ⟨none, none'⟩ | ⟨v, w, found, found', same⟩
  · rw [none, none']
  · rw [found, found']
    cases m.shape same <;> rfl

theorem name?_eq (map : Entries.Related m.data es fs) : name? es = name? fs := by
  rw [name?, name?]
  rcases lookup_cases map identifierKey with ⟨none, none'⟩ | ⟨v, w, found, found', same⟩
  · rw [none, none']
  · rw [found, found']
    simp only [identifierText_eq same]

theorem baseInside_eq (map : Entries.Related m.data es fs) (base : String) :
    baseInside base es = baseInside base fs := by
  rw [baseInside, baseInside, identifier?_eq map]

theorem baseAt_eq (map : Entries.Related m.data es fs) (base : String) (arrival : Arrival) :
    baseAt base es arrival = baseAt base fs arrival := by
  cases arrival with
  | referred => rfl
  | inside => rw [baseAt, baseAt, baseInside_eq map]

theorem schemaEntries_agrees (same : m.data v w) :
    Agree τ (Entries.Related m.data) (schemaEntries s v) (schemaEntries t w) := by
  cases m.shape same with
  | mapping entries => exact .ok entries
  | list | tuple => exact .stop _
  | scalar plain => cases v <;> first | exact plain.elim | exact .stop _

/-! ## Following tokens -/

/-- The same key, if there is one, with values that stand for each other. -/
def Stepped (m : Pairing s t) (p q : Option String × Option Value) : Prop :=
  p.1 = q.1 ∧ Option.Rel m.data p.2 q.2

/-- Values that stand for each other, with the same base. -/
def Reached (m : Pairing s t) (p q : Value × String) : Prop := m.data p.1 q.1 ∧ p.2 = q.2

/-- A token leads to the elements at the same place of two sequences. -/
theorem position_agrees {vs ws : List Value} (row : List.Forall₂ m.data vs ws)
    (token : List Char) :
    Agree τ m.Stepped
      (match Text.integer? (String.ofList token) with
        | none => faulted .invalidValue
        | some i => .ok (none, (position? vs.length i).bind (vs[·]?)))
      (match Text.integer? (String.ofList token) with
        | none => faulted .invalidValue
        | some i => .ok (none, (position? ws.length i).bind (ws[·]?))) := by
  cases Text.integer? (String.ofList token) with
  | none => exact .stop _
  | some i =>
      refine .ok ⟨rfl, ?_⟩
      simp only [row.length_eq]
      cases position? ws.length i with
      | none => exact .none
      | some place => exact getElem?_of_forall₂ row place

theorem step_agrees (same : m.data v w) (token : List Char) :
    Agree τ m.Stepped (step s v token) (step t w token) := by
  cases m.shape same with
  | mapping entries => exact .ok ⟨rfl, entries.lookup _⟩
  | list elements => exact position_agrees elements token
  | tuple elements => exact position_agrees elements token
  | scalar plain =>
      have parts := (m.shape same).iterate? m.scalars
      cases v with
      | text x =>
          cases parts with
          | some row => exact position_agrees row token
      | octets os =>
          cases parts with
          | some row => exact position_agrees row token
      | list | tuple | mapping => exact plain.elim
      | _ => exact .stop _

theorem follow_agrees (same : m.data v w) (tokens : List (List Char))
    (since : List (Option String)) (base : String) :
    Agree τ (Option.Rel m.Reached) (follow s tokens since base v)
      (follow t tokens since base w) := by
  induction tokens generalizing since base v w with
  | nil => exact .ok (.some ⟨same, rfl⟩)
  | cons token rest ih =>
      rw [follow, follow]
      apply (step_agrees same token).bind
      rintro ⟨key, x⟩ ⟨_, y⟩ ⟨rfl, next⟩
      cases next with
      | none => exact .ok .none
      | @some x y next =>
          dsimp only
          rw [(m.shape next).kind]
          split
          · apply (schemaEntries_agrees next).bind
            intro es fs map
            rw [baseInside_eq map base]
            apply (Agree.of_eq rfl).bind
            rintro inside _ rfl
            cases inside with
            | none => exact ih next _ _
            | some inside => exact ih next _ _
          · exact ih next _ _

/-! ## Schemas inside a schema -/

theorem iterate?_agrees (same : m.data v w) (fault : Fault) :
    Agree τ (List.Forall₂ m.data)
      (match v.iterate? s with | some vs => .ok vs | none => faulted fault)
      (match w.iterate? t with | some ws => .ok ws | none => faulted fault) := by
  rcases rel_cases ((m.shape same).iterate? m.scalars) with
    ⟨none, none'⟩ | ⟨vs, ws, parts, parts', row⟩
  · rw [none, none']
    exact .stop _
  · rw [parts, parts']
    exact .ok row

theorem extendedSchemas_agrees (map : Entries.Related m.data es fs) :
    Agree τ (List.Forall₂ m.data) (extendedSchemas s es) (extendedSchemas t fs) := by
  rw [extendedSchemas, extendedSchemas]
  rcases lookup_cases map "extends" with ⟨none, none'⟩ | ⟨v, w, found, found', same⟩
  · rw [none, none']
    exact .ok .nil
  · rw [found, found']
    exact iterate?_agrees same _

theorem values_related (map : Entries.Related m.data es fs) :
    List.Forall₂ m.data (es.map Prod.snd) (fs.map Prod.snd) :=
  List.forall₂_map_left_iff.mpr (List.forall₂_map_right_iff.mpr (map.imp fun _ _ same => same.2))

theorem mappedSchemas_agrees (map : Entries.Related m.data es fs) (key : String) :
    Agree τ (List.Forall₂ m.data) (mappedSchemas s es key) (mappedSchemas t fs key) := by
  rw [mappedSchemas, mappedSchemas]
  rcases lookup_cases map key with ⟨none, none'⟩ | ⟨v, w, found, found', same⟩
  · rw [none, none']
    exact .ok .nil
  · rw [found, found']
    cases m.shape same with
    | mapping entries => exact .ok (values_related entries)
    | list | tuple => exact .stop _
    | scalar plain => cases v <;> first | exact plain.elim | exact .stop _

theorem dependentSchemas_agrees (map : Entries.Related m.data es fs) :
    Agree τ (List.Forall₂ m.data) (dependentSchemas s es) (dependentSchemas t fs) := by
  rw [dependentSchemas, dependentSchemas]
  rcases lookup_cases map "dependencies" with ⟨none, none'⟩ | ⟨v, w, found, found', same⟩
  · rw [none, none']
    exact .ok .nil
  · rw [found, found']
    cases m.shape same with
    | list | tuple => exact .stop _
    | scalar plain => cases v <;> first | exact plain.elim | exact .stop _ | exact .ok .nil
    | @mapping a b entries =>
        -- whether any are listed hangs on the first of them
        have row := values_related entries
        simp only
        revert row
        generalize (s.entries a).map Prod.snd = vs
        generalize (t.entries b).map Prod.snd = ws
        intro row
        cases row with
        | nil => exact .ok .nil
        | @cons u _ _ _ first rest =>
            cases m.shape first with
            | mapping => exact .ok (.cons first rest)
            | list | tuple => exact .ok .nil
            | scalar plain => cases u <;> first | exact plain.elim | exact .ok .nil

theorem itemSchemas_related (map : Entries.Related m.data es fs) :
    List.Forall₂ m.data (itemSchemas s es) (itemSchemas t fs) := by
  rw [itemSchemas, itemSchemas]
  rcases lookup_cases map "items" with ⟨none, none'⟩ | ⟨v, w, found, found', same⟩
  · rw [none, none']
    exact .nil
  · rw [found, found']
    have parts := (m.shape same).iterate? m.scalars
    have through : List.Forall₂ m.data ((v.iterate? s).getD [v]) ((w.iterate? t).getD [w]) := by
      rcases rel_cases parts with ⟨none, none'⟩ | ⟨vs, ws, parts, parts', row⟩
      · rw [none, none']
        exact .cons same .nil
      · rw [parts, parts']
        exact row
    cases m.shape same with
    | mapping => exact .cons same .nil
    | list | tuple => exact through
    | scalar plain => cases v <;> first | exact plain.elim | exact .nil | exact through

theorem singleSchemas_related (map : Entries.Related m.data es fs) :
    List.Forall₂ m.data (singleSchemas es) (singleSchemas fs) := by
  rw [singleSchemas, singleSchemas]
  induction schemaKeys with
  | nil => exact .nil
  | cons key rest ih =>
      rw [List.filterMap_cons, List.filterMap_cons]
      rcases lookup_cases map key with ⟨none, none'⟩ | ⟨v, w, found, found', same⟩
      · rw [none, none']
        exact ih
      · rw [found, found']
        cases m.shape same with
        | mapping => exact .cons same ih
        | list | tuple => exact ih
        | scalar plain => cases v <;> first | exact plain.elim | exact ih

theorem subschemas_agrees (map : Entries.Related m.data es fs) :
    Agree τ (List.Forall₂ m.data) (subschemas s es) (subschemas t fs) := by
  rw [subschemas, subschemas]
  apply (extendedSchemas_agrees map).bind
  intro extended extended' first
  have listed : Agree τ (List.Forall₂ (List.Forall₂ m.data))
      (schemaMapKeys.mapM (mappedSchemas s es)) (schemaMapKeys.mapM (mappedSchemas t fs)) := by
    induction schemaMapKeys with
    | nil => exact .ok .nil
    | cons key rest ih =>
        rw [List.mapM_cons, List.mapM_cons]
        apply (mappedSchemas_agrees map key).bind
        intro vs ws row
        apply ih.bind
        intro more more' rows
        exact .ok (.cons row rows)
  apply listed.bind
  intro mapped mapped' second
  apply (dependentSchemas_agrees map).bind
  intro dependent dependent' third
  refine .ok ?_
  have all := List.rel_append first (List.rel_flatten second)
  exact List.rel_append (List.rel_append (List.rel_append all (itemSchemas_related map)) third)
    (singleSchemas_related map)

end Pairing

end SchemaAudit

import SchemaAudit.Proofs.CopyLooks
import SchemaAudit.Proofs.PairedReferences

/-! # References in copies

Looked through from a value and from a copy of it, the same documents and names come to light, and
a reference leads to a schema and to its copy.
-/

namespace SchemaAudit

open Evaluation Reference

theorem foldlM_agrees {α β σ σ' : Type} {τ : Tolerance} {related : α → β → Prop}
    {states : σ → σ' → Prop} {f : σ → α → Except Stop σ} {g : σ' → β → Except Stop σ'}
    {xs : List α} {ys : List β} (row : List.Forall₂ related xs ys)
    (each : ∀ x y a b, states x y → related a b → Agree τ states (f x a) (g y b)) {x : σ} {y : σ'}
    (start : states x y) : Agree τ states (xs.foldlM f x) (ys.foldlM g y) := by
  induction row generalizing x y with
  | nil => exact .ok start
  | cons first _ ih =>
      rw [List.foldlM_cons, List.foldlM_cons]
      exact (each x y _ _ start first).bind fun _ _ => ih

/-- Surveys that brought to light what stands for each other under the same names. -/
structure Survey.Related {s t : Store} (m : Pairing s t) (found found' : Survey) : Prop where
  documents : List.Forall₂ (fun p q => p.1 = q.1 ∧ m.data p.2 q.2) found.documents
    found'.documents
  names : List.Forall₂ (fun p q => p.1 = q.1 ∧ m.data p.2 q.2) found.names found'.names

namespace Copy

variable {s t : Store} {τ : Tolerance} {n f f' : Nat} {v w : Value}

/-- Values without parts, and copies of so many levels. -/
def level (s t : Store) (n : Nat) : Pairing s t where
  data v w := v = w ∧ v.IsScalar ∨ Copy s t n v w
  node _ _ := False
  scalars _ plain := .inl ⟨rfl, plain⟩
  shape := by
    rintro v w (⟨rfl, plain⟩ | copy)
    · exact .scalar plain
    · cases n with
      | zero => exact copy.elim
      | succ n => exact Shape.mono copy fun v w inner => .inr (inner.mono n.le_succ)

theorem pairing_of_level (same : (level s t n).data v w) : (pairing s t).data v w := by
  rcases same with ⟨rfl, plain⟩ | copy
  · exact ⟨1, .scalar plain⟩
  · exact ⟨n, copy⟩

theorem survey_scalar {uri : String} {found found' : Survey} (plain : v.IsScalar) :
    Agree τ (Survey.Related (pairing s t)) (survey s (f + 1) uri v found)
      (survey t (f' + 1) uri v found') := by
  cases v with
  | list | tuple | mapping => exact plain.elim
  | _ => exact .stop _

theorem survey_agrees {uri : String} {found found' : Survey} (same : (level s t n).data v w)
    (enough : n < f) (enough' : n < f') (known : found.Related (pairing s t) found') :
    Agree τ (Survey.Related (pairing s t)) (survey s f uri v found) (survey t f' uri w found') := by
  induction n generalizing f f' uri v w found found' with
  | zero =>
      obtain ⟨f, rfl⟩ := Nat.exists_eq_succ_of_ne_zero (Nat.ne_zero_of_lt enough)
      obtain ⟨f', rfl⟩ := Nat.exists_eq_succ_of_ne_zero (Nat.ne_zero_of_lt enough')
      rcases same with ⟨rfl, plain⟩ | copy
      · exact survey_scalar plain
      · exact copy.elim
  | succ n ih =>
      obtain ⟨f, rfl⟩ := Nat.exists_eq_succ_of_ne_zero (Nat.ne_zero_of_lt enough)
      obtain ⟨f', rfl⟩ := Nat.exists_eq_succ_of_ne_zero (Nat.ne_zero_of_lt enough')
      rcases same with ⟨rfl, plain⟩ | copy
      · exact survey_scalar plain
      have here := pairing_of_level (.inr copy)
      cases copy with
      | scalar plain => exact survey_scalar plain
      | list | tuple => exact .stop _
      | @mapping a b entries =>
          have map : Entries.Related (level s t n).data (s.entries a) (t.entries b) :=
            entries.imp fun _ _ same => ⟨same.1, .inr same.2⟩
          rw [survey, survey]
          change Agree τ _ (baseInside uri (s.entries a) >>= _) (baseInside uri (t.entries b) >>= _)
          rw [Pairing.baseInside_eq map]
          apply (Agree.of_eq rfl).bind
          rintro inside _ rfl
          rw [Pairing.name?_eq map]
          apply (Agree.of_eq rfl).bind
          rintro name _ rfl
          apply (Pairing.subschemas_agrees map).bind
          intro parts parts' row
          refine foldlM_agrees (List.rel_reverse row) (fun x y u u' now inner => ?_) ?_
          · exact ih inner (Nat.lt_of_succ_lt_succ enough) (Nat.lt_of_succ_lt_succ enough') now
          · have noted : Survey.Related (pairing s t)
                (if inside.isSome then
                  { found with documents := (inside.getD uri, .mapping a) :: found.documents }
                else found)
                (if inside.isSome then
                  { found' with documents := (inside.getD uri, .mapping b) :: found'.documents }
                else found') := by
              split
              · exact ⟨.cons ⟨rfl, here⟩ known.documents, known.names⟩
              · exact known
            cases name with
            | none => exact noted
            | some name => exact ⟨noted.documents, .cons ⟨rfl, here⟩ noted.names⟩

/-! ## Libraries -/

/-- Libraries whose roots are a value and its copy. -/
structure Shelved (s t : Store) (l l' : Library) : Prop where
  store : l.store = s
  store' : l'.store = t
  root : (pairing s t).data l.root l'.root
  rootUri : l.rootUri = l'.rootUri

variable {l l' : Library}

theorem ofRoot_agrees {a b : Nat} (copy : Copy s t n (.mapping a) (.mapping b)) :
    Agree τ (Shelved s t) (Library.ofRoot s a) (Library.ofRoot t b) := by
  have here : (pairing s t).data (.mapping a) (.mapping b) := ⟨n, copy⟩
  cases (pairing s t).shape here with
  | scalar plain => exact plain.elim
  | mapping entries =>
      rw [Library.ofRoot, Library.ofRoot, Pairing.identifier?_eq entries]
      apply (Agree.of_eq rfl).bind
      rintro id _ rfl
      exact .ok ⟨rfl, rfl, here, rfl⟩

theorem library_survey_agrees (same : Shelved s t l l') :
    Agree τ (Survey.Related (pairing s t)) l.survey l'.survey := by
  obtain ⟨n, copy⟩ := same.root
  obtain ⟨k, less, less', copy⟩ := copy.bounded
  rw [Library.survey, Library.survey, same.store, same.store', same.rootUri]
  exact survey_agrees (.inr copy) less less' ⟨.cons ⟨rfl, same.root⟩ .nil, .nil⟩

theorem named_agrees (same : Shelved s t l l') {document document' : Value}
    (here : (pairing s t).data document document') (uri name : String) :
    Agree τ (pairing s t).data (l.named uri document name) (l'.named uri document' name) := by
  rw [Library.named, Library.named]
  apply (library_survey_agrees same).bind
  intro found found' known
  rcases rel_cases (lookup_of_forall₂ known.names (uri, name)) with
    ⟨none, none'⟩ | ⟨v, w, there, there', schema⟩
  · rw [none, none', same.store, same.store']
    apply (Pairing.schemaEntries_agrees here).bind
    intro es fs map
    rw [Pairing.identifier?_eq map]
    apply (Agree.of_eq rfl).bind
    rintro own _ rfl
    have known_as : Option.Rel (pairing s t).data
        (own.bind fun own => found.names.lookup (own, name))
        (own.bind fun own => found'.names.lookup (own, name)) := by
      cases own with
      | none => exact .none
      | some own => exact lookup_of_forall₂ known.names (own, name)
    rcases rel_cases known_as with ⟨none, none'⟩ | ⟨v, w, there, there', schema⟩
    · rw [none, none']
      obtain ⟨k, copy⟩ := here
      simp only [copy.display_eq]
      split <;> exact .stop _
    · rw [there, there']
      exact .ok schema
  · rw [there, there']
    exact .ok schema

theorem document_agrees (same : Shelved s t l l') (scope : Scope) (ref uri : String) :
    Agree τ (fun p q => (pairing s t).data p.1 q.1 ∧ p.2 = q.2) (l.document scope ref uri)
      (l'.document scope ref uri) := by
  rw [Library.document, Library.document, same.rootUri]
  split
  · exact .ok ⟨same.root, rfl⟩
  · apply (library_survey_agrees same).bind
    intro found found' known
    rcases rel_cases (lookup_of_forall₂ known.documents uri) with
      ⟨none, none'⟩ | ⟨v, w, here, here', document⟩
    · rw [none, none']
      exact .stop _
    · rw [here, here']
      exact .ok ⟨document, rfl⟩

/-- A reference leads to a schema and to its copy. -/
theorem lookup_agrees (same : Shelved s t l l') (scope : Scope) (ref : String) :
    Agree τ (fun p q => (pairing s t).data p.1 q.1 ∧ p.2 = q.2) (l.lookup scope ref)
      (l'.lookup scope ref) := by
  rw [Library.lookup, Library.lookup]
  apply (Agree.of_eq rfl).bind
  rintro ⟨uri, fragment⟩ _ rfl
  apply (document_agrees same scope ref uri).bind
  rintro ⟨document, surveyed⟩ ⟨document', _⟩ ⟨here, rfl⟩
  simp only
  split
  · exact .ok ⟨here, rfl⟩
  · rw [same.store, same.store']
    apply (Pairing.follow_agrees here _ _ _).bind
    intro there there' reached
    cases reached with
    | none =>
        obtain ⟨k, copy⟩ := here
        rw [copy.display_eq]
        exact .stop _
    | some reached => exact .ok ⟨reached.1, by rw [reached.2]⟩
  · apply (named_agrees same here _ _).bind
    intro v w there
    exact .ok ⟨there, rfl⟩

end Copy

end SchemaAudit

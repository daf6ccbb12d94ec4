import SchemaAudit.Proofs.Lookups
import SchemaAudit.Proofs.Rearrangement

/-! # References in reordered schemas

A pointer is followed by keys, so it leads to the same in whatever order they stand. Looking through
the root for identifiers depends on the order, but if no schema below the root has one, all that it
brings to light is the root.
-/

namespace SchemaAudit

open Evaluation

/-- A value is inside another one, and not that one itself. -/
abbrev Value.Below (s : Store) : Value → Value → Prop :=
  Relation.TransGen fun v w => w ∈ v.children s

/-- No mapping below a value has an identifier. -/
def Store.UnidentifiedBelow (s : Store) (v : Value) : Prop :=
  ∀ b, v.Below s (.mapping b) → (s.entries b).lookup Reference.identifierKey = none

namespace Reference

variable {τ : Tolerance} {s t : Store}

/-! ## Identifiers -/

theorem identifier?_congr {es fs : Entries} (lookups : ∀ key, fs.lookup key = es.lookup key) :
    identifier? fs = identifier? es := by
  rw [identifier?, identifier?, lookups, lookups]

theorem baseInside_congr {es fs : Entries} (lookups : ∀ key, fs.lookup key = es.lookup key)
    (base : String) : baseInside base fs = baseInside base es := by
  rw [baseInside, baseInside, identifier?_congr lookups]

theorem name?_congr {es fs : Entries} (lookups : ∀ key, fs.lookup key = es.lookup key) :
    name? fs = name? es := by
  rw [name?, name?, lookups]

/-- Schemas that are looked at for their identifiers, here and there. -/
theorem schemaEntries_agree (same : Rearranged τ s t) (v : Value) :
    Agree τ (fun es fs => ∀ key, List.lookup key fs = List.lookup key es) (schemaEntries s v)
      (schemaEntries t v) := by
  cases v with
  | mapping a => exact .ok (same.lookup a)
  | _ => exact .stop _

/-! ## Following a pointer -/

theorem step_eq (same : Rearranged τ s t) (v : Value) (token : List Char) :
    step t v token = step s v token := by
  cases v with
  | mapping a => simp only [step, same.lookup]
  | list a | tuple a => simp only [step, Value.iterate?, same.reordered.elements]
  | _ => rfl

theorem follow_agrees (same : Rearranged τ s t) (tokens : List (List Char))
    (since : List (Option String)) (base : String) (v : Value) :
    Agree τ Eq (follow s tokens since base v) (follow t tokens since base v) := by
  induction tokens generalizing since base v with
  | nil => exact .ok rfl
  | cons token rest ih =>
      rw [follow, follow, step_eq same]
      apply (Agree.of_eq rfl).bind
      rintro ⟨key, inner?⟩ _ rfl
      cases inner? with
      | none => exact .ok rfl
      | some w =>
          dsimp only
          split
          · apply (schemaEntries_agree same w).bind
            intro es fs lookups
            rw [baseInside_congr lookups]
            apply (Agree.of_eq rfl).bind
            rintro inside? _ rfl
            cases inside? with
            | none => exact ih _ _ _
            | some inside => exact ih _ _ _
          · exact ih _ _ _

/-! ## Looking through the root -/

section

variable {a b : Nat} {vs : List Value} {v w : Value}

/-- A mapping among what a value is gone through as is a part of that value. -/
theorem mapping_mem_children (given : v.iterate? s = some vs) (among : .mapping b ∈ vs) :
    .mapping b ∈ v.children s := by
  cases v with
  | list | tuple =>
      obtain rfl := Option.some.inj given
      exact among
  | text | octets | mapping =>
      obtain rfl := Option.some.inj given
      simp at among
  | _ => cases given

theorem mem_extendedSchemas (extended : extendedSchemas s (s.entries a) = .ok vs)
    (member : .mapping b ∈ vs) : (Value.mapping a).Below s (.mapping b) := by
  unfold extendedSchemas at extended
  split at extended
  · obtain rfl := Except.ok.inj extended
    cases member
  · next u found =>
      split at extended
      · next us given =>
          obtain rfl := Except.ok.inj extended
          have part := mapping_mem_children given member
          exact .tail (.single (Value.mem_children_of_lookup found)) part
      · cases extended

theorem mem_mappedSchemas {key : String} (mapped : mappedSchemas s (s.entries a) key = .ok vs)
    (member : w ∈ vs) : (Value.mapping a).Below s w := by
  unfold mappedSchemas at mapped
  split at mapped
  · obtain rfl := Except.ok.inj mapped
    cases member
  · next m found =>
      obtain rfl := Except.ok.inj mapped
      exact .tail (.single (Value.mem_children_of_lookup found)) member
  · cases mapped

theorem mem_mappedSchemas_each {keys : List String} {rows : List (List Value)}
    (mapped : keys.mapM (mappedSchemas s (s.entries a)) = .ok rows) (member : w ∈ rows.flatten) :
    (Value.mapping a).Below s w := by
  induction keys generalizing rows with
  | nil =>
      obtain rfl := Except.ok.inj mapped
      cases member
  | cons key rest ih =>
      rw [List.mapM_cons] at mapped
      obtain ⟨here, found, mapped⟩ := bind_eq_ok.mp mapped
      obtain ⟨later, onward, mapped⟩ := bind_eq_ok.mp mapped
      obtain rfl := Except.ok.inj mapped
      rw [List.flatten_cons, List.mem_append] at member
      rcases member with first | other
      · exact mem_mappedSchemas found first
      · exact ih onward other

theorem mem_itemSchemas (member : .mapping b ∈ itemSchemas s (s.entries a)) :
    (Value.mapping a).Below s (.mapping b) := by
  unfold itemSchemas at member
  split at member
  · cases member
  · cases member
  · next m found =>
      obtain rfl := Value.mapping.inj (List.mem_singleton.mp member)
      exact .single (Value.mem_children_of_lookup found)
  · next u _ other found =>
      cases given : u.iterate? s with
      | none =>
          rw [given] at member
          obtain rfl := List.mem_singleton.mp member
          exact absurd rfl (other b)
      | some us =>
          rw [given] at member
          have part := mapping_mem_children given member
          exact .tail (.single (Value.mem_children_of_lookup found)) part

theorem mem_dependentSchemas (dependent : dependentSchemas s (s.entries a) = .ok vs)
    (member : w ∈ vs) : (Value.mapping a).Below s w := by
  unfold dependentSchemas at dependent
  split at dependent
  · obtain rfl := Except.ok.inj dependent
    cases member
  · obtain rfl := Except.ok.inj dependent
    cases member
  · next m found =>
      split at dependent
      · next c rest listed =>
          obtain rfl := Except.ok.inj dependent
          refine .tail (.single (Value.mem_children_of_lookup found)) ?_
          rw [Value.children, listed]
          exact member
      · obtain rfl := Except.ok.inj dependent
        cases member
  · cases dependent

theorem mem_singleSchemas (member : w ∈ singleSchemas (s.entries a)) :
    (Value.mapping a).Below s w := by
  obtain ⟨key, _, found⟩ := List.mem_filterMap.mp member
  split at found
  · next m there =>
      obtain rfl := Option.some.inj found
      exact .single (Value.mem_children_of_lookup there)
  · cases found

/-- All mappings that are looked through in a schema are below it. -/
theorem mem_subschemas (inner : subschemas s (s.entries a) = .ok vs) (member : .mapping b ∈ vs) :
    (Value.mapping a).Below s (.mapping b) := by
  obtain ⟨extended, extending, inner⟩ := bind_eq_ok.mp inner
  obtain ⟨mapped, maps, inner⟩ := bind_eq_ok.mp inner
  obtain ⟨dependent, depends, inner⟩ := bind_eq_ok.mp inner
  obtain rfl := Except.ok.inj inner
  simp only [List.mem_append] at member
  rcases member with (((member | member) | member) | member) | member
  · exact mem_extendedSchemas extending member
  · exact mem_mappedSchemas_each maps member
  · exact mem_itemSchemas member
  · exact mem_dependentSchemas depends member
  · exact mem_singleSchemas member

end

/-- What looking at a schema alone adds to what has been brought to light. -/
def noting (found : Survey) (v : Value) (uri : String) (inside? name? : Option String) : Survey :=
  let found :=
    if inside?.isSome then { found with documents := (inside?.getD uri, v) :: found.documents }
    else found
  match name? with
  | none => found
  | some name => { found with names := ((inside?.getD uri, name), v) :: found.names }

theorem foldlM_unchanged {α σ : Type} {f : σ → α → Except Stop σ} {xs : List α}
    (each : ∀ x ∈ xs, ∀ now next, f now x = .ok next → next = now) {start final : σ}
    (folded : xs.foldlM f start = .ok final) : final = start := by
  induction xs generalizing start with
  | nil => exact (Except.ok.inj folded).symm
  | cons x rest ih =>
      rw [List.foldlM_cons] at folded
      obtain ⟨next, here, onward⟩ := bind_eq_ok.mp folded
      rw [ih (fun y later => each y (List.mem_cons_of_mem x later)) onward]
      exact each x List.mem_cons_self start next here

/-- Below a schema nothing comes to light, if no schema there has an identifier. -/
theorem survey_unidentified {fuel : Nat} {uri : String} {a : Nat} {found final : Survey}
    (below : s.UnidentifiedBelow (.mapping a))
    (looked : survey s fuel uri (.mapping a) found = .ok final) :
    ∃ inside? named?, baseInside uri (s.entries a) = .ok inside? ∧
      name? (s.entries a) = .ok named? ∧
      final = noting found (.mapping a) uri inside? named? := by
  induction fuel generalizing uri a found final with
  | zero => cases looked
  | succ fuel ih =>
      rw [survey] at looked
      change (baseInside uri (s.entries a) >>= _) = _ at looked
      obtain ⟨inside?, based, looked⟩ := bind_eq_ok.mp looked
      obtain ⟨named?, named, looked⟩ := bind_eq_ok.mp looked
      obtain ⟨inner, listed, looked⟩ := bind_eq_ok.mp looked
      refine ⟨inside?, named?, based, named, ?_⟩
      have same := foldlM_unchanged (fun w member now next inside => ?_) looked
      · rw [same]
        cases named? <;> rfl
      · by_cases object : w.kind = .object
        · obtain ⟨b, rfl⟩ := Value.kind_eq_object.mp object
          have under := mem_subschemas listed (List.mem_reverse.mp member)
          have unidentified := below b under
          obtain ⟨_, _, based, named, rfl⟩ :=
            ih (fun c further => below c (under.trans further)) inside
          have none : baseInside (inside?.getD uri) (s.entries b) = .ok none := by
            rw [baseInside, identifier?, unidentified]
            split <;> rfl
          rw [none] at based
          rw [name?, unidentified] at named
          obtain rfl := Except.ok.inj based
          obtain rfl := Except.ok.inj named
          rfl
        · -- what is no mapping is not looked through
          cases fuel with
          | zero => cases inside
          | succ fuel =>
              rw [survey] at inside
              obtain ⟨es, opened, _⟩ := bind_eq_ok.mp inside
              cases w with
              | mapping => exact absurd rfl object
              | _ => cases opened

/-! ## Libraries -/

/-- The root of a library stands in another store, with its keys in another order there. -/
structure Reshelved (τ : Tolerance) (s t : Store) (addr : Nat) (l l' : Library) : Prop where
  same : Rearranged τ s t
  loose : ¬ τ.strict
  unidentified : s.UnidentifiedBelow (.mapping addr)
  library : ∃ uri, l = ⟨s, .mapping addr, uri⟩ ∧ l' = ⟨t, .mapping addr, uri⟩

theorem below_reordered (same : s.Reordered t) {v w : Value} (below : v.Below t w) :
    v.Below s w := by
  induction below with
  | single member => exact .single ((same.children _).mem_iff.mp member)
  | tail _ member ih => exact ih.tail ((same.children _).mem_iff.mp member)

variable {addr : Nat} {l l' : Library}

namespace Reshelved

theorem survey_agrees (moved : Reshelved τ s t addr l l') : Agree τ Eq l.survey l'.survey := by
  obtain ⟨same, loose, unidentified, uri, rfl, rfl⟩ := moved
  have unflawed : ∀ {s : Store} {f : Flaw},
      (Library.mk s (.mapping addr) uri).survey ≠ .error (.flaw f) := by
    intro s f broke
    rw [Library.survey, ← stop?_eq_some, stop?_survey] at broke
    obtain ⟨_, _, other⟩ := Option.map_eq_some_iff.mp broke
    cases other
  have unidentified' : t.UnidentifiedBelow (.mapping addr) := by
    intro b below
    rw [same.lookup]
    exact unidentified b (below_reordered same.reordered below)
  apply Agree.of_loose loose
  · exact fun f _ broke => absurd broke unflawed
  · exact fun _ f _ => unflawed
  · intro found found' left right
    obtain ⟨_, _, based, named, rfl⟩ := survey_unidentified unidentified left
    obtain ⟨_, _, based', named', rfl⟩ := survey_unidentified unidentified' right
    rw [baseInside_congr (same.lookup addr), based] at based'
    rw [name?_congr (same.lookup addr), named] at named'
    obtain rfl := Except.ok.inj based'
    obtain rfl := Except.ok.inj named'
    rfl

theorem document_agrees (moved : Reshelved τ s t addr l l') (scope : Scope) (ref uri : String) :
    Agree τ Eq (l.document scope ref uri) (l'.document scope ref uri) := by
  have surveyed := moved.survey_agrees
  obtain ⟨same, loose, unidentified, rootUri, rfl, rfl⟩ := moved
  rw [Library.document, Library.document]
  split
  · exact .ok rfl
  · apply surveyed.bind
    rintro found _ rfl
    exact .of_eq rfl

theorem named_agrees (moved : Reshelved τ s t addr l l') (uri : String) (document : Value)
    (name : String) : Agree τ Eq (l.named uri document name) (l'.named uri document name) := by
  have surveyed := moved.survey_agrees
  obtain ⟨same, loose, unidentified, rootUri, rfl, rfl⟩ := moved
  rw [Library.named, Library.named]
  apply surveyed.bind
  rintro found _ rfl
  split
  · exact .ok rfl
  · apply (schemaEntries_agree same document).bind
    intro es fs lookups
    rw [identifier?_congr lookups]
    apply (Agree.of_eq rfl).bind
    rintro own _ rfl
    split
    · exact .ok rfl
    · split
      · exact .stop _
      · exact .flaws _ _ loose

/-- A reference leads to the same, or to nothing in both. -/
theorem lookup_agrees (moved : Reshelved τ s t addr l l') (scope : Scope) (ref : String) :
    Agree τ Eq (l.lookup scope ref) (l'.lookup scope ref) := by
  rw [Library.lookup, Library.lookup]
  apply (Agree.of_eq rfl).bind
  rintro ⟨uri, fragment⟩ _ rfl
  apply (moved.document_agrees scope ref uri).bind
  rintro ⟨document, surveyed⟩ _ rfl
  simp only
  split
  · exact .ok rfl
  · have followed := fun path => follow_agrees moved.same path [] uri document
    obtain ⟨same, loose, unidentified, rootUri, rfl, rfl⟩ := moved
    apply (followed _).bind
    rintro there? _ rfl
    cases there? with
    | none => exact .flaws _ _ loose
    | some there => exact .ok rfl
  · apply (moved.named_agrees uri document _).bind
    rintro v _ rfl
    exact .ok rfl

end Reshelved

end Reference

end SchemaAudit

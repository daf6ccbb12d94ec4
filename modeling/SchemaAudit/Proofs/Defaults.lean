import SchemaAudit.Proofs.Acceptance
import SchemaAudit.Proofs.TwoGuides

/-! # Defaults as values

A default is judged by the node that declares it, with the references in that node looked up from
the node itself. As a property of a value it is judged by the whole document, and they are looked
up from there. As long as they lead to the same or to copies of it, defaults that an audit accepts
are values that the document accepts.
-/

namespace SchemaAudit

open Reference (Library)

namespace Store

/-- What a schema declares as its default. -/
def default? (s : Store) : Value → Option Value
  | .mapping addr => s.attribute? addr .default
  | _ => none

/-- The declared defaults of properties, by name. -/
def defaults (s : Store) (properties : Entries) : Entries :=
  properties.filterMap fun (name, schema) => (s.default? schema).map (name, ·)

variable {s : Store} {properties : Entries} {name : String} {schema v : Value}

theorem mem_defaults (keys : properties.Distinct) (member : (name, schema) ∈ properties) :
    (name, v) ∈ s.defaults properties ↔ s.default? schema = some v := by
  simp only [defaults, List.mem_filterMap, Option.map_eq_some_iff, Prod.mk.injEq]
  constructor
  · rintro ⟨⟨other, schema'⟩, among, u, declared, rfl, rfl⟩
    have here := Entries.lookup_of_mem keys member
    have there := Entries.lookup_of_mem keys among
    rw [here] at there
    obtain rfl := Option.some.inj there
    exact declared
  · intro declared
    exact ⟨(name, schema), member, v, declared, rfl, rfl⟩

/-- Each property is looked up as the default that it declares. -/
theorem lookup_defaults (keys : properties.Distinct) (member : (name, schema) ∈ properties) :
    (s.defaults properties).lookup name = s.default? schema := by
  cases found : (s.defaults properties).lookup name with
  | some v =>
      have among := Entries.mem_of_lookup found
      exact ((mem_defaults keys member).mp among).symm
  | none =>
      cases declared : s.default? schema with
      | none => rfl
      | some v =>
          have among := (mem_defaults keys member).mpr declared
          have nothing := List.lookup_eq_none_iff.mp found _ among
          simp at nothing

end Store

namespace Evaluation

/-- Evaluate the schema at an address with every reference looked up twice: with this schema as
    the root, and from the root that it is a part of. Where the two do not lead to the same, nor to
    a copy of it, the evaluation breaks down. -/
def fromBothRoots (s : Store) (whole fuel addr : Nat) (inst : Value) : Evaluation := do
  let own ← Library.ofRoot s addr
  let around ← Library.ofRoot s whole
  let scope : Scope := ⟨own.rootUri, false⟩
  evaluateBy s (.both s (libraryGuide own) (libraryGuide around)) fuel .referred (scope, scope)
    (.mapping addr) inst

theorem depthBound_pos (s : Store) (root inst : Value) : 0 < depthBound s root inst :=
  Nat.mul_pos (Nat.mul_pos Nat.two_pos (Nat.pow_pos (Nat.succ_pos _))) (Nat.succ_pos _)

theorem verdict_fits {e : Evaluation} : e.verdict = .fits ↔ e = .ok [] := by
  cases e with
  | error stop => cases stop <;> simp [verdict]
  | ok found => cases found <;> simp [verdict, mostSpecific?]

theorem gather_clean {α : Type} {evaluate : α → Evaluation} {xs : List α}
    (all : ∀ x ∈ xs, evaluate x = .ok []) : gather evaluate xs = .ok [] := by
  induction xs with
  | nil => rfl
  | cons x rest ih =>
      rw [gather_cons, all x List.mem_cons_self, ih fun y later => all y (by simp [later])]
      rfl

theorem ofRoot_eq {s : Store} {addr : Nat} {l : Library}
    (opened : Library.ofRoot s addr = .ok l) :
    ∃ id?, Reference.identifier? (s.entries addr) = .ok id? ∧
      l = ⟨s, .mapping addr, id?.getD ""⟩ := by
  rw [Library.ofRoot] at opened
  cases identified : Reference.identifier? (s.entries addr) with
  | error stop =>
      rw [identified] at opened
      cases opened
  | ok id? =>
      rw [identified] at opened
      exact ⟨id?, rfl, (Except.ok.inj opened).symm⟩

/-- Inside a document without an identifier a schema has the base that it has as a root. -/
theorem evaluate_inside {l : Library} {fuel addr : Nat} {id? : Option String} {inst : Value}
    (identified : Reference.identifier? (l.store.entries addr) = .ok id?) :
    evaluate l fuel .inside ⟨"", false⟩ (.mapping addr) inst =
      evaluate l fuel .referred ⟨id?.getD "", false⟩ (.mapping addr) inst := by
  have base : baseAt "" (l.store.entries addr) .inside = .ok (id?.getD "") := by
    rw [baseAt, Reference.baseInside, identified]
    cases id? with
    | none => rfl
    | some id => simp [Reference.joined, Uri.join?]; rfl
  cases fuel with
  | zero => rfl
  | succ fuel =>
      rw [evaluate, evaluate]
      · simp only [Reference.schemaEntries, bind, Except.bind, base]
        rfl
      all_goals exact Value.noConfusion

end Evaluation

namespace Store

open Evaluation

variable {s : Store} {whole addr fuel : Nat} {v : Value}

/-- A default that its own node accepts is accepted inside the whole document, where references
    lead to the same or to copies of it. -/
theorem evaluate_default (judged : judge s v addr = .fits)
    (accord : ∀ fault, fromBothRoots s whole fuel addr v ≠ faulted fault) {around : Library}
    (opened : Library.ofRoot s whole = .ok around) :
    evaluate around fuel .inside ⟨"", false⟩ (.mapping addr) v = .ok [] := by
  rw [judge] at judged
  split at judged
  · cases judged
  rw [verdict_fits, ofRoot] at judged
  cases own : Library.ofRoot s addr with
  | error stop =>
      rw [own] at judged
      cases judged
  | ok l =>
      simp only [fromBothRoots, own, opened, bind, Except.bind] at judged accord
      obtain ⟨id?, identified, rfl⟩ := ofRoot_eq own
      obtain ⟨_, _, rfl⟩ := ofRoot_eq opened
      rw [evaluate_eq_evaluateBy] at judged
      rw [evaluate_inside identified, evaluate_eq_evaluateBy]
      have first := evaluateBy_onward Alike.faithful
        (Guide.both_leads Prod.fst (libraryGuide_steady _)
          (fun entered => (Guide.both_enter entered).1)
          fun found => ⟨_, .inl rfl, (Guide.both_refer found).1⟩)
        rfl (Alike.part _) (.inl rfl) accord
      have second := evaluateBy_onward Alike.faithful
        (Guide.both_leads Prod.snd (libraryGuide_steady _)
          (fun entered => (Guide.both_enter entered).2) fun found => (Guide.both_refer found).2)
        rfl (Alike.part _) (.inl rfl) accord
      -- by its own references the node is evaluated with another amount of fuel
      rw [← second, first]
      rcases Nat.le_total fuel (depthBound s (.mapping addr) v) with less | more
      · rw [evaluateBy_mono less (first ▸ accord .endless)]
        exact judged
      · rw [← evaluateBy_mono more (by rw [judged]; rintro ⟨⟩)]
        exact judged

/-- The properties of an object that holds their defaults are in order, if each default is by
    itself, and each required property has one. -/
theorem checkProperties_defaults {properties object : Nat} {descend : Descent}
    (keys : (s.entries properties).Distinct)
    (collected : s.entries object = s.defaults (s.entries properties))
    (nodes : ∀ name schema, (name, schema) ∈ s.entries properties → schema.kind = .object)
    (missing : ∀ name addr, (name, .mapping addr) ∈ s.entries properties →
      s.attribute? addr .default = none →
        ((s.entries addr).lookup "required").any (Value.truthy s) = false)
    (descends : ∀ name addr v, (name, .mapping addr) ∈ s.entries properties →
      s.attribute? addr .default = some v → descend (.mapping addr) v = .ok []) :
    checkProperties s descend (.mapping properties) (.mapping object) = .ok [] := by
  apply gather_clean
  rintro ⟨name, schema⟩ member
  obtain ⟨addr, rfl⟩ := Value.kind_eq_object.mp (nodes name schema member)
  simp only [collected, lookup_defaults keys member, default?]
  cases declared : s.attribute? addr .default with
  | some v =>
      simp only [descendTo, descends name addr v member declared]
      rfl
  | none =>
      have optional := missing name addr member declared
      simp only [isRequired, schemaMap, Value.entries?, Except.map, optional]
      rfl

/-- A schema for objects that says no more than that and the properties is as its properties. -/
theorem evaluate_objectSchema {l : Library} {root properties object : Nat} {scope : Scope}
    (schema : l.store.entries root = [("type", .text "object"), ("properties", .mapping properties)])
    (fit : checkProperties l.store (evaluate l fuel .inside scope) (.mapping properties)
      (.mapping object) = .ok []) :
    evaluate l (fuel + 1) .referred scope (.mapping root) (.mapping object) = .ok [] := by
  rw [evaluate]
  · simp only [bind, Except.bind, Reference.schemaEntries, baseAt, schema]
    have whole : applicable [("type", .text "object"), ("properties", .mapping properties)] =
        [("type", .text "object"), ("properties", .mapping properties)] := rfl
    have typed : Keyword.ofKey? "type" = some .type := by decide
    have listed : Keyword.ofKey? "properties" = some .properties := by decide
    rw [checkEntries, whole, gather_cons, gather_cons, gather_nil]
    simp only [typed, listed, checkKeyword, fit]
    rfl
  all_goals exact Value.noConfusion

/-- A mapping that follows the rule on `required`, and does not require, has no truth under it. -/
theorem required_falsy
    (permitted : ∀ v, s.attribute? addr .required = some v → s.Permits .required v)
    (optional : s.attribute? addr .required ≠ some (.bool true)) :
    ((s.entries addr).lookup "required").any (Value.truthy s) = false := by
  cases required : s.attribute? addr .required with
  | none =>
      rw [attribute?] at required
      rw [show (s.entries addr).lookup "required" = none from required]
      rfl
  | some v =>
      have boolean := (permitted v required).1
      rw [show (s.entries addr).lookup "required" = some v from required]
      cases v with
      | bool b =>
          cases b with
          | false => rfl
          | true => exact absurd required optional
      | float x =>
          simp only [Attribute.Allows, Value.kind] at boolean
          split at boolean <;> cases boolean
      | _ => cases boolean

/-- Judged by the document whose properties they are, defaults fit that an audit accepts. -/
theorem defaults_fit {root properties object limit : Nat}
    (schema : s.entries root = [("type", .text "object"), ("properties", .mapping properties)])
    (keys : (s.entries properties).Distinct)
    (accepted : (Document.audit ⟨s, .mapping root⟩ limit).outcome = .accepted)
    (collected : s.entries object = s.defaults (s.entries properties))
    (provided : ∀ name addr, (name, .mapping addr) ∈ s.entries properties →
      s.attribute? addr .required = some (.bool true) →
        (s.attribute? addr .default).isSome = true)
    (accord : ∀ name addr v, (name, .mapping addr) ∈ s.entries properties →
      s.attribute? addr .default = some v → ∀ fault,
        fromBothRoots s root (depthBound s (.mapping root) (.mapping object) - 1) addr v ≠
          faulted fault) :
    judge s (.mapping object) root = .fits := by
  have wellFormed := Document.WellFormed.of_accepted accepted
  have property : ∀ {name v}, (name, v) ∈ s.entries properties →
      Trail s (.mapping root) [⟨root, .entry .properties name⟩] v := by
    intro name v member
    have found : s.attribute? root .properties = some (.mapping properties) := by
      rw [attribute?, schema]
      rfl
    exact .leg (.named (.inl rfl) found rfl member) (.stay v)
  have opened : Library.ofRoot s root = .ok ⟨s, .mapping root, ""⟩ := by
    rw [Library.ofRoot, schema]
    rfl
  obtain ⟨fuel, enough⟩ := Nat.exists_eq_succ_of_ne_zero
    (Nat.pos_iff_ne_zero.mp (depthBound_pos s (.mapping root) (.mapping object)))
  rw [enough, Nat.succ_sub_one] at accord
  have optional : ∀ name addr, (name, .mapping addr) ∈ s.entries properties →
      s.attribute? addr .default = none →
        ((s.entries addr).lookup "required").any (Value.truthy s) = false := by
    intro name addr member undeclared
    refine required_falsy (wellFormed.permitted _ addr (property member) .required) ?_
    intro required
    have declared := provided name addr member required
    rw [undeclared] at declared
    cases declared
  have properties_fit : checkProperties s (evaluate ⟨s, .mapping root, ""⟩ fuel .inside ⟨"", false⟩)
      (.mapping properties) (.mapping object) = .ok [] := checkProperties_defaults keys collected
    (fun name v member => wellFormed.mappings _ v (property member)) optional
    (fun name addr v member declared => evaluate_default
      (wellFormed.fits _ addr (property member) v declared) (accord name addr v member declared)
      opened)
  have unidentified : identifierFlaw? (s.entries root) = none := by
    rw [schema]
    rfl
  rw [judge, unidentified]
  simp only
  rw [verdict_fits, ofRoot, opened]
  simp only [bind, Except.bind, enough]
  exact evaluate_objectSchema schema properties_fit

/-- A property that refers to a schema of the document and has a copy of it where the reference
    leads from the property itself. -/
def copiedReference : Store where
  lists := #[]
  maps := #[
    [("type", .text "object"), ("properties", .mapping 1)],
    [("a", .mapping 2), ("b", .mapping 4)],
    [("$ref", .text "#/properties/b"), ("properties", .mapping 3), ("default", .int 1)],
    [("b", .mapping 5)],
    [("type", .text "integer")],
    [("type", .text "integer")],
    [("a", .int 1)]]

theorem defaults_fit_copiedReference : judge copiedReference (.mapping 6) 0 = .fits := by
  have declared : ∀ name addr, (name, .mapping addr) ∈ copiedReference.entries 1 →
      addr = 2 ∨ addr = 4 := by
    intro name addr member
    simp [copiedReference, entries] at member
    omega
  apply @defaults_fit copiedReference 0 1 6 3 rfl (by decide) (by decide +kernel) rfl
  · intro name addr member required
    rcases declared name addr member with rfl | rfl <;> cases required
  · intro name addr v member default
    rcases declared name addr member with rfl | rfl
    · obtain rfl := Option.some.inj default
      have through : Evaluation.fromBothRoots copiedReference 0
          (Evaluation.depthBound copiedReference (.mapping 0) (.mapping 6) - 1) 2 (.int 1) =
          .ok [] := by decide +kernel
      rw [through]
      rintro _ ⟨⟩
    · cases default

/-- A property that refers to a part of itself, where the document has none. -/
def innerReference : Store where
  lists := #[]
  maps := #[
    [("type", .text "object"), ("properties", .mapping 1)],
    [("a", .mapping 2)],
    [("$ref", .text "#/definitions/x"), ("definitions", .mapping 3), ("default", .int 1)],
    [("x", .mapping 4)],
    [("type", .text "integer")],
    [("a", .int 1)]]

/-- The default passes where it is declared, and the document that it was declared in refuses
    it. -/
theorem defaults_misfit_innerReference :
    (Document.audit ⟨innerReference, .mapping 0⟩ 100).outcome = .accepted ∧
      innerReference.entries 5 = innerReference.defaults (innerReference.entries 1) ∧
      (∀ name addr, (name, .mapping addr) ∈ innerReference.entries 1 →
        innerReference.attribute? addr .required = none) ∧
      judge innerReference (.mapping 5) 0 ≠ .fits := by
  refine ⟨by decide +kernel, rfl, ?_, by decide +kernel⟩
  intro name addr member
  simp [innerReference, entries] at member
  obtain ⟨_, rfl⟩ := member
  rfl

end Store

end SchemaAudit

import SchemaAudit.Proofs.Conformity

/-! # The steps of checking a node

The plan of a node, attribute by attribute. Every step is grounded: a finding tells of a rule
that is broken, at the tokens it points to, and a visit is to a value that the node holds. And
nothing is passed over: an attribute without findings has its rule kept, and all values held
under it are visited.
-/

namespace SchemaAudit

namespace Attribute

/-- The attributes in the order in which a node is checked; the default is left for later. -/
def checkOrder : List Attribute :=
  [required, type, disallow, enum, properties, patternProperties, additionalProperties, minItems,
   maxItems, items, additionalItems, uniqueItems, minimum, exclusiveMinimum, maximum,
   exclusiveMaximum, divisibleBy, minLength, maxLength, pattern]

theorem mem_checkOrder {a : Attribute} (structural : a ≠ .default) : a ∈ checkOrder := by
  cases a <;> first | decide | exact absurd rfl structural

end Attribute

namespace Node

/-- Whether the bounds of numbers, the divisor included, are of their types. -/
def numbersTyped (n : Node) : Bool :=
  numberTypes.all fun (a, t) => (n.get? a).all t.admits

/-- The findings on a divisor: its type comes first, and then, if no number is mistyped, that it
    is not zero. -/
def divisibleByFindings (n : Node) (p : Place) : List Finding :=
  n.expect p .divisibleBy (.kind .number) ++
    if n.numbersTyped then n.divisorFindings p else []

/-- The steps that a single attribute asks for. -/
def stepsAt (s : Store) (n : Node) (p : Place) (a : Attribute) : List Step :=
  match a with
  | .type | .disallow => n.unionSteps s p a
  | .properties | .patternProperties => n.schemaMapSteps s p a
  | .additionalProperties | .additionalItems => n.schemaOrFalseSteps p a
  | .items => n.itemsSteps s p
  | .divisibleBy => (n.divisibleByFindings p).map .found
  | .required | .uniqueItems | .exclusiveMinimum | .exclusiveMaximum =>
    (n.expect p a (.kind .boolean)).map .found
  | .enum => (n.expect p a (.kind .array)).map .found
  | .minItems | .maxItems | .minLength | .maxLength =>
    (n.expect p a (.kind .integer)).map .found
  | .minimum | .maximum => (n.expect p a (.kind .number)).map .found
  | .pattern => (n.expect p a (.kind .string)).map .found
  | .default => []

theorem expect_eq_nil {n : Node} {p : Place} {a : Attribute} {t : TypeName} :
    n.expect p a t = [] ↔ (n.get? a).all t.admits = true := by
  unfold expect
  cases n.get? a with
  | none => simp
  | some v => cases admitted : t.admits v <;> simp [admitted]

/-- The divisor is looked at behind the bounds, and only when they are all in order. -/
theorem numberFindings_eq (n : Node) (p : Place) :
    n.numberFindings p =
      n.expect p .minimum (.kind .number) ++ n.expect p .exclusiveMinimum (.kind .boolean) ++
      n.expect p .maximum (.kind .number) ++ n.expect p .exclusiveMaximum (.kind .boolean) ++
      n.divisibleByFindings p := by
  have bounds : n.expectAll p numberTypes =
      n.expect p .minimum (.kind .number) ++ n.expect p .exclusiveMinimum (.kind .boolean) ++
      n.expect p .maximum (.kind .number) ++ n.expect p .exclusiveMaximum (.kind .boolean) ++
      n.expect p .divisibleBy (.kind .number) := by
    simp [expectAll, numberTypes]
  have typed : n.expectAll p numberTypes = [] ↔ n.numbersTyped = true := by
    rw [bounds]
    simp [expect_eq_nil, numbersTyped, numberTypes]
  rw [divisibleByFindings, ← List.append_assoc, ← bounds, numberFindings]
  cases found : n.expectAll p numberTypes with
  | nil => simp [typed.mp found]
  | cons g rest =>
      have mistyped : n.numbersTyped = false := by
        rw [Bool.eq_false_iff]
        intro all
        simp [typed.mpr all] at found
      simp [mistyped]

/-- The plan of a node is made up of the steps of its attributes. -/
theorem plan_eq (s : Store) (n : Node) (p : Place) :
    n.plan s p = Attribute.checkOrder.flatMap (n.stepsAt s p) := by
  simp [plan, Attribute.checkOrder, stepsAt, requiredFindings, enumFindings, itemCountFindings,
    uniqueItemsFindings, scalarFindings, textFindings, numberFindings_eq, expectAll]

end Node

/-- A step that is asked for by what the mapping at an address holds. -/
def Step.Grounded (s : Store) (addr : Nat) (p : Place) : Step → Prop
  | .found g => ∃ r tokens v message,
      s.Breaks addr r tokens v ∧ g = .leaf r message (some (p.pointerTo tokens))
  | .visit hop v => s.Holds addr hop v

namespace Node

variable {s : Store} {addr : Nat} {p : Place} {a : Attribute}

/-! ## Attributes with one type -/

theorem expect_grounded {t : TypeName} (plain : a.plainType? = some t) {g : Finding}
    (member : g ∈ (s.node addr).expect p a t) : (Step.found g).Grounded s addr p := by
  rw [expect, get?_node] at member
  cases found : s.attribute? addr a with
  | none => simp [found] at member
  | some v =>
      by_cases admitted : t.admits v = true
      · simp [found, admitted] at member
      · simp only [found, admitted, Bool.false_eq_true, if_false, List.mem_singleton] at member
        have wrong : ¬ a.Allows v := fun allowed =>
          admitted ((Attribute.allows_iff_admits plain v).mp allowed)
        exact ⟨_, _, _, _, .mistyped found wrong, member⟩

theorem allows_of_expect {t : TypeName} (plain : a.plainType? = some t)
    (nothing : (s.node addr).expect p a t = []) {v : Value}
    (found : s.attribute? addr a = some v) : a.Allows v := by
  rw [expect_eq_nil, get?_node, found] at nothing
  exact (Attribute.allows_iff_admits plain v).mpr nothing

theorem divisibleBy_grounded {g : Finding}
    (member : g ∈ (s.node addr).divisibleByFindings p) : (Step.found g).Grounded s addr p := by
  rw [divisibleByFindings, List.mem_append] at member
  rcases member with member | member
  · exact expect_grounded rfl member
  · split at member
    · rw [divisorFindings, get?_node] at member
      cases found : s.attribute? addr .divisibleBy with
      | none => simp [found] at member
      | some v =>
          by_cases zero : v.isZero = true
          · simp only [found, zero, if_true, List.mem_singleton] at member
            exact ⟨_, _, _, _, .zeroDivisor found (Value.isZero_iff.mp zero), member⟩
          · simp [found, zero] at member
    · simp at member

theorem permits_divisor (typed : (s.node addr).numbersTyped = true)
    (nothing : (s.node addr).divisibleByFindings p = []) {v : Value}
    (found : s.attribute? addr .divisibleBy = some v) : s.Permits .divisibleBy v := by
  rw [divisibleByFindings, List.append_eq_nil_iff, if_pos typed] at nothing
  obtain ⟨kept, nonzero⟩ := nothing
  refine ⟨allows_of_expect rfl kept found, fun zero => ?_⟩
  simp [divisorFindings, get?_node, found, Value.isZero_iff.mpr zero] at nonzero

/-! ## Unions -/

theorem alternativeStep_grounded (isUnion : a = .type ∨ a = .disallow) {union w : Value}
    {vs : List Value} {i : Nat} (found : s.attribute? addr a = some union)
    (array : union.elements? s = some vs) (located : vs[i]? = some w) {step : Step}
    (member : step ∈ alternativeStep p a i w) : step.Grounded s addr p := by
  cases w with
  | text => simp [alternativeStep, Alternative.ofValue?] at member
  | mapping =>
      simp only [alternativeStep, Alternative.ofValue?, List.mem_singleton] at member
      subst member
      exact .alternative isUnion found array located
  | _ =>
      simp only [alternativeStep, Alternative.ofValue?, List.mem_singleton] at member
      subst member
      refine ⟨_, _, _, _, .noAlternative isUnion found array located ?_, rfl⟩
      simp [Value.kind_eq_string, Value.kind_eq_object]

theorem unionSteps_grounded (isUnion : a = .type ∨ a = .disallow) {step : Step}
    (member : step ∈ (s.node addr).unionSteps s p a) : step.Grounded s addr p := by
  rw [unionSteps, get?_node] at member
  split at member
  · simp at member
  · simp at member
  · next v notText found =>
      split at member
      · next noArray =>
          simp only [List.mem_singleton] at member
          subst member
          refine ⟨_, _, _, _, .mistyped found ?_, rfl⟩
          have wrong : ¬ (v.kind = .string ∨ v.kind = .array) := by
            rw [Value.kind_eq_string, Value.kind_eq_array s, noArray]
            rintro (⟨t, rfl⟩ | ⟨vs, array⟩)
            · exact notText t rfl
            · simp at array
          rcases isUnion with rfl | rfl <;> exact wrong
      · next vs array =>
          split at member
          · next short =>
              simp only [List.mem_singleton] at member
              subst member
              exact ⟨_, _, _, _, .tooShort isUnion found array short, rfl⟩
          · simp only [List.mem_flatMap, Prod.exists, List.mem_zipIdx_iff_getElem?] at member
            obtain ⟨w, i, located, member⟩ := member
            exact alternativeStep_grounded isUnion found array located member

theorem alternativeStep_found {i : Nat} {w : Value}
    (neither : ¬ (w.kind = .string ∨ w.kind = .object)) :
    ∃ g, .found g ∈ alternativeStep p a i w := by
  cases w with
  | text | mapping => simp [Value.kind] at neither
  | _ => exact ⟨_, List.mem_singleton_self _⟩

theorem unionSteps_array {union : Value} {vs : List Value}
    (found : s.attribute? addr a = some union) (array : union.elements? s = some vs)
    (long : 2 ≤ vs.length) : (s.node addr).unionSteps s p a =
      vs.zipIdx.flatMap fun (w, i) => alternativeStep p a i w := by
  rw [unionSteps, get?_node, found]
  cases union <;> simp only [Value.elements?, reduceCtorEq, Option.some.injEq] at array
  all_goals
    subst array
    simp only [Value.elements?, if_neg (Nat.not_lt.mpr long)]

theorem permits_union (isUnion : a = .type ∨ a = .disallow)
    (clear : ∀ g, .found g ∉ (s.node addr).unionSteps s p a) {v : Value}
    (found : s.attribute? addr a = some v) : s.Permits a v := by
  have kinds : v.kind = .string ∨ v.kind = .array := by
    rw [unionSteps, get?_node, found] at clear
    cases v with
    | text => exact .inl rfl
    | list | tuple => exact .inr rfl
    | _ => exact absurd List.mem_cons_self (clear _)
  have shape : ∀ vs, v.elements? s = some vs →
      2 ≤ vs.length ∧ ∀ w ∈ vs, w.kind = .string ∨ w.kind = .object := by
    intro vs array
    have long : 2 ≤ vs.length := by
      by_contra short
      rw [unionSteps, get?_node, found] at clear
      cases v <;> simp only [Value.elements?, reduceCtorEq, Option.some.injEq] at array
      all_goals
        subst array
        simp only [Value.elements?, if_pos (Nat.not_le.mp short)] at clear
        exact clear _ List.mem_cons_self
    refine ⟨long, fun w among => ?_⟩
    by_contra neither
    obtain ⟨i, located⟩ := List.getElem?_of_mem among
    obtain ⟨g, told⟩ := alternativeStep_found (p := p) (a := a) (i := i) neither
    apply clear g
    rw [unionSteps_array found array long]
    exact List.mem_flatMap.mpr ⟨(w, i), List.mem_zipIdx_iff_getElem?.mpr located, told⟩
  rcases isUnion with rfl | rfl <;> exact ⟨kinds, shape⟩

/-! ## Schemas under names, and for further properties and items -/

theorem schemaMapSteps_grounded (isMap : a = .properties ∨ a = .patternProperties) {step : Step}
    (member : step ∈ (s.node addr).schemaMapSteps s p a) : step.Grounded s addr p := by
  rw [schemaMapSteps, get?_node] at member
  split at member
  · simp at member
  · next v found =>
      split at member
      · next noObject =>
          simp only [List.mem_singleton] at member
          subst member
          refine ⟨_, _, _, _, .mistyped found ?_, rfl⟩
          have wrong : v.kind ≠ .object := by
            rw [Ne, Value.kind_eq_object]
            rintro ⟨inner, rfl⟩
            simp [Value.entries?] at noObject
          rcases isMap with rfl | rfl <;> exact wrong
      · next es object =>
          obtain ⟨⟨name, w⟩, among, rfl⟩ := List.mem_map.mp member
          exact .named isMap found object among

theorem permits_schemaMap (isMap : a = .properties ∨ a = .patternProperties)
    (clear : ∀ g, .found g ∉ (s.node addr).schemaMapSteps s p a) {v : Value}
    (found : s.attribute? addr a = some v) : s.Permits a v := by
  have kind : v.kind = .object := by
    rw [schemaMapSteps, get?_node, found] at clear
    cases v with
    | mapping => rfl
    | _ => exact absurd List.mem_cons_self (clear _)
  rcases isMap with rfl | rfl <;> exact ⟨kind, trivial⟩

theorem schemaOrFalseSteps_grounded
    (isAdditional : a = .additionalProperties ∨ a = .additionalItems) {step : Step}
    (member : step ∈ (s.node addr).schemaOrFalseSteps p a) : step.Grounded s addr p := by
  rw [schemaOrFalseSteps, get?_node] at member
  split at member
  · simp at member
  · simp at member
  · next inner found =>
      simp only [List.mem_singleton] at member
      subst member
      exact .additional isAdditional found (by rintro ⟨⟩)
  · next v notFalse notMapping found =>
      simp only [List.mem_singleton] at member
      subst member
      refine ⟨_, _, _, _, .mistyped found ?_, rfl⟩
      have wrong : ¬ (v = .bool false ∨ v.kind = .object) := by
        rw [Value.kind_eq_object]
        rintro (rfl | ⟨inner, rfl⟩)
        · exact notFalse rfl
        · exact notMapping inner rfl
      rcases isAdditional with rfl | rfl <;> exact wrong

theorem permits_schemaOrFalse (isAdditional : a = .additionalProperties ∨ a = .additionalItems)
    (clear : ∀ g, .found g ∉ (s.node addr).schemaOrFalseSteps p a) {v : Value}
    (found : s.attribute? addr a = some v) : s.Permits a v := by
  have shape : v = .bool false ∨ v.kind = .object := by
    rw [schemaOrFalseSteps, get?_node, found] at clear
    split at clear
    · next nothing => simp at nothing
    · next same => exact .inl (Option.some.inj same)
    · next inner same => exact .inr (Value.kind_eq_object.mpr ⟨inner, Option.some.inj same⟩)
    · exact absurd List.mem_cons_self (clear _)
  rcases isAdditional with rfl | rfl <;> exact ⟨shape, trivial⟩

/-! ## Items -/

theorem itemsSteps_grounded {step : Step} (member : step ∈ (s.node addr).itemsSteps s p) :
    step.Grounded s addr p := by
  rw [itemsSteps, get?_node] at member
  split at member
  · simp at member
  · next inner found =>
      simp only [List.mem_singleton] at member
      subst member
      exact .allItems found
  · next v notMapping found =>
      split at member
      · next noArray =>
          simp only [List.mem_singleton] at member
          subst member
          refine ⟨_, _, _, _, .mistyped found ?_, rfl⟩
          rw [Attribute.Allows, Value.kind_eq_object, Value.kind_eq_array s, noArray]
          rintro (⟨inner, rfl⟩ | ⟨vs, array⟩)
          · exact notMapping inner rfl
          · simp at array
      · next vs array =>
          obtain ⟨⟨w, i⟩, located, rfl⟩ := List.mem_map.mp member
          exact .item found array (List.mem_zipIdx_iff_getElem?.mp located)

theorem permits_items (clear : ∀ g, .found g ∉ (s.node addr).itemsSteps s p) {v : Value}
    (found : s.attribute? addr .items = some v) : s.Permits .items v := by
  refine ⟨?_, trivial⟩
  rw [itemsSteps, get?_node, found] at clear
  cases v with
  | mapping => exact .inl rfl
  | list | tuple => exact .inr rfl
  | _ => exact absurd List.mem_cons_self (clear _)

/-! ## All attributes -/

/-- Every step of the plan of a node is asked for by what its mapping holds. -/
theorem plan_grounded {step : Step} (member : step ∈ (s.node addr).plan s p) :
    step.Grounded s addr p := by
  rw [plan_eq] at member
  obtain ⟨a, _, member⟩ := List.mem_flatMap.mp member
  have plain : ∀ t, a.plainType? = some t →
      step ∈ ((s.node addr).expect p a t).map .found → step.Grounded s addr p := by
    intro t typed among
    obtain ⟨g, told, rfl⟩ := List.mem_map.mp among
    exact expect_grounded typed told
  cases a with
  | type => exact unionSteps_grounded (.inl rfl) member
  | disallow => exact unionSteps_grounded (.inr rfl) member
  | properties => exact schemaMapSteps_grounded (.inl rfl) member
  | patternProperties => exact schemaMapSteps_grounded (.inr rfl) member
  | additionalProperties => exact schemaOrFalseSteps_grounded (.inl rfl) member
  | additionalItems => exact schemaOrFalseSteps_grounded (.inr rfl) member
  | items => exact itemsSteps_grounded member
  | divisibleBy =>
      obtain ⟨g, told, rfl⟩ := List.mem_map.mp member
      exact divisibleBy_grounded told
  | default => simp [stepsAt] at member
  | _ => exact plain _ rfl member

/-- A plan without findings has none at any attribute. -/
theorem clear_stepsAt (clear : ∀ g, .found g ∉ (s.node addr).plan s p)
    (structural : a ≠ .default) (g : Finding) : .found g ∉ (s.node addr).stepsAt s p a := by
  intro told
  apply clear g
  rw [plan_eq]
  exact List.mem_flatMap.mpr ⟨a, Attribute.mem_checkOrder structural, told⟩

/-- The attributes of a node whose plan has no findings all keep their rules. -/
theorem permits_of_clear (clear : ∀ g, .found g ∉ (s.node addr).plan s p) {v : Value}
    (found : s.attribute? addr a = some v) : s.Permits a v := by
  by_cases structural : a = .default
  · subst structural
    exact ⟨trivial, trivial⟩
  have settled := clear_stepsAt clear structural
  have nothing : ∀ {b : Attribute} {fs : List Finding}, b ≠ .default →
      (s.node addr).stepsAt s p b = fs.map .found → fs = [] := by
    intro b fs structural same
    apply List.eq_nil_iff_forall_not_mem.mpr
    intro g told
    apply clear_stepsAt clear structural g
    rw [same]
    exact List.mem_map_of_mem told
  have plain : ∀ t, a.plainType? = some t →
      (s.node addr).stepsAt s p a = ((s.node addr).expect p a t).map .found → a.Allows v :=
    fun t typed same => allows_of_expect typed (nothing structural same) found
  cases a with
  | type => exact permits_union (.inl rfl) settled found
  | disallow => exact permits_union (.inr rfl) settled found
  | properties => exact permits_schemaMap (.inl rfl) settled found
  | patternProperties => exact permits_schemaMap (.inr rfl) settled found
  | additionalProperties => exact permits_schemaOrFalse (.inl rfl) settled found
  | additionalItems => exact permits_schemaOrFalse (.inr rfl) settled found
  | items => exact permits_items settled found
  | divisibleBy =>
      have last := nothing (b := .divisibleBy) (by decide) rfl
      have typed : (s.node addr).numbersTyped = true := by
        have kept : ∀ b t, (b, t) ∈ numberTypes → (s.node addr).expect p b t = [] := by
          intro b t among
          simp only [numberTypes, List.mem_cons, Prod.mk.injEq, List.not_mem_nil,
            or_false] at among
          rcases among with ⟨rfl, rfl⟩ | ⟨rfl, rfl⟩ | ⟨rfl, rfl⟩ | ⟨rfl, rfl⟩ | ⟨rfl, rfl⟩
          · exact nothing (b := .minimum) (by decide) rfl
          · exact nothing (b := .exclusiveMinimum) (by decide) rfl
          · exact nothing (b := .maximum) (by decide) rfl
          · exact nothing (b := .exclusiveMaximum) (by decide) rfl
          · exact (List.append_eq_nil_iff.mp last).1
        exact List.all_eq_true.mpr fun typed among =>
          expect_eq_nil.mp (kept typed.1 typed.2 among)
      exact permits_divisor typed last found
  | default => exact absurd rfl structural
  | _ => exact ⟨plain _ rfl rfl, trivial⟩

/-- A plan without findings visits everything that the mapping holds. -/
theorem visit_mem_plan (clear : ∀ g, .found g ∉ (s.node addr).plan s p) {hop : Hop} {w : Value}
    (held : s.Holds addr hop w) : .visit hop w ∈ (s.node addr).plan s p := by
  have among : ∀ b ∈ Attribute.checkOrder,
      .visit hop w ∈ (s.node addr).stepsAt s p b → .visit hop w ∈ (s.node addr).plan s p := by
    intro b ordered member
    rw [plan_eq]
    exact List.mem_flatMap.mpr ⟨b, ordered, member⟩
  cases held with
  | @alternative a union vs i inner isUnion found array member =>
      have permitted := permits_of_clear clear found
      have long : 2 ≤ vs.length := by
        rcases isUnion with rfl | rfl <;> exact (permitted.2 vs array).1
      have steps : .visit (.element a i) (.mapping inner) ∈ (s.node addr).unionSteps s p a := by
        rw [unionSteps_array found array long]
        exact List.mem_flatMap.mpr ⟨(.mapping inner, i),
          List.mem_zipIdx_iff_getElem?.mpr member, List.mem_singleton_self _⟩
      rcases isUnion with rfl | rfl
      · exact among .type (by decide) steps
      · exact among .disallow (by decide) steps
  | @named a schemas v es name isMap found object member =>
      have steps : .visit (.entry a name) w ∈ (s.node addr).schemaMapSteps s p a := by
        rw [schemaMapSteps, get?_node, found]
        simp only [object]
        exact List.mem_map.mpr ⟨_, member, rfl⟩
      rcases isMap with rfl | rfl
      · exact among .properties (by decide) steps
      · exact among .patternProperties (by decide) steps
  | @additional a v isAdditional found allowed =>
      have object : w.kind = .object := by
        have permitted := (permits_of_clear clear found).1
        rcases isAdditional with rfl | rfl <;> exact permitted.resolve_left allowed
      have steps : .visit (.value a) w ∈ (s.node addr).schemaOrFalseSteps p a := by
        obtain ⟨inner, rfl⟩ := Value.kind_eq_object.mp object
        rw [schemaOrFalseSteps, get?_node, found]
        exact List.mem_singleton_self _
      rcases isAdditional with rfl | rfl
      · exact among .additionalProperties (by decide) steps
      · exact among .additionalItems (by decide) steps
  | @allItems inner found =>
      have steps : .visit (.value .items) (.mapping inner) ∈ (s.node addr).itemsSteps s p := by
        rw [itemsSteps, get?_node, found]
        exact List.mem_singleton_self _
      exact among .items (by decide) steps
  | @item schemas v vs i found array member =>
      have steps : .visit (.element .items i) w ∈ (s.node addr).itemsSteps s p := by
        rw [itemsSteps, get?_node, found]
        cases schemas <;> simp only [Value.elements?, reduceCtorEq, Option.some.injEq] at array
        all_goals
          subst array
          exact List.mem_map.mpr ⟨(w, i), List.mem_zipIdx_iff_getElem?.mpr member, rfl⟩
      exact among .items (by decide) steps

end Node

end SchemaAudit

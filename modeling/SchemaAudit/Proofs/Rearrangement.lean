import SchemaAudit.Proofs.KeywordStops
import SchemaAudit.Proofs.Lockstep
import SchemaAudit.Proofs.Nesting
import SchemaAudit.Proofs.Reordering

/-! # Schemas with their keys in another order

Keyword by keyword, a schema and the one at its address in a reordered store come to the same, if
they do so at every schema inside that they descend to. Violations and flaws come up in another
order then, so they are compared loosely. In a strict comparison the store is the very same, and
only what the keywords descend by is different.
-/

namespace SchemaAudit

namespace Evaluation

/-- A store whose mappings are reordered. For a strict comparison it is the store itself. -/
structure Rearranged (τ : Tolerance) (s t : Store) : Prop where
  reordered : s.Reordered t
  keys : s.KeysDistinct
  exact : τ.strict → t = s

/-- Mappings that a schema goes through by their keys, which stay in their order: one that stands
    for a union of types, and the map of patterns. -/
structure Steady (s t : Store) (addr : Nat) : Prop where
  types : ∀ m, (s.entries addr).lookup Keyword.type.key = some (.mapping m) →
    t.entries m = s.entries m
  patterns : ∀ m, (s.entries addr).lookup Keyword.patternProperties.key = some (.mapping m) →
    t.entries m = s.entries m

theorem Steady.refl (s : Store) (addr : Nat) : Steady s s addr := ⟨fun _ _ => rfl, fun _ _ => rfl⟩

theorem Rearranged.refl {τ : Tolerance} {s : Store} (keys : s.KeysDistinct) : Rearranged τ s s :=
  ⟨.refl s, keys, fun _ => rfl⟩

/-- Descending from a schema on a value, to what it nests and on the value or a part of it, comes
    to the same. -/
def DescendsAlike (τ : Tolerance) (s : Store) (addr : Nat) (inst : Value) (d d' : Descent) : Prop :=
  ∀ w i, (w.kind = .object → s.Nests addr w) → i = inst ∨ i ∈ inst.children s →
    Matches τ (d w i) (d' w i)

variable {τ : Tolerance} {s t : Store} {addr : Nat} {inst v w i : Value} {d d' : Descent}

theorem Matches.of_eq {x y : Evaluation} (same : x = y) : Matches τ x y :=
  (Agree.of_eq same).mono fun _ _ equal => equal ▸ ⟨fun _ => Iff.rfl, fun _ => rfl⟩

/-! ## Rows in another order -/

theorem Matches.gather_perm {α : Type} {evaluate evaluate' : α → Evaluation} {xs ys : List α}
    (perm : ys.Perm xs) (exact : τ.strict → ys = xs)
    (each : ∀ x ∈ xs, Matches τ (evaluate x) (evaluate' x)) :
    Matches τ (Evaluation.gather evaluate xs) (Evaluation.gather evaluate' ys) := by
  by_cases strict : τ.strict
  · rw [exact strict]
    have row : List.Forall₂ (fun x y => x = y ∧ x ∈ xs) xs xs :=
      List.forall₂_same.mpr fun x member => ⟨rfl, member⟩
    apply Matches.gather row
    rintro x _ ⟨rfl, member⟩
    exact each x member
  · apply gather_loose strict
    · exact fun x member => .inr ⟨x, perm.mem_iff.mpr member, each x member⟩
    · exact fun x member => .inr ⟨x, perm.mem_iff.mp member, each x (perm.mem_iff.mp member)⟩

/-- What is kept of a row is kept of it in another order. -/
theorem filterM_perm {α : Type} {p : α → Except Stop Bool} {q : α → Bool}
    (tells : ∀ x keeps, p x = .ok keeps → q x = keeps) {xs ys : List α} (perm : ys.Perm xs)
    (exact : τ.strict → ys = xs) :
    Agree τ (fun kept kept' => kept'.Perm kept ∧ (τ.strict → kept' = kept) ∧ kept ⊆ xs)
      (xs.filterM p) (ys.filterM p) := by
  have subset : ∀ kept, xs.filterM p = .ok kept → kept ⊆ xs := by
    intro kept filtered
    rw [← filterM_ok tells filtered]
    exact fun _ => List.mem_of_mem_filter
  by_cases strict : τ.strict
  · rw [exact strict]
    cases filtered : xs.filterM p with
    | error stop => exact .stop stop
    | ok kept => exact .ok ⟨.refl _, fun _ => rfl, subset kept filtered⟩
  -- an element that stops one side is there on the other side
  have stuck : ∀ {us vs : List α} {f : Flaw} {kept : List α}, us ⊆ vs →
      us.filterM p = .error (.flaw f) → vs.filterM p = .ok kept → False := by
    intro us vs f kept among broke fine
    rw [← stop?_eq_some, stop?_filterM] at broke
    have clear : stop? (vs.filterM p) = none := by rw [fine, stop?_ok]
    rw [stop?_filterM, List.findSome?_eq_none_iff] at clear
    obtain ⟨x, member, here⟩ := List.exists_of_findSome?_eq_some broke
    rw [clear x (among member)] at here
    cases here
  apply Agree.of_loose strict
  · exact fun f kept broke fine => stuck perm.symm.subset broke fine
  · exact fun kept f fine broke => stuck perm.subset broke fine
  · intro kept kept' left right
    refine ⟨?_, fun exact => absurd exact strict, subset kept left⟩
    rw [← filterM_ok tells left, ← filterM_ok tells right]
    exact perm.filter q

namespace Rearranged

variable (same : Rearranged τ s t)

include same

theorem lookup (a : Nat) (key : String) : (t.entries a).lookup key = (s.entries a).lookup key :=
  same.reordered.lookup same.keys a key

theorem exactly (strict : τ.strict) (a : Nat) : t.entries a = s.entries a := by
  rw [same.exact strict]

/-- The entries of a value, here and there. -/
theorem entries? (v : Value) :
    Option.Rel (fun es fs => List.Perm fs es ∧ (τ.strict → fs = es) ∧
      ∀ key, fs.lookup key = es.lookup key) (v.entries? s) (v.entries? t) := by
  cases v with
  | mapping a =>
      exact .some ⟨same.reordered.entries a, fun strict => same.exactly strict a, same.lookup a⟩
  | _ => exact .none

/-- What a value gives when it is gone through, here and there. -/
theorem iterate? (v : Value) :
    Option.Rel (fun vs ws => List.Perm ws vs) (v.iterate? s) (v.iterate? t) := by
  by_cases object : v.kind = .object
  · obtain ⟨a, rfl⟩ := Value.kind_eq_object.mp object
    exact .some ((same.reordered.entries a).map _)
  · rw [same.reordered.iterate? object]
    cases v.iterate? s with
    | none => exact .none
    | some vs => exact .some (.refl vs)

/-- A mapping whose keys are in their order is gone through as before. -/
theorem iterate?_eq (steady : ∀ m, v = .mapping m → t.entries m = s.entries m) :
    v.iterate? t = v.iterate? s := by
  by_cases object : v.kind = .object
  · obtain ⟨a, rfl⟩ := Value.kind_eq_object.mp object
    rw [Value.iterate?, Value.iterate?, steady a rfl]
  · exact same.reordered.iterate? object

omit same in
theorem descendTo (token : String) (inner : Matches τ (d w i) (d' w i)) :
    Matches τ (descendTo d token w i) (descendTo d' token w i) := by
  unfold Evaluation.descendTo
  split
  · exact inner
  · exact inner.below token

/-! ## Unions and listed values -/

theorem matchesAlternative (inner : w.kind = .object → Matches τ (d w inst) (d' w inst)) :
    Agree τ Eq (matchesAlternative s d inst w) (matchesAlternative t d' inst w) := by
  -- what is neither a name nor a schema is a flaw, or cannot be looked up at all
  have unnamed : Agree τ Eq
      (if isLookupKey s (s.size + 2) w then flawed (.unknownType (w.plain s))
        else faulted .kindMismatch : Except Stop Bool)
      (if isLookupKey t (t.size + 2) w then flawed (.unknownType (w.plain t))
        else faulted .kindMismatch) := by
    rw [same.reordered.size_eq, same.reordered.isLookupKey]
    split
    · by_cases strict : τ.strict
      · rw [same.exact strict]
        exact .stop _
      · exact .flaws _ _ strict
    · exact .stop _
  cases w with
  | text name => exact .of_eq rfl
  | mapping m => exact (inner rfl).map fun _ _ tells => tells.isEmpty
  | _ => exact unnamed

theorem matchesAny {vs : List Value}
    (inner : ∀ w ∈ vs, w.kind = .object → Matches τ (d w inst) (d' w inst)) :
    Agree τ Eq (matchesAny s d inst vs) (matchesAny t d' inst vs) := by
  induction vs with
  | nil => exact .ok rfl
  | cons w rest ih =>
      rw [Mirror.matchesAny_cons, Mirror.matchesAny_cons]
      apply (same.matchesAlternative (inner w List.mem_cons_self)).bind
      rintro fits _ rfl
      cases fits with
      | true => exact .ok rfl
      | false => exact ih fun u later => inner u (List.mem_cons_of_mem w later)

omit same in
/-- The schemas among the alternatives of a union are nested in the schema that has the union. -/
theorem alternative_nested {a : Attribute} (isUnion : a = .type ∨ a = .disallow)
    (found : s.attribute? addr a = some v) {vs : List Value} (listed : alternatives s v = .ok vs)
    (member : w ∈ vs) (object : w.kind = .object) : s.Nests addr w := by
  obtain ⟨m, rfl⟩ := Value.kind_eq_object.mp object
  have held : ∀ us, v.elements? s = some us → .mapping m ∈ us → s.Nests addr (.mapping m) := by
    intro us array among
    obtain ⟨i, here⟩ := List.mem_iff_getElem?.mp among
    exact .held (.alternative isUnion found array here)
  cases v with
  | list a | tuple a =>
      obtain rfl := Except.ok.inj listed
      exact held _ rfl member
  | text | mapping | octets =>
      obtain rfl := Except.ok.inj listed
      simp at member
  | _ => cases listed

theorem alternatives_eq (steady : ∀ m, v = .mapping m → t.entries m = s.entries m) :
    alternatives t v = alternatives s v := by
  have through := same.iterate?_eq steady
  cases v with
  | text => rfl
  | _ => simp only [alternatives, through]

theorem checkType (found : s.attribute? addr .type = some v)
    (steady : ∀ m, v = .mapping m → t.entries m = s.entries m)
    (descends : DescendsAlike τ s addr inst d d') :
    Matches τ (checkType s d v inst) (checkType t d' v inst) := by
  unfold Evaluation.checkType
  rw [same.alternatives_eq steady]
  cases listed : alternatives s v with
  | error stop => exact .stop stop
  | ok vs =>
      have members := same.matchesAny fun w member object => descends w inst
        (fun _ => alternative_nested (.inl rfl) found listed member object) (.inl rfl)
      apply members.bind
      rintro fits _ rfl
      exact Matches.violationIf rfl fun strict => by rw [same.exact strict]

theorem alternatives_perm (v : Value) :
    Agree τ (fun vs ws => List.Perm ws vs ∧ (τ.strict → ws = vs) ∧ alternatives s v = .ok vs)
      (alternatives s v) (alternatives t v) := by
  by_cases text : ∃ name, v = .text name
  · obtain ⟨name, rfl⟩ := text
    exact .ok ⟨.refl _, fun _ => rfl, rfl⟩
  have other := not_exists.mp text
  have equal : τ.strict → v.iterate? t = v.iterate? s := fun strict => by rw [same.exact strict]
  simp only [Mirror.alternatives_of_ne_text other]
  rcases rel_cases (same.iterate? v) with ⟨nothing, nothing'⟩ | ⟨vs, ws, left, right, perm⟩
  · rw [nothing, nothing']
    exact .stop _
  · rw [left, right] at equal ⊢
    exact .ok ⟨perm, fun strict => Option.some.inj (equal strict), rfl⟩

theorem checkDisallow (found : s.attribute? addr .disallow = some v)
    (descends : DescendsAlike τ s addr inst d d') :
    Matches τ (checkDisallow s d v inst) (checkDisallow t d' v inst) := by
  apply (same.alternatives_perm v).bind
  rintro vs ws ⟨perm, exact, listed⟩
  apply Matches.gather_perm perm exact
  intro w member
  have single : Agree τ Eq (Evaluation.matchesAny s d inst [w])
      (Evaluation.matchesAny t d' inst [w]) := by
    apply same.matchesAny
    intro u among object
    obtain rfl := List.mem_singleton.mp among
    exact descends u inst (fun _ => alternative_nested (.inr rfl) found listed member object)
      (.inl rfl)
  apply single.bind
  rintro fits _ rfl
  exact Matches.violationIf rfl fun strict => by rw [same.exact strict]

theorem checkEnum (listed : Value) :
    Matches τ (checkEnum s listed inst) (checkEnum t listed inst) := by
  unfold Evaluation.checkEnum
  rcases rel_cases (same.iterate? listed) with ⟨nothing, nothing'⟩ | ⟨vs, ws, left, right, perm⟩
  · rw [nothing, nothing']
    exact .stop _
  · rw [left, right]
    apply Matches.violationIf
    · rw [same.reordered.same_eq same.keys, perm.any_eq]
    · exact fun strict => by rw [same.exact strict]

/-! ## Numbers and texts -/

theorem checkLength (side : Side) (n : Nat) (bound : Value) :
    Matches τ (checkLength s side n bound inst) (checkLength t side n bound inst) := by
  apply (Agree.of_eq rfl).bind
  rintro x _ rfl
  exact Matches.violationIf rfl fun strict => by rw [same.exact strict]

theorem checkTextLength (side : Side) (bound : Value) :
    Matches τ (checkTextLength s side bound inst) (checkTextLength t side bound inst) := by
  unfold Evaluation.checkTextLength
  split
  · exact same.checkLength side _ bound
  · exact .clean

theorem checkPattern (pattern : Value) :
    Matches τ (checkPattern s pattern inst) (checkPattern t pattern inst) := by
  unfold Evaluation.checkPattern
  split
  · apply (Agree.of_eq rfl).bind
    rintro found _ rfl
    exact Matches.violationIf rfl fun strict => by rw [same.exact strict]
  · apply (Agree.of_eq rfl).bind
    rintro found _ rfl
    exact .stop _
  · exact .stop _
  · exact .clean

theorem checkLimit (side : Side) (exclusive : Bool) (bound : Value) :
    Matches τ (checkLimit s side exclusive bound inst) (checkLimit t side exclusive bound inst) := by
  unfold Evaluation.checkLimit
  split
  · exact .clean
  · apply (Agree.of_eq rfl).bind
    rintro y _ rfl
    exact Matches.violationIf rfl fun strict => by rw [same.exact strict]

theorem checkDivisibleBy (divisor : Value) :
    Matches τ (checkDivisibleBy s divisor inst) (checkDivisibleBy t divisor inst) := by
  have onward : ∀ fits fits' : Bool, fits = fits' → Matches τ
      (violationIf (!fits) (inst.display s ++ " is not a multiple of " ++ divisor.plain s))
      (violationIf (!fits') (inst.display t ++ " is not a multiple of " ++ divisor.plain t)) := by
    rintro fits _ rfl
    exact Matches.violationIf rfl fun strict => by rw [same.exact strict]
  unfold Evaluation.checkDivisibleBy
  split
  · exact .clean
  · cases divisor <;> exact (Agree.of_eq rfl).bind onward

/-! ## Objects -/

theorem schemaMap (v : Value) :
    Agree τ (fun es fs => List.Perm fs es ∧ (τ.strict → fs = es) ∧ v.entries? s = some es)
      (schemaMap s v) (schemaMap t v) := by
  unfold Evaluation.schemaMap
  rcases rel_cases (same.entries? v) with
    ⟨nothing, nothing'⟩ | ⟨es, fs, left, right, perm, exact, _⟩
  · rw [nothing, nothing']
    exact .stop _
  · rw [left, right]
    exact .ok ⟨perm, exact, rfl⟩

theorem affirms (key : String) :
    affirms t (t.entries addr) key = affirms s (s.entries addr) key := by
  have truthy : Value.truthy t = Value.truthy s := funext same.reordered.truthy
  rw [Evaluation.affirms, Evaluation.affirms, same.lookup, truthy]

theorem isRequired (v : Value) : isRequired t v = isRequired s v := by
  cases v with
  | mapping a =>
      have affirmed : Evaluation.affirms t (t.entries a) "required" =
          Evaluation.affirms s (s.entries a) "required" := same.affirms "required"
      exact congrArg Except.ok affirmed
  | _ => rfl

theorem checkProperties (found : s.attribute? addr .properties = some v)
    (descends : DescendsAlike τ s addr inst d d') :
    Matches τ (checkProperties s d v inst) (checkProperties t d' v inst) := by
  unfold Evaluation.checkProperties
  rcases rel_cases (same.entries? inst) with
    ⟨nothing, nothing'⟩ | ⟨members, members', left, right, _, _, lookups⟩
  · rw [nothing, nothing']
    exact .clean
  simp only [left, right]
  apply (same.schemaMap v).bind
  rintro es fs ⟨perm, exact, object⟩
  apply Matches.gather_perm perm exact
  rintro ⟨name, schema⟩ member
  dsimp only
  rw [lookups, same.isRequired]
  cases there : members.lookup name with
  | some part =>
      apply descendTo
      refine descends schema part (fun _ => ?_) (.inr ?_)
      · exact .held (.named (.inl rfl) found object member)
      · exact Value.mem_children_of_entries left (Entries.mem_of_lookup there)
  | none =>
      apply (Agree.of_eq rfl).bind
      rintro required _ rfl
      exact (Matches.violationIf rfl fun _ => rfl).below name

theorem checkPatternProperties (found : s.attribute? addr .patternProperties = some v)
    (descends : DescendsAlike τ s addr inst d d') :
    Matches τ (checkPatternProperties s d v inst) (checkPatternProperties t d' v inst) := by
  unfold Evaluation.checkPatternProperties
  rcases rel_cases (same.entries? inst) with
    ⟨nothing, nothing'⟩ | ⟨members, members', left, right, mixed, equal, _⟩
  · rw [nothing, nothing']
    exact .clean
  simp only [left, right]
  apply (same.schemaMap v).bind
  rintro es fs ⟨perm, exact, object⟩
  apply Matches.gather_perm perm exact
  rintro ⟨pattern, schema⟩ member
  apply Matches.gather_perm mixed equal
  rintro ⟨name, part⟩ among
  apply (Agree.of_eq rfl).bind
  rintro applies _ rfl
  cases applies with
  | false => exact Matches.clean
  | true =>
      apply descendTo
      refine descends schema part (fun _ => ?_) (.inr ?_)
      · exact .held (.named (.inr rfl) found object member)
      · exact Value.mem_children_of_entries left among

theorem covers (v : Value) (name : String) : covers t v name = covers s v name := by
  cases v with
  | mapping a => simp only [Evaluation.covers, same.lookup]
  | list a | tuple a => simp only [Evaluation.covers, same.reordered.elements]
  | _ => rfl

theorem isExtra (patterns name : String) :
    isExtra t (t.entries addr) patterns name = isExtra s (s.entries addr) patterns name := by
  simp only [Evaluation.isExtra, same.lookup, same.covers]

theorem textsOf (steady : ∀ m, v = .mapping m → t.entries m = s.entries m) :
    textsOf t v = textsOf s v := by
  simp only [Evaluation.textsOf, same.iterate?_eq steady]

theorem joinedPatterns (steady : Steady s t addr) :
    joinedPatterns t (t.entries addr) = joinedPatterns s (s.entries addr) := by
  simp only [Evaluation.joinedPatterns, same.lookup]
  cases found : (s.entries addr).lookup "patternProperties" with
  | none => rfl
  | some v =>
      simp only
      rw [same.textsOf fun m is => steady.patterns m (is ▸ found)]

theorem extrasMessage (steady : Steady s t addr) {names names' : List String}
    (equal : τ.strict → names' = names) :
    Agree τ (fun m n => τ.strict → m = n) (extrasMessage s (s.entries addr) names)
      (extrasMessage t (t.entries addr) names') := by
  unfold Evaluation.extrasMessage
  simp only [same.lookup]
  cases found : (s.entries addr).lookup "patternProperties" with
  | none => exact .ok fun strict => by rw [equal strict]
  | some v =>
      simp only
      rw [same.textsOf fun m is => steady.patterns m (is ▸ found)]
      apply (Agree.of_eq rfl).bind
      rintro texts _ rfl
      exact .ok fun strict => by rw [equal strict]

theorem checkAdditionalProperties (found : s.attribute? addr .additionalProperties = some v)
    (steady : Steady s t addr) (descends : DescendsAlike τ s addr inst d d') :
    Matches τ (checkAdditionalProperties s d (s.entries addr) v inst)
      (checkAdditionalProperties t d' (t.entries addr) v inst) := by
  unfold Evaluation.checkAdditionalProperties
  rcases rel_cases (same.entries? inst) with
    ⟨nothing, nothing'⟩ | ⟨members, members', left, right, mixed, equal, _⟩
  · rw [nothing, nothing']
    exact .clean
  simp only [left, right]
  rw [same.joinedPatterns steady]
  cases joined : Evaluation.joinedPatterns s (s.entries addr) with
  | error stop => exact .stop stop
  | ok patterns =>
  obtain rfl := joinedPatterns_ok joined
  simp only [same.isExtra]
  apply (filterM_perm (fun _ _ told => isExtra_ok told) mixed equal).bind
  rintro extras extras' ⟨perm, exact, among⟩
  split
  · next object =>
      apply Matches.gather_perm perm exact
      rintro ⟨name, part⟩ member
      apply descendTo
      refine descends v part (fun _ => ?_) (.inr ?_)
      · refine .held (.additional (.inl rfl) found ?_)
        rintro rfl
        cases object
      · exact Value.mem_children_of_entries left (among member)
  · rw [same.reordered.truthy, perm.isEmpty_eq]
    split
    · apply (same.extrasMessage steady fun strict => by rw [exact strict]).bind
      intro m n told
      exact Matches.violation told
    · exact Matches.clean

/-! ## Dependencies and extended schemas -/

theorem isDependencyMap (v : Value) : isDependencyMap t v = isDependencyMap s v := by
  have each : Evaluation.isDependency t = Evaluation.isDependency s := by
    funext w
    rw [Evaluation.isDependency, Evaluation.isDependency, same.reordered.elements?]
  cases v with
  | mapping a =>
      simp only [Evaluation.isDependencyMap, Value.entries?, Option.any_some, each,
        (same.reordered.entries a).all_eq]
  | _ => rfl

theorem isExtension (v : Value) : isExtension t v = isExtension s v := by
  rw [Evaluation.isExtension, Evaluation.isExtension, same.reordered.elements?]

omit same in
theorem checkCompanion {members members' : Entries}
    (lookups : ∀ key, members'.lookup key = members.lookup key) (name : String) (other : Value) :
    checkCompanion members' name other = checkCompanion members name other := by
  cases other with
  | text t => simp only [Evaluation.checkCompanion, lookups]
  | _ => rfl

theorem checkDependencies
    (found : (s.entries addr).lookup Keyword.dependencies.key = some v)
    (descends : DescendsAlike τ s addr inst d d') :
    Matches τ (checkDependencies s d v inst) (checkDependencies t d' v inst) := by
  unfold Evaluation.checkDependencies
  rw [same.isDependencyMap]
  split
  · exact .stop _
  next usable =>
  have usable : Evaluation.isDependencyMap s v = true := by simpa using usable
  rcases rel_cases (same.entries? inst) with
    ⟨nothing, nothing'⟩ | ⟨members, members', left, right, _, _, lookups⟩
  · rw [nothing, nothing']
    exact .clean
  rcases rel_cases (same.entries? v) with
    ⟨nothing, nothing'⟩ | ⟨es, fs, listed, listed', perm, exact, _⟩
  · rw [left, right, nothing, nothing']
    exact .clean
  simp only [left, right, listed, listed']
  apply Matches.gather_perm perm exact
  rintro ⟨name, dependency⟩ member
  have companion := fun other => @checkCompanion members members' lookups name other
  simp only [lookups, same.reordered.elements?, funext companion]
  split
  · exact .clean
  split
  · exact .of_eq rfl
  split
  · next object =>
      exact descends dependency inst (fun _ => .dependency found usable listed member object)
        (.inl rfl)
  · exact .of_eq rfl

theorem checkExtends (found : (s.entries addr).lookup Keyword.extending.key = some v)
    (descends : DescendsAlike τ s addr inst d d') :
    Matches τ (checkExtends s d v inst) (checkExtends t d' v inst) := by
  unfold Evaluation.checkExtends
  rw [same.isExtension]
  split
  · exact .stop _
  next usable =>
  have usable : Evaluation.isExtension s v = true := by simpa using usable
  rw [same.reordered.elements?]
  cases array : v.elements? s with
  | none => exact descends v inst (fun object => .extended found object) (.inl rfl)
  | some schemas =>
      apply Matches.gather_perm (.refl _) fun _ => rfl
      intro schema member
      exact descends schema inst (fun _ => .extendedMember found usable array member) (.inl rfl)

/-! ## Arrays -/

omit same in
theorem mem_indexed {vs : List Value} {token : String} (member : (token, v) ∈ indexed vs) :
    v ∈ vs := by
  rw [← map_snd_indexed vs]
  exact List.mem_map_of_mem member

theorem checkItems (found : s.attribute? addr .items = some v)
    (descends : DescendsAlike τ s addr inst d d') :
    Matches τ (checkItems s d v inst) (checkItems t d' v inst) := by
  unfold Evaluation.checkItems
  rw [same.reordered.elements?]
  cases array : inst.elements? s with
  | none => exact .clean
  | some vs =>
      simp only
      split
      · next object =>
          obtain ⟨inner, rfl⟩ := Value.kind_eq_object.mp object
          apply Matches.gather_perm (.refl _) fun _ => rfl
          rintro ⟨token, part⟩ member
          apply descendTo
          refine descends _ part (fun _ => .held (.allItems found)) (.inr ?_)
          exact Value.mem_children_of_elements array (mem_indexed member)
      · next other =>
          rw [same.reordered.iterate? other]
          cases given : v.iterate? s with
          | none => exact .stop _
          | some schemas =>
              apply Matches.gather_perm (.refl _) fun _ => rfl
              rintro ⟨⟨token, part⟩, schema⟩ member
              obtain ⟨first, second⟩ := List.of_mem_zip member
              apply descendTo
              refine descends schema part (fun object => ?_) (.inr ?_)
              · -- only a list of schemas gives mappings when it is gone through
                obtain ⟨m, rfl⟩ := Value.kind_eq_object.mp object
                obtain ⟨index, here⟩ := List.mem_iff_getElem?.mp second
                cases v with
                | list | tuple => exact .held (.item found given here)
                | text | octets | mapping =>
                    obtain rfl := Option.some.inj given
                    simp at second
                | _ => cases given
              · exact Value.mem_children_of_elements array (mem_indexed first)

theorem checkAdditionalItems (found : s.attribute? addr .additionalItems = some v)
    (descends : DescendsAlike τ s addr inst d d') :
    Matches τ (checkAdditionalItems s d (s.entries addr) v inst)
      (checkAdditionalItems t d' (t.entries addr) v inst) := by
  unfold Evaluation.checkAdditionalItems
  rw [same.reordered.elements?, same.lookup]
  split
  · exact .clean
  · exact .clean
  · next vs items array _ =>
      split
      · exact .clean
      next other =>
      have counted : positionCount t items = positionCount s items := by
        rw [positionCount, positionCount, same.reordered.iterate? other]
      rw [counted]
      apply (Agree.of_eq rfl).bind
      rintro count _ rfl
      dsimp only
      split
      · next object =>
          apply Matches.gather_perm (.refl _) fun _ => rfl
          rintro ⟨token, part⟩ member
          apply descendTo
          refine descends v part (fun _ => ?_) (.inr ?_)
          · refine .held (.additional (.inr rfl) found ?_)
            rintro rfl
            cases object
          · exact Value.mem_children_of_elements array (mem_indexed (List.mem_of_mem_drop member))
      · apply Matches.violationIf
        · rw [same.reordered.truthy]
        · exact fun strict => by rw [same.exact strict]

theorem checkItemCount (side : Side) (bound : Value) :
    Matches τ (checkItemCount s side bound inst) (checkItemCount t side bound inst) := by
  simp only [Evaluation.checkItemCount, same.reordered.elements?]
  split
  · exact same.checkLength side _ bound
  · exact .clean

theorem checkUniqueItems (unique : Value) :
    Matches τ (checkUniqueItems s unique inst) (checkUniqueItems t unique inst) := by
  unfold Evaluation.checkUniqueItems
  rw [same.reordered.elements?]
  cases inst.elements? s with
  | none => exact .clean
  | some vs =>
      apply Matches.violationIf
      · rw [same.reordered.truthy, same.reordered.distinct same.keys]
      · exact fun strict => by rw [same.exact strict]

/-! ## All keywords -/

variable {r r' : String → Value → Evaluation}

theorem checkKeyword (steady : Steady s t addr) (descends : DescendsAlike τ s addr inst d d')
    {k : Keyword} (found : (s.entries addr).lookup k.key = some v)
    (refers : ∀ ref, (s.entries addr).lookup Keyword.ref.key = some (.text ref) →
      Matches τ (r ref inst) (r' ref inst)) :
    Matches τ (checkKeyword ⟨s, d, r⟩ (s.entries addr) inst v k)
      (checkKeyword ⟨t, d', r'⟩ (t.entries addr) inst v k) := by
  cases k with
  | type => exact same.checkType found (fun m is => steady.types m (is ▸ found)) descends
  | disallow => exact same.checkDisallow found descends
  | enum => exact same.checkEnum v
  | properties => exact same.checkProperties found descends
  | patternProperties => exact same.checkPatternProperties found descends
  | additionalProperties => exact same.checkAdditionalProperties found steady descends
  | items => exact same.checkItems found descends
  | additionalItems => exact same.checkAdditionalItems found descends
  | minItems => exact same.checkItemCount .least v
  | maxItems => exact same.checkItemCount .most v
  | uniqueItems => exact same.checkUniqueItems v
  | minimum =>
      simp only [Evaluation.checkKeyword, same.affirms]
      exact same.checkLimit .least _ v
  | maximum =>
      simp only [Evaluation.checkKeyword, same.affirms]
      exact same.checkLimit .most _ v
  | divisibleBy => exact same.checkDivisibleBy v
  | minLength => exact same.checkTextLength .least v
  | maxLength => exact same.checkTextLength .most v
  | pattern => exact same.checkPattern v
  | dependencies => exact same.checkDependencies found descends
  | extending => exact same.checkExtends found descends
  | ref =>
      cases v with
      | text ref => exact refers ref found
      | _ => exact .stop _

/-- An entry comes to the same in the two schemas, whether its key is a keyword or not. -/
theorem checkEntry (steady : Steady s t addr) (descends : DescendsAlike τ s addr inst d d')
    (refers : ∀ ref, (s.entries addr).lookup Keyword.ref.key = some (.text ref) →
      Matches τ (r ref inst) (r' ref inst)) (entry : String × Value)
    (member : entry ∈ s.entries addr) :
    Matches τ
      (match Keyword.ofKey? entry.1 with
        | some k => Evaluation.checkKeyword ⟨s, d, r⟩ (s.entries addr) inst entry.2 k
        | none => clean)
      (match Keyword.ofKey? entry.1 with
        | some k => Evaluation.checkKeyword ⟨t, d', r'⟩ (t.entries addr) inst entry.2 k
        | none => clean) := by
  cases known : Keyword.ofKey? entry.1 with
  | none => exact .clean
  | some k =>
      have here := Entries.lookup_of_mem (same.keys.entries addr) member
      rw [← Mirror.key_of_ofKey? known] at here
      exact same.checkKeyword steady descends here refers

/-- A schema and the one at its address in the reordered store come to the same. -/
theorem checkEntries (steady : Steady s t addr) (descends : DescendsAlike τ s addr inst d d')
    (refers : ∀ ref, (s.entries addr).lookup Keyword.ref.key = some (.text ref) →
      Matches τ (r ref inst) (r' ref inst)) :
    Matches τ (checkEntries ⟨s, d, r⟩ (s.entries addr) inst)
      (checkEntries ⟨t, d', r'⟩ (t.entries addr) inst) := by
  have each := same.checkEntry steady descends refers
  have refs := same.lookup addr Keyword.ref.key
  rw [Evaluation.checkEntries, Evaluation.checkEntries]
  have all := Matches.gather_perm (same.reordered.entries addr)
    (fun strict => same.exactly strict addr) each
  cases found : (s.entries addr).lookup Keyword.ref.key with
  | none =>
      rw [Mirror.applicable_all (.inl found), Mirror.applicable_all (.inl (refs.trans found))]
      exact all
  | some ref =>
      by_cases null : ref = .null
      · rw [null] at found
        rw [Mirror.applicable_all (.inr found), Mirror.applicable_all (.inr (refs.trans found))]
        exact all
      · rw [Mirror.applicable_ref found null, Mirror.applicable_ref (refs.trans found) null]
        apply Matches.gather_perm (.refl _) fun _ => rfl
        intro entry member
        obtain rfl := List.mem_singleton.mp member
        exact each _ (Entries.mem_of_lookup found)

end Rearranged

end Evaluation

end SchemaAudit

import SchemaAudit.Proofs.Classification
import SchemaAudit.Proofs.MostSpecific
import SchemaAudit.Proofs.Standalone

/-! # Values classified by unions

A schema that asks for a type takes a value if some alternative does, and one that forbids types
takes it if none does. An alternative takes a value as it would by itself: a name as the type that
it names, and a schema as that schema judges.
-/

namespace SchemaAudit

namespace Store

/-- Whether an alternative takes a value: the value is of the type that is named, or the schema by
    itself accepts it. -/
def suits (s : Store) (inst : Value) : Value → Bool
  | .text name => (TypeName.ofName? name).any fun t => t.admits inst
  | .mapping addr => judge s inst addr == .fits
  | _ => false

/-- What can be told of a value: the name of a type, or a schema without identifiers and references
    that comes to a verdict on the value. -/
inductive Usable (s : Store) (inst : Value) : Value → Prop where
  | name {name : String} (known : name ∈ typeNames) : Usable s inst (.text name)
  | schema {addr : Nat} (alone : s.Standalone addr)
      (judged : judge s inst addr = .fits ∨
        ∃ path message, judge s inst addr = .violated path message) :
      Usable s inst (.mapping addr)

/-- A text that names no type. -/
def Unnamed (v : Value) : Prop := ∃ name, v = .text name ∧ name ∉ typeNames

end Store

namespace Evaluation

open Reference (Library)

section Alternatives

variable {s : Store} {d : Descent} {inst v : Value} {vs before after : List Value}

theorem matchesAlternative_unnamed (s : Store) (d : Descent) (inst : Value)
    (unnamed : Store.Unnamed v) :
    ∃ name, matchesAlternative s d inst v = flawed (.unknownType name) := by
  obtain ⟨name, rfl, unknown⟩ := unnamed
  exact ⟨name, by rw [matchesAlternative, typeTest?_unknown unknown]⟩

/-- Schemas inside are evaluated as they would be judged by themselves. -/
def JudgesAlike (s : Store) (d : Descent) (inst : Value) (vs : List Value) : Prop :=
  ∀ m, .mapping m ∈ vs → s.Standalone m → judge s inst m = (d (.mapping m) inst).verdict

theorem matchesAlternative_usable (alike : JudgesAlike s d inst vs) (member : v ∈ vs)
    (usable : s.Usable inst v) : matchesAlternative s d inst v = .ok (s.suits inst v) := by
  cases usable with
  | name known =>
      obtain ⟨test, tested⟩ := Option.isSome_iff_exists.mp (typeTest?_isSome.mpr known)
      obtain ⟨t, named, agrees⟩ := typeTest?_admits tested
      rw [matchesAlternative, Store.suits, tested, named]
      exact congrArg Except.ok (agrees inst)
  | @schema m alone judged =>
      have verdict := alike m member alone
      rw [matchesAlternative, Store.suits]
      rcases judged with fits | ⟨path, message, violated⟩
      · rw [fits] at verdict ⊢
        rw [verdict_fits.mp verdict.symm]
        rfl
      · rw [violated] at verdict ⊢
        obtain ⟨found, w, ended, deepest, _⟩ := verdict_violated.mp verdict.symm
        rw [ended]
        cases found with
        | nil => cases deepest.mem
        | cons u rest => rfl

theorem matchesAny_usable (alike : JudgesAlike s d inst vs) (usable : ∀ v ∈ vs, s.Usable inst v) :
    matchesAny s d inst vs = .ok (vs.any (s.suits inst)) := by
  have each := fun v member => matchesAlternative_usable alike member (usable v member)
  clear alike usable
  induction vs with
  | nil => rfl
  | cons v rest ih =>
      rw [Mirror.matchesAny_cons, each v List.mem_cons_self, List.any_cons,
        ih fun w later => each w (List.mem_cons_of_mem v later)]
      cases s.suits inst v <;> rfl

/-- Nothing behind the first match is looked at. -/
theorem matchesAny_match (alike : JudgesAlike s d inst (before ++ v :: after))
    (usable : ∀ u ∈ before ++ [v], s.Usable inst u) (suits : s.suits inst v = true) :
    matchesAny s d inst (before ++ v :: after) = .ok true := by
  have each : ∀ u ∈ before ++ [v], matchesAlternative s d inst u = .ok (s.suits inst u) := by
    intro u member
    refine matchesAlternative_usable alike ?_ (usable u member)
    simp only [List.mem_append, List.mem_cons, List.not_mem_nil, or_false] at member ⊢
    rcases member with earlier | here
    · exact .inl earlier
    · exact .inr (.inl here)
  clear alike usable
  induction before with
  | nil =>
      rw [List.nil_append, Mirror.matchesAny_cons, each v (by simp), suits]
      rfl
  | cons u rest ih =>
      rw [List.cons_append, Mirror.matchesAny_cons, each u (by simp),
        ih fun w later => each w (List.mem_cons_of_mem u later)]
      cases s.suits inst u <;> rfl

/-- A text that names no type is a flaw, unless a match comes before. -/
theorem matchesAny_unnamed (alike : JudgesAlike s d inst (before ++ v :: after))
    (members : ∀ u ∈ before, s.Usable inst u ∨ Store.Unnamed u)
    (unmatched : ∀ u ∈ before, s.suits inst u = false) (unnamed : Store.Unnamed v) :
    ∃ name, matchesAny s d inst (before ++ v :: after) = flawed (.unknownType name) := by
  have each : ∀ u ∈ before, matchesAlternative s d inst u = .ok false ∨
      ∃ name, matchesAlternative s d inst u = flawed (.unknownType name) := by
    intro u member
    rcases members u member with usable | unknown
    · rw [matchesAlternative_usable alike (List.mem_append_left _ member) usable,
        unmatched u member]
      exact .inl rfl
    · exact .inr (matchesAlternative_unnamed s d inst unknown)
  clear alike members unmatched
  induction before with
  | nil =>
      obtain ⟨name, flaw⟩ := matchesAlternative_unnamed s d inst unnamed
      exact ⟨name, by rw [List.nil_append, Mirror.matchesAny_cons, flaw]; rfl⟩
  | cons u rest ih =>
      rw [List.cons_append, Mirror.matchesAny_cons]
      rcases each u List.mem_cons_self with passed | ⟨name, flaw⟩
      · obtain ⟨name, flaw⟩ := ih fun w later => each w (List.mem_cons_of_mem u later)
        exact ⟨name, by rw [passed]; exact flaw⟩
      · exact ⟨name, by rw [flaw]; rfl⟩

theorem matchesAny_single (v : Value) :
    matchesAny s d inst [v] = matchesAlternative s d inst v := by
  rw [Mirror.matchesAny_cons]
  cases matchesAlternative s d inst v with
  | error stop => rfl
  | ok fits => cases fits <;> rfl

/-- The only violations of a schema that forbids types are of the value itself, one for each
    alternative that takes it. -/
theorem gather_disallowed (alike : JudgesAlike s d inst vs)
    (usable : ∀ v ∈ vs, s.Usable inst v) (message : Value → String) :
    gather (fun v => do
        let fits ← matchesAny s d inst [v]
        violationIf fits (message v)) vs =
      .ok ((vs.filter (s.suits inst)).map fun v => ⟨[], message v⟩) := by
  have each := fun v member => matchesAlternative_usable alike member (usable v member)
  clear alike usable
  induction vs with
  | nil => rfl
  | cons v rest ih =>
      rw [gather_cons, ih fun w later => each w (List.mem_cons_of_mem v later),
        matchesAny_single, each v List.mem_cons_self, List.filter_cons]
      cases s.suits inst v <;> rfl

/-- A text that names no type is a flaw among what is forbidden, wherever it stands. -/
theorem gather_unnamed (alike : JudgesAlike s d inst vs)
    (members : ∀ v ∈ vs, s.Usable inst v ∨ Store.Unnamed v) (message : Value → String)
    (some : ∃ v ∈ vs, Store.Unnamed v) :
    ∃ name, gather (fun v => do
        let fits ← matchesAny s d inst [v]
        violationIf fits (message v)) vs = flawed (.unknownType name) := by
  have each : ∀ v ∈ vs, Store.Unnamed v ∨
      matchesAlternative s d inst v = .ok (s.suits inst v) := by
    intro v member
    rcases members v member with usable | unknown
    · exact .inr (matchesAlternative_usable alike member usable)
    · exact .inl unknown
  clear alike members
  induction vs with
  | nil => simp at some
  | cons v rest ih =>
      rw [gather_cons, matchesAny_single]
      rcases each v List.mem_cons_self with unknown | told
      · obtain ⟨name, flaw⟩ := matchesAlternative_unnamed s d inst unknown
        exact ⟨name, by rw [flaw]; rfl⟩
      · have later : ∃ w ∈ rest, Store.Unnamed w := by
          obtain ⟨w, member, unknown⟩ := some
          rcases List.mem_cons.mp member with rfl | among
          · obtain ⟨name, flaw⟩ :=
              matchesAlternative_unnamed s d inst unknown
            rw [told] at flaw
            cases flaw
          · exact ⟨w, among, unknown⟩
        obtain ⟨name, flaw⟩ := ih later fun w among => each w (List.mem_cons_of_mem v among)
        refine ⟨name, ?_⟩
        rw [flaw, told]
        cases s.suits inst v <;> rfl

end Alternatives

/-- A schema with one entry is evaluated by that entry alone. -/
theorem checkEntries_single {b : Bench} {inst v : Value} {k : Keyword} (other : k ≠ .ref) :
    checkEntries b [(k.key, v)] inst = checkKeyword b [(k.key, v)] inst v k := by
  have known : Keyword.ofKey? k.key = some k := by cases k <;> decide
  have alone : [(k.key, v)].lookup Keyword.ref.key = none := by
    cases k with
    | ref => exact absurd rfl other
    | _ => rfl
  rw [checkEntries, Mirror.applicable_all (.inl alone), gather_cons, gather_nil]
  simp only [known]
  cases checkKeyword b [(k.key, v)] inst v k with
  | error stop => rfl
  | ok found => exact congrArg Except.ok (List.append_nil found)

end Evaluation

namespace Store

open Evaluation

variable {s : Store} {inst union : Value} {vs : List Value} {addr : Nat}

/-- A schema with one entry is judged by that keyword, with the schemas inside judged as if each of
    them stood by itself. -/
theorem judge_single (inst : Value) (keys : s.KeysDistinct) {k : Keyword}
    (isUnion : k = .type ∨ k = .disallow)
    (entries : s.entries addr = [(k.key, union)]) (listed : alternatives s union = .ok vs) :
    ∃ b : Bench, b.store = s ∧ JudgesAlike s b.descend inst vs ∧
      judge s inst addr = (checkKeyword b [(k.key, union)] inst union k).verdict := by
  have unidentified : (s.entries addr).lookup Reference.identifierKey = none := by
    rw [entries]
    rcases isUnion with rfl | rfl <;> rfl
  obtain ⟨l, opened⟩ := ofRoot_ok (identifierFlaw?_eq_none unidentified)
  obtain ⟨_, _, same⟩ := ofRoot_eq opened
  have store : l.store = s := by rw [same]
  obtain ⟨n, bound⟩ := Nat.exists_eq_succ_of_ne_zero
    (Nat.pos_iff_ne_zero.mp (depthBound_pos s (.mapping addr) inst))
  refine ⟨bench l n ⟨l.rootUri, false⟩, store, ?_, ?_⟩
  · intro m member alone
    have nests : s.Nests addr (.mapping m) := by
      rcases isUnion with rfl | rfl
      · refine Rearranged.alternative_nested (.inl rfl) ?_ listed member rfl
        rw [attribute?, entries]
        rfl
      · refine Rearranged.alternative_nested (.inr rfl) ?_ listed member rfl
        rw [attribute?, entries]
        rfl
    exact judge_standalone keys alone store nests.reaches (Nat.le_of_eq bound)
  · rw [judge, identifierFlaw?_eq_none unidentified]
    simp only [Evaluation.ofRoot, opened, bind, Except.bind, bound]
    rw [evaluate_unidentified (by rw [store]; exact unidentified), store, entries,
      checkEntries_single (by rcases isUnion with rfl | rfl <;> decide)]

/-- A schema that asks for a type of a union. Nothing behind the first match counts, and a text
    that names no type makes the schema unusable if no match comes before. -/
theorem judge_type (inst : Value) (keys : s.KeysDistinct) (listed : alternatives s union = .ok vs)
    (entries : s.entries addr = [(Keyword.type.key, union)]) :
    ((∀ v ∈ vs, s.Usable inst v) →
      (judge s inst addr = .fits ↔ ∃ v ∈ vs, s.suits inst v = true) ∧
      (judge s inst addr = .fits ∨ ∃ message, judge s inst addr = .violated "" message)) ∧
    (∀ before v after, vs = before ++ v :: after → (∀ u ∈ before ++ [v], s.Usable inst u) →
      s.suits inst v = true → judge s inst addr = .fits) ∧
    (∀ before v after, vs = before ++ v :: after →
      (∀ u ∈ before, s.Usable inst u ∨ Unnamed u) → (∀ u ∈ before, s.suits inst u = false) →
      Unnamed v → ∃ reason, judge s inst addr = .unusable reason) := by
  obtain ⟨b, rfl, alike, judged⟩ := judge_single inst keys (.inl rfl) entries listed
  rw [judged, checkKeyword, checkType, listed]
  refine ⟨fun usable => ?_, ?_, ?_⟩
  · simp only [bind, Except.bind, matchesAny_usable alike usable]
    cases matched : vs.any (b.store.suits inst) with
    | true => exact ⟨iff_of_true rfl (List.any_eq_true.mp matched), .inl rfl⟩
    | false =>
        refine ⟨iff_of_false (by rintro ⟨⟩) ?_, .inr ⟨_, rfl⟩⟩
        rintro ⟨v, member, suits⟩
        rw [List.any_eq_false] at matched
        exact matched v member suits
  · rintro before v after rfl usable suits
    simp only [bind, Except.bind, matchesAny_match alike usable suits]
    rfl
  · rintro before v after rfl members unmatched unnamed
    obtain ⟨name, flaw⟩ := matchesAny_unnamed alike members unmatched unnamed
    exact ⟨_, by simp only [bind, Except.bind, flaw, flawed]; rfl⟩

/-- A schema that forbids all types of a union. All of them are looked at, so that a text that
    names no type makes the schema unusable wherever it stands. -/
theorem judge_disallow (inst : Value) (keys : s.KeysDistinct)
    (listed : alternatives s union = .ok vs)
    (entries : s.entries addr = [(Keyword.disallow.key, union)]) :
    ((∀ v ∈ vs, s.Usable inst v) →
      (judge s inst addr = .fits ↔ ∀ v ∈ vs, s.suits inst v = false) ∧
      (judge s inst addr = .fits ∨ ∃ message, judge s inst addr = .violated "" message)) ∧
    ((∀ v ∈ vs, s.Usable inst v ∨ Unnamed v) → (∃ v ∈ vs, Unnamed v) →
      ∃ reason, judge s inst addr = .unusable reason) := by
  obtain ⟨b, rfl, alike, judged⟩ := judge_single inst keys (.inr rfl) entries listed
  rw [judged, checkKeyword, checkDisallow, listed]
  constructor
  · intro usable
    have gathered := gather_disallowed alike usable
      fun v => v.display b.store ++ " is disallowed for " ++ inst.display b.store
    simp only [bind, Except.bind] at gathered ⊢
    rw [gathered]
    cases kept : vs.filter (b.store.suits inst) with
    | nil =>
        rw [List.filter_eq_nil_iff] at kept
        refine ⟨iff_of_true rfl fun v member => ?_, .inl rfl⟩
        simpa using kept v member
    | cons v rest =>
        have member : v ∈ vs.filter (b.store.suits inst) := kept ▸ List.mem_cons_self
        obtain ⟨among, suits⟩ := List.mem_filter.mp member
        refine ⟨iff_of_false ?_ fun none => ?_, .inr
          ⟨v.display b.store ++ " is disallowed for " ++ inst.display b.store, ?_⟩⟩
        · rw [verdict_fits]
          rintro ⟨⟩
        · rw [none v among] at suits
          cases suits
        · -- all of the violations are of the value itself, so the first is told
          exact verdict_violated.mpr ⟨_, _, rfl, ⟨[], _, rfl, by simp, by simp⟩, rfl, rfl⟩
  · intro members unnamed
    obtain ⟨name, flaw⟩ := gather_unnamed alike members
      (fun v => v.display b.store ++ " is disallowed for " ++ inst.display b.store) unnamed
    refine ⟨(Flaw.unknownType name).message, ?_⟩
    simp only [bind, Except.bind] at flaw ⊢
    rw [flaw]
    rfl

/-- A value is classified by a union as by its alternatives, each by itself: asked for a type of the
    union it passes if one of them takes it, and forbidden all it passes if none does, in whatever
    order they stand. A text that names no type makes the first schema unusable if it is come to
    before any match, and the second one anyway. -/
theorem union_classifies (keys : s.KeysDistinct) (listed : alternatives s union = .ok vs)
    (members : ∀ v ∈ vs, s.Usable inst v ∨ Unnamed v) {asking forbidding : Nat}
    (asks : s.entries asking = [(Keyword.type.key, union)])
    (forbids : s.entries forbidding = [(Keyword.disallow.key, union)]) :
    ((∀ v ∈ vs, s.Usable inst v) →
      (judge s inst asking = .fits ↔ ∃ v ∈ vs, s.suits inst v = true) ∧
      (judge s inst asking = .fits ∨ ∃ message, judge s inst asking = .violated "" message) ∧
      (judge s inst forbidding = .fits ↔ ∀ v ∈ vs, s.suits inst v = false) ∧
      (judge s inst forbidding = .fits ∨
        ∃ message, judge s inst forbidding = .violated "" message) ∧
      ∀ union' vs' asking' forbidding', alternatives s union' = .ok vs' → vs'.Perm vs →
        s.entries asking' = [(Keyword.type.key, union')] →
        s.entries forbidding' = [(Keyword.disallow.key, union')] →
        (judge s inst asking' = .fits ↔ judge s inst asking = .fits) ∧
        (judge s inst forbidding' = .fits ↔ judge s inst forbidding = .fits)) ∧
    (∀ before v after, vs = before ++ v :: after → (∀ u ∈ before ++ [v], s.Usable inst u) →
      s.suits inst v = true → judge s inst asking = .fits) ∧
    (∀ before v after, vs = before ++ v :: after → (∀ u ∈ before, s.suits inst u = false) →
      Unnamed v → ∃ reason, judge s inst asking = .unusable reason) ∧
    ((∃ v ∈ vs, Unnamed v) → ∃ reason, judge s inst forbidding = .unusable reason) := by
  obtain ⟨told, matched, stuck⟩ := judge_type inst keys listed asks
  obtain ⟨told', stuck'⟩ := judge_disallow inst keys listed forbids
  refine ⟨fun usable => ?_, matched, ?_, stuck' members⟩
  · obtain ⟨fits, ends⟩ := told usable
    obtain ⟨fits', ends'⟩ := told' usable
    refine ⟨fits, ends, fits', ends', ?_⟩
    intro union' vs' asking' forbidding' listed' perm asks' forbids'
    have among : ∀ v ∈ vs', s.Usable inst v := fun v member => usable v (perm.mem_iff.mp member)
    obtain ⟨other, _⟩ := (judge_type inst keys listed' asks').1 among
    obtain ⟨other', _⟩ := (judge_disallow inst keys listed' forbids').1 among
    simp only [fits, other, fits', other', perm.mem_iff, iff_self, and_self]
  · rintro before v after rfl
    exact stuck before v after rfl fun u member => members u (List.mem_append_left _ member)

/-- Unions of names and schemas, in two orders, and one with a text that names no type. -/
def classified : Store where
  lists := #[
    [.text "string", .mapping 0, .text "null"],
    [.mapping 0, .text "null", .text "string"],
    [.text "string", .mapping 0, .text "real", .text "null"]]
  maps := #[
    [("minimum", .int 3)],
    [("type", .list 0)], [("disallow", .list 0)],
    [("type", .list 1)], [("disallow", .list 1)],
    [("type", .list 2)], [("disallow", .list 2)]]

theorem union_classifies_classified :
    judge classified (.int 5) 1 = .fits ∧ judge classified (.int 5) 2 ≠ .fits ∧
      (judge classified (.int 5) 3 = .fits ↔ judge classified (.int 5) 1 = .fits) ∧
      judge classified (.int 5) 5 = .fits ∧
      (∃ reason, judge classified (.int 2) 5 = .unusable reason) ∧
      ∃ reason, judge classified (.int 5) 6 = .unusable reason := by
  have keys : classified.KeysDistinct := by decide +kernel
  have alone : classified.Standalone 0 := .of_unfold (by decide +kernel)
  have least : ∀ n, n = 5 ∨ n = 2 → classified.Usable (.int n) (.mapping 0) := by
    rintro n (rfl | rfl)
    · exact .schema alone (.inl (by decide +kernel))
    · exact .schema alone (.inr ⟨"", "2 is less than the minimum of 3", by decide +kernel⟩)
  have known : ∀ (n : Int) name, name ∈ typeNames → classified.Usable (.int n) (.text name) :=
    fun _ _ => .name
  have usable : ∀ v ∈ classified.elements 0, classified.Usable (.int 5) v := by
    intro v member
    simp [classified, elements] at member
    rcases member with rfl | rfl | rfl
    · exact known 5 _ (by decide)
    · exact least 5 (.inl rfl)
    · exact known 5 _ (by decide)
  have unnamed : Unnamed (.text "real") := ⟨"real", rfl, by decide⟩
  have members : ∀ n, n = 5 ∨ n = 2 → ∀ v ∈ classified.elements 2,
      classified.Usable (.int n) v ∨ Unnamed v := by
    intro n among v member
    simp [classified, elements] at member
    rcases member with rfl | rfl | rfl | rfl
    · exact .inl (known n _ (by decide))
    · exact .inl (least n among)
    · exact .inr unnamed
    · exact .inl (known n _ (by decide))
  obtain ⟨plain, _⟩ := @union_classifies classified (.int 5) (.list 0) _ keys rfl
    (fun v member => .inl (usable v member)) 1 2 rfl rfl
  obtain ⟨fits, _, forbidden, _, order⟩ := plain usable
  obtain ⟨_, matched, _, stuck⟩ := @union_classifies classified (.int 5) (.list 2) _ keys rfl
    (members 5 (.inl rfl)) 5 6 rfl rfl
  obtain ⟨_, _, unmatched, _⟩ := @union_classifies classified (.int 2) (.list 2) _ keys rfl
    (members 2 (.inr rfl)) 5 6 rfl rfl
  refine ⟨?_, ?_, ?_, ?_, ?_, ?_⟩
  · exact fits.mpr ⟨.mapping 0, by decide, by decide +kernel⟩
  · intro passes
    exact absurd (forbidden.mp passes (.mapping 0) (by decide)) (by decide +kernel)
  · refine (order (.list 1) _ 3 4 rfl ?_ rfl rfl).1
    decide
  · refine matched [.text "string"] (.mapping 0) [.text "real", .text "null"] rfl ?_
      (by decide +kernel)
    intro v member
    exact usable v (by revert v; decide)
  · refine unmatched [.text "string", .mapping 0] (.text "real") [.text "null"] rfl ?_ unnamed
    decide +kernel
  · exact stuck ⟨.text "real", by decide, unnamed⟩

end Store

end SchemaAudit

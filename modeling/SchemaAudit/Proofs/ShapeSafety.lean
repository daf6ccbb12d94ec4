import SchemaAudit.Proofs.Calls
import SchemaAudit.Proofs.Separation
import SchemaAudit.Proofs.Standalone

/-! # Schemas in order are evaluated safely

A schema in which all attributes are as the rules ask is evaluated on any value without an operation
on values of kinds it is not made for. What the rules do not speak of, dependencies and extended
schemas, is guarded by the evaluation itself. Left are the operations that may fail on values of the
right kinds: divisions of numbers that are too large, and searches for texts that are no patterns.
-/

namespace SchemaAudit

/-- An operation that may fail although its operands are of the right kinds. -/
inductive Operation.Delicate : Operation → Prop where
  | divide (inst divisor : Value) : Delicate (.divide inst divisor)
  | search (pattern : Value) : Delicate (.search pattern)

namespace Store

/-- The schema at an address is in order: what its attributes hold is permitted, except that its
    default is not asked for, and all that is nested in it is a schema. -/
structure InOrder (s : Store) (addr : Nat) : Prop where
  permitted : ∀ a v, a ≠ .default → s.attribute? addr a = some v → s.Permits a v
  nodes : ∀ v, s.Nests addr v → v.kind = .object
  unidentified : (s.entries addr).lookup Reference.identifierKey = none
  unreferring : (s.entries addr).lookup Reference.referenceKey = none

/-- The schema at an address and all schemas inside are in order. -/
def Orderly (s : Store) (addr : Nat) : Prop :=
  ∀ b, Relation.ReflTransGen (fun a b => s.Nests a (.mapping b)) addr b → s.InOrder b

end Store

namespace Evaluation

variable {s : Store} {addr : Nat} {admits : Value → Value → Bool} {inst v : Value}

/-- A demand that a schema in order makes. -/
def Sound (s : Store) (addr : Nat) : Demand → Prop
  | .perform op => ∀ fault, op.stop? s = some (.fault fault) →
      op.Delicate ∧ (fault = .overflow ∨ fault = .invalidValue)
  | .descend w _ => s.Nests addr w
  | .refer _ _ => False

namespace Sound

theorem clear {op : Operation} (passed : op.stop? s = none) : Sound s addr (.perform op) := by
  intro fault failed
  rw [passed] at failed
  cases failed

/-! ## Operations -/

theorem goThrough (given : (v.iterate? s).isSome) : Sound s addr (.perform (.goThrough v)) :=
  clear (by rw [Operation.stop?, if_pos given])

theorem goThrough_array (array : v.kind = .array) : Sound s addr (.perform (.goThrough v)) := by
  apply goThrough
  obtain ⟨vs, found⟩ := (Value.kind_eq_array s).mp array
  cases v with
  | list | tuple => rfl
  | _ => cases found

theorem openMap (object : v.kind = .object) : Sound s addr (.perform (.openMap v)) :=
  clear (by rw [Operation.stop?, if_pos object])

theorem compare (number : v.kind = .number ∨ v.kind = .integer) :
    Sound s addr (.perform (.compare v)) := by
  apply clear
  cases v with
  | int | float | nan => rfl
  | _ => simp [Value.kind] at number

theorem search_text (pattern : String) : Sound s addr (.perform (.search (.text pattern))) := by
  intro fault failed
  refine ⟨.search _, ?_⟩
  rw [Operation.stop?, Operation.misread?] at failed
  split at failed
  · cases failed
  · cases failed
  · obtain rfl := Stop.fault.inj (Option.some.inj failed)
    exact .inl rfl
  · obtain rfl := Stop.fault.inj (Option.some.inj failed)
    exact .inr rfl

/-- A division by a number that is not zero fails for the size of the numbers only, or as there is
    no quotient. -/
theorem divide (number : v.kind = .number ∨ v.kind = .integer) (nonzero : ¬ v.EqualsZero) :
    Sound s addr (.perform (.divide inst v)) := by
  intro fault failed
  refine ⟨.divide _ _, ?_⟩
  rw [← Value.isZero_iff] at nonzero
  obtain ⟨_, broke, same⟩ := Option.map_eq_some_iff.mp failed
  obtain rfl := Stop.fault.inj same
  cases v with
  | int n =>
      have nonzero : n ≠ 0 := by simpa [Value.isZero] using nonzero
      unfold Operation.division? Operation.divisionByWhole? at broke
      simp only [if_neg nonzero] at broke
      split at broke
      · cases broke
      · split at broke
        · exact .inl (Option.some.inj broke).symm
        · cases broke
  | nan =>
      simp only [Operation.division?] at broke
      split at broke
      · exact .inl (Option.some.inj broke).symm
      · exact .inr (Option.some.inj broke).symm
  | float y =>
      have nonzero : ¬ y.isZero = true := nonzero
      simp only [Operation.division?, if_neg nonzero] at broke
      split at broke
      · exact .inl (Option.some.inj broke).symm
      · split at broke
        · exact .inr (Option.some.inj broke).symm
        · exact .inr (Option.some.inj broke).symm
        · exact .inl (Option.some.inj broke).symm
        · cases broke
  | _ => simp [Value.kind] at number

end Sound

/-! ## Keywords -/

variable (order : s.InOrder addr)

theorem performIf_sound {applies : Bool} {op : Operation} {demand : Demand}
    (asked : demand ∈ performIf applies op) (sound : Sound s addr (.perform op)) :
    Sound s addr demand := by
  cases applies with
  | false => cases asked
  | true =>
      obtain rfl := List.mem_singleton.mp asked
      exact sound

theorem matchDemands_sound {vs : List Value}
    (members : ∀ w ∈ vs, w.kind = .string ∨ s.Nests addr w ∧ w.kind = .object) :
    ∀ demand ∈ matchDemands admits inst vs, Sound s addr demand := by
  induction vs with
  | nil => exact List.forall_mem_nil _
  | cons w rest ih =>
      have later := ih fun u member => members u (List.mem_cons_of_mem w member)
      have further : ∀ fits : Bool, ∀ demand ∈ (if fits then [] else matchDemands admits inst rest),
          Sound s addr demand := by
        intro fits
        cases fits with
        | true => exact List.forall_mem_nil _
        | false => exact later
      rcases members w List.mem_cons_self with text | ⟨nests, object⟩
      · obtain ⟨t, rfl⟩ := Value.kind_eq_string.mp text
        refine List.forall_mem_cons.mpr ⟨fun fault failed => ?_, further _⟩
        -- a name that is not known is a flaw
        rw [Operation.stop?] at failed
        split at failed <;> cases failed
      · obtain ⟨m, rfl⟩ := Value.kind_eq_object.mp object
        exact List.forall_mem_cons.mpr ⟨nests, further _⟩

include order

/-- A union is gone through by its alternatives, each of them a name or a schema. -/
theorem union_members {a : Attribute} (isUnion : a = .type ∨ a = .disallow)
    (found : s.attribute? addr a = some v) :
    (v.iterate? s).isSome ∧
      ∀ w ∈ members s v, w.kind = .string ∨ s.Nests addr w ∧ w.kind = .object := by
  have permitted := order.permitted a v (by rcases isUnion with rfl | rfl <;> decide) found
  have kinds : v.kind = .string ∨ v.kind = .array := by
    rcases isUnion with rfl | rfl <;> exact permitted.1
  rcases kinds with text | array
  · obtain ⟨t, rfl⟩ := Value.kind_eq_string.mp text
    exact ⟨rfl, List.forall_mem_singleton.mpr (.inl rfl)⟩
  · obtain ⟨vs, elements⟩ := (Value.kind_eq_array s).mp array
    have alternatives : ∀ w ∈ vs, w.kind = .string ∨ w.kind = .object := by
      rcases isUnion with rfl | rfl <;> exact (permitted.2 vs elements).2
    have listed : v.iterate? s = some vs ∧ members s v = vs ∧
        Evaluation.alternatives s v = .ok vs := by
      cases v with
      | list | tuple =>
          obtain rfl := Option.some.inj elements
          exact ⟨rfl, rfl, rfl⟩
      | _ => cases elements
    rw [listed.1, listed.2.1]
    refine ⟨rfl, fun w member => ?_⟩
    rcases alternatives w member with text | object
    · exact .inl text
    · exact .inr ⟨Rearranged.alternative_nested isUnion found listed.2.2 member object, object⟩

theorem typeDemands_sound (found : s.attribute? addr .type = some v) :
    ∀ demand ∈ typeDemands s admits v inst, Sound s addr demand := by
  obtain ⟨given, alternatives⟩ := union_members order (.inl rfl) found
  exact List.forall_mem_cons.mpr ⟨.goThrough given, matchDemands_sound alternatives⟩

theorem disallowDemands_sound (found : s.attribute? addr .disallow = some v) :
    ∀ demand ∈ disallowDemands s admits v inst, Sound s addr demand := by
  obtain ⟨given, alternatives⟩ := union_members order (.inr rfl) found
  refine List.forall_mem_cons.mpr ⟨.goThrough given, fun demand asked => ?_⟩
  obtain ⟨w, member, asked⟩ := List.mem_flatMap.mp asked
  exact matchDemands_sound (List.forall_mem_singleton.mpr (alternatives w member)) demand asked

theorem propertyDemands_sound (found : s.attribute? addr .properties = some v) :
    ∀ demand ∈ propertyDemands s v inst, Sound s addr demand := by
  have object : v.kind = .object := (order.permitted .properties v (by decide) found).1
  obtain ⟨m, rfl⟩ := Value.kind_eq_object.mp object
  rw [propertyDemands]
  split
  · exact List.forall_mem_nil _
  refine List.forall_mem_cons.mpr ⟨.openMap object, fun demand asked => ?_⟩
  obtain ⟨⟨name, schema⟩, member, rfl⟩ := List.mem_map.mp asked
  have nests : s.Nests addr schema := .held (.named (.inl rfl) found rfl member)
  dsimp only
  split
  · exact nests
  · exact Sound.openMap (order.nodes schema nests)

theorem patternPropertyDemands_sound (found : s.attribute? addr .patternProperties = some v) :
    ∀ demand ∈ patternPropertyDemands s v inst, Sound s addr demand := by
  have object : v.kind = .object := (order.permitted .patternProperties v (by decide) found).1
  obtain ⟨m, rfl⟩ := Value.kind_eq_object.mp object
  rw [patternPropertyDemands]
  split
  · exact List.forall_mem_nil _
  refine List.forall_mem_cons.mpr ⟨.openMap object, fun demand asked => ?_⟩
  obtain ⟨⟨pattern, schema⟩, member, asked⟩ := List.mem_flatMap.mp asked
  obtain ⟨⟨name, part⟩, _, asked⟩ := List.mem_flatMap.mp asked
  rcases List.mem_cons.mp asked with rfl | asked
  · exact Sound.search_text pattern
  · split at asked
    · obtain rfl := List.mem_singleton.mp asked
      exact Store.Nests.held (.named (.inr rfl) found rfl member)
    · cases asked

theorem extraDemands_sound (name : String) :
    ∀ demand ∈ extraDemands s (s.entries addr) name, Sound s addr demand := by
  intro demand asked
  rw [extraDemands] at asked
  rcases List.mem_append.mp asked with asked | asked
  · split at asked
    · cases asked
    · next properties found =>
        obtain rfl := List.mem_singleton.mp asked
        have object : properties.kind = .object :=
          (order.permitted .properties properties (by decide) found).1
        exact Sound.clear (by rw [Operation.stop?, if_pos (.inl object)])
  · split at asked
    · cases asked
    · obtain rfl := List.mem_singleton.mp asked
      exact Sound.search_text _

theorem additionalPropertyDemands_sound
    (found : s.attribute? addr .additionalProperties = some v) :
    ∀ demand ∈ additionalPropertyDemands s (s.entries addr) v inst, Sound s addr demand := by
  intro demand asked
  rw [additionalPropertyDemands] at asked
  split at asked
  · cases asked
  rcases List.mem_append.mp asked with asked | asked
  rcases List.mem_append.mp asked with asked | asked
  · split at asked
    · cases asked
    · next patterns listed =>
        obtain rfl := List.mem_singleton.mp asked
        have object : patterns.kind = .object :=
          (order.permitted .patternProperties patterns (by decide) listed).1
        obtain ⟨m, rfl⟩ := Value.kind_eq_object.mp object
        exact Sound.clear (by simp [Operation.stop?, Value.iterate?, Value.kind])
  · obtain ⟨⟨name, _⟩, _, asked⟩ := List.mem_flatMap.mp asked
    exact extraDemands_sound order name demand asked
  · split at asked
    · next object =>
        obtain ⟨⟨_, part⟩, _, rfl⟩ := List.mem_map.mp asked
        refine Store.Nests.held (.additional (.inl rfl) found ?_)
        rintro rfl
        cases object
    · cases asked

omit order in
theorem dependencyDemands_sound (usable : isDependencyMap s v = true)
    (found : (s.entries addr).lookup Keyword.dependencies.key = some v) :
    ∀ demand ∈ dependencyDemands s v inst, Sound s addr demand := by
  refine List.forall_mem_cons.mpr ⟨.clear (by rw [Operation.stop?, if_pos usable]), ?_⟩
  intro demand asked
  split at asked
  · next properties es _ object =>
      obtain ⟨⟨name, dependency⟩, member, asked⟩ := List.mem_flatMap.mp asked
      dsimp only at asked
      split at asked
      · next depends =>
          obtain rfl := List.mem_singleton.mp asked
          exact Store.Nests.dependency found usable object member depends.2
      · cases asked
  · cases asked

omit order in
theorem extensionDemands_sound (usable : isExtension s v = true)
    (found : (s.entries addr).lookup Keyword.extending.key = some v) :
    ∀ demand ∈ extensionDemands s v inst, Sound s addr demand := by
  refine List.forall_mem_cons.mpr ⟨.clear (by rw [Operation.stop?, if_pos usable]), ?_⟩
  intro demand asked
  split at asked
  · next schemas array =>
      obtain ⟨schema, member, rfl⟩ := List.mem_map.mp asked
      exact Store.Nests.extendedMember found usable array member
  · next nothing =>
      obtain rfl := List.mem_singleton.mp asked
      refine Store.Nests.extended found ?_
      simpa [isExtension, nothing] using usable

theorem itemDemands_sound (found : s.attribute? addr .items = some v) :
    ∀ demand ∈ itemDemands s v inst, Sound s addr demand := by
  have kinds : v.kind = .object ∨ v.kind = .array := (order.permitted .items v (by decide) found).1
  rw [itemDemands]
  split
  · exact List.forall_mem_nil _
  split
  · next object =>
      obtain ⟨m, rfl⟩ := Value.kind_eq_object.mp object
      intro demand asked
      obtain ⟨part, _, rfl⟩ := List.mem_map.mp asked
      exact Store.Nests.held (.allItems found)
  · next other =>
      have array := kinds.resolve_left other
      refine List.forall_mem_cons.mpr ⟨.goThrough_array array, fun demand asked => ?_⟩
      obtain ⟨⟨part, schema⟩, among, rfl⟩ := List.mem_map.mp asked
      obtain ⟨vs, elements⟩ := (Value.kind_eq_array s).mp array
      have given : v.iterate? s = some vs := by
        cases v with
        | list | tuple => exact elements
        | _ => cases elements
      rw [given] at among
      obtain ⟨i, here⟩ := List.mem_iff_getElem?.mp (List.of_mem_zip among).2
      exact Store.Nests.held (.item found elements here)

theorem additionalItemDemands_sound (found : s.attribute? addr .additionalItems = some v) :
    ∀ demand ∈ additionalItemDemands s (s.entries addr) v inst, Sound s addr demand := by
  rw [additionalItemDemands]
  split
  · next vs items _ listed =>
      have kinds : items.kind = .object ∨ items.kind = .array :=
        (order.permitted .items items (by decide) listed).1
      split
      · exact List.forall_mem_nil _
      next other =>
      refine List.forall_mem_cons.mpr
        ⟨.goThrough_array (kinds.resolve_left other), fun demand asked => ?_⟩
      split at asked
      · next object =>
          obtain ⟨part, _, rfl⟩ := List.mem_map.mp asked
          refine Store.Nests.held (.additional (.inr rfl) found ?_)
          rintro rfl
          cases object
      · cases asked
  · exact List.forall_mem_nil _

/-! ## What is reached -/

omit order in
/-- What a row of rows comes to, one of the rows comes to, behind no more than what was before. -/
theorem split_flatMap {α β : Type} {f : α → List β} {xs : List α} {before after : List β} {y : β}
    (split : xs.flatMap f = before ++ y :: after) :
    ∃ x ∈ xs, ∃ ahead behind, f x = ahead ++ y :: behind ∧ ahead ⊆ before := by
  induction xs generalizing before with
  | nil => simp at split
  | cons x rest ih =>
      rw [List.flatMap_cons] at split
      rcases List.append_eq_append_iff.mp split with ⟨more, rfl, later⟩ | ⟨more, here, later⟩
      · obtain ⟨z, member, ahead, behind, same, among⟩ := ih later
        exact ⟨z, List.mem_cons_of_mem x member, ahead, behind, same,
          fun w inside => List.mem_append_right _ (among inside)⟩
      · cases more with
        | nil =>
            obtain ⟨z, member, ahead, behind, same, among⟩ :=
              @ih [] (by simpa using later.symm)
            exact ⟨z, List.mem_cons_of_mem x member, ahead, behind, same,
              fun w inside => absurd (among inside) List.not_mem_nil⟩
        | cons z more =>
            obtain ⟨rfl, rfl⟩ := List.cons.inj later
            exact ⟨x, List.mem_cons_self, before, more, here, fun w inside => inside⟩

omit order in
/-- A guard is come to first, and all the rest of its keyword only if it lets that pass. -/
theorem behind_guard {b : Bench} (store : b.store = s) {op : Operation} {usable : Bool} {f : Flaw}
    (guard : op.stop? s = if usable then none else some (.flaw f))
    {before after rest : List Demand} {demand : Demand}
    (asked : .perform op :: rest = before ++ demand :: after)
    (passed : ∀ earlier ∈ before, b.stop? earlier = none)
    (behind : usable = true → Sound s addr demand) : Sound s addr demand := by
  cases before with
  | nil =>
      obtain ⟨rfl, _⟩ := List.cons.inj asked
      intro fault failed
      rw [guard] at failed
      split at failed <;> cases failed
  | cons earlier more =>
      obtain ⟨rfl, _⟩ := List.cons.inj asked
      have clear := passed _ List.mem_cons_self
      rw [Bench.stop?, store, guard] at clear
      split at clear
      · exact behind ‹_›
      · cases clear

/-- Of what a keyword asks for, all is sound that it comes to: the schemas behind a guard are come
to only if the guard lets them pass. -/
theorem demands_sound {b : Bench} (store : b.store = s) {k : Keyword}
    (found : (s.entries addr).lookup k.key = some v) {before after : List Demand} {demand : Demand}
    (asked : demands s admits (s.entries addr) inst v k = before ++ demand :: after)
    (passed : ∀ earlier ∈ before, b.stop? earlier = none) : Sound s addr demand := by
  have among : demand ∈ demands s admits (s.entries addr) inst v k := by simp [asked]
  cases k with
  | type => exact typeDemands_sound order found demand among
  | disallow => exact disallowDemands_sound order found demand among
  | enum =>
      obtain rfl := List.mem_singleton.mp among
      exact Sound.goThrough_array (order.permitted .enum v (by decide) found).1
  | properties => exact propertyDemands_sound order found demand among
  | patternProperties => exact patternPropertyDemands_sound order found demand among
  | additionalProperties => exact additionalPropertyDemands_sound order found demand among
  | items => exact itemDemands_sound order found demand among
  | additionalItems => exact additionalItemDemands_sound order found demand among
  | minItems =>
      rw [demands] at among
      exact performIf_sound among (.compare (.inr (order.permitted .minItems v (by decide) found).1))
  | maxItems =>
      rw [demands] at among
      exact performIf_sound among (.compare (.inr (order.permitted .maxItems v (by decide) found).1))
  | minLength =>
      rw [demands] at among
      exact performIf_sound among (.compare (.inr (order.permitted .minLength v (by decide) found).1))
  | maxLength =>
      rw [demands] at among
      exact performIf_sound among (.compare (.inr (order.permitted .maxLength v (by decide) found).1))
  | uniqueItems => cases among
  | minimum =>
      rw [demands] at among
      exact performIf_sound among (.compare (order.permitted .minimum v (by decide) found).1)
  | maximum =>
      rw [demands] at among
      exact performIf_sound among (.compare (order.permitted .maximum v (by decide) found).1)
  | divisibleBy =>
      have permitted := order.permitted .divisibleBy v (by decide) found
      rw [demands] at among
      exact performIf_sound among (.divide permitted.1 permitted.2)
  | pattern =>
      obtain ⟨t, rfl⟩ := Value.kind_eq_string.mp (order.permitted .pattern v (by decide) found).1
      rw [demands] at among
      exact performIf_sound among (.search_text t)
  | dependencies =>
      exact behind_guard store rfl asked passed fun usable =>
        dependencyDemands_sound usable found demand among
  | extending =>
      exact behind_guard store rfl asked passed fun usable =>
        extensionDemands_sound usable found demand among
  | ref => cases order.unreferring.symm.trans found

theorem Reaches.sound {l : Reference.Library} (store : l.store = s) (keys : s.KeysDistinct)
    {fuel : Nat} {arrival : Arrival} {scope inside : Scope} {demand : Demand}
    (reached : Reaches l fuel arrival scope (.mapping addr) inst inside demand) :
    Sound s addr demand := by
  obtain ⟨es, before, after, entered, asked, passed⟩ := reached
  subst store
  have opened : es = l.store.entries addr := by
    obtain ⟨_, first, entered⟩ := bind_eq_ok.mp entered
    obtain ⟨_, _, entered⟩ := bind_eq_ok.mp entered
    obtain rfl := Except.ok.inj first
    exact (Prod.mk.inj (Except.ok.inj entered)).1.symm
  subst opened
  rw [entryDemands, Mirror.applicable_all (.inl order.unreferring)] at asked
  obtain ⟨⟨key, v⟩, member, ahead, behind, asked, among⟩ := split_flatMap asked
  dsimp only at asked
  split at asked
  · next k known =>
      have found := Entries.lookup_of_mem (keys.entries addr) member
      rw [← Mirror.key_of_ofKey? known] at found
      exact demands_sound order rfl found asked fun earlier inside => passed earlier (among inside)
  · simp at asked

/-! ## All evaluations on the way -/

namespace Call

variable {l : Reference.Library} {root : Nat} {c d : Call}

omit order

/-- The evaluation of a schema inside an orderly one, with more fuel than schemas inside each
    other. -/
def Bounded (s : Store) (root : Nat) (c : Call) : Prop :=
  ∃ b, c.schema = .mapping b ∧
    Relation.ReflTransGen (fun a b => s.Nests a (.mapping b)) root b ∧
    Copy s s c.fuel (.mapping b) (.mapping b)

theorem Bounded.makes (keys : l.store.KeysDistinct) (orderly : l.store.Orderly root)
    (bounded : c.Bounded l.store root) (makes : Makes l c d) : d.Bounded l.store root := by
  obtain ⟨b, schema, inside, levels⟩ := bounded
  have order := orderly b inside
  cases makes with
  | descending reached =>
      obtain rfl : _ = Value.mapping b := schema
      have nests : l.store.Nests b _ := reached.sound order rfl keys
      obtain ⟨m, rfl⟩ := Value.kind_eq_object.mp (order.nodes _ nests)
      exact ⟨m, rfl, inside.tail nests, nests.levels levels⟩
  | referring reached =>
      obtain rfl : _ = Value.mapping b := schema
      exact (reached.sound order rfl keys).elim

/-- Only an operation that may fail on operands of the right kinds does fail with a fault. -/
theorem Bounded.halts (keys : l.store.KeysDistinct) (orderly : l.store.Orderly root)
    (bounded : c.Bounded l.store root) {fault : Fault} (halts : c.Halts l (.fault fault)) :
    (fault = .overflow ∨ fault = .invalidValue) ∧ ∃ inside op, c.Reaches l inside (.perform op) ∧
      op.Delicate ∧ op.stop? l.store = some (.fault fault) := by
  obtain ⟨b, schema, inside, levels⟩ := bounded
  have order := orderly b inside
  cases halts with
  | endless => exact levels.elim
  | @shut _ arrival scope _ _ _ plain refused =>
      obtain rfl : _ = Value.mapping b := schema
      have entered := @stop?_enter l arrival scope (.mapping b)
      rw [enter_unidentified order.unidentified, refused] at entered
      cases entered
  | performing reached failed =>
      obtain ⟨reached⟩ := id reached
      obtain rfl : _ = Value.mapping b := schema
      obtain ⟨delicate, told⟩ := reached.sound order rfl keys _ failed
      exact ⟨told, _, _, ⟨reached⟩, delicate, failed⟩
  | lost reached astray =>
      obtain ⟨reached⟩ := reached
      obtain rfl : _ = Value.mapping b := schema
      exact (reached.sound order rfl keys).elim

end Call

end Evaluation

namespace Store

open Evaluation

variable {s : Store} {addr : Nat} {inst : Value} {l : Reference.Library} {c : Call}

theorem Evaluates.bounded (keys : s.KeysDistinct) (orderly : s.Orderly addr)
    (acyclic : (Document.mk s (.mapping addr)).Acyclic) (made : s.Evaluates inst addr l c) :
    c.Bounded s addr := by
  have store := made.store
  subst store
  obtain ⟨n, levels⟩ := Document.acyclic_iff_copy.mp acyclic
  have opening : (l.store.opening inst addr l).Bounded l.store addr :=
    ⟨addr, rfl, .refl, levels.occurrences.mono (occurrences_le_depthBound _ _ _)⟩
  obtain ⟨_, made⟩ := made
  induction made with
  | refl => exact opening
  | tail _ makes ih => exact ih.makes keys orderly makes

/-- A guard that does not let its value pass. -/
inductive Refuses (s : Store) (addr : Nat) : Prop where
  | dependencies {v : Value} (found : (s.entries addr).lookup Keyword.dependencies.key = some v)
      (refused : isDependencyMap s v = false)
  | extension {v : Value} (found : (s.entries addr).lookup Keyword.extending.key = some v)
      (refused : isExtension s v = false)

/-- The guards stop an evaluation, whatever the value is. -/
theorem Refuses.stops (refuses : s.Refuses addr) (b : Bench) (inst : Value) (store : b.store = s)
    (unreferring : (s.entries addr).lookup Reference.referenceKey = none) :
    ∃ stop, checkEntries b (s.entries addr) inst = .error stop := by
  have guarded : ∀ k op, (∃ v, (k.key, v) ∈ s.entries addr ∧
      .perform op ∈ demands s b.admits (s.entries addr) inst v k) → (op.stop? s).isSome →
      ∃ stop, checkEntries b (s.entries addr) inst = .error stop := by
    rintro k op ⟨v, member, asked⟩ stopped
    have known : Keyword.ofKey? k.key = some k := by cases k <;> decide
    have among : .perform op ∈ entryDemands s b.admits (s.entries addr) inst := by
      rw [entryDemands, Mirror.applicable_all (.inl unreferring)]
      refine List.mem_flatMap.mpr ⟨(k.key, v), member, ?_⟩
      simp only [known]
      exact asked
    cases whole : checkEntries b (s.entries addr) inst with
    | error stop => exact ⟨stop, rfl⟩
    | ok found =>
        have through := stop?_checkEntries b (s.entries addr) inst
        rw [whole, store, stop?_ok, eq_comm, List.findSome?_eq_none_iff] at through
        have passed := through _ among
        rw [Bench.stop?, store] at passed
        rw [passed] at stopped
        cases stopped
  cases refuses with
  | @dependencies v found refused =>
      refine guarded .dependencies (.takeDependencies v)
        ⟨v, Entries.mem_of_lookup found, List.mem_cons_self⟩ ?_
      rw [Operation.stop?, refused]
      rfl
  | @extension v found refused =>
      refine guarded .extending (.takeExtension v)
        ⟨v, Entries.mem_of_lookup found, List.mem_cons_self⟩ ?_
      rw [Operation.stop?, refused]
      rfl

end Store

end SchemaAudit

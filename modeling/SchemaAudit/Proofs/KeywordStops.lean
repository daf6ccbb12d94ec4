import SchemaAudit.Proofs.Conformity
import SchemaAudit.Proofs.Division

/-! # Keywords stop at their demands

A keyword stops where the first of its demands does that stops at all, and everything else
about it goes through.
-/

namespace SchemaAudit

namespace Evaluation

/-! ## Operations -/

section Operations

variable {s : Store}

theorem stop?_schemaMap (s : Store) (v : Value) :
    stop? (schemaMap s v) = (Operation.openMap v).stop? s := by
  by_cases object : v.kind = .object
  · obtain ⟨addr, rfl⟩ := Value.kind_eq_object.mp object
    rfl
  · simp [schemaMap, Value.entries?_eq_none object, Operation.stop?, object]

theorem schemaMap_ok {v : Value} {es : Entries} (opened : schemaMap s v = .ok es) :
    v.entries? s = some es := by
  unfold schemaMap at opened
  split at opened
  · next found => rw [found, Except.ok.inj opened]
  · cases opened

theorem stop?_isRequired (s : Store) (schema : Value) :
    stop? (isRequired s schema) = (Operation.openMap schema).stop? s := by
  rw [isRequired, stop?_map, stop?_schemaMap]

theorem stop?_limit (s : Store) (v : Value) :
    stop? (limit v) = (Operation.compare v).stop? s := by
  rw [limit, Operation.stop?]
  cases v.looseMagnitude? <;> rfl

theorem stop?_alternatives (s : Store) (v : Value) :
    stop? (alternatives s v) = (Operation.goThrough v).stop? s := by
  cases v <;> rfl

theorem alternatives_ok {v : Value} {vs : List Value} (listed : alternatives s v = .ok vs) :
    members s v = vs := by
  cases v with
  | text | list | tuple | mapping | octets => exact Except.ok.inj listed
  | _ => cases listed

theorem occurs_eq (pattern text : String) :
    occurs pattern text = match Operation.misread? pattern with
      | none => .ok (occursIn pattern text)
      | some stop => .error stop := by
  unfold occurs Operation.misread? occursIn
  cases Pattern.read pattern with
  | ok e => rfl
  | error refusal => cases refusal <;> rfl

theorem stop?_occurs (pattern text : String) :
    stop? (occurs pattern text) = Operation.misread? pattern := by
  rw [occurs_eq]
  cases Operation.misread? pattern <;> rfl

theorem occurs_ok {pattern text : String} {found : Bool}
    (read : occurs pattern text = .ok found) : occursIn pattern text = found := by
  rw [occurs_eq] at read
  split at read
  · exact Except.ok.inj read
  · cases read

theorem stop?_covers (s : Store) (properties : Value) (name : String) :
    stop? (covers s properties name) = (Operation.findName properties).stop? s := by
  rw [covers.eq_def, Operation.stop?]
  cases properties with
  | float x => simp only [Value.kind]; split <;> simp
  | _ => simp [Value.kind]

theorem covers_ok {schema : Entries} {v : Value} {name : String} {named : Bool}
    (found : schema.lookup "properties" = some v) (covered : covers s v name = .ok named) :
    isNamed s schema name = named := by
  cases v <;> simp_all [covers, isNamed, faulted]

theorem stop?_textsOf (s : Store) (v : Value) :
    stop? (textsOf s v) = (Operation.collectTexts v).stop? s := by
  rw [textsOf, Operation.stop?]
  cases v.iterate? s with
  | none => rfl
  | some vs =>
      rw [stop?_mapM]
      induction vs with
      | nil => rfl
      | cons w rest ih =>
          rw [List.findSome?_cons, ih]
          by_cases text : w.kind = .string
          · obtain ⟨t, rfl⟩ := Value.kind_eq_string.mp text
            rfl
          · have other : (w.kind == Kind.string) = false := by simpa using text
            simp only [Option.any_some, List.all_cons, other]
            cases w with
            | text => exact absurd rfl text
            | _ => rfl

theorem textsOf_ok {v : Value} {texts : List String} (collected : textsOf s v = .ok texts) :
    ((v.iterate? s).getD []).filterMap joinedPattern.textOf? = texts := by
  unfold textsOf at collected
  cases given : v.iterate? s with
  | none => simp [given, faulted] at collected
  | some vs =>
      simp only [given, Option.getD_some] at collected ⊢
      clear given
      induction vs generalizing texts with
      | nil => exact Except.ok.inj collected
      | cons w rest ih =>
          rw [List.mapM_cons] at collected
          cases w with
          | text t =>
              obtain ⟨_, first, collected⟩ := bind_eq_ok.mp collected
              obtain ⟨others, later, same⟩ := bind_eq_ok.mp collected
              rw [← Except.ok.inj same, ← Except.ok.inj first, ← ih later]
              rfl
          | _ => cases collected

end Operations

/-! ## Demands in a row -/

section Demands

variable {b : Bench}

theorem findSome?_flatMap {α : Type} (ask : α → List Demand) (xs : List α) :
    (xs.flatMap ask).findSome? b.stop? = xs.findSome? fun x => (ask x).findSome? b.stop? := by
  induction xs with
  | nil => rfl
  | cons x rest ih =>
      rw [List.flatMap_cons, List.findSome?_append, List.findSome?_cons, ih]
      cases (ask x).findSome? b.stop? <;> rfl

variable {α β : Type} {x : Except Stop α} {f : α → Except Stop β}

/-- The demands of a computation come before those of what is done with its result. -/
theorem stop?_bind_append {first rest : List Demand}
    (here : stop? x = first.findSome? b.stop?)
    (onward : ∀ a, x = .ok a → stop? (f a) = rest.findSome? b.stop?) :
    stop? (x >>= f) = (first ++ rest).findSome? b.stop? := by
  rw [List.findSome?_append, ← here]
  cases x with
  | ok a => exact onward a rfl
  | error stop => rfl

theorem stop?_bind_perform {op : Operation} {rest : List Demand}
    (here : stop? x = op.stop? b.store)
    (onward : ∀ a, x = .ok a → stop? (f a) = rest.findSome? b.stop?) :
    stop? (x >>= f) = (.perform op :: rest).findSome? b.stop? := by
  have first : stop? x = [Demand.perform op].findSome? b.stop? := by
    rw [here, List.findSome?_singleton]
    rfl
  exact stop?_bind_append first onward

end Demands

section Keywords

variable (b : Bench)

/-! ## Unions -/

theorem stop?_matchesAny (inst : Value) (vs : List Value) :
    stop? (matchesAny b.store b.descend inst vs) =
      (matchDemands b.admits inst vs).findSome? b.stop? := by
  induction vs with
  | nil => rfl
  | cons v rest ih =>
      rw [matchesAny]
      cases v with
      | mapping a =>
          rw [matchDemands, matchesAlternative, List.findSome?_cons]
          cases done : b.descend (.mapping a) inst with
          | error stop => simp [Bench.stop?, done, Except.map]
          | ok found =>
              cases found <;> simp [Bench.stop?, Bench.admits, done, Except.map, ih]
      | text name =>
          simp only [matchDemands, matchesAlternative, List.findSome?_cons]
          cases named : typeTest? name with
          | none => simp [Bench.stop?, Operation.stop?, named, flawed]
          | some test =>
              cases passed : test inst <;>
                simp [Bench.stop?, Operation.stop?, namesTypeOf, named, passed, ih]
      | _ =>
          simp only [matchDemands, matchesAlternative, List.findSome?_cons, Bench.stop?,
            Operation.stop?]
          generalize isLookupKey b.store (b.store.size + 2) _ = known
          cases known <;> rfl

theorem stop?_checkType (union inst : Value) :
    stop? (checkType b.store b.descend union inst) =
      (typeDemands b.store b.admits union inst).findSome? b.stop? := by
  refine stop?_bind_perform (stop?_alternatives _ _) fun vs listed => ?_
  rw [stop?_bind_clear fun _ => stop?_violationIf _ _, stop?_matchesAny, alternatives_ok listed]

theorem stop?_checkDisallow (union inst : Value) :
    stop? (checkDisallow b.store b.descend union inst) =
      (disallowDemands b.store b.admits union inst).findSome? b.stop? := by
  refine stop?_bind_perform (stop?_alternatives _ _) fun vs listed => ?_
  rw [stop?_gather, alternatives_ok listed, findSome?_flatMap]
  congr 1
  funext v
  rw [stop?_bind_clear fun _ => stop?_violationIf _ _, stop?_matchesAny]

theorem stop?_checkEnum (listed inst : Value) :
    stop? (checkEnum b.store listed inst) = b.stop? (.perform (.goThrough listed)) := by
  rw [checkEnum, Bench.stop?, Operation.stop?]
  cases listed.iterate? b.store <;> simp

/-! ## Objects -/

theorem stop?_checkProperties (schemas inst : Value) :
    stop? (checkProperties b.store b.descend schemas inst) =
      (propertyDemands b.store schemas inst).findSome? b.stop? := by
  rw [checkProperties, propertyDemands]
  cases inst.entries? b.store with
  | none => rfl
  | some properties =>
      refine stop?_bind_perform (stop?_schemaMap _ _) fun es opened => ?_
      rw [stop?_gather, schemaMap_ok opened, Option.getD_some, List.findSome?_map]
      congr 1
      funext entry
      obtain ⟨name, schema⟩ := entry
      simp only [Function.comp]
      cases properties.lookup name with
      | some v => exact stop?_descendTo _ _ _ _
      | none =>
          rw [stop?_bind_clear fun _ => by simp, stop?_isRequired]
          rfl

theorem stop?_checkPatternProperties (schemas inst : Value) :
    stop? (checkPatternProperties b.store b.descend schemas inst) =
      (patternPropertyDemands b.store schemas inst).findSome? b.stop? := by
  rw [checkPatternProperties, patternPropertyDemands]
  cases inst.entries? b.store with
  | none => rfl
  | some properties =>
      refine stop?_bind_perform (stop?_schemaMap _ _) fun es opened => ?_
      rw [stop?_gather, schemaMap_ok opened, Option.getD_some, findSome?_flatMap]
      congr 1
      funext entry
      obtain ⟨pattern, schema⟩ := entry
      rw [stop?_gather, findSome?_flatMap]
      congr 1
      funext entry
      obtain ⟨name, v⟩ := entry
      refine stop?_bind_perform (stop?_occurs _ _) fun found read => ?_
      rw [occurs_ok read]
      cases found with
      | true => simp [Bench.stop?]
      | false => rfl

/-- All texts of a map of patterns go through once more when they are shown. -/
theorem stop?_extrasMessage {s : Store} {schema : Entries} {patterns : String}
    (joined : joinedPatterns s schema = .ok patterns) (names : List String) :
    stop? (extrasMessage s schema names) = none := by
  unfold joinedPatterns at joined
  unfold extrasMessage
  cases found : schema.lookup "patternProperties" with
  | none => rfl
  | some v =>
      rw [found] at joined
      cases collected : textsOf s v with
      | error => simp [collected, Except.map] at joined
      | ok =>
          simp only [collected]
          rfl

theorem joinedPatterns_ok {s : Store} {schema : Entries} {patterns : String}
    (joined : joinedPatterns s schema = .ok patterns) : joinedPattern s schema = patterns := by
  unfold joinedPatterns at joined
  unfold joinedPattern
  cases found : schema.lookup "patternProperties" with
  | none =>
      rw [found] at joined
      exact Except.ok.inj joined
  | some v =>
      rw [found] at joined
      cases collected : textsOf s v with
      | error => simp [collected, Except.map] at joined
      | ok texts =>
          simp only [collected] at joined
          simp only [textsOf_ok collected]
          exact Except.ok.inj joined

theorem stop?_joinedPatterns (schema : Entries) :
    stop? (joinedPatterns b.store schema) =
      (match schema.lookup "patternProperties" with
        | none => []
        | some v => [Demand.perform (.collectTexts v)]).findSome? b.stop? := by
  rw [joinedPatterns]
  cases schema.lookup "patternProperties" with
  | none => rfl
  | some v =>
      simp only [stop?_map, stop?_textsOf, List.findSome?_singleton]
      rfl

theorem isNamed_ok {s : Store} {schema : Entries} {name : String} {named : Bool}
    (told : (match schema.lookup "properties" with
      | none => pure false
      | some v => covers s v name) = .ok named) : isNamed s schema name = named := by
  cases found : schema.lookup "properties" with
  | none =>
      rw [found] at told
      rw [isNamed, found]
      exact Except.ok.inj told
  | some v =>
      rw [found] at told
      exact covers_ok found told

/-- First it is told whether a property is named, and then, if need be, the patterns are asked. -/
theorem isExtra_eq (s : Store) (schema : Entries) (patterns name : String) :
    isExtra s schema patterns name =
      (match schema.lookup "properties" with
        | none => pure false
        | some v => covers s v name) >>= fun named =>
      if named then pure false
      else if patterns = "" then pure true
      else occurs patterns name >>= fun found => pure !found := by
  rw [isExtra]
  cases schema.lookup "properties" <;> rfl

theorem stop?_isExtra (schema : Entries) (name : String) :
    stop? (isExtra b.store schema (joinedPattern b.store schema) name) =
      (extraDemands b.store schema name).findSome? b.stop? := by
  rw [isExtra_eq, extraDemands]
  refine stop?_bind_append ?_ fun named told => ?_
  · cases schema.lookup "properties" with
    | none => rfl
    | some v =>
        rw [stop?_covers, List.findSome?_singleton]
        rfl
  · rw [isNamed_ok told]
    cases named with
    | true => simp
    | false =>
        by_cases empty : joinedPattern b.store schema = ""
        · simp [empty]
        · simp only [empty, Bool.false_eq_true, if_false, or_self]
          rw [stop?_bind_clear fun _ => rfl, stop?_occurs, List.findSome?_singleton]
          rfl

theorem isExtra_ok {s : Store} {schema : Entries} {name : String} {extra : Bool}
    (told : isExtra s schema (joinedPattern s schema) name = .ok extra) :
    isAdditional s schema name = extra := by
  rw [isExtra_eq] at told
  obtain ⟨named, first, told⟩ := bind_eq_ok.mp told
  rw [isAdditional, isNamed_ok first]
  cases named with
  | true => exact Except.ok.inj told
  | false =>
      by_cases empty : joinedPattern s schema = ""
      · simp only [empty, Bool.false_eq_true, if_false, if_true] at told
        simpa [empty] using Except.ok.inj told
      · simp only [empty, Bool.false_eq_true, if_false] at told
        obtain ⟨found, read, same⟩ := bind_eq_ok.mp told
        simpa [empty, occurs_ok read] using Except.ok.inj same

theorem stop?_checkAdditionalProperties (schema : Entries) (additional inst : Value) :
    stop? (checkAdditionalProperties b.store b.descend schema additional inst) =
      (additionalPropertyDemands b.store schema additional inst).findSome? b.stop? := by
  rw [checkAdditionalProperties, additionalPropertyDemands]
  cases inst.entries? b.store with
  | none => rfl
  | some properties =>
      simp only [List.append_assoc]
      refine stop?_bind_append (stop?_joinedPatterns b schema) fun patterns joined => ?_
      obtain rfl := joinedPatterns_ok joined
      refine stop?_bind_append ?_ fun extras filtered => ?_
      · rw [stop?_filterM, findSome?_flatMap]
        congr 1
        funext entry
        obtain ⟨name, _⟩ := entry
        exact stop?_isExtra b schema name
      · rw [filterM_ok (fun _ _ told => isExtra_ok told) filtered]
        split
        · rw [stop?_gather, List.findSome?_map]
          congr 1
          funext entry
          obtain ⟨name, v⟩ := entry
          exact stop?_descendTo _ _ _ _
        · split
          · rw [stop?_bind_clear fun _ => rfl]
            exact stop?_extrasMessage joined _
          · rfl

/-! ## Arrays -/

theorem map_snd_indexed (vs : List Value) : (indexed vs).map Prod.snd = vs := by
  rw [indexed, List.map_map]
  exact List.zipIdx_map_fst 0 vs

/-- Positions are for telling only. -/
theorem stop?_gather_indexed (schema : Value) (parts : List (String × Value)) :
    stop? (gather (fun (token, v) => descendTo b.descend token schema v) parts) =
      ((parts.map Prod.snd).map fun v => Demand.descend schema v).findSome? b.stop? := by
  rw [stop?_gather, List.map_map, List.findSome?_map]
  congr 1
  funext entry
  obtain ⟨token, v⟩ := entry
  exact stop?_descendTo _ _ _ _

theorem stop?_checkItems (items inst : Value) :
    stop? (checkItems b.store b.descend items inst) =
      (itemDemands b.store items inst).findSome? b.stop? := by
  rw [checkItems, itemDemands]
  cases inst.elements? b.store with
  | none => rfl
  | some vs =>
      by_cases object : items.kind = .object
      · simp only [object, if_true]
        rw [stop?_gather_indexed, map_snd_indexed]
      · simp only [object, if_false]
        cases given : items.iterate? b.store with
        | none => simp [Bench.stop?, Operation.stop?, given]
        | some schemas =>
            have zipped : vs.zip schemas =
                ((indexed vs).zip schemas).map (Prod.map Prod.snd id) := by
              rw [← List.zip_map_left, map_snd_indexed]
            have passed : b.stop? (.perform (.goThrough items)) = none := by
              simp [Bench.stop?, Operation.stop?, given]
            rw [Option.getD_some, List.findSome?_cons, passed, stop?_gather, zipped,
              List.map_map, List.findSome?_map]
            congr 1
            funext entry
            obtain ⟨⟨token, v⟩, schema⟩ := entry
            exact stop?_descendTo _ _ _ _

theorem positionCount_ok {s : Store} {items : Value} {count : Nat}
    (counted : positionCount s items = .ok count) :
    ((items.iterate? s).getD []).length = count := by
  unfold positionCount at counted
  split at counted
  · next given =>
      rw [given]
      exact Except.ok.inj counted
  · cases counted

theorem stop?_positionCount (s : Store) (items : Value) :
    stop? (positionCount s items) = (Operation.goThrough items).stop? s := by
  rw [positionCount, Operation.stop?]
  cases items.iterate? s <;> rfl

theorem stop?_checkAdditionalItems (schema : Entries) (additional inst : Value) :
    stop? (checkAdditionalItems b.store b.descend schema additional inst) =
      (additionalItemDemands b.store schema additional inst).findSome? b.stop? := by
  rw [checkAdditionalItems, additionalItemDemands]
  cases inst.elements? b.store with
  | none => rfl
  | some vs =>
      cases schema.lookup "items" with
      | none => rfl
      | some items =>
          by_cases object : items.kind = .object
          · simp [object, clean]
          · simp only [object, if_false]
            refine stop?_bind_perform (stop?_positionCount _ _) fun count counted => ?_
            rw [positionCount_ok counted]
            split
            · rw [stop?_gather_indexed, List.map_drop, map_snd_indexed]
            · exact stop?_violationIf _ _

/-! ## Dependencies and extensions -/

theorem stop?_checkCompanion (properties : Entries) (name : String) (v : Value) :
    stop? (checkCompanion properties name v) = none := by
  cases v <;> simp [checkCompanion, clean]

/-- Of what a property depends on only a schema is evaluated. -/
theorem stop?_dependency (properties : Entries) (name : String) (dependency inst : Value) :
    stop? (if (properties.lookup name).isNone then clean
      else
        match dependency.elements? b.store with
        | some others => gather (checkCompanion properties name) others
        | none =>
          if dependency.kind = .object then b.descend dependency inst
          else checkCompanion properties name dependency) =
    (if (properties.lookup name).isSome ∧ dependency.kind = .object then
        [Demand.descend dependency inst]
      else []).findSome? b.stop? := by
  cases properties.lookup name with
  | none => rfl
  | some v =>
      by_cases object : dependency.kind = .object
      · obtain ⟨addr, rfl⟩ := Value.kind_eq_object.mp object
        simp [Value.elements?, object, Bench.stop?]
      · simp only [object, and_false, if_false]
        cases dependency.elements? b.store with
        | none => exact stop?_checkCompanion properties name dependency
        | some others =>
            have companions : stop? (gather (checkCompanion properties name) others) = none := by
              simp [stop?_gather, stop?_checkCompanion]
            exact companions

theorem stop?_checkDependencies (dependencies inst : Value) :
    stop? (checkDependencies b.store b.descend dependencies inst) =
      (dependencyDemands b.store dependencies inst).findSome? b.stop? := by
  rw [checkDependencies, dependencyDemands, List.findSome?_cons, Bench.stop?, Operation.stop?]
  cases shape : isDependencyMap b.store dependencies with
  | false => rfl
  | true =>
      simp only [Bool.not_true, Bool.false_eq_true, if_false, if_true]
      cases inst.entries? b.store with
      | none => rfl
      | some properties =>
          cases dependencies.entries? b.store with
          | none => rfl
          | some es =>
              rw [stop?_gather, findSome?_flatMap]
              congr 1
              funext entry
              obtain ⟨name, dependency⟩ := entry
              exact stop?_dependency b properties name dependency inst

theorem stop?_checkExtends (extended inst : Value) :
    stop? (checkExtends b.store b.descend extended inst) =
      (extensionDemands b.store extended inst).findSome? b.stop? := by
  rw [checkExtends, extensionDemands, List.findSome?_cons, Bench.stop?, Operation.stop?]
  cases shape : isExtension b.store extended with
  | false => rfl
  | true =>
      simp only [Bool.not_true, Bool.false_eq_true, if_false, if_true]
      cases extended.elements? b.store with
      | none => rw [List.findSome?_singleton]; rfl
      | some schemas =>
          rw [stop?_gather, List.findSome?_map]
          rfl

/-! ## Limits and patterns -/

theorem findSome?_performIf (applies : Bool) (op : Operation) :
    (performIf applies op).findSome? b.stop? = if applies then op.stop? b.store else none := by
  cases applies with
  | true =>
      rw [performIf, if_pos rfl, if_pos rfl, List.findSome?_singleton]
      rfl
  | false => rfl

variable (side : Side)

theorem stop?_checkLength (length : Nat) (bound inst : Value) :
    stop? (checkLength b.store side length bound inst) =
      (Operation.compare bound).stop? b.store := by
  rw [checkLength, stop?_bind_clear fun _ => stop?_violationIf _ _, stop?_limit b.store]

theorem stop?_checkItemCount (bound inst : Value) :
    stop? (checkItemCount b.store side bound inst) =
      (performIf (inst.kind = .array) (.compare bound)).findSome? b.stop? := by
  rw [checkItemCount, findSome?_performIf]
  by_cases array : inst.kind = .array
  · obtain ⟨vs, found⟩ := (Value.kind_eq_array b.store).mp array
    simp only [found, array, decide_true, if_true]
    exact stop?_checkLength b side _ _ _
  · simp [Value.elements?_eq_none array, array, clean]

theorem textLength?_eq_none {inst : Value} (other : inst.kind ≠ .string) :
    textLength? inst = none := by
  cases inst with
  | text => exact absurd rfl other
  | _ => rfl

theorem stop?_checkTextLength (bound inst : Value) :
    stop? (checkTextLength b.store side bound inst) =
      (performIf (inst.kind = .string) (.compare bound)).findSome? b.stop? := by
  rw [checkTextLength, findSome?_performIf]
  by_cases text : inst.kind = .string
  · obtain ⟨t, rfl⟩ := Value.kind_eq_string.mp text
    exact stop?_checkLength b side _ _ _
  · simp [textLength?_eq_none text, text, clean]

theorem stop?_checkLimit (exclusive : Bool) (bound inst : Value) :
    stop? (checkLimit b.store side exclusive bound inst) =
      (performIf inst.magnitude?.isSome (.compare bound)).findSome? b.stop? := by
  rw [checkLimit, findSome?_performIf]
  cases inst.magnitude? with
  | none => rfl
  | some x =>
      rw [stop?_bind_clear fun _ => stop?_violationIf _ _, stop?_limit b.store]
      rfl

theorem stop?_checkPattern (pattern inst : Value) :
    stop? (checkPattern b.store pattern inst) =
      (performIf (inst.kind = .string) (.search pattern)).findSome? b.stop? := by
  rw [findSome?_performIf]
  by_cases text : inst.kind = .string
  · obtain ⟨t, rfl⟩ := Value.kind_eq_string.mp text
    simp only [text, decide_true, if_true]
    cases pattern with
    | text p =>
        rw [checkPattern, stop?_bind_clear fun _ => stop?_violationIf _ _, stop?_occurs]
        rfl
    | octets os =>
        rw [checkPattern, stop?_bind, occurs_eq, Operation.stop?]
        cases Operation.misread? (String.ofList (os.map fun o => Char.ofNat o.toNat)) <;> rfl
    | _ => rfl
  · simp only [text, decide_false, Bool.false_eq_true, if_false]
    cases inst with
    | text => exact absurd rfl text
    | _ => rfl

/-! ## All keywords -/

theorem stop?_checkRef (ref inst : Value) :
    stop? (checkRef b.refer ref inst) =
      (match ref with
        | .text t => [Demand.refer t inst]
        | v => [.perform (.takeReference v)]).findSome? b.stop? := by
  by_cases text : ref.kind = .string
  · obtain ⟨t, rfl⟩ := Value.kind_eq_string.mp text
    rw [List.findSome?_singleton]
    rfl
  · have flawed : b.stop? (.perform (.takeReference ref)) =
        some (.flaw (.keyword Keyword.ref.key ref.kind "a string")) := by
      rw [Bench.stop?, Operation.stop?, if_neg text]
    cases ref with
    | text => exact absurd rfl text
    | _ =>
        rw [List.findSome?_singleton, flawed]
        rfl

/-- A keyword stops at the first of its demands that does. -/
theorem stop?_checkKeyword (schema : Entries) (inst v : Value) (k : Keyword) :
    stop? (checkKeyword b schema inst v k) =
      (demands b.store b.admits schema inst v k).findSome? b.stop? := by
  cases k with
  | type => exact stop?_checkType b v inst
  | disallow => exact stop?_checkDisallow b v inst
  | enum => rw [demands, List.findSome?_singleton]; exact stop?_checkEnum b v inst
  | properties => exact stop?_checkProperties b v inst
  | patternProperties => exact stop?_checkPatternProperties b v inst
  | additionalProperties => exact stop?_checkAdditionalProperties b schema v inst
  | items => exact stop?_checkItems b v inst
  | additionalItems => exact stop?_checkAdditionalItems b schema v inst
  | minItems => exact stop?_checkItemCount b .least v inst
  | maxItems => exact stop?_checkItemCount b .most v inst
  | uniqueItems =>
      rw [checkKeyword, checkUniqueItems]
      cases inst.elements? b.store with
      | none => rfl
      | some vs => exact stop?_violationIf _ _
  | minimum => exact stop?_checkLimit b .least _ v inst
  | maximum => exact stop?_checkLimit b .most _ v inst
  | divisibleBy => exact stop?_checkDivisibleBy b v inst
  | minLength => exact stop?_checkTextLength b .least v inst
  | maxLength => exact stop?_checkTextLength b .most v inst
  | pattern => exact stop?_checkPattern b v inst
  | dependencies => exact stop?_checkDependencies b v inst
  | extending => exact stop?_checkExtends b v inst
  | ref => exact stop?_checkRef b v inst

/-- The keywords of a schema stop at the first of their demands that does. -/
theorem stop?_checkEntries (schema : Entries) (inst : Value) :
    stop? (checkEntries b schema inst) =
      (entryDemands b.store b.admits schema inst).findSome? b.stop? := by
  rw [checkEntries, entryDemands, stop?_gather, findSome?_flatMap]
  congr 1
  funext entry
  obtain ⟨key, v⟩ := entry
  dsimp only
  cases Keyword.ofKey? key with
  | none => rfl
  | some k => exact stop?_checkKeyword b schema inst v k

end Keywords

end Evaluation

end SchemaAudit

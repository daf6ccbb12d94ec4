import SchemaAudit.Proofs.Demands

/-! # Where looking up a reference stops

A reference is looked up by way of a pointer or of a name. On that way values are taken for
schemas with identifiers, rows are asked for positions, and the whole document is looked
through, and each of these can break down.
-/

namespace SchemaAudit

namespace Reference

open Evaluation (stop?)

/-! ## Identifiers -/

/-- What goes wrong when a value is read as a text. -/
def textFault? : Value → Option Fault
  | .text _ => none
  | .octets _ => some .kindMismatch
  | _ => some .noSuchPart

/-- What goes wrong when an identifier is resolved against a base. -/
def identifierFault? (base : String) (es : Entries) : Option Fault :=
  match es.lookup referenceKey, es.lookup identifierKey with
  | some _, _ | none, none | none, some .null => none
  | none, some (.text t) =>
    if t.toList.head? = some '#' then none
    else if (Uri.join? base.toList (withoutEmptyFragment t).toList).isSome then none
    else some .invalidValue
  | none, some v => textFault? v

/-- What goes wrong when a value is taken for a schema with an identifier. -/
def schemaFault? (s : Store) (base : String) : Value → Option Fault
  | .mapping a => identifierFault? base (s.entries a)
  | .text _ | .list _ | .tuple _ => some .noSuchPart
  | _ => some .kindMismatch

theorem stop?_joined (base ref : String) : stop? (joined base ref) =
    if (Uri.join? base.toList ref.toList).isSome then none else some (.fault .invalidValue) := by
  unfold joined
  cases Uri.join? base.toList ref.toList <;> rfl

theorem stop?_baseInside (base : String) (es : Entries) :
    stop? (baseInside base es) = (identifierFault? base es).map .fault := by
  unfold baseInside identifier? identifierFault?
  cases es.lookup referenceKey with
  | some ref => rfl
  | none =>
      cases es.lookup identifierKey with
      | none => rfl
      | some v =>
          cases v with
          | text t =>
              by_cases fragment : t.toList.head? = some '#'
              · simp [identifierText, fragment, Except.map, Evaluation.stop?_bind]
              · have resolved : stop? (do return some (← joined base (withoutEmptyFragment t))) =
                    stop? (joined base (withoutEmptyFragment t)) :=
                  Evaluation.stop?_bind_clear fun _ => rfl
                simp only [identifierText, fragment, Except.map, Option.isSome_none,
                  Bool.false_eq_true, if_false, Evaluation.stop?_bind, resolved, stop?_joined]
                split <;> rfl
          | _ => rfl

theorem stop?_schemaBase (s : Store) (base : String) (v : Value) :
    stop? (schemaEntries s v >>= baseInside base) = (schemaFault? s base v).map .fault := by
  cases v with
  | mapping a => exact stop?_baseInside base (s.entries a)
  | _ => rfl

theorem stop?_name? (es : Entries) :
    stop? (name? es) = ((es.lookup identifierKey).bind textFault?).map .fault := by
  unfold name?
  cases es.lookup identifierKey with
  | none => rfl
  | some v => cases v <;> rfl

/-! ## Following a pointer -/

/-- What goes wrong when a token is followed from a value. -/
def stepFault? (v : Value) (token : List Char) : Option Fault :=
  if v.kind = .object then none
  else if v.kind = .array ∨ v.kind = .string ∨ v.kind = .unsupported then
    if (Text.integer? (String.ofList token)).isSome then none else some .invalidValue
  else some .kindMismatch

theorem stop?_step (s : Store) (v : Value) (token : List Char) :
    stop? (step s v token) = (stepFault? v token).map .fault := by
  unfold step stepFault?
  cases v with
  | list a | tuple a | text t | octets os =>
      dsimp only
      cases Text.integer? (String.ofList token) <;> simp [Value.kind]
  | float x => by_cases whole : x.isWhole = true <;> simp [Value.kind, whole]
  | _ => rfl

/-- The base inside a value that tokens have led to, if it is a schema with an identifier. -/
def baseBehind (s : Store) (since : List (Option String)) (base : String) (v : Value) :
    Except Stop (Option String) :=
  if leadToSchema (v.kind == .object) since then schemaEntries s v >>= baseInside base
  else pure none

/-- Following tokens breaks down: at a token that cannot be followed, or at a schema on the way
    whose identifier cannot be used. -/
inductive Strays (s : Store) :
    List (List Char) → List (Option String) → String → Value → Fault → Prop where
  | step {token : List Char} {rest : List (List Char)} {since : List (Option String)}
      {base : String} {v : Value} {fault : Fault} (failed : stepFault? v token = some fault) :
      Strays s (token :: rest) since base v fault
  | identifier {token : List Char} {rest : List (List Char)} {since : List (Option String)}
      {base : String} {v w : Value} {key : Option String} {fault : Fault}
      (there : Reference.step s v token = .ok (key, some w))
      (isSchema : leadToSchema (w.kind == .object) (since ++ [key]) = true)
      (failed : schemaFault? s base w = some fault) :
      Strays s (token :: rest) since base v fault
  | onward {token : List Char} {rest : List (List Char)} {since : List (Option String)}
      {base : String} {v w : Value} {key : Option String} {fault : Fault}
      (there : Reference.step s v token = .ok (key, some w))
      (same : baseBehind s (since ++ [key]) base w = .ok none)
      (strays : Strays s rest (since ++ [key]) base w fault) :
      Strays s (token :: rest) since base v fault
  | onwardFrom {token : List Char} {rest : List (List Char)} {since : List (Option String)}
      {base inside : String} {v w : Value} {key : Option String} {fault : Fault}
      (there : Reference.step s v token = .ok (key, some w))
      (other : baseBehind s (since ++ [key]) base w = .ok (some inside))
      (strays : Strays s rest [] inside w fault) :
      Strays s (token :: rest) since base v fault

theorem follow_cons (s : Store) (token : List Char) (rest : List (List Char))
    (since : List (Option String)) (base : String) (v : Value) :
    follow s (token :: rest) since base v =
      step s v token >>= fun
        | (_, none) => pure none
        | (key, some w) => baseBehind s (since ++ [key]) base w >>= fun
          | some inside => follow s rest [] inside w
          | none => follow s rest (since ++ [key]) base w := by
  rw [follow]
  cases step s v token with
  | error stop => rfl
  | ok found =>
      obtain ⟨key, w?⟩ := found
      cases w? with
      | none => rfl
      | some w =>
          change (if leadToSchema (w.kind == .object) (since ++ [key]) = true then _ else _) =
            baseBehind s (since ++ [key]) base w >>= _
          rw [baseBehind]
          split
          · exact (bind_assoc _ _ _).symm
          · rfl

theorem stop?_baseBehind {s : Store} {since : List (Option String)} {base : String} {v : Value} :
    stop? (baseBehind s since base v) =
      if leadToSchema (v.kind == .object) since then (schemaFault? s base v).map .fault
      else none := by
  unfold baseBehind
  split
  · exact stop?_schemaBase s base v
  · rfl

/-- Following tokens ends in an error exactly when it breaks down. -/
theorem follow_error_iff {s : Store} {tokens : List (List Char)} {since : List (Option String)}
    {base : String} {v : Value} {stop : Stop} :
    follow s tokens since base v = .error stop ↔
      ∃ fault, stop = .fault fault ∧ Strays s tokens since base v fault := by
  induction tokens generalizing since base v with
  | nil =>
      constructor
      · intro failed
        cases failed
      · rintro ⟨fault, _, ⟨⟩⟩
  | cons token rest ih =>
      rw [follow_cons, Evaluation.bind_eq_error]
      constructor
      · rintro (failed | ⟨⟨key, w?⟩, there, further⟩)
        · rw [← Evaluation.stop?_eq_some, stop?_step] at failed
          obtain ⟨fault, broke, rfl⟩ := Option.map_eq_some_iff.mp failed
          exact ⟨fault, rfl, .step broke⟩
        · cases w? with
          | none => cases further
          | some w =>
              rcases Evaluation.bind_eq_error.mp further with failed | ⟨inside?, base', further⟩
              · rw [← Evaluation.stop?_eq_some, stop?_baseBehind] at failed
                split at failed
                · next isSchema =>
                    obtain ⟨fault, broke, rfl⟩ := Option.map_eq_some_iff.mp failed
                    exact ⟨fault, rfl, .identifier there isSchema broke⟩
                · cases failed
              · cases inside? with
                | none =>
                    obtain ⟨fault, rfl, strays⟩ := ih.mp further
                    exact ⟨fault, rfl, .onward there base' strays⟩
                | some inside =>
                    obtain ⟨fault, rfl, strays⟩ := ih.mp further
                    exact ⟨fault, rfl, .onwardFrom there base' strays⟩
      · rintro ⟨fault, rfl, strays⟩
        cases strays with
        | step failed =>
            left
            rw [← Evaluation.stop?_eq_some, stop?_step, failed]
            rfl
        | identifier there isSchema failed =>
            refine .inr ⟨_, there, Evaluation.bind_eq_error.mpr (.inl ?_)⟩
            rw [← Evaluation.stop?_eq_some, stop?_baseBehind, if_pos isSchema, failed]
            rfl
        | onward there same strays =>
            exact .inr ⟨_, there,
              Evaluation.bind_eq_error.mpr (.inr ⟨none, same, ih.mpr ⟨fault, rfl, strays⟩⟩)⟩
        | onwardFrom there other strays =>
            exact .inr ⟨_, there,
              Evaluation.bind_eq_error.mpr (.inr ⟨_, other, ih.mpr ⟨fault, rfl, strays⟩⟩)⟩

/-! ## Looking through the document -/

def faultIf (failed : Bool) (fault : Fault) : Option Fault := if failed then some fault else none

/-- What goes wrong when the schemas are gathered that a schema extends. -/
def extendedFault? (s : Store) (es : Entries) : Option Fault :=
  faultIf ((es.lookup "extends").any fun v => (v.iterate? s).isNone) .kindMismatch

/-- What goes wrong when the schemas of a map are gathered. -/
def mappedFault? (es : Entries) (key : String) : Option Fault :=
  faultIf ((es.lookup key).any fun v => v.kind != .object) .noSuchPart

/-- What goes wrong when the schemas are gathered that properties depend on. -/
def dependentFault? (es : Entries) : Option Fault :=
  faultIf ((es.lookup "dependencies").any fun v => v != .null && v.kind != .object) .noSuchPart

/-- What goes wrong when the schemas inside a schema are gathered. -/
def subschemasFault? (s : Store) (es : Entries) : Option Fault :=
  (extendedFault? s es).or ((schemaMapKeys.findSome? (mappedFault? es)).or (dependentFault? es))

/-- What goes wrong at a schema itself when it is looked through. -/
def surveyFault? (s : Store) (uri : String) : Value → Option Fault
  | .mapping a =>
    (identifierFault? uri (s.entries a)).or
      ((((s.entries a).lookup identifierKey).bind textFault?).or
        (subschemasFault? s (s.entries a)))
  | v => schemaFault? s uri v

theorem stop?_extendedSchemas (s : Store) (es : Entries) :
    stop? (extendedSchemas s es) = (extendedFault? s es).map .fault := by
  unfold extendedSchemas extendedFault? faultIf
  cases es.lookup "extends" with
  | none => rfl
  | some v => cases given : v.iterate? s <;> simp [given]

theorem stop?_mappedSchemas (s : Store) (es : Entries) (key : String) :
    stop? (mappedSchemas s es key) = (mappedFault? es key).map .fault := by
  unfold mappedSchemas mappedFault? faultIf
  cases es.lookup key with
  | none => rfl
  | some v =>
      cases v with
      | float x => by_cases whole : x.isWhole = true <;> simp [Value.kind, whole]
      | _ => rfl

theorem stop?_dependentSchemas (s : Store) (es : Entries) :
    stop? (dependentSchemas s es) = (dependentFault? es).map .fault := by
  unfold dependentSchemas dependentFault? faultIf
  cases es.lookup "dependencies" with
  | none => rfl
  | some v =>
      cases v with
      | float x => by_cases whole : x.isWhole = true <;> simp [Value.kind, whole]
      | mapping a =>
          dsimp only
          split <;> simp [Value.kind]
      | _ => rfl

theorem stop?_subschemas (s : Store) (es : Entries) :
    stop? (subschemas s es) = (subschemasFault? s es).map .fault := by
  have mapped : stop? (schemaMapKeys.mapM (mappedSchemas s es)) =
      (schemaMapKeys.findSome? (mappedFault? es)).map .fault := by
    rw [Evaluation.stop?_mapM, List.map_findSome?]
    exact congrArg (List.findSome? · _) (funext (stop?_mappedSchemas s es))
  rw [subschemasFault?, Option.map_or, Option.map_or, ← mapped, ← stop?_extendedSchemas,
    ← stop?_dependentSchemas, subschemas]
  refine Evaluation.stop?_bind_or fun _ _ => Evaluation.stop?_bind_or fun _ _ => ?_
  exact Evaluation.stop?_bind_clear fun _ => rfl

theorem stop?_foldlM {α β : Type} {f : β → α → Except Stop β} {g : α → Option Stop}
    (same : ∀ acc x, stop? (f acc x) = g x) (xs : List α) (acc : β) :
    stop? (xs.foldlM f acc) = xs.findSome? g := by
  induction xs generalizing acc with
  | nil => rfl
  | cons x rest ih =>
      rw [List.foldlM_cons, List.findSome?_cons, Evaluation.stop?_bind, ← same acc x]
      cases f acc x with
      | error stop => rfl
      | ok next => exact ih next

/-- The base inside a schema that is looked through, and the schemas inside it from the last one
    back. -/
def surveyInside (s : Store) (uri : String) (v : Value) : String × List Value :=
  let es := (v.entries? s).getD []
  match baseInside uri es, subschemas s es with
  | .ok inside?, .ok schemas => (inside?.getD uri, schemas.reverse)
  | _, _ => (uri, [])

/-- What goes wrong first when a schema and the schemas inside it are looked through. -/
def surveyFailure? (s : Store) : Nat → String → Value → Option Fault
  | 0, _, _ => some .endless
  | fuel + 1, uri, v =>
    (surveyFault? s uri v).or
      ((surveyInside s uri v).2.findSome? (surveyFailure? s fuel (surveyInside s uri v).1))

/-- What has been found before does not matter for where the search stops. -/
theorem stop?_survey (s : Store) (fuel : Nat) (uri : String) (v : Value) (found : Survey) :
    stop? (survey s fuel uri v found) = (surveyFailure? s fuel uri v).map .fault := by
  induction fuel generalizing uri v found with
  | zero => rfl
  | succ fuel ih =>
      rw [survey, surveyFailure?, surveyFault?.eq_def]
      cases v with
      | mapping a =>
          simp only [Option.map_or, Option.or_assoc, ← stop?_baseInside, ← stop?_name?,
            ← stop?_subschemas]
          change stop? (baseInside uri (s.entries a) >>= _) = _
          refine Evaluation.stop?_bind_or fun inside? base => ?_
          refine Evaluation.stop?_bind_or fun name? _ => ?_
          refine Evaluation.stop?_bind_or fun schemas listed => ?_
          rw [stop?_foldlM fun acc w => ih _ w acc]
          simp only [surveyInside, Value.entries?, Option.getD_some, base, listed,
            List.map_findSome?]
          rfl
      | _ => rfl

/-! ## The whole way -/

/-- Looking up a reference comes to a stop. -/
inductive Library.Loses (l : Library) (scope : Scope) (ref : String) : Stop → Prop where
  /-- The reference, or the base that it is resolved against, cannot be read. -/
  | unreadable (absolute : ref.toList.head? ≠ some '#')
      (failed : ((Uri.join? scope.base.toList ref.toList).bind Uri.splitFragment?).isNone) :
      Loses l scope ref (.fault .invalidValue)
  | surveying {uri : String} {fragment : List Char} {fault : Fault}
      (addressed : address scope ref = .ok (uri, fragment))
      (elsewhere : ¬ (scope.surveyed = false ∧ uri = l.rootUri))
      (failed : surveyFailure? l.store (l.store.size + 2) l.rootUri l.root = some fault) :
      Loses l scope ref (.fault fault)
  | unknown {uri : String} {fragment : List Char} {found : Survey}
      (addressed : address scope ref = .ok (uri, fragment))
      (elsewhere : ¬ (scope.surveyed = false ∧ uri = l.rootUri))
      (surveyed : l.survey = .ok found) (missing : found.documents.lookup uri = none) :
      Loses l scope ref (.flaw (.reference (.unknownDocument ref)))
  | straying {uri : String} {path : List Char} {document : Value} {surveyed : Bool}
      {fault : Fault} (addressed : address scope ref = .ok (uri, '/' :: path))
      (provided : l.document scope ref uri = .ok (document, surveyed))
      (strays : Strays l.store (Text.splitAt '/' (Percent.decode path)) [] uri document fault) :
      Loses l scope ref (.fault fault)
  | nowhere {uri : String} {path : List Char} {document : Value} {surveyed : Bool}
      (addressed : address scope ref = .ok (uri, '/' :: path))
      (provided : l.document scope ref uri = .ok (document, surveyed))
      (followed : follow l.store (Text.splitAt '/' (Percent.decode path)) [] uri document =
        .ok none) :
      Loses l scope ref
        (.flaw (.reference (.nowhere (String.ofList ('/' :: path)) (document.display l.store))))
  | unnamed {uri : String} {c : Char} {name : List Char} {document : Value} {surveyed : Bool}
      {stop : Stop} (addressed : address scope ref = .ok (uri, c :: name)) (isName : c ≠ '/')
      (provided : l.document scope ref uri = .ok (document, surveyed))
      (failed : l.named uri document (String.ofList (c :: name)) = .error stop) :
      Loses l scope ref stop

theorem address_error_iff {scope : Scope} {ref : String} {stop : Stop} :
    address scope ref = .error stop ↔ stop = .fault .invalidValue ∧
      ref.toList.head? ≠ some '#' ∧
      ((Uri.join? scope.base.toList ref.toList).bind Uri.splitFragment?).isNone := by
  unfold address
  split
  · next fragment text => simp [text]
  · next other =>
      have absolute : ref.toList.head? ≠ some '#' := by
        intro marked
        obtain ⟨fragment, text⟩ := List.head?_eq_some_iff.mp marked
        exact other fragment text
      rw [joined]
      cases Uri.join? scope.base.toList ref.toList with
      | none =>
          simp only [Evaluation.bind_eq_error, Evaluation.faulted, Except.error.injEq, reduceCtorEq,
            false_and, exists_false, or_false, Option.bind_none, Option.isNone_none, absolute,
            ne_eq, not_false_eq_true, and_true]
          exact eq_comm
      | some text =>
          simp only [Evaluation.bind_eq_error, reduceCtorEq, false_or, Except.ok.injEq,
            exists_eq_left', String.toList_ofList, Option.bind_some]
          cases Uri.splitFragment? text <;>
            simp [Evaluation.faulted, absolute, eq_comm, pure, Except.pure]

theorem survey_error_iff {l : Library} {stop : Stop} : l.survey = .error stop ↔
    ∃ fault, surveyFailure? l.store (l.store.size + 2) l.rootUri l.root = some fault ∧
      stop = .fault fault := by
  rw [Library.survey, ← Evaluation.stop?_eq_some, stop?_survey, Option.map_eq_some_iff]
  simp only [eq_comm]

theorem document_error_iff {l : Library} {scope : Scope} {ref uri : String} {stop : Stop} :
    l.document scope ref uri = .error stop ↔
      ¬ (scope.surveyed = false ∧ uri = l.rootUri) ∧
        (l.survey = .error stop ∨
        ∃ found, l.survey = .ok found ∧ found.documents.lookup uri = none ∧
          stop = .flaw (.reference (.unknownDocument ref))) := by
  unfold Library.document
  by_cases root : scope.surveyed = false ∧ uri = l.rootUri
  · simp [root]
  · have elsewhere : ¬ (!scope.surveyed && decide (uri = l.rootUri)) = true := by
      simpa using root
    rw [if_neg elsewhere, Evaluation.bind_eq_error]
    simp only [root, not_false_eq_true, true_and]
    refine or_congr_right (exists_congr fun found => and_congr_right fun _ => ?_)
    cases found.documents.lookup uri <;>
      simp [Evaluation.flawed, eq_comm, pure, Except.pure]

/-- Looking up a reference ends in an error exactly when it comes to a stop. -/
theorem lookup_error_iff {l : Library} {scope : Scope} {ref : String} {stop : Stop} :
    l.lookup scope ref = .error stop ↔ l.Loses scope ref stop := by
  rw [Library.lookup, Evaluation.bind_eq_error]
  constructor
  · rintro (failed | ⟨⟨uri, fragment⟩, addressed, onward⟩)
    · obtain ⟨rfl, absolute, unreadable⟩ := address_error_iff.mp failed
      exact .unreadable absolute unreadable
    rcases Evaluation.bind_eq_error.mp onward with failed | ⟨⟨document, surveyed⟩, provided, onward⟩
    · obtain ⟨elsewhere, failed | ⟨found, searched, missing, rfl⟩⟩ :=
        document_error_iff.mp failed
      · obtain ⟨fault, broke, rfl⟩ := survey_error_iff.mp failed
        exact .surveying addressed elsewhere broke
      · exact .unknown addressed elsewhere searched missing
    cases fragment with
    | nil => cases onward
    | cons c rest =>
        by_cases path : c = '/'
        · subst path
          rcases Evaluation.bind_eq_error.mp onward with failed | ⟨there?, followed, onward⟩
          · obtain ⟨fault, rfl, strays⟩ := follow_error_iff.mp failed
            exact .straying addressed provided strays
          · cases there? with
            | none =>
                obtain rfl := Except.error.inj onward
                exact .nowhere addressed provided followed
            | some there => cases onward
        · have named : (do
              return (← l.named uri document (String.ofList (c :: rest)), Scope.mk uri true)) =
              Except.error stop := by
            rw [← onward]
            dsimp only
            split
            · next empty => cases empty
            · next pointer => exact absurd (List.cons.inj pointer).1 path
            · rfl
          rcases Evaluation.bind_eq_error.mp named with failed | ⟨_, _, onward⟩
          · exact .unnamed addressed path provided failed
          · cases onward
  · intro loses
    cases loses with
    | unreadable absolute failed =>
        exact .inl (address_error_iff.mpr ⟨rfl, absolute, failed⟩)
    | surveying addressed elsewhere failed =>
        refine .inr ⟨_, addressed, Evaluation.bind_eq_error.mpr (.inl ?_)⟩
        exact document_error_iff.mpr
          ⟨elsewhere, .inl (survey_error_iff.mpr ⟨_, failed, rfl⟩)⟩
    | unknown addressed elsewhere surveyed missing =>
        refine .inr ⟨_, addressed, Evaluation.bind_eq_error.mpr (.inl ?_)⟩
        exact document_error_iff.mpr ⟨elsewhere, .inr ⟨_, surveyed, missing, rfl⟩⟩
    | straying addressed provided strays =>
        refine .inr ⟨_, addressed, Evaluation.bind_eq_error.mpr (.inr ⟨_, provided, ?_⟩)⟩
        exact Evaluation.bind_eq_error.mpr (.inl (follow_error_iff.mpr ⟨_, rfl, strays⟩))
    | nowhere addressed provided followed =>
        refine .inr ⟨_, addressed, Evaluation.bind_eq_error.mpr (.inr ⟨_, provided, ?_⟩)⟩
        exact Evaluation.bind_eq_error.mpr (.inr ⟨_, followed, rfl⟩)
    | unnamed addressed isName provided failed =>
        refine .inr ⟨_, addressed, Evaluation.bind_eq_error.mpr (.inr ⟨_, provided, ?_⟩)⟩
        dsimp only
        split
        · next empty => cases empty
        · next pointer => exact absurd (List.cons.inj pointer).1 isName
        · exact Evaluation.bind_eq_error.mpr (.inl failed)

end Reference

end SchemaAudit

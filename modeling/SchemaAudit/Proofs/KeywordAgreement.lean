import SchemaAudit.Proofs.Classification
import SchemaAudit.Proofs.Conformity
import SchemaAudit.Proofs.Mirror

/-! # Keywords on mirrored values

Keyword by keyword, an evaluation of mirrored schemas on mirrored values comes to the same, if it
does so at every schema that it descends to.
-/

namespace SchemaAudit

namespace Evaluation

namespace Mirror

variable {τ : Tolerance} {s t : Store} {m : Mirror τ s t} {d d' : Descent} {v w i j : Value}
  {es fs : Entries} {key : String}

/-- Descending to mirrored schemas with mirrored values comes to the same. -/
def Descends (m : Mirror τ s t) (d d' : Descent) : Prop :=
  ∀ v w i j, m.Part v w → m.data i j → Matches τ (d v i) (d' w j)

theorem descendTo_matches (descends : m.Descends d d') (token : String) (part : m.Part v w)
    (inst : m.data i j) : Matches τ (descendTo d token v i) (descendTo d' token w j) := by
  have inside : ∀ (d : Descent) {u : Value} (k : Value), u ≠ .bool false →
      descendTo d token u k = below token (d u k) := by
    intro d u k other
    unfold descendTo
    split
    · exact absurd rfl other
    · rfl
  by_cases nothing : v = .bool false
  · have nothing' : w = .bool false := (part.scalar_iff (u := .bool false) trivial).mp nothing
    subst nothing nothing'
    exact descends _ _ _ _ part inst
  · have nothing' : w ≠ .bool false :=
      fun same => nothing ((part.scalar_iff (u := .bool false) trivial).mpr same)
    rw [inside d i nothing, inside d' j nothing']
    exact (descends _ _ _ _ part inst).below token

theorem plain (strict : τ.strict) (same : m.data v w) : v.plain s = w.plain t := by
  have shown := m.shown strict same
  cases m.shape same with
  | scalar leaf =>
      cases v with
      | text => rfl
      | list | tuple | mapping => exact leaf.elim
      | _ => exact shown
  | list | tuple | mapping => exact shown

/-! ## Unions and listed values -/

theorem matchesAlternative_agrees (descends : m.Descends d d') (part : m.Part v w)
    (inst : m.data i j) :
    Agree τ Eq (matchesAlternative s d i v) (matchesAlternative t d' j w) := by
  cases part with
  | node same =>
      exact (descends _ _ _ _ (.node same) inst).map fun _ _ tells => tells.isEmpty
  | data same other =>
      -- what is neither a name nor a schema is a flaw, or cannot be looked up at all
      have unnamed : Agree τ Eq
          (if isLookupKey s (s.size + 2) v then flawed (.unknownType (v.plain s))
            else faulted .kindMismatch : Except Stop Bool)
          (if isLookupKey t (t.size + 2) w then flawed (.unknownType (w.plain t))
            else faulted .kindMismatch) := by
        rw [m.lookupKey same]
        split
        · by_cases strict : τ.strict
          · rw [plain strict same]
            exact .stop _
          · exact .flaws _ _ strict
        · exact .stop _
      cases m.shape same with
      | mapping => exact absurd rfl other
      | list | tuple => exact unnamed
      | scalar leaf =>
          cases v with
          | text name =>
              simp only [matchesAlternative]
              cases named : typeTest? name with
              | none => exact .stop _
              | some test => exact .ok (typeTest?_of_kind named (m.shape inst).kind)
          | mapping => exact leaf.elim
          | _ => exact unnamed

theorem matchesAny_cons (s : Store) (d : Descent) (i v : Value) (rest : List Value) :
    matchesAny s d i (v :: rest) =
      matchesAlternative s d i v >>= fun fits =>
        if fits then .ok true else matchesAny s d i rest := by
  rw [matchesAny]
  cases matchesAlternative s d i v with
  | error => rfl
  | ok fits => cases fits <;> rfl

theorem matchesAny_agrees (descends : m.Descends d d') {vs ws : List Value}
    (parts : List.Forall₂ m.Part vs ws) (inst : m.data i j) :
    Agree τ Eq (matchesAny s d i vs) (matchesAny t d' j ws) := by
  induction parts with
  | nil => exact .ok rfl
  | cons first _ ih =>
      rw [matchesAny_cons, matchesAny_cons]
      apply (matchesAlternative_agrees descends first inst).bind
      rintro fits _ rfl
      cases fits with
      | true => exact .ok rfl
      | false => exact ih

/-- The alternatives of anything but a text are what it is gone through as. -/
theorem alternatives_of_ne_text {s : Store} (other : ∀ name, v ≠ .text name) :
    alternatives s v = (v.iterate? s).elim (faulted .kindMismatch) .ok := by
  cases v with
  | text name => exact absurd rfl (other name)
  | _ =>
      simp only [alternatives]
      split
      · next given => rw [given, Option.elim]
      · next nothing => rw [nothing, Option.elim]

theorem alternatives_agrees (shape : Shape s t m.Part v w) :
    Agree τ (List.Forall₂ m.Part) (alternatives s v) (alternatives t w) := by
  have through : (∀ name, v ≠ .text name) → (∀ name, w ≠ .text name) →
      Agree τ (List.Forall₂ m.Part) (alternatives s v) (alternatives t w) := by
    intro other other'
    rw [alternatives_of_ne_text other, alternatives_of_ne_text other']
    rcases rel_cases (shape.iterate? fun u leaf => .scalar leaf) with
      ⟨nothing, nothing'⟩ | ⟨vs, ws, left, right, parts⟩
    · rw [nothing, nothing']
      exact .stop _
    · rw [left, right]
      exact .ok parts
  cases shape with
  | scalar leaf =>
      cases v with
      | text name => exact .ok (.cons (.scalar trivial) .nil)
      | list | tuple | mapping => exact leaf.elim
      | _ => exact through (by rintro _ ⟨⟩) (by rintro _ ⟨⟩)
  | list | tuple | mapping => exact through (by rintro _ ⟨⟩) (by rintro _ ⟨⟩)

theorem checkType_matches (descends : m.Descends d d') (union : Shape s t m.Part v w)
    (inst : m.data i j) : Matches τ (checkType s d v i) (checkType t d' w j) := by
  apply (alternatives_agrees union).bind
  intro vs ws parts
  apply (matchesAny_agrees descends parts inst).bind
  rintro fits _ rfl
  apply Matches.violationIf rfl
  intro strict
  rw [m.shown strict inst, map_of_forall₂ parts fun _ _ part => part.named strict]

theorem checkDisallow_matches (descends : m.Descends d d') (union : Shape s t m.Part v w)
    (inst : m.data i j) : Matches τ (checkDisallow s d v i) (checkDisallow t d' w j) := by
  apply (alternatives_agrees union).bind
  intro vs ws parts
  apply Matches.gather parts
  intro v w part
  apply (matchesAny_agrees descends (.cons part .nil) inst).bind
  rintro fits _ rfl
  apply Matches.violationIf rfl
  intro strict
  rw [part.shown strict, m.shown strict inst]

theorem checkEnum_matches (listed : m.data v w) (inst : m.data i j) :
    Matches τ (checkEnum s v i) (checkEnum t w j) := by
  unfold checkEnum
  rcases rel_cases ((m.shape listed).iterate? m.scalars) with
    ⟨nothing, nothing'⟩ | ⟨vs, ws, left, right, parts⟩
  · rw [nothing, nothing']
    exact .stop _
  · rw [left, right]
    apply Matches.violationIf
    · rw [any_of_forall₂ parts fun _ _ same => m.same same inst]
    · intro strict
      rw [m.shown strict inst, m.shown strict listed]

/-! ## Numbers and texts -/

theorem limit_eq (same : m.data v w) : limit v = limit w := by
  rw [limit, limit, (m.shape same).looseMagnitude?]

theorem checkLength_matches (side : Side) (n : Nat) (bound : m.data v w) (inst : m.data i j) :
    Matches τ (checkLength s side n v i) (checkLength t side n w j) := by
  apply (Agree.of_eq (limit_eq bound)).bind
  rintro x _ rfl
  apply Matches.violationIf rfl
  intro strict
  rw [m.shown strict inst]

theorem textLength?_eq (same : m.data i j) : textLength? i = textLength? j := by
  cases m.shape same <;> rfl

theorem checkTextLength_matches (side : Side) (bound : m.data v w) (inst : m.data i j) :
    Matches τ (checkTextLength s side v i) (checkTextLength t side w j) := by
  unfold checkTextLength
  rw [textLength?_eq inst]
  cases textLength? j with
  | none => exact .clean
  | some n => exact checkLength_matches side n bound inst

theorem checkPattern_matches (pattern : m.data v w) (inst : m.data i j) :
    Matches τ (checkPattern s v i) (checkPattern t w j) := by
  have shown := fun strict => m.shown strict inst
  have shownPattern := fun strict => m.shown strict pattern
  cases m.shape inst with
  | list | tuple | mapping => exact .clean
  | scalar leaf =>
      cases i with
      | list | tuple | mapping => exact leaf.elim
      | text x =>
          cases m.shape pattern with
          | list | tuple | mapping => exact .stop _
          | scalar leaf' =>
              cases v with
              | list | tuple | mapping => exact leaf'.elim
              | text p =>
                  apply (Agree.of_eq rfl).bind
                  rintro found _ rfl
                  apply Matches.violationIf rfl
                  intro strict
                  rw [shown strict, shownPattern strict]
              | octets os =>
                  apply (Agree.of_eq rfl).bind
                  rintro found _ rfl
                  exact .stop _
              | _ => exact .stop _
      | _ => exact .clean

theorem checkLimit_matches (side : Side) (exclusive : Bool) (bound : m.data v w)
    (inst : m.data i j) :
    Matches τ (checkLimit s side exclusive v i) (checkLimit t side exclusive w j) := by
  unfold checkLimit
  rw [(m.shape inst).magnitude?]
  cases j.magnitude? with
  | none => exact .clean
  | some x =>
      apply (Agree.of_eq (limit_eq bound)).bind
      rintro y _ rfl
      apply Matches.violationIf rfl
      intro strict
      rw [m.shown strict inst, m.shown strict bound]

theorem checkDivisibleBy_matches (divisor : m.data v w) (inst : m.data i j) :
    Matches τ (checkDivisibleBy s v i) (checkDivisibleBy t w j) := by
  have shown := fun strict => m.shown strict inst
  have named := fun strict => plain strict divisor
  cases m.shape inst with
  | list | tuple | mapping => exact .clean
  | scalar leaf =>
      unfold checkDivisibleBy
      cases i.magnitude? with
      | none => exact .clean
      | some x =>
          have onward : ∀ fits fits' : Bool, fits = fits' → Matches τ
              (violationIf (!fits) (i.display s ++ " is not a multiple of " ++ v.plain s))
              (violationIf (!fits') (i.display t ++ " is not a multiple of " ++ w.plain t)) := by
            rintro fits _ rfl
            apply Matches.violationIf rfl
            intro strict
            rw [shown strict, named strict]
          cases m.shape divisor with
          | scalar leaf' =>
              cases v with
              | list | tuple | mapping => exact leaf'.elim
              | _ => exact (Agree.of_eq rfl).bind onward
          | list | tuple | mapping => exact (Agree.of_eq rfl).bind onward

/-! ## Arrays -/

theorem indexed_related {related : Value → Value → Prop} {vs ws : List Value}
    (same : List.Forall₂ related vs ws) :
    Entries.Related related (indexed vs) (indexed ws) := by
  refine List.forall₂_map_left_iff.mpr (List.forall₂_map_right_iff.mpr
    ((zipIdx_of_forall₂ same 0).imp ?_))
  rintro ⟨v, i⟩ ⟨w, _⟩ ⟨here, rfl⟩
  exact ⟨rfl, here⟩

theorem zip_related {α β α' β' : Type} {related : α → β → Prop} {related' : α' → β' → Prop}
    {xs : List α} {ys : List β} {xs' : List α'} {ys' : List β'}
    (same : List.Forall₂ related xs ys) (same' : List.Forall₂ related' xs' ys') :
    List.Forall₂ (fun x y => related x.1 y.1 ∧ related' x.2 y.2) (xs.zip xs') (ys.zip ys') := by
  induction same generalizing xs' ys' with
  | nil => exact .nil
  | cons first _ ih =>
      cases same' with
      | nil => exact .nil
      | cons first' rest' => exact .cons ⟨first, first'⟩ (ih rest')

theorem checkItems_matches (descends : m.Descends d d') (items : m.Rack v w)
    (inst : m.data i j) : Matches τ (checkItems s d v i) (checkItems t d' w j) := by
  unfold checkItems
  rcases rel_cases (m.shape inst).elements? with
    ⟨nothing, nothing'⟩ | ⟨xs, ys, left, right, elements⟩
  · rw [nothing, nothing']
    exact .clean
  · simp only [left, right]
    cases items with
    | node same =>
        rw [if_pos (Value.kind_mapping _), if_pos (Value.kind_mapping _)]
        apply Matches.gather (indexed_related elements)
        rintro ⟨token, x⟩ ⟨_, y⟩ ⟨rfl, here⟩
        exact descendTo_matches descends token (.node same) here
    | row shape other =>
        have other' : w.kind ≠ .object := shape.kind ▸ other
        rw [if_neg other, if_neg other']
        rcases rel_cases (shape.iterate? fun u leaf => .scalar leaf) with
          ⟨nothing, nothing'⟩ | ⟨vs, ws, schemas, schemas', parts⟩
        · rw [nothing, nothing']
          exact .stop _
        · rw [schemas, schemas']
          apply Matches.gather (zip_related (indexed_related elements) parts)
          rintro ⟨⟨token, x⟩, schema⟩ ⟨⟨_, y⟩, schema'⟩ ⟨⟨rfl, here⟩, part⟩
          exact descendTo_matches descends token part here

theorem positionCount_eq (items : m.Rack v w) (other : v.kind ≠ .object) :
    positionCount s v = positionCount t w := by
  unfold positionCount
  rcases rel_cases (items.iterate? other) with
    ⟨nothing, nothing'⟩ | ⟨vs, ws, left, right, parts⟩
  · rw [nothing, nothing']
  · rw [left, right]
    simp only [parts.length_eq]

theorem checkAdditionalItems_matches (descends : m.Descends d d')
    (items : Option.Rel m.Rack (es.lookup "items") (fs.lookup "items")) (additional : m.Part v w)
    (inst : m.data i j) :
    Matches τ (checkAdditionalItems s d es v i) (checkAdditionalItems t d' fs w j) := by
  unfold checkAdditionalItems
  rcases rel_cases (m.shape inst).elements? with
    ⟨nothing, nothing'⟩ | ⟨xs, ys, left, right, elements⟩
  · rw [nothing, nothing']
    exact .clean
  rcases rel_cases items with ⟨absent, absent'⟩ | ⟨u, u', listed, listed', rack⟩
  · rw [left, right, absent, absent']
    exact .clean
  simp only [left, right, listed, listed']
  by_cases object : u.kind = .object
  · rw [if_pos object, if_pos (rack.kind ▸ object)]
    exact .clean
  rw [if_neg object, if_neg (rack.kind ▸ object)]
  apply (Agree.of_eq (positionCount_eq rack object)).bind
  rintro count _ rfl
  have extras := List.forall₂_drop count (indexed_related elements)
  cases additional with
  | node same =>
      rw [if_pos (Value.kind_mapping _), if_pos (Value.kind_mapping _)]
      apply Matches.gather extras
      rintro ⟨token, x⟩ ⟨_, y⟩ ⟨rfl, here⟩
      exact descendTo_matches descends token (.node same) here
  | data same other =>
      have other' : w.kind ≠ .object := (m.shape same).kind ▸ other
      rw [if_neg other, if_neg other']
      apply Matches.violationIf
      · rw [(m.shape same).truthy, isEmpty_of_forall₂ extras]
      · intro strict
        rw [map_of_forall₂ extras fun _ _ here => m.shown strict here.2, extras.length_eq]

theorem checkItemCount_matches (side : Side) (bound : m.data v w) (inst : m.data i j) :
    Matches τ (checkItemCount s side v i) (checkItemCount t side w j) := by
  unfold checkItemCount
  rcases rel_cases (m.shape inst).elements? with
    ⟨nothing, nothing'⟩ | ⟨xs, ys, left, right, elements⟩
  · rw [nothing, nothing']
    exact .clean
  · simp only [left, right, elements.length_eq]
    exact checkLength_matches side _ bound inst

theorem checkUniqueItems_matches (unique : m.data v w) (inst : m.data i j) :
    Matches τ (checkUniqueItems s v i) (checkUniqueItems t w j) := by
  unfold checkUniqueItems
  rcases rel_cases (m.shape inst).elements? with
    ⟨nothing, nothing'⟩ | ⟨xs, ys, left, right, elements⟩
  · rw [nothing, nothing']
    exact .clean
  · rw [left, right]
    apply Matches.violationIf
    · rw [(m.shape unique).truthy, m.distinct elements]
    · intro strict
      rw [m.shown strict inst]

/-! ## Objects -/

theorem schemaMap_agrees (shape : Shape s t m.Part v w) :
    Agree τ (Entries.Related m.Part) (schemaMap s v) (schemaMap t w) := by
  unfold schemaMap
  rcases rel_cases shape.entries? with ⟨nothing, nothing'⟩ | ⟨es, fs, left, right, entries⟩
  · rw [nothing, nothing']
    exact .stop _
  · rw [left, right]
    exact .ok entries

theorem lookup_isNone {related : Value → Value → Prop} (same : Entries.Related related es fs)
    (name : String) : (es.lookup name).isNone = (fs.lookup name).isNone := by
  rcases rel_cases (same.lookup name) with ⟨nothing, nothing'⟩ | ⟨_, _, left, right, _⟩
  · rw [nothing, nothing']
  · rw [left, right]
    rfl

theorem affirmed (flag : Option.Rel m.data (es.lookup key) (fs.lookup key)) :
    affirms s es key = affirms t fs key := by
  unfold affirms
  rcases rel_cases flag with ⟨nothing, nothing'⟩ | ⟨_, _, left, right, same⟩
  · rw [nothing, nothing']
    rfl
  · rw [left, right]
    exact (m.shape same).truthy

theorem isRequired_eq (faithful : m.Faithful) (part : m.Part v w) :
    isRequired s v = isRequired t w := by
  cases part with
  | node same =>
      have flag := (faithful _ _ same).flag "required" (by decide)
      exact congrArg Except.ok (affirmed flag)
  | data same other =>
      have other' : w.kind ≠ .object := (m.shape same).kind ▸ other
      unfold isRequired schemaMap
      rw [Value.entries?_eq_none other, Value.entries?_eq_none other']
      rfl

theorem checkProperties_matches (faithful : m.Faithful) (descends : m.Descends d d')
    (schemas : Shape s t m.Part v w) (inst : m.data i j) :
    Matches τ (checkProperties s d v i) (checkProperties t d' w j) := by
  unfold checkProperties
  rcases rel_cases (m.shape inst).entries? with
    ⟨nothing, nothing'⟩ | ⟨members, members', left, right, same⟩
  · rw [nothing, nothing']
    exact .clean
  rw [left, right]
  apply (schemaMap_agrees schemas).bind
  intro es fs entries
  apply Matches.gather entries
  rintro ⟨name, schema⟩ ⟨_, schema'⟩ ⟨rfl, part⟩
  dsimp only
  rcases rel_cases (same.lookup name) with ⟨absent, absent'⟩ | ⟨x, y, there, there', here⟩
  · rw [absent, absent']
    apply (Agree.of_eq (isRequired_eq faithful part)).bind
    rintro required _ rfl
    exact (Matches.violationIf rfl fun _ => rfl).below name
  · rw [there, there']
    exact descendTo_matches descends name part here

theorem checkPatternProperties_matches (descends : m.Descends d d')
    (schemas : Shape s t m.Part v w) (inst : m.data i j) :
    Matches τ (checkPatternProperties s d v i) (checkPatternProperties t d' w j) := by
  unfold checkPatternProperties
  rcases rel_cases (m.shape inst).entries? with
    ⟨nothing, nothing'⟩ | ⟨members, members', left, right, same⟩
  · rw [nothing, nothing']
    exact .clean
  rw [left, right]
  apply (schemaMap_agrees schemas).bind
  intro es fs entries
  apply Matches.gather entries
  rintro ⟨pattern, schema⟩ ⟨_, schema'⟩ ⟨rfl, part⟩
  apply Matches.gather same
  rintro ⟨name, x⟩ ⟨_, y⟩ ⟨rfl, here⟩
  apply (Agree.of_eq rfl).bind
  rintro found _ rfl
  cases found with
  | false => exact Matches.clean
  | true => exact descendTo_matches descends name part here

theorem covers_eq (shape : Shape s t m.Part v w) (name : String) :
    covers s v name = covers t w name := by
  have listed : ∀ {vs ws : List Value}, List.Forall₂ m.Part vs ws →
      vs.contains (.text name) = ws.contains (.text name) := by
    intro vs ws parts
    simp only [List.contains_eq_any_beq]
    apply any_of_forall₂ parts
    intro x y part
    have same := part.scalar_iff (u := .text name) trivial
    rw [Bool.eq_iff_iff, beq_iff_eq, beq_iff_eq, eq_comm, same, eq_comm]
  cases shape with
  | scalar leaf => cases v <;> first | rfl | exact leaf.elim
  | list parts | tuple parts => simp only [covers, listed parts]
  | mapping entries =>
      have found := lookup_isNone entries name
      simp only [covers]
      rw [← Option.not_isNone, ← Option.not_isNone, found]

theorem textsOf_eq (shape : Shape s t m.Part v w) : textsOf s v = textsOf t w := by
  unfold textsOf
  rcases rel_cases (shape.iterate? fun u leaf => .scalar leaf) with
    ⟨nothing, nothing'⟩ | ⟨vs, ws, left, right, parts⟩
  · rw [nothing, nothing']
  · simp only [left, right]
    apply mapM_of_forall₂ parts
    intro x y part
    cases part with
    | node => rfl
    | data same => cases m.shape same <;> rfl

theorem joinedPatterns_eq (patterns : Option.Rel (Shape s t m.Part)
    (es.lookup "patternProperties") (fs.lookup "patternProperties")) :
    joinedPatterns s es = joinedPatterns t fs := by
  unfold joinedPatterns
  rcases rel_cases patterns with ⟨absent, absent'⟩ | ⟨_, _, there, there', shape⟩
  · rw [absent, absent']
  · simp only [there, there', textsOf_eq shape]

theorem isExtra_eq (properties : Option.Rel (Shape s t m.Part)
    (es.lookup "properties") (fs.lookup "properties")) (patterns name : String) :
    isExtra s es patterns name = isExtra t fs patterns name := by
  unfold isExtra
  rcases rel_cases properties with ⟨absent, absent'⟩ | ⟨_, _, there, there', shape⟩
  · rw [absent, absent']
  · simp only [there, there', covers_eq shape]

theorem extrasMessage_eq (patterns : Option.Rel (Shape s t m.Part)
    (es.lookup "patternProperties") (fs.lookup "patternProperties")) (names : List String) :
    extrasMessage s es names = extrasMessage t fs names := by
  unfold extrasMessage
  rcases rel_cases patterns with ⟨absent, absent'⟩ | ⟨_, _, there, there', shape⟩
  · simp only [absent, absent']
  · simp only [there, there', textsOf_eq shape]

theorem filterM_agrees {α β : Type} {related : α → β → Prop} {xs : List α} {ys : List β}
    {p : α → Except Stop Bool} {q : β → Except Stop Bool} (same : List.Forall₂ related xs ys)
    (each : ∀ x y, related x y → p x = q y) :
    Agree τ (List.Forall₂ related) (xs.filterM p) (ys.filterM q) := by
  have aux : ∀ {kept : List α} {kept' : List β}, List.Forall₂ related kept kept' →
      Agree τ (List.Forall₂ related) (xs.filterAuxM p kept) (ys.filterAuxM q kept') := by
    induction same with
    | nil => exact fun sofar => .ok sofar
    | cons first _ ih =>
        intro kept kept' sofar
        apply (Agree.of_eq (each _ _ first)).bind
        rintro chosen _ rfl
        cases chosen with
        | true => exact ih (.cons first sofar)
        | false => exact ih sofar
  apply (aux .nil).bind
  intro kept kept' parts
  exact .ok (List.rel_reverse parts)

theorem checkAdditionalProperties_matches (descends : m.Descends d d')
    (arranged : m.Arranged es fs) (additional : m.Part v w) (inst : m.data i j) :
    Matches τ (checkAdditionalProperties s d es v i)
      (checkAdditionalProperties t d' fs w j) := by
  have patterns : Option.Rel (Shape s t m.Part) (es.lookup "patternProperties")
      (fs.lookup "patternProperties") := arranged.keyword .patternProperties
  have properties : Option.Rel (Shape s t m.Part) (es.lookup "properties")
      (fs.lookup "properties") := arranged.keyword .properties
  unfold checkAdditionalProperties
  rcases rel_cases (m.shape inst).entries? with
    ⟨nothing, nothing'⟩ | ⟨members, members', left, right, same⟩
  · rw [nothing, nothing']
    exact .clean
  rw [left, right]
  apply (Agree.of_eq (joinedPatterns_eq patterns)).bind
  rintro joined _ rfl
  refine (filterM_agrees same ?_).bind ?_
  · rintro ⟨name, _⟩ ⟨_, _⟩ ⟨rfl, _⟩
    exact isExtra_eq properties joined name
  intro extras extras' parts
  cases additional with
  | node same =>
      rw [if_pos (Value.kind_mapping _), if_pos (Value.kind_mapping _)]
      apply Matches.gather parts
      rintro ⟨name, x⟩ ⟨_, y⟩ ⟨rfl, here⟩
      exact descendTo_matches descends name (.node same) here
  | data same other =>
      have other' : w.kind ≠ .object := (m.shape same).kind ▸ other
      have names : extras.map Prod.fst = extras'.map Prod.fst :=
        map_of_forall₂ parts fun _ _ entry => entry.1
      rw [if_neg other, if_neg other', (m.shape same).truthy, isEmpty_of_forall₂ parts, names]
      split
      · apply (Agree.of_eq (extrasMessage_eq patterns _)).bind
        rintro message _ rfl
        exact Matches.violation fun _ => rfl
      · exact Matches.clean

/-! ## Dependencies and extended schemas -/

theorem elements?_of_part (part : m.Part v w) :
    Option.Rel (List.Forall₂ m.data) (v.elements? s) (w.elements? t) := by
  cases part with
  | node => exact .none
  | data same => exact (m.shape same).elements?

theorem isDependency_eq (part : m.Part v w) : isDependency s v = isDependency t w := by
  unfold isDependency
  rw [part.kind]
  rcases rel_cases (elements?_of_part part) with
    ⟨nothing, nothing'⟩ | ⟨vs, ws, left, right, same⟩
  · rw [nothing, nothing', Option.any_none]
  · rw [left, right]
    simp only [Option.any_some]
    rw [all_of_forall₂ same fun x y here => by rw [(m.shape here).kind]]

theorem isDependencyMap_eq (shape : Shape s t m.Part v w) :
    isDependencyMap s v = isDependencyMap t w := by
  unfold isDependencyMap
  rcases rel_cases shape.entries? with ⟨nothing, nothing'⟩ | ⟨es, fs, left, right, entries⟩
  · rw [nothing, nothing']
    rfl
  · rw [left, right]
    exact all_of_forall₂ entries fun _ _ entry => isDependency_eq entry.2

theorem checkCompanion_matches {members members' : Entries}
    (same : Entries.Related m.data members members') (name : String) (other : m.data v w) :
    Matches τ (checkCompanion members name v) (checkCompanion members' name w) := by
  cases m.shape other with
  | list | tuple | mapping => exact .clean
  | scalar leaf =>
      cases v with
      | text x => exact .violationIf (lookup_isNone same x) fun _ => rfl
      | list | tuple | mapping => exact leaf.elim
      | _ => exact .clean

theorem checkDependencies_matches (descends : m.Descends d d')
    (dependencies : Shape s t m.Part v w) (inst : m.data i j) :
    Matches τ (checkDependencies s d v i) (checkDependencies t d' w j) := by
  unfold checkDependencies
  rw [isDependencyMap_eq dependencies, dependencies.kind]
  split
  · exact .stop _
  rcases rel_cases (m.shape inst).entries? with
    ⟨nothing, nothing'⟩ | ⟨members, members', left, right, same⟩
  · rw [nothing, nothing']
    exact .clean
  rcases rel_cases dependencies.entries? with
    ⟨nothing, nothing'⟩ | ⟨es, fs, listed, listed', entries⟩
  · rw [left, right, nothing, nothing']
    exact .clean
  simp only [left, right, listed, listed']
  apply Matches.gather entries
  rintro ⟨name, dependency⟩ ⟨_, dependency'⟩ ⟨rfl, part⟩
  dsimp only
  rw [lookup_isNone same name]
  split
  · exact .clean
  rcases rel_cases (elements?_of_part part) with
    ⟨nothing, nothing'⟩ | ⟨vs, ws, others, others', parts⟩
  · rw [nothing, nothing']
    cases part with
    | node schema =>
        simp only [if_pos (Value.kind_mapping _)]
        exact descends _ _ _ _ (.node schema) inst
    | data here other =>
        have other' : dependency'.kind ≠ .object := (m.shape here).kind ▸ other
        simp only [if_neg other, if_neg other']
        exact checkCompanion_matches same name here
  · rw [others, others']
    exact Matches.gather parts fun _ _ here => checkCompanion_matches same name here

theorem isExtension_eq (extended : m.Rack v w) : isExtension s v = isExtension t w := by
  unfold isExtension
  cases extended with
  | node => rfl
  | row shape =>
      rw [shape.kind]
      rcases rel_cases shape.elements? with ⟨nothing, nothing'⟩ | ⟨vs, ws, left, right, parts⟩
      · rw [nothing, nothing', Option.any_none]
      · rw [left, right]
        simp only [Option.any_some]
        rw [all_of_forall₂ parts fun x y here => by rw [here.kind]]

theorem checkExtends_matches (descends : m.Descends d d') (extended : m.Rack v w)
    (inst : m.data i j) : Matches τ (checkExtends s d v i) (checkExtends t d' w j) := by
  unfold checkExtends
  rw [isExtension_eq extended, extended.kind]
  split
  · exact .stop _
  · next usable =>
      cases extended with
      | node same => exact descends _ _ _ _ (.node same) inst
      | row shape other =>
          rcases rel_cases shape.elements? with ⟨nothing, nothing'⟩ | ⟨vs, ws, left, right, parts⟩
          · -- what can be extended is a mapping or a list
            have other' : w.kind ≠ .object := shape.kind ▸ other
            simp [isExtension, nothing', other'] at usable
          · rw [left, right]
            exact Matches.gather parts fun _ _ part => descends _ _ _ _ part inst

end Mirror

end Evaluation

end SchemaAudit

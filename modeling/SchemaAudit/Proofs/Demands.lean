import SchemaAudit.Instance.Schema

/-! # What an evaluation asks for

An evaluation is stopped by an operation that its operands do not allow, or by a schema that is
evaluated on the way. Both are demands. A keyword makes its demands in a fixed order and stops
at the first that stops.
-/

namespace SchemaAudit

/-- An operation that may not go through, with its operands. -/
inductive Operation where
  | openMap (v : Value)
  | goThrough (v : Value)
  /-- Going through a value that has to give nothing but texts. -/
  | collectTexts (v : Value)
  /-- Asking a value that stands for the named properties whether it has a name. -/
  | findName (properties : Value)
  | compare (limit : Value)
  | divide (inst divisor : Value)
  | search (pattern : Value)
  /-- Looking up the type that an alternative names. -/
  | nameType (v : Value)
  | takeDependencies (v : Value)
  | takeExtension (v : Value)
  | takeReference (v : Value)

/-- What an evaluation asks for. -/
inductive Demand where
  | perform (op : Operation)
  /-- The evaluation of a schema inside the present one. -/
  | descend (schema inst : Value)
  /-- The evaluation of the schema that a reference leads to. -/
  | refer (ref : String) (inst : Value)

namespace Operation

/-- What is wrong with a text as a pattern. -/
def misread? (pattern : String) : Option Stop :=
  match Pattern.read pattern with
  | .ok _ => none
  | .error (.malformed cause position) =>
    some (.flaw (.pattern (Pattern.located pattern cause position)))
  | .error .countTooLarge => some (.fault .overflow)
  | .error .contradictoryFlags => some (.fault .invalidValue)

/-- Whether a number is whole and beyond the double-precision ones. -/
def isHuge : Value → Bool
  | .int n => (Binary64.ofInt? n).isNone
  | _ => false

/-- What goes wrong when a number is divided by a whole one: nothing but zero is too little,
    and a number that is not whole can only be divided by a double-precision one. -/
def divisionByWhole? (inst : Value) (n : Int) : Option Fault :=
  match inst with
  | .int _ => if n = 0 then some .divisionByZero else none
  | _ =>
    if isHuge (.int n) then some .overflow
    else if n = 0 then some .divisionByZero
    else none

/-- What goes wrong when a number is divided by a value. -/
def division? (inst divisor : Value) : Option Fault :=
  match divisor with
  | .int n => divisionByWhole? inst n
  | .bool b => divisionByWhole? inst (if b then 1 else 0)
  | .nan _ => if isHuge inst then some .overflow else some .invalidValue
  | .float y =>
    if isHuge inst then some .overflow
    else if y.isZero then some .divisionByZero
    else
      match inst, y with
      | .nan _, _ | .float (.infinite _), .infinite _ => some .invalidValue
      | .float (.infinite _), .finite .. => some .overflow
      | _, _ => none
  | _ => some .kindMismatch

/-- What stops an operation. -/
def stop? (s : Store) : Operation → Option Stop
  | openMap v => if v.kind = .object then none else some (.fault .noSuchPart)
  | goThrough v => if (v.iterate? s).isSome then none else some (.fault .kindMismatch)
  | collectTexts v =>
    if (v.iterate? s).any fun vs => vs.all fun w => w.kind == .string then none
    else some (.fault .kindMismatch)
  | findName v =>
    if v.kind = .object ∨ v.kind = .array ∨ v.kind = .string then none
    else some (.fault .kindMismatch)
  | compare v => if v.looseMagnitude?.isSome then none else some (.fault .kindMismatch)
  | divide inst divisor => (division? inst divisor).map .fault
  | search v =>
    match v with
    | .text p => misread? p
    | .octets os =>
      (misread? (String.ofList (os.map fun o => Char.ofNat o.toNat))).or
        (some (.fault .kindMismatch))
    | _ => some (.fault .kindMismatch)
  | nameType v =>
    match v with
    | .text name =>
      if (Evaluation.typeTest? name).isSome then none else some (.flaw (.unknownType name))
    | v =>
      if Evaluation.isLookupKey s (s.size + 2) v then some (.flaw (.unknownType (v.plain s)))
      else some (.fault .kindMismatch)
  | takeDependencies v =>
    if Evaluation.isDependencyMap s v then none
    else some (.flaw (.keyword "dependencies" v.kind
      "an object of property names, name arrays or schemas"))
  | takeExtension v =>
    if Evaluation.isExtension s v then none
    else some (.flaw (.keyword "extends" v.kind "either an object (schema) or an array of schemas"))
  | takeReference v =>
    if v.kind = .string then none else some (.flaw (.keyword Keyword.ref.key v.kind "a string"))

end Operation

namespace Evaluation

def stop? {α : Type} : Except Stop α → Option Stop
  | .ok _ => none
  | .error stop => some stop

def Bench.stop? (b : Bench) : Demand → Option Stop
  | .perform op => op.stop? b.store
  | .descend schema inst => Evaluation.stop? (b.descend schema inst)
  | .refer ref inst => Evaluation.stop? (b.refer ref inst)

/-- Whether a value conforms to a schema inside. -/
def Bench.admits (b : Bench) (schema inst : Value) : Bool :=
  match b.descend schema inst with
  | .ok [] => true
  | _ => false

/-- Whether a pattern can be read and matches somewhere in a text. -/
def occursIn (pattern text : String) : Bool :=
  match Pattern.read pattern with
  | .ok e => e.occursIn text
  | .error _ => false

/-! ## Unions -/

def members (s : Store) : Value → List Value
  | .text t => [.text t]
  | v => (v.iterate? s).getD []

/-- Whether an alternative names a type that the value is of. -/
def namesTypeOf (inst : Value) : Value → Bool
  | .text name => (typeTest? name).any fun test => test inst
  | _ => false

/-- One alternative after the other is tried, up to the first that matches. -/
def matchDemands (admits : Value → Value → Bool) (inst : Value) : List Value → List Demand
  | [] => []
  | .mapping a :: rest =>
    .descend (.mapping a) inst ::
      if admits (.mapping a) inst then [] else matchDemands admits inst rest
  | v :: rest =>
    .perform (.nameType v) :: if namesTypeOf inst v then [] else matchDemands admits inst rest

def typeDemands (s : Store) (admits : Value → Value → Bool) (union inst : Value) :
    List Demand :=
  .perform (.goThrough union) :: matchDemands admits inst (members s union)

/-- Every alternative is tried by itself. -/
def disallowDemands (s : Store) (admits : Value → Value → Bool) (union inst : Value) :
    List Demand :=
  .perform (.goThrough union) ::
    (members s union).flatMap fun v => matchDemands admits inst [v]

/-! ## Objects -/

/-- A property that is there is evaluated, and the schema of a missing one is asked whether the
    property is required. -/
def propertyDemands (s : Store) (schemas inst : Value) : List Demand :=
  match inst.entries? s with
  | none => []
  | some properties =>
    .perform (.openMap schemas) :: ((schemas.entries? s).getD []).map fun (name, schema) =>
      match properties.lookup name with
      | some v => .descend schema v
      | none => .perform (.openMap schema)

def patternPropertyDemands (s : Store) (schemas inst : Value) : List Demand :=
  match inst.entries? s with
  | none => []
  | some properties =>
    .perform (.openMap schemas) ::
      ((schemas.entries? s).getD []).flatMap fun (pattern, schema) =>
        properties.flatMap fun (name, v) =>
          .perform (.search (.text pattern)) ::
            if occursIn pattern name then [.descend schema v] else []

/-- The patterns of a schema joined to one. -/
def joinedPattern (s : Store) (schema : Entries) : String :=
  match schema.lookup "patternProperties" with
  | none => ""
  | some v => "|".intercalate (((v.iterate? s).getD []).filterMap textOf?)
where
  textOf? : Value → Option String
    | .text t => some t
    | _ => none

/-- Whether a property is among the named ones. -/
def isNamed (s : Store) (schema : Entries) (name : String) : Bool :=
  match schema.lookup "properties" with
  | none => false
  | some (.mapping a) => ((s.entries a).lookup name).isSome
  | some (.list a) | some (.tuple a) => (s.elements a).contains (.text name)
  | some (.text t) => isInfix name.toList t.toList
  | some _ => false

/-- What it takes to tell whether a property is an additional one. -/
def extraDemands (s : Store) (schema : Entries) (name : String) : List Demand :=
  (match schema.lookup "properties" with
    | none => []
    | some v => [.perform (.findName v)]) ++
  if isNamed s schema name ∨ joinedPattern s schema = "" then []
  else [.perform (.search (.text (joinedPattern s schema)))]

def isAdditional (s : Store) (schema : Entries) (name : String) : Bool :=
  !isNamed s schema name &&
    (joinedPattern s schema = "" || !occursIn (joinedPattern s schema) name)

def additionalPropertyDemands (s : Store) (schema : Entries) (additional inst : Value) :
    List Demand :=
  match inst.entries? s with
  | none => []
  | some properties =>
    (match schema.lookup "patternProperties" with
      | none => []
      | some v => [.perform (.collectTexts v)]) ++
    properties.flatMap (fun (name, _) => extraDemands s schema name) ++
    if additional.kind = .object then
      (properties.filter fun (name, _) => isAdditional s schema name).map fun (_, v) =>
        .descend additional v
    else []

/-- A property that is there and depends on a schema has the whole object evaluated. -/
def dependencyDemands (s : Store) (dependencies inst : Value) : List Demand :=
  .perform (.takeDependencies dependencies) ::
    match inst.entries? s, dependencies.entries? s with
    | some properties, some es => es.flatMap fun (name, dependency) =>
      if (properties.lookup name).isSome ∧ dependency.kind = .object then
        [.descend dependency inst]
      else []
    | _, _ => []

def extensionDemands (s : Store) (extended inst : Value) : List Demand :=
  .perform (.takeExtension extended) ::
    match extended.elements? s with
    | some schemas => schemas.map fun schema => .descend schema inst
    | none => [.descend extended inst]

/-! ## Arrays -/

def itemDemands (s : Store) (items inst : Value) : List Demand :=
  match inst.elements? s with
  | none => []
  | some vs =>
    if items.kind = .object then vs.map fun v => .descend items v
    else
      .perform (.goThrough items) ::
        (vs.zip ((items.iterate? s).getD [])).map fun (v, schema) => .descend schema v

def additionalItemDemands (s : Store) (schema : Entries) (additional inst : Value) :
    List Demand :=
  match inst.elements? s, schema.lookup "items" with
  | some vs, some items =>
    if items.kind = .object then []
    else
      .perform (.goThrough items) ::
        if additional.kind = .object then
          (vs.drop ((items.iterate? s).getD []).length).map fun v => .descend additional v
        else []
  | _, _ => []

/-! ## All keywords -/

/-- An operation on values of some kind, and none on others. -/
def performIf (applies : Bool) (op : Operation) : List Demand :=
  if applies then [.perform op] else []

/-- What a keyword asks for. -/
def demands (s : Store) (admits : Value → Value → Bool) (schema : Entries) (inst v : Value) :
    Keyword → List Demand
  | .type => typeDemands s admits v inst
  | .disallow => disallowDemands s admits v inst
  | .enum => [.perform (.goThrough v)]
  | .properties => propertyDemands s v inst
  | .patternProperties => patternPropertyDemands s v inst
  | .additionalProperties => additionalPropertyDemands s schema v inst
  | .items => itemDemands s v inst
  | .additionalItems => additionalItemDemands s schema v inst
  | .minItems | .maxItems => performIf (inst.kind = .array) (.compare v)
  | .uniqueItems => []
  | .minimum | .maximum => performIf inst.magnitude?.isSome (.compare v)
  | .divisibleBy => performIf inst.magnitude?.isSome (.divide inst v)
  | .minLength | .maxLength => performIf (inst.kind = .string) (.compare v)
  | .pattern => performIf (inst.kind = .string) (.search v)
  | .dependencies => dependencyDemands s v inst
  | .extending => extensionDemands s v inst
  | .ref =>
    match v with
    | .text t => [.refer t inst]
    | v => [.perform (.takeReference v)]

/-- What the keywords of a schema ask for. -/
def entryDemands (s : Store) (admits : Value → Value → Bool) (schema : Entries)
    (inst : Value) : List Demand :=
  (applicable schema).flatMap fun (key, v) =>
    match Keyword.ofKey? key with
    | some k => demands s admits schema inst v k
    | none => []

/-! ## What stops computations that are made up of others -/

section Stop

variable {α β : Type}

@[simp] theorem stop?_ok (a : α) : stop? (.ok a : Except Stop α) = none := rfl

@[simp] theorem stop?_pure (a : α) : stop? (pure a : Except Stop α) = none := rfl

@[simp] theorem stop?_error (stop : Stop) : stop? (.error stop : Except Stop α) = some stop := rfl

@[simp] theorem stop?_faulted (fault : Fault) :
    stop? (faulted fault : Except Stop α) = some (.fault fault) := rfl

@[simp] theorem stop?_flawed (flaw : Flaw) :
    stop? (flawed flaw : Except Stop α) = some (.flaw flaw) := rfl

theorem stop?_eq_some {x : Except Stop α} {stop : Stop} :
    stop? x = some stop ↔ x = .error stop := by
  cases x <;> simp

@[simp] theorem stop?_map (f : α → β) (x : Except Stop α) : stop? (x.map f) = stop? x := by
  cases x <;> rfl

/-- One computation after another stops where the first of them does. -/
theorem stop?_bind (x : Except Stop α) (f : α → Except Stop β) :
    stop? (x >>= f) = match x with
      | .ok a => stop? (f a)
      | .error stop => some stop := by
  cases x <;> rfl

theorem bind_eq_ok {x : Except Stop α} {f : α → Except Stop β} {b : β} :
    x >>= f = .ok b ↔ ∃ a, x = .ok a ∧ f a = .ok b := by
  cases x <;> simp [bind, Except.bind]

theorem bind_eq_error {x : Except Stop α} {f : α → Except Stop β} {stop : Stop} :
    x >>= f = .error stop ↔ x = .error stop ∨ ∃ a, x = .ok a ∧ f a = .error stop := by
  cases x <;> simp [bind, Except.bind]

/-- What comes after a computation does not matter if it goes through anyway. -/
theorem stop?_bind_clear {x : Except Stop α} {f : α → Except Stop β}
    (clear : ∀ a, stop? (f a) = none) : stop? (x >>= f) = stop? x := by
  cases x with
  | ok a => exact clear a
  | error => rfl

theorem stop?_bind_or {x : Except Stop α} {f : α → Except Stop β} {rest : Option Stop}
    (onward : ∀ a, x = .ok a → stop? (f a) = rest) : stop? (x >>= f) = (stop? x).or rest := by
  cases x with
  | ok a => exact onward a rfl
  | error => rfl

@[simp] theorem stop?_violationIf (failed : Bool) (message : String) :
    stop? (violationIf failed message) = none := by
  cases failed <;> rfl

@[simp] theorem stop?_below (token : String) (e : Evaluation) :
    stop? (below token e) = stop? e := stop?_map _ e

@[simp] theorem stop?_descendTo (descend : Descent) (token : String) (schema part : Value) :
    stop? (descendTo descend token schema part) = stop? (descend schema part) := by
  unfold descendTo
  split <;> simp

theorem stop?_gather (evaluate : α → Evaluation) (xs : List α) :
    stop? (gather evaluate xs) = xs.findSome? fun x => stop? (evaluate x) := by
  induction xs with
  | nil => rfl
  | cons x rest ih =>
      rw [gather, List.findSome?_cons, ← ih]
      cases evaluate x with
      | error stop => rfl
      | ok found => cases gather evaluate rest <;> rfl

theorem stop?_mapM (f : α → Except Stop β) (xs : List α) :
    stop? (xs.mapM f) = xs.findSome? fun x => stop? (f x) := by
  induction xs with
  | nil => rfl
  | cons x rest ih =>
      rw [List.mapM_cons, List.findSome?_cons, ← ih, stop?_bind]
      cases f x with
      | error stop => rfl
      | ok y => cases rest.mapM f <;> rfl

private theorem stop?_filterAuxM (p : α → Except Stop Bool) (xs kept : List α) :
    stop? (xs.filterAuxM p kept) = xs.findSome? fun x => stop? (p x) := by
  induction xs generalizing kept with
  | nil => rfl
  | cons x rest ih =>
      rw [List.filterAuxM, List.findSome?_cons, stop?_bind]
      cases p x with
      | error stop => rfl
      | ok keeps => exact ih _

theorem stop?_filterM (p : α → Except Stop Bool) (xs : List α) :
    stop? (xs.filterM p) = xs.findSome? fun x => stop? (p x) := by
  rw [List.filterM, stop?_bind_clear fun _ => rfl, stop?_filterAuxM]

private theorem filterAuxM_ok {p : α → Except Stop Bool} {q : α → Bool}
    (tells : ∀ x keeps, p x = .ok keeps → q x = keeps) {xs kept ys : List α}
    (filtered : xs.filterAuxM p kept = .ok ys) : ys = (xs.filter q).reverse ++ kept := by
  induction xs generalizing kept with
  | nil => exact (Except.ok.inj filtered).symm
  | cons x rest ih =>
      obtain ⟨keeps, told, filtered⟩ := bind_eq_ok.mp filtered
      rw [ih filtered, List.filter_cons, tells x keeps told]
      cases keeps <;> simp

theorem filterM_ok {p : α → Except Stop Bool} {q : α → Bool}
    (tells : ∀ x keeps, p x = .ok keeps → q x = keeps) {xs ys : List α}
    (filtered : xs.filterM p = .ok ys) : xs.filter q = ys := by
  obtain ⟨kept, collected, same⟩ := bind_eq_ok.mp filtered
  rw [← Except.ok.inj same, filterAuxM_ok tells collected, List.append_nil, List.reverse_reverse]

end Stop

end Evaluation

end SchemaAudit

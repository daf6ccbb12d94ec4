import SchemaAudit.Audit
import SchemaAudit.Proofs.Keys
import SchemaAudit.Proofs.StopSite
import SchemaAudit.Proofs.Tokens

/-! # Where findings point to

The tokens that hops and rules add to a pointer lead along the same way through the document
that the walk took. So the pointer of a finding can be followed from the root, and what it leads
to breaks the rule that the finding names.
-/

namespace SchemaAudit

namespace Value

theorem child?_element {s : Store} {v w : Value} {vs : List Value} {i : Nat}
    (array : v.elements? s = some vs) (member : vs[i]? = some w) :
    v.child? s (toString i) = some w := by
  cases v with
  | list a | tuple a =>
      obtain rfl := Option.some.inj array
      rw [child?, Text.decimal?_toString]
      exact member
  | _ => cases array

theorem child?_entry {s : Store} {v w : Value} {es : Entries} {name : String}
    (keys : s.KeysDistinct) (object : v.entries? s = some es) (member : (name, w) ∈ es) :
    v.child? s name = some w := by
  obtain ⟨addr, rfl, rfl⟩ := entries?_eq_some.mp object
  exact Entries.lookup_of_mem (keys.entries addr) member

/-- The key of an attribute leads to its value, and from there it goes on. -/
theorem descendant?_attribute {s : Store} {addr : Nat} {a : Attribute} {v : Value}
    (found : s.attribute? addr a = some v) (tokens : List String) :
    (Value.mapping addr).descendant? s (a.key :: tokens) = v.descendant? s tokens := by
  have child : (Value.mapping addr).child? s a.key = some v := found
  rw [descendant?, child, Option.bind_some]

theorem descendant?_singleton (s : Store) (v : Value) (token : String) :
    v.descendant? s [token] = v.child? s token := by
  rw [descendant?]
  cases v.child? s token <;> rfl

end Value

namespace Store

variable {s : Store} {addr : Nat}

/-- The tokens of a hop lead to what is held at its end. -/
theorem Holds.resolves (keys : s.KeysDistinct) {hop : Hop} {v : Value}
    (held : s.Holds addr hop v) :
    (Value.mapping addr).descendant? s hop.tokens = some v := by
  cases held with
  | alternative _ found array member | item found array member =>
      rw [Hop.tokens, Value.descendant?_attribute found, Value.descendant?_singleton]
      exact Value.child?_element array member
  | named _ found object member =>
      rw [Hop.tokens, Value.descendant?_attribute found, Value.descendant?_singleton]
      exact Value.child?_entry keys object member
  | additional _ found _ | allItems found => exact Value.descendant?_attribute found []

/-- The tokens of a broken rule lead to the value at fault. -/
theorem Breaks.resolves {r : Rule} {tokens : List String} {v : Value}
    (broken : s.Breaks addr r tokens v) :
    (Value.mapping addr).descendant? s tokens = some v := by
  cases broken with
  | noAlternative _ found array member _ =>
      rw [Value.descendant?_attribute found, Value.descendant?_singleton]
      exact Value.child?_element array member
  | mistyped found _ | tooShort _ found _ _ | zeroDivisor found _ =>
      exact Value.descendant?_attribute found []

end Store

/-- The tokens of a trail lead to its end. -/
theorem Trail.resolves {s : Store} (keys : s.KeysDistinct) {v w : Value} {legs : List Leg}
    (trail : Trail s v legs w) : v.descendant? s (Leg.tokens legs) = some w := by
  induction trail with
  | stay => rfl
  | leg first _ ih =>
      rw [Leg.tokens_cons, Value.descendant?_append, first.resolves keys, Option.bind_some]
      exact ih

namespace Document

/-- How a document breaks a rule at the end of a row of tokens: as a whole, at a mapping that
    the schema positions lead to, or by what they lead to itself. -/
inductive Breaks (d : Document) (limit : Nat) : Rule → List String → Value → Prop where
  | missing (nothing : d.root = .null) : Breaks d limit .schemaMissing [] .null
  | notASchema (present : d.root ≠ .null) (other : d.root.kind ≠ .object) :
      Breaks d limit .invalidRootType [] d.root
  | untyped {addr : Nat} (root : d.root = .mapping addr)
      (nothing : d.store.attribute? addr .type = none) :
      Breaks d limit .missingType [] (.mapping addr)
  | ofOtherType {addr : Nat} {v : Value} (root : d.root = .mapping addr)
      (found : d.store.attribute? addr .type = some v)
      (other : v ≠ .text "object" ∧ v ≠ .text "array") :
      Breaks d limit .invalidRootTypeValue [Attribute.type.key] v
  | notANode {legs : List Leg} {v : Value} (trail : Trail d.store d.root legs v)
      (other : v.kind ≠ .object) : Breaks d limit .invalidNodeType (Leg.tokens legs) v
  | inAttribute {legs : List Leg} {addr : Nat} {r : Rule} {tokens : List String} {v : Value}
      (trail : Trail d.store d.root legs (.mapping addr))
      (broken : d.store.Breaks addr r tokens v) : Breaks d limit r (Leg.tokens legs ++ tokens) v
  /-- The node that declares a default cannot be used to judge it, or finds it at fault. -/
  | unfitDefault {legs : List Leg} {addr : Nat} {v : Value}
      (trail : Trail d.store d.root legs (.mapping addr))
      (found : d.store.attribute? addr .default = some v)
      (refused : (∃ reason, judge d.store v addr = .unusable reason) ∨
        ∃ path message, judge d.store v addr = .violated path message) :
      Breaks d limit .invalidDefault (Leg.tokens legs ++ [Attribute.default.key]) v
  /-- A mapping that has been left before on the way. -/
  | cyclic {before around : List Leg} {addr : Nat} (back : around ≠ [])
      (trail : Trail d.store d.root before (.mapping addr))
      (circle : Trail d.store (.mapping addr) around (.mapping addr)) :
      Breaks d limit .cyclicSchema (Leg.tokens (before ++ around)) (.mapping addr)
  | tooDeep {legs : List Leg} {addr : Nat}
      (trail : Trail d.store d.root legs (.mapping addr)) (deep : limit ≤ legs.length) :
      Breaks d limit .schemaTooDeep (Leg.tokens legs) (.mapping addr)

variable {d : Document} {limit : Nat}

theorem Breaks.resolves (keys : d.store.KeysDistinct) {r : Rule} {tokens : List String}
    {v : Value} (broken : d.Breaks limit r tokens v) :
    d.root.descendant? d.store tokens = some v := by
  cases broken with
  | missing nothing => rw [nothing]; rfl
  | notASchema => rfl
  | untyped root _ => rw [root]; rfl
  | ofOtherType root found _ =>
      rw [root]
      exact Value.descendant?_attribute found []
  | notANode trail _ | tooDeep trail _ => exact trail.resolves keys
  | inAttribute trail broken =>
      rw [Value.descendant?_append, trail.resolves keys]
      exact broken.resolves
  | unfitDefault trail found _ =>
      rw [Value.descendant?_append, trail.resolves keys]
      exact Value.descendant?_attribute found []
  | cyclic _ trail circle => exact (trail.append circle).resolves keys

theorem rootFinding?_breaks {f : Finding} (told : rootFinding? d = some f) :
    ∃ tokens v, f.pointer = some (Pointer.extend "" tokens) ∧ d.Breaks limit f.rule tokens v := by
  obtain ⟨s, root⟩ := d
  cases root with
  | null =>
      obtain rfl := Option.some.inj told
      exact ⟨[], _, rfl, .missing rfl⟩
  | mapping addr =>
      rw [rootFinding?] at told
      cases found : (s.entries addr).lookup Attribute.type.key with
      | none =>
          simp only [found, Option.some.injEq] at told
          subst told
          exact ⟨[], _, rfl, .untyped rfl found⟩
      | some v =>
          have other : v ≠ .text "object" ∧ v ≠ .text "array" := by
            constructor <;> rintro rfl <;> simp [found, rootTypes] at told
          have broken : Breaks ⟨s, .mapping addr⟩ limit .invalidRootTypeValue ["type"] v :=
            .ofOtherType rfl found other
          refine ⟨["type"], v, ?_⟩
          simp only [found] at told
          split at told
          · split at told
            · cases told
            · obtain rfl := Option.some.inj told
              exact ⟨rfl, broken⟩
          · obtain rfl := Option.some.inj told
            exact ⟨rfl, broken⟩
  | _ =>
      obtain rfl := Option.some.inj told
      refine ⟨[], _, rfl, .notASchema (by simp) ?_⟩
      simp [Value.kind_eq_object]

/-- What gives rise to a finding during the walk breaks the rule of the finding. -/
theorem breaks_of_complains {legs : List Leg} {v : Value} {f : Finding}
    (trail : Trail d.store d.root legs v)
    (complains : d.store.Complains (judge d.store) ((Place.root limit).after legs) v f) :
    ∃ tokens w, f.pointer = some (Pointer.extend "" tokens) ∧ d.Breaks limit f.rule tokens w := by
  have pointer : ((Place.root limit).after legs).pointer = Pointer.extend "" (Leg.tokens legs) :=
    Place.pointer_after _ legs
  have inner : ∀ tokens, ((Place.root limit).after legs).pointerTo tokens =
      Pointer.extend "" (Leg.tokens legs ++ tokens) := by
    intro tokens
    rw [Place.pointerTo, pointer, Pointer.extend_append]
  cases complains with
  | notANode other => exact ⟨_, _, congrArg some pointer, .notANode trail other⟩
  | cyclic inside =>
      rw [Place.ancestors_after_root, List.mem_reverse] at inside
      obtain ⟨before, around, rfl, back, there, circle⟩ := trail.through inside
      exact ⟨_, _, congrArg some pointer, .cyclic back there circle⟩
  | tooDeep _ deep =>
      rw [Place.limit_after, Place.depth_after] at deep
      exact ⟨_, _, congrArg some pointer, .tooDeep trail (by simpa [Place.root] using deep)⟩
  | broken _ _ told =>
      obtain ⟨r, tokens, w, message, broken, rfl⟩ := Node.plan_grounded told
      exact ⟨_, _, congrArg some (inner tokens), .inAttribute trail broken⟩
  | unfit _ _ found verdict =>
      refine ⟨_, _, congrArg some (inner _), .unfitDefault trail found ?_⟩
      rcases verdict with unusable | ⟨path, message, violated, _⟩
      · exact .inl ⟨_, unusable⟩
      · exact .inr ⟨path, message, violated⟩

/-- The pointer of a finding is made of the tokens of what breaks the finding's rule. -/
theorem audit_rejected_breaks {f : Finding} (rejected : (d.audit limit).outcome = .rejected f) :
    ∃ tokens v, f.pointer = some (Pointer.extend "" tokens) ∧ d.Breaks limit f.rule tokens v := by
  rw [audit, outcome_auditWith] at rejected
  cases told : rootFinding? d with
  | some g =>
      simp only [told, Outcome.rejected.injEq] at rejected
      subst rejected
      exact rootFinding?_breaks told
  | none =>
      simp only [told] at rejected
      obtain ⟨legs, v, g, trail, _, complains, rfl⟩ :=
        Store.check_rejected (.root d.store limit) d.root rejected
      rw [Place.pointer_wrapAlong, Place.rule_wrapAlong]
      exact breaks_of_complains trail complains

/-- A finding points to a value of the document, and that value breaks the rule that the finding
    names. -/
theorem audit_rejected_located {f : Finding} (keys : d.store.KeysDistinct)
    (rejected : (d.audit limit).outcome = .rejected f) :
    ∃ pointer tokens v, f.pointer = some pointer ∧ Pointer.tokens? pointer = some tokens ∧
      d.resolve? pointer = some v ∧ d.Breaks limit f.rule tokens v := by
  obtain ⟨tokens, v, pointer, broken⟩ := audit_rejected_breaks rejected
  have read : Pointer.tokens? (Pointer.extend "" tokens) = some tokens :=
    Pointer.tokens?_extend_empty tokens
  refine ⟨_, tokens, v, pointer, read, ?_, broken⟩
  rw [resolve?, read, Option.bind_some]
  exact broken.resolves keys

/-- A property with a slash and a tilde in its name, whose type is a union of one alternative. -/
def oddlyNamed : Document where
  store :=
    { lists := #[[.text "string"]]
      maps := #[[("type", .text "object"), ("properties", .mapping 1)], [("a/b~", .mapping 2)],
        [("type", .list 0)]] }
  root := .mapping 0

theorem audit_rejected_located_oddlyNamed :
    (oddlyNamed.audit 100).outcome = .rejected (.leaf .unionTooShort
      "Schema property 'a/b~': 'type' attribute union length is 1 when it should be at least 2"
      (some "/properties/a~1b~0/type")) ∧
    ∃ pointer tokens v, some "/properties/a~1b~0/type" = some pointer ∧
      Pointer.tokens? pointer = some tokens ∧ oddlyNamed.resolve? pointer = some v ∧
      oddlyNamed.Breaks 100 .unionTooShort tokens v := by
  refine ⟨?rejected, audit_rejected_located (by decide +kernel) ?rejected⟩
  decide +kernel

end Document

end SchemaAudit

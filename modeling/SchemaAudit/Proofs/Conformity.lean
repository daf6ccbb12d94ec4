import SchemaAudit.Proofs.Position
import SchemaAudit.Schema.Plan

/-! # What attributes may hold

The rules on the attributes of one mapping, said by kinds and not by the findings that tell of
them, and the steps of checking a node measured against them: a finding among the steps tells
of a rule that is broken, and without findings the steps visit exactly what the mapping holds.
-/

namespace SchemaAudit

namespace Value

theorem kind_eq_object {v : Value} : v.kind = .object ↔ ∃ addr, v = .mapping addr := by
  cases v with
  | float x => simp only [kind]; split <;> simp
  | _ => simp [kind]

theorem kind_eq_string {v : Value} : v.kind = .string ↔ ∃ t, v = .text t := by
  cases v with
  | float x => simp only [kind]; split <;> simp
  | _ => simp [kind]

theorem kind_eq_array {v : Value} (s : Store) : v.kind = .array ↔ ∃ vs, v.elements? s = some vs := by
  cases v with
  | float x => simp only [kind]; split <;> simp [elements?]
  | _ => simp [kind, elements?]

theorem elements?_eq_none {v : Value} {s : Store} (other : v.kind ≠ .array) :
    v.elements? s = none := by
  cases v with
  | list | tuple => exact absurd rfl other
  | _ => rfl

theorem entries?_eq_none {v : Value} {s : Store} (other : v.kind ≠ .object) :
    v.entries? s = none := by
  cases v with
  | mapping => exact absurd rfl other
  | _ => rfl

theorem entries?_eq_some {v : Value} {s : Store} {es : Entries} :
    v.entries? s = some es ↔ ∃ addr, v = .mapping addr ∧ s.entries addr = es := by
  cases v <;> simp [entries?]

/-- Whether a value is a number equal to zero, in whatever way the zero is written. -/
def EqualsZero (v : Value) : Prop := ∃ x, v.magnitude? = some x ∧ x.equal (.ofInt 0) = true

theorem isZero_iff {v : Value} : v.isZero = true ↔ v.EqualsZero := by
  cases v with
  | int n => simp [isZero, EqualsZero, magnitude?, Magnitude.equal, Magnitude.ofInt, Magnitude.compare?]
  | float x =>
      cases x with
      | infinite negative =>
          cases negative <;> simp [isZero, EqualsZero, magnitude?, Magnitude.equal,
            Magnitude.ofInt, Magnitude.compare?, Magnitude.ofBinary64, Binary64.isZero]
      | finite negative m e =>
          have scaled : ∀ n : Int, n * Binary64.twoTo e.toNat = 0 ↔ n = 0 := fun n => by
            rw [Int.mul_eq_zero, or_iff_left (Binary64.twoTo_ne_zero e.toNat)]
          simp only [isZero, EqualsZero, magnitude?, Magnitude.ofBinary64, Binary64.isZero,
            Binary64.fraction]
          split <;> cases negative <;>
            simp [Magnitude.equal, Magnitude.ofInt, Magnitude.compare?, scaled]
  | _ => simp [isZero, EqualsZero, magnitude?, Magnitude.equal, Magnitude.compare?]

end Value

theorem TypeName.admits_kind {k : Kind} {v : Value} :
    (TypeName.kind k).admits v = true ↔ v.kind = k ∨ k = .number ∧ v.kind = .integer := by
  cases k <;> simp [admits]

namespace Attribute

/-- The values that an attribute may have, whatever they hold inside. -/
def Allows : Attribute → Value → Prop
  | .type, v | .disallow, v => v.kind = .string ∨ v.kind = .array
  | .properties, v | .patternProperties, v => v.kind = .object
  | .additionalProperties, v | .additionalItems, v => v = .bool false ∨ v.kind = .object
  | .items, v => v.kind = .object ∨ v.kind = .array
  | .required, v | .uniqueItems, v | .exclusiveMinimum, v | .exclusiveMaximum, v =>
    v.kind = .boolean
  | .enum, v => v.kind = .array
  | .minItems, v | .maxItems, v | .minLength, v | .maxLength, v => v.kind = .integer
  | .minimum, v | .maximum, v | .divisibleBy, v => v.kind = .number ∨ v.kind = .integer
  | .pattern, v => v.kind = .string
  | .default, _ => True

/-- The type of an attribute that holds no schemas and has one type only. -/
def plainType? : Attribute → Option TypeName
  | .required | .uniqueItems | .exclusiveMinimum | .exclusiveMaximum => some (.kind .boolean)
  | .enum => some (.kind .array)
  | .minItems | .maxItems | .minLength | .maxLength => some (.kind .integer)
  | .minimum | .maximum | .divisibleBy => some (.kind .number)
  | .pattern => some (.kind .string)
  | _ => none

theorem allows_iff_admits {a : Attribute} {t : TypeName} (plain : a.plainType? = some t)
    (v : Value) : a.Allows v ↔ t.admits v = true := by
  cases a <;> simp only [plainType?, Option.some.injEq, reduceCtorEq] at plain <;> subst plain <;>
    simp [Allows, TypeName.admits_kind]

end Attribute

namespace Store

/-- The rule of an attribute. Beyond the kind of its value it asks of a union that it has two
    alternatives or more, all of them texts or mappings, and of a divisor that it is not zero. -/
def Permits (s : Store) (a : Attribute) (v : Value) : Prop :=
  a.Allows v ∧
    match a with
    | .type | .disallow => ∀ vs, v.elements? s = some vs →
        2 ≤ vs.length ∧ ∀ w ∈ vs, w.kind = .string ∨ w.kind = .object
    | .divisibleBy => ¬ v.EqualsZero
    | _ => True

/-- The ways in which an attribute of the mapping at an address breaks its rule, each with the
    tokens that lead from the mapping to the value at fault. -/
inductive Breaks (s : Store) (addr : Nat) : Rule → List String → Value → Prop where
  | mistyped {a : Attribute} {v : Value} (found : s.attribute? addr a = some v)
      (wrong : ¬ a.Allows v) : Breaks s addr .invalidAttributeType [a.key] v
  | tooShort {a : Attribute} {v : Value} {vs : List Value} (isUnion : a = .type ∨ a = .disallow)
      (found : s.attribute? addr a = some v) (array : v.elements? s = some vs)
      (short : vs.length < 2) : Breaks s addr .unionTooShort [a.key] v
  | noAlternative {a : Attribute} {v w : Value} {vs : List Value} {i : Nat}
      (isUnion : a = .type ∨ a = .disallow)
      (found : s.attribute? addr a = some v) (array : v.elements? s = some vs)
      (member : vs[i]? = some w) (neither : ¬ (w.kind = .string ∨ w.kind = .object)) :
      Breaks s addr .invalidUnionElementType [a.key, toString i] w
  | zeroDivisor {v : Value} (found : s.attribute? addr .divisibleBy = some v)
      (zero : v.EqualsZero) : Breaks s addr .divisorZero [Attribute.divisibleBy.key] v

theorem Breaks.not_permits {s : Store} {addr : Nat} {r : Rule} {tokens : List String} {v : Value}
    (broken : s.Breaks addr r tokens v) :
    ∃ a u, s.attribute? addr a = some u ∧ ¬ s.Permits a u := by
  cases broken with
  | mistyped found wrong => exact ⟨_, _, found, fun permitted => wrong permitted.1⟩
  | tooShort isUnion found array short =>
      refine ⟨_, _, found, fun permitted => ?_⟩
      rcases isUnion with rfl | rfl <;> exact absurd (permitted.2 _ array).1 (by omega)
  | noAlternative isUnion found array member neither =>
      refine ⟨_, _, found, fun permitted => neither ?_⟩
      have among := List.mem_of_getElem? member
      rcases isUnion with rfl | rfl <;> exact (permitted.2 _ array).2 _ among
  | zeroDivisor found zero => exact ⟨_, _, found, fun permitted => permitted.2 zero⟩

abbrev node (s : Store) (addr : Nat) : Node := Node.ofEntries (s.entries addr)

end Store

namespace Node

private theorem lookup_slots (f : Attribute → Option Value) (a : Attribute)
    (as : List Attribute) :
    (as.filterMap fun b => (f b).map (b, ·)).lookup a = if a ∈ as then f a else none := by
  induction as with
  | nil => rfl
  | cons b as ih =>
      rw [List.filterMap_cons]
      by_cases same : a = b
      · subst same
        cases found : f a <;> simp [found, ih]
      · have other : (a == b) = false := by simpa using same
        cases f b <;> simp [ih, same, other, List.lookup_cons]

theorem get?_ofEntries (es : Entries) (a : Attribute) :
    (ofEntries es).get? a = es.lookup a.key := by
  simp only [get?, ofEntries, lookup_slots, Attribute.mem_all, if_true]

theorem get?_node (s : Store) (addr : Nat) (a : Attribute) :
    (s.node addr).get? a = s.attribute? addr a :=
  get?_ofEntries _ a

end Node

end SchemaAudit

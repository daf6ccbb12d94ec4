import SchemaAudit.Instance.Unions
import SchemaAudit.Proofs.Pairing

/-! # Two classifications of values

Rules tell values by their kinds. Evaluations tell them by tests, one for each name of a type, of
which only those of integers, arrays and objects go by the kinds as well. The others look at how a
value is written, and yet no value is of a type by the one and not by the other.
-/

namespace SchemaAudit

/-- The names of types. -/
def typeNames : List String :=
  ["null", "boolean", "string", "number", "integer", "array", "object", "any"]

namespace Evaluation

/-! ## Tests and kinds -/

/-- The tests that are not replaced tell the values of their kinds. A float is a number, whether it
    is whole or not. -/
theorem standardTests_eq_admits (v : Value) :
    isNull v = (TypeName.kind .null).admits v ∧
    isBoolean v = (TypeName.kind .boolean).admits v ∧
    isText v = (TypeName.kind .string).admits v ∧
    isNumber v = (TypeName.kind .number).admits v := by
  cases v with
  | float x =>
      simp only [isNull, isBoolean, isText, isNumber, TypeName.admits, Value.kind]
      split <;> exact ⟨rfl, rfl, rfl, rfl⟩
  | _ => exact ⟨rfl, rfl, rfl, rfl⟩

/-! ## Tests by name -/

variable {name : String} {test : Value → Bool} {v w : Value}

theorem typeTest?_isSome : (typeTest? name).isSome = true ↔ name ∈ typeNames := by
  constructor
  · intro tested
    obtain ⟨test, found⟩ := Option.isSome_iff_exists.mp tested
    obtain ⟨before, after, listed, -⟩ := List.lookup_eq_some_iff.mp found
    have all : ∀ entry ∈ kindTests ++ standardTests, entry.1 ∈ typeNames := by decide
    exact all (name, test) (listed ▸ by simp)
  · have all : ∀ name ∈ typeNames, (typeTest? name).isSome = true := by decide
    exact all name

/-- Whatever name a test has, it admits the values of the type of that name. -/
theorem typeTest?_admits (tested : typeTest? name = some test) :
    ∃ t, TypeName.ofName? name = some t ∧ ∀ v, test v = t.admits v := by
  have known : name ∈ typeNames := typeTest?_isSome.mp (tested ▸ rfl)
  simp only [typeNames, List.mem_cons, List.not_mem_nil, or_false] at known
  rcases known with rfl | rfl | rfl | rfl | rfl | rfl | rfl | rfl
  all_goals cases tested
  · exact ⟨_, rfl, fun v => (standardTests_eq_admits v).1⟩
  · exact ⟨_, rfl, fun v => (standardTests_eq_admits v).2.1⟩
  · exact ⟨_, rfl, fun v => (standardTests_eq_admits v).2.2.1⟩
  · exact ⟨_, rfl, fun v => (standardTests_eq_admits v).2.2.2⟩
  · exact ⟨_, rfl, fun _ => rfl⟩
  · exact ⟨_, rfl, fun _ => rfl⟩
  · exact ⟨_, rfl, fun _ => rfl⟩
  · exact ⟨_, rfl, fun _ => rfl⟩

theorem typeTest?_unknown (unknown : name ∉ typeNames) : typeTest? name = none := by
  cases tested : typeTest? name with
  | none => rfl
  | some test => exact absurd (typeTest?_isSome.mp (tested ▸ rfl)) unknown

/-- Tests do not tell values of one kind apart. -/
theorem typeTest?_of_kind (tested : typeTest? name = some test) (same : v.kind = w.kind) :
    test v = test w := by
  obtain ⟨t, -, agrees⟩ := typeTest?_admits tested
  rw [agrees, agrees, t.admits_of_kind same]

end Evaluation

end SchemaAudit

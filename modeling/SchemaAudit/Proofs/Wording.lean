import SchemaAudit.Proofs.Steps
import SchemaAudit.Schema.Walk

/-! # What findings say of their place

A finding on a node speaks of the place of the node in two spots only: its sentence starts with
the label of the place, and its pointer goes on from the pointer of the place. All else is a
matter of the node. So the plan of a node is one list of tasks for all places, each told from
the place where the node is checked.
-/

namespace SchemaAudit

namespace Place

/-- A finding told from a place: its label and the rest of the sentence, and a pointer that goes
    on from the place. -/
def tell (p : Place) (r : Rule) (rest : String) (tokens : List String) : Finding :=
  .leaf r (p.label ++ rest) (some (p.pointerTo tokens))

theorem mistyped_eq (p : Place) (a : Attribute) (v : Value) (expected : String) :
    p.mistyped a v expected = p.tell .invalidAttributeType
      (": '" ++ a.key ++ "' attribute is " ++ v.kindPhrase ++ " when it should be " ++ expected)
      [a.key] := by
  simp only [mistyped, tell, String.append_assoc]

theorem noAlternative_eq (p : Place) (a : Attribute) (index : Nat) (v : Value) :
    p.noAlternative a index v = p.tell .invalidUnionElementType
      (": '" ++ a.key ++ "' attribute union element " ++ toString index ++ " is " ++ v.kindPhrase
        ++ " when it should be either an object (schema) or a string")
      [a.key, toString index] := by
  simp only [noAlternative, tell, String.append_assoc]

theorem shortUnion_eq (p : Place) (a : Attribute) (length : Nat) :
    p.shortUnion a length = p.tell .unionTooShort
      (": '" ++ a.key ++ "' attribute union length is " ++ toString length
        ++ " when it should be at least 2")
      [a.key] := by
  simp only [shortUnion, tell, String.append_assoc]

theorem unfitDefault_eq (p : Place) (complaint : String) :
    p.unfitDefault complaint = p.tell .invalidDefault
      (": 'default' attribute value is not valid according to the schema: " ++ complaint)
      [Attribute.default.key] := by
  simp only [unfitDefault, tell, String.append_assoc]

theorem notANode_eq (p : Place) (v : Value) :
    p.notANode v = p.tell .invalidNodeType (" is " ++ v.kindPhrase ++ " when it should be an object")
      [] := by
  simp only [notANode, tell, pointerTo, Pointer.extend_nil, String.append_assoc]

end Place

/-- A step of checking a node, not yet told from any place. -/
inductive Task where
  | tell (rule : Rule) (rest : String) (tokens : List String)
  | visit (hop : Hop) (v : Value)

/-- The step of a task at a place. -/
def Task.stepAt (p : Place) : Task → Step
  | .tell r rest tokens => .found (p.tell r rest tokens)
  | .visit hop v => .visit hop v

/-- Steps that are the same tasks at all places. -/
def Uniform (steps : Place → List Step) : Prop :=
  ∃ tasks : List Task, ∀ p, steps p = tasks.map (Task.stepAt p)

namespace Uniform

theorem nil : Uniform fun _ => [] := ⟨[], fun _ => rfl⟩

theorem visit (hop : Hop) (v : Value) : Uniform fun _ => [.visit hop v] :=
  ⟨[.visit hop v], fun _ => rfl⟩

theorem tell {f : Place → Finding} {r : Rule} {rest : String} {tokens : List String}
    (told : ∀ p, f p = p.tell r rest tokens) : Uniform fun p => [.found (f p)] :=
  ⟨[.tell r rest tokens], fun p => congrArg (fun f => [Step.found f]) (told p)⟩

theorem append {steps more : Place → List Step} (first : Uniform steps) (second : Uniform more) :
    Uniform fun p => steps p ++ more p := by
  obtain ⟨tasks, same⟩ := first
  obtain ⟨others, same'⟩ := second
  exact ⟨tasks ++ others, fun p => by simp only [same, same', List.map_append]⟩

theorem flatMap {α : Type} {f : α → Place → List Step} (xs : List α)
    (each : ∀ x ∈ xs, Uniform (f x)) : Uniform fun p => xs.flatMap fun x => f x p := by
  induction xs with
  | nil => exact nil
  | cons x rest ih =>
      have first := each x List.mem_cons_self
      simpa only [List.flatMap_cons] using
        first.append (ih fun y later => each y (List.mem_cons_of_mem _ later))

/-- Visits do not speak of their place at all. -/
theorem visits {α : Type} (hop : α → Hop) (v : α → Value) (xs : List α) :
    Uniform fun _ => xs.map fun x => .visit (hop x) (v x) :=
  ⟨xs.map fun x => .visit (hop x) (v x), fun p => by rw [List.map_map]; rfl⟩

end Uniform

namespace Node

variable (s : Store) (n : Node)

theorem expect_uniform (a : Attribute) (t : TypeName) :
    Uniform fun p => (n.expect p a t).map .found := by
  unfold expect
  cases n.get? a with
  | none => exact .nil
  | some v =>
      cases admitted : t.admits v with
      | true => simpa only [admitted] using .nil
      | false => simpa [admitted] using .tell fun p => p.mistyped_eq a v t.phrase

theorem divisibleByFindings_uniform :
    Uniform fun p => (n.divisibleByFindings p).map .found := by
  have divisor : Uniform fun p => (n.divisorFindings p).map .found := by
    unfold divisorFindings
    cases n.get? .divisibleBy with
    | none => exact .nil
    | some v =>
        cases zero : v.isZero with
        | true => simpa [zero] using .tell fun p => rfl
        | false => simpa [zero] using .nil
  simp only [divisibleByFindings, List.map_append]
  refine (n.expect_uniform .divisibleBy (.kind .number)).append ?_
  cases n.numbersTyped with
  | true => exact divisor
  | false => exact .nil

theorem alternativeStep_uniform (a : Attribute) (i : Nat) (w : Value) :
    Uniform fun p => alternativeStep p a i w := by
  unfold alternativeStep
  cases Alternative.ofValue? w with
  | none => exact .tell fun p => p.noAlternative_eq a i w
  | some alternative =>
      cases alternative with
      | name => exact .nil
      | schema => exact .visit _ _

theorem unionSteps_uniform (a : Attribute) : Uniform fun p => n.unionSteps s p a := by
  unfold unionSteps
  split
  · exact .nil
  · exact .nil
  · next v _ _ =>
      split
      · exact .tell fun p => p.mistyped_eq a v _
      · next vs _ =>
          by_cases short : vs.length < 2
          · simpa only [if_pos short] using .tell fun p => p.shortUnion_eq a vs.length
          · simpa only [if_neg short] using
              .flatMap vs.zipIdx fun e _ => alternativeStep_uniform a e.2 e.1

theorem schemaMapSteps_uniform (a : Attribute) : Uniform fun p => n.schemaMapSteps s p a := by
  unfold schemaMapSteps
  split
  · exact .nil
  · next v _ =>
      split
      · exact .tell fun p => p.mistyped_eq a v _
      · next es _ => exact .visits (fun e => .entry a e.1) Prod.snd es

theorem schemaOrFalseSteps_uniform (a : Attribute) :
    Uniform fun p => n.schemaOrFalseSteps p a := by
  unfold schemaOrFalseSteps
  split
  · exact .nil
  · exact .nil
  · exact .visit _ _
  · next v _ _ _ => exact .tell fun p => p.mistyped_eq a v _

theorem itemsSteps_uniform : Uniform fun p => n.itemsSteps s p := by
  unfold itemsSteps
  split
  · exact .nil
  · exact .visit _ _
  · next v _ _ =>
      split
      · exact .tell fun p => p.mistyped_eq .items v _
      · next vs _ =>
          exact .visits (fun e => .element .items e.2) Prod.fst vs.zipIdx

theorem stepsAt_uniform (a : Attribute) : Uniform fun p => n.stepsAt s p a := by
  cases a with
  | type | disallow => exact n.unionSteps_uniform s _
  | properties | patternProperties => exact n.schemaMapSteps_uniform s _
  | additionalProperties | additionalItems => exact n.schemaOrFalseSteps_uniform _
  | items => exact n.itemsSteps_uniform s
  | divisibleBy => exact n.divisibleByFindings_uniform
  | default => exact .nil
  | _ => exact n.expect_uniform _ _

/-- The plan of a node is the same tasks at all places. -/
theorem plan_tasks : ∃ tasks : List Task, ∀ p, n.plan s p = tasks.map (Task.stepAt p) := by
  simp only [plan_eq]
  exact Uniform.flatMap _ fun a _ => n.stepsAt_uniform s a

/-- The plan of a node is the same at places that are told alike. -/
theorem plan_congr {p q : Place} (alike : p.tell = q.tell) : n.plan s p = n.plan s q := by
  obtain ⟨tasks, plan⟩ := n.plan_tasks s
  rw [plan, plan]
  refine List.map_congr_left fun task _ => ?_
  cases task with
  | tell => rw [Task.stepAt, Task.stepAt, alike]
  | visit => rfl

end Node

end SchemaAudit

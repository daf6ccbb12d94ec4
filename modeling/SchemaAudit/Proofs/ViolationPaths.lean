import SchemaAudit.Proofs.Defaults
import SchemaAudit.Proofs.KeywordStops
import SchemaAudit.Proofs.Location
import SchemaAudit.Proofs.MostSpecific

/-! # Where violations are

The tokens in the path of a violation are put in front of each other on the way out of the schemas
that were evaluated. They lead from the value that was judged to the part that is at fault, or to
the mapping that lacks a property, with the name of the property last.
-/

namespace SchemaAudit

/-- A violation is about a part of the value, or about a property that a part lacks. -/
inductive Violation.Located (s : Store) (inst : Value) (v : Violation) : Prop where
  | part {w : Value} (there : inst.descendant? s v.path = some w)
  | missing {tokens : List String} {name : String} {addr : Nat} (path : v.path = tokens ++ [name])
      (there : inst.descendant? s tokens = some (.mapping addr))
      (lacks : (s.entries addr).lookup name = none)
      (told : v.message = Text.quoted name ++ " is a required property")

/-- Behind a token a violation of the part is one of the whole. -/
theorem Violation.Located.below {s : Store} {inst part : Value} {token : String} {v : Violation}
    (child : inst.child? s token = some part) (located : v.Located s part) :
    Violation.Located s inst { v with path := token :: v.path } := by
  have onward : ∀ tokens, inst.descendant? s (token :: tokens) = part.descendant? s tokens := by
    intro tokens
    rw [Value.descendant?, child, Option.bind_some]
  cases located with
  | part there => exact .part ((onward v.path).trans there)
  | @missing tokens _ _ path there lacks told =>
      have longer : token :: v.path = (token :: tokens) ++ [_] := congrArg (token :: ·) path
      exact .missing longer ((onward tokens).trans there) lacks told

namespace Evaluation

/-- All violations of an evaluation are located in the value. -/
def Locates (s : Store) (inst : Value) (e : Evaluation) : Prop :=
  ∀ found, e = .ok found → ∀ v ∈ found, v.Located s inst

namespace Locates

variable {s : Store} {inst part : Value} {e : Evaluation} {token : String}

theorem clean : Locates s inst clean := by
  intro found same v member
  obtain rfl := Except.ok.inj same
  cases member

theorem stopped (stop : Stop) : Locates s inst (.error stop) := by
  rintro found ⟨⟩

theorem violation (message : String) : Locates s inst (violation message) := by
  intro found same v member
  obtain rfl := Except.ok.inj same
  obtain rfl := List.mem_singleton.mp member
  exact .part rfl

theorem violationIf (failed : Bool) (message : String) :
    Locates s inst (violationIf failed message) := by
  cases failed with
  | false => exact clean
  | true => exact violation message

theorem bind {α : Type} {x : Except Stop α} {f : α → Evaluation}
    (onward : ∀ a, x = .ok a → Locates s inst (f a)) : Locates s inst (x >>= f) := by
  intro found ended
  obtain ⟨a, first, rest⟩ := bind_eq_ok.mp ended
  exact onward a first found rest

theorem gather {α : Type} {evaluate : α → Evaluation} {xs : List α}
    (each : ∀ x ∈ xs, Locates s inst (evaluate x)) : Locates s inst (gather evaluate xs) := by
  induction xs with
  | nil => exact clean
  | cons x rest ih =>
      intro found ended v member
      rw [gather_cons] at ended
      obtain ⟨here, first, ended⟩ := bind_eq_ok.mp ended
      cases later : Evaluation.gather evaluate rest with
      | error stop =>
          rw [later] at ended
          cases ended
      | ok more =>
          rw [later] at ended
          obtain rfl := Except.ok.inj ended
          rcases List.mem_append.mp member with among | among
          · exact each x List.mem_cons_self here first v among
          · exact ih (fun y after => each y (List.mem_cons_of_mem x after)) more later v among

theorem below (child : inst.child? s token = some part) (located : Locates s part e) :
    Locates s inst (below token e) := by
  intro found ended v member
  cases inner : e with
  | error stop =>
      rw [inner] at ended
      cases ended
  | ok others =>
      rw [inner] at ended
      obtain rfl := Except.ok.inj ended
      obtain ⟨w, among, rfl⟩ := List.mem_map.mp member
      exact (located others inner w among).below child

end Locates

/-! ## Keywords -/

section Keywords

variable {s : Store} {descend : Descent} {inst : Value}

/-- What is asked of the evaluation of schemas inside: it tells where its violations are, and that
    nothing is allowed it tells of whatever value it is given. -/
structure Locating (s : Store) (descend : Descent) : Prop where
  part : ∀ schema part, Locates s part (descend schema part)
  falsity : ∀ inst part, Locates s inst (descend (.bool false) part)

theorem Locating.descendTo (locating : Locating s descend) {token : String} {part schema : Value}
    (child : inst.child? s token = some part) :
    Locates s inst (descendTo descend token schema part) := by
  unfold Evaluation.descendTo
  split
  · exact locating.falsity inst part
  · exact .below child (locating.part _ part)

/-- The tokens of elements are their positions. -/
theorem child?_indexed {vs : List Value} {token : String} {v : Value}
    (array : inst.elements? s = some vs) (member : (token, v) ∈ indexed vs) :
    inst.child? s token = some v := by
  obtain ⟨⟨w, i⟩, among, same⟩ := List.mem_map.mp member
  obtain ⟨rfl, rfl⟩ := Prod.mk.inj same
  exact Value.child?_element array (List.mem_zipIdx_iff_getElem?.mp among)

theorem checkType_locates (union : Value) : Locates s inst (checkType s descend union inst) :=
  .bind fun _ _ => .bind fun _ _ => .violationIf _ _

theorem checkDisallow_locates (union : Value) :
    Locates s inst (checkDisallow s descend union inst) :=
  .bind fun _ _ => .gather fun _ _ => .bind fun _ _ => .violationIf _ _

theorem checkEnum_locates (listed : Value) : Locates s inst (checkEnum s listed inst) := by
  unfold checkEnum
  split
  · exact .stopped _
  · exact .violationIf _ _

theorem checkLength_locates (side : Side) (length : Nat) (bound : Value) :
    Locates s inst (checkLength s side length bound inst) :=
  .bind fun _ _ => .violationIf _ _

theorem checkTextLength_locates (side : Side) (bound : Value) :
    Locates s inst (checkTextLength s side bound inst) := by
  unfold checkTextLength
  split
  · exact checkLength_locates side _ bound
  · exact .clean

theorem checkItemCount_locates (side : Side) (bound : Value) :
    Locates s inst (checkItemCount s side bound inst) := by
  unfold checkItemCount
  split
  · exact checkLength_locates side _ bound
  · exact .clean

theorem checkPattern_locates (pattern : Value) : Locates s inst (checkPattern s pattern inst) := by
  unfold checkPattern
  split
  · exact .bind fun _ _ => .violationIf _ _
  · exact .bind fun _ _ => .stopped _
  · exact .stopped _
  · exact .clean

theorem checkLimit_locates (side : Side) (exclusive : Bool) (bound : Value) :
    Locates s inst (checkLimit s side exclusive bound inst) := by
  unfold checkLimit
  split
  · exact .clean
  · exact .bind fun _ _ => .violationIf _ _

theorem checkDivisibleBy_locates (divisor : Value) :
    Locates s inst (checkDivisibleBy s divisor inst) := by
  unfold checkDivisibleBy
  split
  · exact .clean
  · cases divisor <;> exact .bind fun _ _ => .violationIf _ _

theorem checkRef_locates {refer : String → Value → Evaluation}
    (refers : ∀ ref, Locates s inst (refer ref inst)) (ref : Value) :
    Locates s inst (checkRef refer ref inst) := by
  unfold checkRef
  split
  · exact refers _
  · exact .stopped _

/-! ### Objects -/

/-- A missing property is told where it should be. -/
theorem missing_locates {addr : Nat} {name : String}
    (lacks : (s.entries addr).lookup name = none) (required : Bool) :
    Locates s (.mapping addr)
      (below name (violationIf required (Text.quoted name ++ " is a required property"))) := by
  intro found ended v member
  cases required with
  | false =>
      obtain rfl := Except.ok.inj ended
      cases member
  | true =>
      obtain rfl := Except.ok.inj ended
      obtain rfl := List.mem_singleton.mp member
      exact .missing (List.nil_append [name]).symm rfl lacks rfl

theorem checkProperties_locates (locating : Locating s descend) (schemas : Value) :
    Locates s inst (checkProperties s descend schemas inst) := by
  unfold checkProperties
  split
  · exact .clean
  · next members object =>
      obtain ⟨addr, rfl, rfl⟩ := Value.entries?_eq_some.mp object
      refine .bind fun es _ => .gather fun entry _ => ?_
      obtain ⟨name, schema⟩ := entry
      dsimp only
      split
      · next v found => exact locating.descendTo found
      · next lacks => exact .bind fun required _ => missing_locates lacks required

theorem checkPatternProperties_locates (keys : s.KeysDistinct) (locating : Locating s descend)
    (schemas : Value) : Locates s inst (checkPatternProperties s descend schemas inst) := by
  unfold checkPatternProperties
  split
  · exact .clean
  · next members object =>
      refine .bind fun es _ => .gather fun entry _ => .gather fun member among => ?_
      refine .bind fun found _ => ?_
      split
      · exact locating.descendTo (Value.child?_entry keys object among)
      · exact .clean

theorem checkAdditionalProperties_locates (keys : s.KeysDistinct) (locating : Locating s descend)
    (schema : Entries) (additional : Value) :
    Locates s inst (checkAdditionalProperties s descend schema additional inst) := by
  unfold checkAdditionalProperties
  split
  · exact .clean
  · next members object =>
      refine .bind fun patterns joined => .bind fun extras filtered => ?_
      obtain rfl := joinedPatterns_ok joined
      have kept := filterM_ok (fun _ _ told => isExtra_ok told) filtered
      split
      · refine .gather fun entry among => locating.descendTo ?_
        rw [← kept] at among
        exact Value.child?_entry keys object (List.mem_of_mem_filter among)
      · split
        · exact .bind fun _ _ => .violation _
        · exact .clean

theorem checkCompanion_locates (members : Entries) (name : String) (other : Value) :
    Locates s inst (checkCompanion members name other) := by
  unfold checkCompanion
  split
  · exact .violationIf _ _
  · exact .clean

theorem checkDependencies_locates (locating : Locating s descend) (dependencies : Value) :
    Locates s inst (checkDependencies s descend dependencies inst) := by
  unfold checkDependencies
  split
  · exact .stopped _
  split
  · refine .gather fun entry _ => ?_
    obtain ⟨name, dependency⟩ := entry
    dsimp only
    split
    · exact .clean
    split
    · exact .gather fun other _ => checkCompanion_locates _ name other
    split
    · exact locating.part dependency inst
    · exact checkCompanion_locates _ name dependency
  · exact .clean

theorem checkExtends_locates (locating : Locating s descend) (extended : Value) :
    Locates s inst (checkExtends s descend extended inst) := by
  unfold checkExtends
  split
  · exact .stopped _
  split
  · exact .gather fun schema _ => locating.part schema inst
  · exact locating.part extended inst

/-! ### Arrays -/

theorem checkItems_locates (locating : Locating s descend) (items : Value) :
    Locates s inst (checkItems s descend items inst) := by
  unfold checkItems
  split
  · exact .clean
  · next vs array =>
      split
      · exact .gather fun entry among => locating.descendTo (child?_indexed array among)
      · split
        · exact .stopped _
        · refine .gather fun entry among => locating.descendTo ?_
          exact child?_indexed array (List.of_mem_zip among).1

theorem checkAdditionalItems_locates (locating : Locating s descend) (schema : Entries)
    (additional : Value) :
    Locates s inst (checkAdditionalItems s descend schema additional inst) := by
  unfold checkAdditionalItems
  split
  · exact .clean
  · exact .clean
  · next vs items array _ =>
      split
      · exact .clean
      · refine .bind fun count _ => ?_
        dsimp only
        split
        · refine .gather fun entry among => locating.descendTo ?_
          exact child?_indexed array (List.mem_of_mem_drop among)
        · exact .violationIf _ _

theorem checkUniqueItems_locates (unique : Value) :
    Locates s inst (checkUniqueItems s unique inst) := by
  unfold checkUniqueItems
  split
  · exact .clean
  · exact .violationIf _ _

end Keywords

/-! ## Schemas -/

/-- The violations of a keyword are located, if those of all that it asks for are. -/
theorem checkKeyword_locates {b : Bench} (keys : b.store.KeysDistinct)
    (locating : Locating b.store b.descend)
    (refers : ∀ ref part, Locates b.store part (b.refer ref part)) (schema : Entries)
    (inst v : Value) (k : Keyword) : Locates b.store inst (checkKeyword b schema inst v k) := by
  cases k with
  | type => exact checkType_locates v
  | disallow => exact checkDisallow_locates v
  | enum => exact checkEnum_locates v
  | properties => exact checkProperties_locates locating v
  | patternProperties => exact checkPatternProperties_locates keys locating v
  | additionalProperties => exact checkAdditionalProperties_locates keys locating schema v
  | items => exact checkItems_locates locating v
  | additionalItems => exact checkAdditionalItems_locates locating schema v
  | minItems => exact checkItemCount_locates .least v
  | maxItems => exact checkItemCount_locates .most v
  | uniqueItems => exact checkUniqueItems_locates v
  | minimum => exact checkLimit_locates .least _ v
  | maximum => exact checkLimit_locates .most _ v
  | divisibleBy => exact checkDivisibleBy_locates v
  | minLength => exact checkTextLength_locates .least v
  | maxLength => exact checkTextLength_locates .most v
  | pattern => exact checkPattern_locates v
  | dependencies => exact checkDependencies_locates locating v
  | extending => exact checkExtends_locates locating v
  | ref => exact checkRef_locates (fun ref => refers ref inst) v

theorem checkEntries_locates {b : Bench} (keys : b.store.KeysDistinct)
    (locating : Locating b.store b.descend)
    (refers : ∀ ref part, Locates b.store part (b.refer ref part)) (schema : Entries)
    (inst : Value) : Locates b.store inst (checkEntries b schema inst) := by
  refine .gather fun entry _ => ?_
  dsimp only
  split
  · exact checkKeyword_locates keys locating refers schema inst _ _
  · exact .clean

/-- Nothing is allowed, whatever the value and wherever it is. -/
theorem evaluate_false_locates (l : Reference.Library) (fuel : Nat) (arrival : Arrival)
    (scope : Scope) (inst part : Value) :
    Locates l.store inst (evaluate l fuel arrival scope (.bool false) part) := by
  cases fuel with
  | zero => exact .stopped _
  | succ fuel => exact .violation _

theorem evaluate_locates {l : Reference.Library} (keys : l.store.KeysDistinct) (fuel : Nat)
    (arrival : Arrival) (scope : Scope) (schema inst : Value) :
    Locates l.store inst (evaluate l fuel arrival scope schema inst) := by
  induction fuel generalizing arrival scope schema inst with
  | zero => exact .stopped _
  | succ fuel ih =>
      rw [evaluate.eq_def]
      dsimp only
      split
      · exact .clean
      · exact .violation _
      · refine .bind fun es _ => .bind fun base _ => checkEntries_locates keys ?_ ?_ es inst
        · exact {
            part := fun schema part => ih .inside _ schema part
            falsity := fun inst part => evaluate_false_locates l fuel .inside _ inst part }
        · exact fun ref part => .bind fun target _ => ih .referred target.2 target.1 part

theorem ofRoot_locates {s : Store} (keys : s.KeysDistinct) (addr : Nat) (inst : Value) :
    Locates s inst (ofRoot s addr inst) := by
  rw [ofRoot]
  refine .bind fun l opened => ?_
  obtain ⟨_, _, rfl⟩ := ofRoot_eq opened
  exact evaluate_locates keys _ _ _ _ _

end Evaluation

/-- What a judgement tells is located: its pointer leads to a part of the value, or without its last
    token to a mapping that lacks the required property which the token names. -/
theorem judge_violated_located {s : Store} (keys : s.KeysDistinct) {inst : Value} {addr : Nat}
    {path : Pointer} {message : String} (violated : judge s inst addr = .violated path message) :
    (∃ part, Document.resolve? ⟨s, inst⟩ path = some part) ∨
    ∃ tokens name holder, Pointer.tokens? path = some (tokens ++ [name]) ∧
      inst.descendant? s tokens = some (.mapping holder) ∧
      (s.entries holder).lookup name = none ∧
      message = Text.quoted name ++ " is a required property" := by
  unfold judge at violated
  split at violated
  · cases violated
  obtain ⟨found, v, ended, deepest, rfl, rfl⟩ := Evaluation.verdict_violated.mp violated
  cases Evaluation.ofRoot_locates keys addr inst found ended v deepest.mem with
  | part there =>
      left
      exact ⟨_, (Document.resolve?_extend ⟨s, inst⟩ v.path).trans there⟩
  | missing path there lacks told =>
      right
      rw [path, Pointer.tokens?_extend_empty]
      exact ⟨_, _, _, rfl, there, lacks, told⟩

/-- A value with odd names in it, a schema that it breaks by a type behind a union, an extension and
    a reference, and a schema that asks for a property which is missing. -/
def oddlyKeyed : Store where
  lists := #[[.text "w"], [.mapping 3, .mapping 4]]
  maps := #[
    [("a/b", .mapping 1)],
    [("", .list 0), ("m~n", .int 1)],
    [("properties", .mapping 5)],
    [("patternProperties", .mapping 6), ("items", .mapping 7)],
    [("$ref", .text "#/b")],
    [("a/b", .mapping 8)],
    [("^$", .mapping 9)],
    [("type", .text "integer")],
    [("extends", .list 1), ("b", .mapping 7)],
    [("items", .mapping 7)],
    [("additionalProperties", .mapping 11)],
    [("properties", .mapping 12)],
    [("/", .mapping 13)],
    [("required", .bool true)]]

theorem judge_violated_located_oddlyKeyed :
    oddlyKeyed.KeysDistinct ∧
    judge oddlyKeyed (.mapping 0) 10 =
      .violated "/a~1b/~1" (Text.quoted "/" ++ " is a required property") ∧
    ((∃ part, Document.resolve? ⟨oddlyKeyed, .mapping 0⟩ "/a~1b/~1" = some part) ∨
      ∃ tokens name holder, Pointer.tokens? "/a~1b/~1" = some (tokens ++ [name]) ∧
        (Value.mapping 0).descendant? oddlyKeyed tokens = some (.mapping holder) ∧
        (oddlyKeyed.entries holder).lookup name = none ∧
        Text.quoted "/" ++ " is a required property" =
          Text.quoted name ++ " is a required property") := by
  have keys : oddlyKeyed.KeysDistinct := by decide +kernel
  have violated : judge oddlyKeyed (.mapping 0) 10 =
      .violated "/a~1b/~1" (Text.quoted "/" ++ " is a required property") := by decide +kernel
  exact ⟨keys, violated, judge_violated_located keys violated⟩

end SchemaAudit

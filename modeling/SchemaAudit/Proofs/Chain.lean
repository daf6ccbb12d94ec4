import SchemaAudit.Audit
import SchemaAudit.Proofs.StopSite
import SchemaAudit.Proofs.Wording

/-! # How a finding tells its way

A finding is told outwards from the node where it arises: a schema under a name speaks for
itself, by its names, and an inline schema is spoken of by the attribute that holds it. So the
levels of a finding are the inline hops of the way to that node, and each level tells the names
that were passed since the inline hop before.
-/

namespace SchemaAudit

namespace Hop

/-- The attribute that a hop goes through. -/
def through : Hop → Attribute
  | .entry a _ | .value a | .element a _ => a

/-- The element of the attribute that a hop leads to, in words. -/
def position : Hop → String
  | .entry .. | .value _ => ""
  | .element a i => (if a = .items then " element " else " union element ") ++ toString i

def name? : Hop → Option String
  | .entry _ name => some name
  | .value _ | .element .. => none

/-- The names on a way, in stretches that end at the inline hops: one stretch ahead of each
    inline hop, and one behind the last. -/
def stretches (hops : List Hop) : List NamePath :=
  (hops.splitOnP isInline).map fun stretch => stretch.filterMap name?

/-- The stretches of a way that starts behind some names. -/
def stretchesFrom (names : NamePath) (hops : List Hop) : List NamePath :=
  (stretches hops).modifyHead (names ++ ·)

theorem stretchesFrom_nil (hops : List Hop) : stretchesFrom [] hops = stretches hops := by
  unfold stretchesFrom
  cases stretches hops <;> rfl

theorem stretchesFrom_ne_nil (names : NamePath) (hops : List Hop) :
    stretchesFrom names hops ≠ [] := by
  simp [stretchesFrom, stretches, List.splitOnP_ne_nil]

theorem stretchesFrom_entry (names : NamePath) (a : Attribute) (name : String)
    (hops : List Hop) :
    stretchesFrom names (.entry a name :: hops) = stretchesFrom (names ++ [name]) hops := by
  rw [stretchesFrom, stretches, List.splitOnP_cons_eq_if_modifyHead, isInline,
    if_neg Bool.false_ne_true, stretchesFrom, stretches]
  cases hops.splitOnP isInline with
  | nil => rfl
  | cons => simp [name?]

/-- An inline hop ends a stretch. -/
theorem stretchesFrom_inline {hop : Hop} (inline : hop.isInline = true) (names : NamePath)
    (hops : List Hop) :
    stretchesFrom names (hop :: hops) = names :: stretchesFrom [] hops := by
  rw [stretchesFrom_nil, stretchesFrom, stretches, List.splitOnP_cons_eq_if_modifyHead,
    if_pos inline]
  simp [stretches]

/-- Hops are under a name or inline. -/
theorem entry_or_inline (hop : Hop) :
    (∃ a name, hop = .entry a name) ∨ hop.isInline = true := by
  cases hop with
  | entry a name => exact .inl ⟨a, name, rfl⟩
  | value | element => exact .inr rfl

end Hop

/-- A finding recounts the hops to the node where it arose. -/
structure Finding.Recounts (f : Finding) (hops : List Hop) : Prop where
  /-- There are as many levels as inline hops. -/
  depth : f.depth = (hops.filter Hop.isInline).length
  /-- All levels name one rule. -/
  rules : ∀ level ∈ f.chain, level.rule = f.rule
  /-- All levels point to one value. -/
  pointers : ∀ level ∈ f.chain, level.pointer = f.pointer
  /-- Each level tells the names ahead of its inline hop, then the attribute that the hop goes
      through, and then what the next level tells. -/
  levels : ∀ j < f.depth, ∃ hop names level cause,
    (hops.filter Hop.isInline)[j]? = some hop ∧ (Hop.stretches hops)[j]? = some names ∧
    f.chain[j]? = some level ∧ f.chain[j + 1]? = some cause ∧ level.cause? = some cause ∧
    level.message = "Schema" ++ names.describe ++ ": '" ++ hop.through.key ++ "' attribute"
      ++ hop.position ++ " is not a valid schema: " ++ cause.message
  /-- The innermost level wraps nothing, and it starts with the names behind the last inline
      hop. -/
  innermost : f.innermost.cause? = none ∧ ∃ names rest,
    (Hop.stretches hops).getLast? = some names ∧
    f.innermost.message = "Schema" ++ names.describe ++ rest

namespace Place

theorem hopContext_colon (p : Place) (hop : Hop) :
    p.hopContext hop ++ ": " = "Schema" ++ p.names.describe ++ ": '" ++ hop.through.key
      ++ "' attribute" ++ hop.position ++ " is not a valid schema: " := by
  have colon : " is not a valid schema: " = " is not a valid schema" ++ ": " := rfl
  rw [colon]
  have element : ∀ rest, "' attribute" ++ (" element " ++ rest) =
      "' attribute " ++ ("element " ++ rest) := fun rest => by
    rw [← String.append_assoc, ← String.append_assoc]
    rfl
  have alternative : ∀ rest, "' attribute" ++ (" union element " ++ rest) =
      "' attribute " ++ ("union " ++ ("element " ++ rest)) := fun rest => by
    rw [← String.append_assoc, ← String.append_assoc, ← String.append_assoc]
    rfl
  cases hop with
  | entry | value =>
      simp only [hopContext, label, NamePath.label, Hop.through, Hop.position,
        String.append_empty, String.append_assoc]
      rfl
  | element a i =>
      simp only [hopContext, label, NamePath.label, Hop.through, Hop.position,
        String.append_assoc]
      by_cases items : a = .items
      · simp only [if_pos items, element, String.empty_append]
      · simp only [if_neg items, alternative]

theorem names_inline {hop : Hop} (inline : hop.isInline = true) (p : Place) :
    (p.descend hop).names = [] := by
  cases hop with
  | entry => cases inline
  | value | element => rfl

theorem wrapAlong_inline {hop : Hop} (inline : hop.isInline = true) (p : Place) (addr : Nat)
    (rest : List Leg) (f : Finding) :
    p.wrapAlong (⟨addr, hop⟩ :: rest) f =
      .within ((p.enter addr).hopContext hop)
        (((p.enter addr).descend hop).wrapAlong rest f) := by
  rw [wrapAlong, wrap, if_pos inline]

/-- Told along a way, a finding has as many levels more as there are inline hops. -/
theorem depth_wrapAlong (p : Place) (legs : List Leg) (f : Finding) :
    (p.wrapAlong legs f).depth = f.depth + ((legs.map Leg.hop).filter Hop.isInline).length := by
  induction legs generalizing p with
  | nil => rfl
  | cons leg rest ih =>
      obtain ⟨addr, hop⟩ := leg
      rw [List.map_cons]
      rcases hop.entry_or_inline with ⟨a, name, rfl⟩ | inline
      · exact ih _
      · rw [wrapAlong_inline inline, Finding.depth, ih, List.filter_cons_of_pos inline,
          List.length_cons]
        omega

theorem innermost_wrapAlong (p : Place) (legs : List Leg) (f : Finding) :
    (p.wrapAlong legs f).innermost = f.innermost := by
  induction legs generalizing p with
  | nil => rfl
  | cons leg rest ih =>
      obtain ⟨addr, hop⟩ := leg
      rcases hop.entry_or_inline with ⟨a, name, rfl⟩ | inline
      · exact ih _
      · rw [wrapAlong_inline inline, Finding.innermost, ih]

/-- The names at the end of a way are those behind its last inline hop. -/
theorem names_after (p : Place) (legs : List Leg) :
    (Hop.stretchesFrom p.names (legs.map Leg.hop)).getLast? = some (p.after legs).names := by
  induction legs generalizing p with
  | nil => simp [Hop.stretchesFrom, Hop.stretches]
  | cons leg rest ih =>
      obtain ⟨addr, hop⟩ := leg
      rw [after_cons, ← ih, List.map_cons]
      rcases hop.entry_or_inline with ⟨a, name, rfl⟩ | inline
      · rw [Hop.stretchesFrom_entry]
        rfl
      · rw [Hop.stretchesFrom_inline inline, names_inline inline]
        exact List.getLast?_cons_of_ne_nil (Hop.stretchesFrom_ne_nil _ _)

/-- The level of a finding at each of the inline hops that it is told along. -/
theorem levels_wrapAlong (p : Place) (legs : List Leg) {f : Finding} (leaf : f.depth = 0) :
    ∀ j < (p.wrapAlong legs f).depth, ∃ hop names level cause,
      ((legs.map Leg.hop).filter Hop.isInline)[j]? = some hop ∧
      (Hop.stretchesFrom p.names (legs.map Leg.hop))[j]? = some names ∧
      (p.wrapAlong legs f).chain[j]? = some level ∧
      (p.wrapAlong legs f).chain[j + 1]? = some cause ∧ level.cause? = some cause ∧
      level.message = "Schema" ++ names.describe ++ ": '" ++ hop.through.key ++ "' attribute"
        ++ hop.position ++ " is not a valid schema: " ++ cause.message := by
  induction legs generalizing p with
  | nil => exact fun j below => absurd below (by simp [wrapAlong, leaf])
  | cons leg rest ih =>
      obtain ⟨addr, hop⟩ := leg
      have onward := ih ((p.enter addr).descend hop)
      rw [List.map_cons]
      rcases hop.entry_or_inline with ⟨a, name, rfl⟩ | inline
      · rw [Hop.stretchesFrom_entry]
        exact onward
      · rw [wrapAlong_inline inline, Hop.stretchesFrom_inline inline,
          List.filter_cons_of_pos inline, Finding.chain]
        -- behind the hop the names start afresh, and the levels are those of the rest
        rw [names_inline inline] at onward
        intro j below
        cases j with
        | zero =>
            refine ⟨hop, p.names, _, ((p.enter addr).descend hop).wrapAlong rest f, rfl, rfl, rfl,
              ?_, rfl, ?_⟩
            · rw [List.getElem?_cons_succ, ← List.head?_eq_getElem?, Finding.head?_chain]
            · rw [Finding.message, hopContext_colon]
              rfl
        | succ j => exact onward j (Nat.lt_of_succ_lt_succ below)

end Place

namespace Finding

/-- All levels of a finding name its rule and point to where it points. -/
theorem level_of_mem_chain {f level : Finding} (member : level ∈ f.chain) :
    level.rule = f.rule ∧ level.pointer = f.pointer := by
  induction f with
  | leaf =>
      rw [List.mem_singleton.mp member]
      exact ⟨rfl, rfl⟩
  | within context cause ih =>
      rcases List.mem_cons.mp member with rfl | deeper
      · exact ⟨rfl, rfl⟩
      · exact ih deeper

end Finding

/-- What a value gives rise to itself wraps nothing, and starts with the names of its place. -/
theorem Store.Complains.told {judge : Judge} {s : Store} {p : Place} {v : Value} {f : Finding}
    (complains : s.Complains judge p v f) :
    ∃ r rest pointer, f = .leaf r (p.label ++ rest) pointer := by
  cases complains with
  | notANode other => exact ⟨_, _, _, p.notANode_eq v⟩
  | cyclic => exact ⟨_, _, _, by rw [Place.cyclic, String.append_assoc, String.append_assoc]⟩
  | tooDeep =>
      exact ⟨_, _, _, by
        rw [Place.tooDeep, String.append_assoc, String.append_assoc, String.append_assoc,
          String.append_assoc]⟩
  | @broken addr _ _ _ told =>
      obtain ⟨tasks, plan⟩ := (s.node addr).plan_tasks s
      rw [plan] at told
      obtain ⟨task, _, same⟩ := List.mem_map.mp told
      cases task with
      | tell r rest tokens => exact ⟨r, rest, _, (Step.found.inj same).symm⟩
      | visit => cases same
  | unfit => exact ⟨_, _, _, Place.unfitDefault_eq _ _⟩

/-- What is told along a way from the root recounts the hops of that way. -/
theorem Place.recounts_wrapAlong {limit : Nat} {legs : List Leg} {r : Rule} {rest : String}
    {pointer : Option Pointer} :
    ((Place.root limit).wrapAlong legs
      (.leaf r (((Place.root limit).after legs).label ++ rest) pointer)).Recounts
      (legs.map Leg.hop) where
  depth := by rw [depth_wrapAlong, Finding.depth, Nat.zero_add]
  rules _ member := (Finding.level_of_mem_chain member).1
  pointers _ member := (Finding.level_of_mem_chain member).2
  levels := by
    rw [← Hop.stretchesFrom_nil]
    exact levels_wrapAlong (.root limit) legs rfl
  innermost := by
    rw [innermost_wrapAlong, ← Hop.stretchesFrom_nil]
    exact ⟨rfl, _, rest, names_after (.root limit) legs, rfl⟩

/-- A rejected document with a proper root has a node, and a way to it from the root, where what
    is told arises. The finding recounts the hops of that way, and a validation raises it as the
    error of the rule that is broken there, with the sentence of the outermost level. -/
theorem Document.audit_rejected_recounts {d : Document} {limit : Nat} {f : Finding}
    (rooted : rootFinding? d = none) (rejected : (d.audit limit).outcome = .rejected f) :
    (∃ legs v, Trail d.store d.root legs v ∧
      d.store.Complains (judge d.store) ((Place.root limit).after legs) v f.innermost ∧
      f.Recounts (legs.map Leg.hop)) ∧
    d.validate limit = .error (.invalid f.innermost.rule.errorName f.message f) := by
  constructor
  · rw [audit, outcome_auditWith, rooted] at rejected
    obtain ⟨legs, v, g, trail, _, complains, rfl⟩ :=
      Store.check_rejected (.root d.store limit) d.root rejected
    obtain ⟨r, rest, pointer, rfl⟩ := complains.told
    refine ⟨legs, v, trail, ?_, Place.recounts_wrapAlong⟩
    rw [Place.innermost_wrapAlong]
    exact complains
  · rw [validate, rejected, Finding.rule_innermost]
    rfl

/-- A text as a limit, at the end of a way with named and inline hops in turns. -/
def Document.deeplyMistyped : Document where
  store :=
    { lists := #[[.text "string", .mapping 3], [.mapping 4]]
      maps := #[[("type", .text "object"), ("properties", .mapping 1)], [("a", .mapping 2)],
        [("type", .list 0)], [("items", .list 1)], [("properties", .mapping 5)],
        [("b", .mapping 6)], [("additionalProperties", .mapping 7)],
        [("minItems", .text "many")]] }
  root := .mapping 0

theorem Document.audit_rejected_recounts_deeplyMistyped :
    let f : Finding :=
      .within "Schema property 'a': 'type' attribute union element 1 is not a valid schema"
        (.within "Schema: 'items' attribute element 0 is not a valid schema"
          (.within "Schema property 'b': 'additionalProperties' attribute is not a valid schema"
            (.leaf .invalidAttributeType
              "Schema: 'minItems' attribute is a string when it should be an integer"
              (some
                "/properties/a/type/1/items/0/properties/b/additionalProperties/minItems"))))
    rootFinding? deeplyMistyped = none ∧ (deeplyMistyped.audit 100).outcome = .rejected f ∧
    (∃ legs v, Trail deeplyMistyped.store deeplyMistyped.root legs v ∧
      deeplyMistyped.store.Complains (judge deeplyMistyped.store) ((Place.root 100).after legs) v
        f.innermost ∧ f.Recounts (legs.map Leg.hop)) ∧
    deeplyMistyped.validate 100 =
      .error (.invalid f.innermost.rule.errorName f.message f) := by
  intro f
  have rooted : rootFinding? deeplyMistyped = none := by decide +kernel
  have rejected : (deeplyMistyped.audit 100).outcome = .rejected f := by decide +kernel
  exact ⟨rooted, rejected, audit_rejected_recounts rooted rejected⟩

end SchemaAudit

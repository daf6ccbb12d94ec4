import SchemaAudit.Proofs.Conformity
import SchemaAudit.Schema.Walk

/-! # What comes of the parts of a walk

Steps are done one after the other, up to the first that is not accepted. What comes of a row of
them is told by what they are, and what comes of judging a default by its verdict.
-/

namespace SchemaAudit

namespace Report

theorem outcome_andThen (r : Report) (next : Unit → Report) :
    (r.andThen next).outcome =
      if r.outcome = .accepted then (next ()).outcome else r.outcome := by
  obtain ⟨log, outcome⟩ := r
  cases outcome <;> simp [andThen]

theorem mapFinding_accepted {wrap : Finding → Finding} {r : Report} :
    (r.mapFinding wrap).outcome = .accepted ↔ r.outcome = .accepted := by
  obtain ⟨log, outcome⟩ := r
  cases outcome <;> simp [mapFinding]

theorem mapFinding_rejected {wrap : Finding → Finding} {r : Report} {f : Finding} :
    (r.mapFinding wrap).outcome = .rejected f ↔ ∃ g, r.outcome = .rejected g ∧ wrap g = f := by
  obtain ⟨log, outcome⟩ := r
  cases outcome <;> simp [mapFinding]

theorem mapFinding_faulted {wrap : Finding → Finding} {r : Report} {fault : Fault} :
    (r.mapFinding wrap).outcome = .faulted fault ↔ r.outcome = .faulted fault := by
  obtain ⟨log, outcome⟩ := r
  cases outcome <;> simp [mapFinding]

theorem outcome_logged (r : Report) : r.logged.outcome = r.outcome := by
  obtain ⟨log, outcome⟩ := r
  cases outcome <;> rfl

variable {visit : Hop → Value → Report} {steps : List Step}

/-- Steps are accepted when none is a finding and every visit is accepted. -/
theorem ofSteps_accepted : (ofSteps visit steps).outcome = .accepted ↔
    (∀ g, .found g ∉ steps) ∧
      ∀ hop v, .visit hop v ∈ steps → (visit hop v).outcome = .accepted := by
  induction steps with
  | nil => simp [ofSteps, clear]
  | cons step rest ih =>
      cases step with
      | found g =>
          constructor
          · intro accepted
            simp [ofSteps, found] at accepted
          · rintro ⟨clear, _⟩
            exact absurd List.mem_cons_self (clear g)
      | visit hop v =>
          rw [ofSteps, outcome_andThen]
          by_cases first : (visit hop v).outcome = .accepted
          · rw [if_pos first, ih]
            simp only [List.mem_cons, reduceCtorEq, false_or, Step.visit.injEq]
            constructor
            · rintro ⟨clear, visits⟩
              refine ⟨clear, ?_⟩
              rintro hop' v' (⟨rfl, rfl⟩ | later)
              · exact first
              · exact visits hop' v' later
            · rintro ⟨clear, visits⟩
              exact ⟨clear, fun hop' v' later => visits hop' v' (.inr later)⟩
          · rw [if_neg first]
            constructor
            · exact fun accepted => absurd accepted first
            · rintro ⟨_, visits⟩
              exact visits hop v List.mem_cons_self

/-- Steps that are rejected hold the finding, or a visit with the finding. -/
theorem ofSteps_rejected {f : Finding} (rejected : (ofSteps visit steps).outcome = .rejected f) :
    .found f ∈ steps ∨
      ∃ hop v, .visit hop v ∈ steps ∧ (visit hop v).outcome = .rejected f := by
  induction steps with
  | nil => simp [ofSteps, clear] at rejected
  | cons step rest ih =>
      cases step with
      | found g =>
          obtain rfl : g = f := by simpa [ofSteps, found] using rejected
          exact .inl List.mem_cons_self
      | visit hop v =>
          rw [ofSteps, outcome_andThen] at rejected
          split at rejected
          · rcases ih rejected with told | ⟨hop', v', later, inner⟩
            · exact .inl (List.mem_cons_of_mem _ told)
            · exact .inr ⟨hop', v', List.mem_cons_of_mem _ later, inner⟩
          · exact .inr ⟨hop, v, List.mem_cons_self, rejected⟩

/-- A row of steps is taken part by part. -/
theorem ofSteps_append (visit : Hop → Value → Report) (steps more : List Step) :
    ofSteps visit (steps ++ more) = (ofSteps visit steps).andThen fun _ => ofSteps visit more := by
  induction steps with
  | nil => simp [ofSteps, clear, andThen]
  | cons step rest ih =>
      cases step with
      | found g => rfl
      | visit hop v => simp only [List.cons_append, ofSteps, ih, andThen_assoc]

/-- Steps break down at the first visit that is not accepted, if that breaks down. -/
theorem ofSteps_faulted {fault : Fault} : (ofSteps visit steps).outcome = .faulted fault ↔
    ∃ before hop v after, steps = before ++ .visit hop v :: after ∧
      (ofSteps visit before).outcome = .accepted ∧ (visit hop v).outcome = .faulted fault := by
  constructor
  · intro faulted
    induction steps with
    | nil => simp [ofSteps, clear] at faulted
    | cons step rest ih =>
        cases step with
        | found g => simp [ofSteps, found] at faulted
        | visit hop v =>
            rw [ofSteps, outcome_andThen] at faulted
            split at faulted
            · next first =>
                obtain ⟨before, hop', v', after, rfl, accepted, inner⟩ := ih faulted
                refine ⟨.visit hop v :: before, hop', v', after, rfl, ?_, inner⟩
                rw [ofSteps, outcome_andThen, if_pos first, accepted]
            · exact ⟨[], hop, v, rest, rfl, rfl, faulted⟩
  · rintro ⟨before, hop, v, after, rfl, accepted, inner⟩
    rw [ofSteps_append, outcome_andThen, if_pos accepted, ofSteps, outcome_andThen, inner]
    simp

end Report

namespace Node

variable {judge : Judge} {s : Store} {addr : Nat} {p : Place}

theorem judgeDefault_accepted :
    ((s.node addr).judgeDefault judge p addr).outcome = .accepted ↔
      ∀ v, s.attribute? addr .default = some v → judge v addr = .fits := by
  rw [judgeDefault, get?_node]
  cases found : s.attribute? addr .default with
  | none => simp [Report.clear]
  | some v => cases verdict : judge v addr <;> simp [verdict, Report.clear]

/-- A default is rejected for a complaint about it: that the node cannot be used, or where and
    how the default violates it. -/
theorem judgeDefault_rejected {f : Finding}
    (rejected : ((s.node addr).judgeDefault judge p addr).outcome = .rejected f) :
    ∃ v complaint, s.attribute? addr .default = some v ∧ f = p.unfitDefault complaint ∧
      (judge v addr = .unusable complaint ∨
        ∃ path message, judge v addr = .violated path message ∧
          complaint = Verdict.located path message) := by
  rw [judgeDefault, get?_node] at rejected
  cases found : s.attribute? addr .default with
  | none => simp [found, Report.clear] at rejected
  | some v =>
      cases verdict : judge v addr with
      | fits => simp [found, verdict, Report.clear] at rejected
      | faulted => simp [found, verdict] at rejected
      | unusable reason =>
          simp only [found, verdict, Outcome.rejected.injEq] at rejected
          exact ⟨v, _, rfl, rejected.symm, .inl verdict⟩
      | violated path message =>
          simp only [found, verdict, Outcome.rejected.injEq] at rejected
          exact ⟨v, _, rfl, rejected.symm, .inr ⟨path, message, verdict, rfl⟩⟩

theorem judgeDefault_faulted {fault : Fault} :
    ((s.node addr).judgeDefault judge p addr).outcome = .faulted fault ↔
      ∃ v, s.attribute? addr .default = some v ∧ judge v addr = .faulted fault := by
  rw [judgeDefault, get?_node]
  cases found : s.attribute? addr .default with
  | none => simp [Report.clear]
  | some v => cases verdict : judge v addr <;> simp [verdict, Report.clear]

end Node

end SchemaAudit

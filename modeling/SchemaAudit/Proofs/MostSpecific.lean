import SchemaAudit.Instance.Judge

/-! # The violation that is told

Of all violations the first one is told of those about the most deeply nested part. Going through
them once, the deepest so far is kept unless a deeper one comes.
-/

namespace SchemaAudit

/-- The first of those violations that are about the most deeply nested part: all before are about
    less nested parts, and none behind is about a more deeply nested one. -/
def Violation.FirstDeepest (found : List Violation) (v : Violation) : Prop :=
  ∃ before after, found = before ++ v :: after ∧
    (∀ w ∈ before, w.path.length < v.path.length) ∧ ∀ w ∈ after, w.path.length ≤ v.path.length

namespace Violation.FirstDeepest

variable {found : List Violation} {v w : Violation}

theorem mem (deepest : FirstDeepest found v) : v ∈ found := by
  obtain ⟨before, after, rfl, _, _⟩ := deepest
  simp

theorem bound (deepest : FirstDeepest found v) (member : w ∈ found) :
    w.path.length ≤ v.path.length := by
  obtain ⟨before, after, rfl, shallow, bounded⟩ := deepest
  rcases List.mem_append.mp member with early | late
  · exact Nat.le_of_lt (shallow w early)
  · rcases List.mem_cons.mp late with rfl | late
    · exact Nat.le_refl _
    · exact bounded w late

theorem singleton (v : Violation) : FirstDeepest [v] v :=
  ⟨[], [], rfl, by simp, by simp⟩

/-- Everything in front is about less nested parts. -/
theorem cons (deepest : FirstDeepest found v) (less : w.path.length < v.path.length) :
    FirstDeepest (w :: found) v := by
  obtain ⟨before, after, rfl, shallow, bounded⟩ := deepest
  refine ⟨w :: before, after, rfl, fun u member => ?_, bounded⟩
  rcases List.mem_cons.mp member with rfl | earlier
  · exact less
  · exact shallow u earlier

/-- What is no deeper than the violation ahead of it is passed over. -/
theorem skip {u : Violation} (deepest : FirstDeepest (u :: found) v)
    (less : w.path.length ≤ u.path.length) : FirstDeepest (u :: w :: found) v := by
  obtain ⟨before, after, same, shallow, bounded⟩ := deepest
  cases before with
  | nil =>
      obtain ⟨rfl, rfl⟩ := List.cons.inj same
      refine ⟨[], w :: found, rfl, by simp, fun x member => ?_⟩
      rcases List.mem_cons.mp member with rfl | later
      · exact less
      · exact bounded x later
  | cons x before =>
      obtain ⟨rfl, rfl⟩ := List.cons.inj same
      have first := shallow u List.mem_cons_self
      refine ⟨u :: w :: before, after, rfl, fun y member => ?_, bounded⟩
      rcases List.mem_cons.mp member with rfl | member
      · exact first
      rcases List.mem_cons.mp member with rfl | earlier
      · exact Nat.lt_of_le_of_lt less first
      · exact shallow y (List.mem_cons_of_mem u earlier)

/-- No two violations can both be the one that is told. -/
theorem unique (first : FirstDeepest found v) (second : FirstDeepest found w) : v = w := by
  obtain ⟨before, after, rfl, shallow, bounded⟩ := first
  have level := second.bound (w := v) (by simp)
  obtain ⟨before', after', same, shallow', bounded'⟩ := second
  have level' : w.path.length ≤ v.path.length :=
    FirstDeepest.bound ⟨before, after, rfl, shallow, bounded⟩ (by simp [same])
  -- neither of the two can stand before the other
  rcases List.append_eq_append_iff.mp same with ⟨between, rfl, later⟩ | ⟨between, rfl, later⟩
  · cases between with
    | nil => exact (List.cons.inj later).1
    | cons u between =>
        obtain ⟨rfl, _⟩ := List.cons.inj later
        have less := shallow' v (by simp)
        omega
  · cases between with
    | nil => exact (List.cons.inj later).1.symm
    | cons u between =>
        obtain ⟨rfl, _⟩ := List.cons.inj later
        have less := shallow w (by simp)
        omega

end Violation.FirstDeepest

namespace Evaluation

theorem firstDeepest_foldl (found : List Violation) (v : Violation) :
    Violation.FirstDeepest (v :: found) (found.foldl deeper v) := by
  induction found generalizing v with
  | nil => exact .singleton v
  | cons w rest ih =>
      rw [List.foldl_cons, deeper]
      split
      · next deeper =>
          have onward := ih w
          exact onward.cons (Nat.lt_of_lt_of_le deeper (onward.bound List.mem_cons_self))
      · next level => exact (ih v).skip (Nat.not_lt.mp level)

theorem mostSpecific?_eq_some {found : List Violation} {v : Violation} :
    mostSpecific? found = some v ↔ Violation.FirstDeepest found v := by
  cases found with
  | nil =>
      constructor
      · rintro ⟨⟩
      · rintro ⟨before, after, same, _⟩
        simp at same
  | cons w rest =>
      have told := firstDeepest_foldl rest w
      rw [mostSpecific?, Option.some.injEq]
      constructor
      · rintro rfl
        exact told
      · exact told.unique

theorem mostSpecific?_eq_none {found : List Violation} : mostSpecific? found = none ↔ found = [] := by
  cases found <;> simp [mostSpecific?]

/-- A violation is told exactly by an evaluation that comes to its end, of those collected. -/
theorem verdict_violated {e : Evaluation} {path : Pointer} {message : String} :
    e.verdict = .violated path message ↔ ∃ found v, e = .ok found ∧
      Violation.FirstDeepest found v ∧ path = Pointer.extend "" v.path ∧ message = v.message := by
  cases e with
  | error stop => cases stop <;> simp [verdict]
  | ok found =>
      simp only [← mostSpecific?_eq_some, Except.ok.injEq, exists_and_left, exists_eq_left']
      cases told : mostSpecific? found with
      | none => simp [verdict, told]
      | some v => simp [verdict, told, eq_comm]

theorem verdict_unusable {e : Evaluation} {reason : String} :
    e.verdict = .unusable reason ↔ ∃ f, e = .error (.flaw f) ∧ reason = f.message := by
  cases e with
  | error stop => cases stop <;> simp [verdict, eq_comm]
  | ok found => cases told : mostSpecific? found <;> simp [verdict, told]

end Evaluation

end SchemaAudit

import SchemaAudit.Proofs.Breakdown
import SchemaAudit.Proofs.Defaults
import SchemaAudit.Proofs.Rearrangement
import Mathlib.Data.List.ProdSigma
import Mathlib.Tactic.Linarith

/-! # Schemas that stand alone

A schema in which nothing has an identifier or refers to anything comes to the same wherever it is
evaluated. Its evaluation may run into itself without end, but if it ends with any amount of fuel
at all, it ends with no more than there are schemas inside, each on every part of the value: an
evaluation that needs exactly so much fuel has one inside that needs exactly one less, so none of
them recurs. Judgements always have that much.
-/

namespace SchemaAudit

open Reference (Library)

/-- Neither the schema at an address nor any schema inside has an identifier or a reference. -/
def Store.Standalone (s : Store) (addr : Nat) : Prop :=
  ∀ b, Relation.ReflTransGen (fun a b => s.Nests a (.mapping b)) addr b →
    (s.entries b).lookup Reference.identifierKey = none ∧
      (s.entries b).lookup Reference.referenceKey = none

namespace Store.Standalone

variable {s : Store} {a b : Nat}

theorem unidentified (alone : s.Standalone a) :
    (s.entries a).lookup Reference.identifierKey = none := (alone a .refl).1

theorem unreferring (alone : s.Standalone a) :
    (s.entries a).lookup Reference.referenceKey = none := (alone a .refl).2

theorem inner (alone : s.Standalone a) (nests : s.Nests a (.mapping b)) : s.Standalone b :=
  fun c further => alone c (.head nests further)

/-- A schema stands alone if nothing at all inside it has the keys of identifiers and references. -/
theorem of_unfold (plain : ∀ v ∈ (Value.mapping a).unfold s, (v.entries? s).all (fun es =>
    (es.lookup Reference.identifierKey).isNone && (es.lookup Reference.referenceKey).isNone)) :
    s.Standalone a := by
  intro b inside
  have reaches : (Value.mapping a).Reaches s (.mapping b) := by
    induction inside with
    | refl => exact .refl
    | tail _ nests ih => exact ih.trans nests.reaches
  simpa [Value.entries?] using plain _ reaches.mem_unfold

end Store.Standalone

namespace Evaluation

variable {l l' : Library} {n k addr : Nat} {arrival arrival' : Arrival} {scope scope' : Scope}
  {inst v w i : Value}

/-- A mapping without an identifier is entered with the scope that it is met in. -/
theorem enter_unidentified
    (unidentified : (l.store.entries addr).lookup Reference.identifierKey = none) :
    enter l arrival scope (.mapping addr) = .ok (l.store.entries addr, scope) := by
  have base : baseAt scope.base (l.store.entries addr) arrival = .ok scope.base := by
    cases arrival with
    | referred => rfl
    | inside =>
        rw [baseAt, Reference.baseInside, Reference.identifier?, unidentified]
        split <;> rfl
  rw [enter, Reference.schemaEntries]
  simp only [bind, Except.bind, base]
  rfl

theorem evaluate_unidentified
    (unidentified : (l.store.entries addr).lookup Reference.identifierKey = none) :
    evaluate l (n + 1) arrival scope (.mapping addr) inst =
      checkEntries (bench l n scope) (l.store.entries addr) inst := by
  rw [evaluate_succ fun _ => Value.noConfusion, enter_unidentified unidentified]
  rfl

/-- What is no mapping is taken for what it is, wherever it stands. -/
theorem evaluate_plain (store : l'.store = l.store) (other : w.kind ≠ .object) :
    evaluate l (n + 1) arrival scope w i = evaluate l' (k + 1) arrival' scope' w i := by
  by_cases bool : ∃ b, w = .bool b
  · obtain ⟨b, rfl⟩ := bool
    cases b with
    | true => rw [evaluate, evaluate]
    | false => rw [evaluate, evaluate, store]
  · have plain : ∀ b, w ≠ .bool b := fun b is => bool ⟨b, is⟩
    obtain ⟨fault, refused⟩ := Mirror.schemaEntries_other l.store other
    rw [evaluate_succ plain, evaluate_succ plain, enter, enter, store, refused]
    simp only [faulted, bind, Except.bind]

/-- In a strict comparison that excuses nothing only equals match. -/
theorem checkEntries_congr {s : Store} (keys : s.KeysDistinct) {d d' : Descent}
    {r r' : String → Value → Evaluation}
    (unreferring : (s.entries addr).lookup Reference.referenceKey = none)
    (descends : ∀ w i, (w.kind = .object → s.Nests addr w) → i = inst ∨ i ∈ inst.children s →
      d w i = d' w i) :
    checkEntries ⟨s, d, r⟩ (s.entries addr) inst = checkEntries ⟨s, d', r'⟩ (s.entries addr) inst := by
  have same : Matches (.excusing fun _ => False) (checkEntries ⟨s, d, r⟩ (s.entries addr) inst)
      (checkEntries ⟨s, d', r'⟩ (s.entries addr) inst) :=
    (Rearranged.refl keys).checkEntries (.refl s addr)
      (fun w i nests part => .of_eq (descends w i nests part))
      (fun ref found => by cases unreferring.symm.trans found)
  exact same.eq_of_excusing fun _ impossible => impossible.elim

/-- A schema that stands alone comes to the same in any library, however it is arrived at. -/
theorem evaluate_standalone (keys : l.store.KeysDistinct) (store : l'.store = l.store)
    (alone : l.store.Standalone addr) :
    evaluate l n arrival scope (.mapping addr) inst =
      evaluate l' n arrival' scope' (.mapping addr) inst := by
  induction n generalizing arrival arrival' scope scope' addr inst with
  | zero => rfl
  | succ n ih =>
      rw [evaluate_unidentified alone.unidentified,
        evaluate_unidentified (store ▸ alone.unidentified), bench, bench, store]
      apply checkEntries_congr keys alone.unreferring
      intro w i nests _
      by_cases object : w.kind = .object
      · obtain ⟨b, rfl⟩ := Value.kind_eq_object.mp object
        exact ih (alone.inner (nests object))
      · cases n with
        | zero => rfl
        | succ n => exact evaluate_plain store object

theorem evaluate_mono (less : n ≤ k)
    (ends : evaluate l n arrival scope v i ≠ faulted .endless) :
    evaluate l n arrival scope v i = evaluate l k arrival scope v i := by
  rw [evaluate_eq_evaluateBy] at ends ⊢
  rw [evaluate_eq_evaluateBy]
  exact evaluateBy_mono less ends

/-- One more unit of fuel makes a difference, as the evaluation runs out without it. -/
def Lacks (l : Library) (scope : Scope) (n : Nat) (v i : Value) : Prop :=
  evaluate l n .inside scope v i ≠ evaluate l (n + 1) .inside scope v i

namespace Lacks

theorem unique (lacks : Lacks l scope n v i) (more : n < k) : ¬ Lacks l scope k v i := by
  have short : evaluate l n .inside scope v i = faulted .endless := by
    by_contra ends
    exact lacks (evaluate_mono n.le_succ ends)
  have ends : evaluate l (n + 1) .inside scope v i ≠ faulted .endless :=
    fun endless => lacks (short.trans endless.symm)
  have settled := evaluate_mono (Nat.le_succ_of_le more) ends
  rw [evaluate_mono more ends] at settled
  exact fun other => other settled

/-- An evaluation for which fuel makes a difference has one inside for which it does. -/
theorem inner (keys : l.store.KeysDistinct) (alone : l.store.Standalone addr)
    (lacks : Lacks l scope (n + 1) (.mapping addr) inst) :
    ∃ w i, (w.kind = .object → l.store.Nests addr w) ∧
      (i = inst ∨ i ∈ inst.children l.store) ∧ Lacks l scope n w i := by
  by_contra none
  apply lacks
  rw [evaluate_unidentified alone.unidentified, evaluate_unidentified alone.unidentified]
  apply checkEntries_congr keys alone.unreferring
  intro w i nests part
  by_contra differs
  exact none ⟨w, i, nests, part, differs⟩

/-- The evaluations inside each other for which ever less fuel makes a difference. They are of
    different schemas or on different values, all of them inside the outermost ones. -/
theorem chain (keys : l.store.KeysDistinct)
    (alone : ∀ a, v = .mapping a → l.store.Standalone a) (lacks : Lacks l scope n v inst) :
    ∃ row : List (Value × Value), row.length = n ∧ row.Nodup ∧ ∀ w i, (w, i) ∈ row →
      w.kind = .object ∧ v.Reaches l.store w ∧ inst.Reaches l.store i ∧
        ∃ m, m ≤ n ∧ Lacks l scope m w i := by
  induction n generalizing v inst with
  | zero => exact ⟨[], rfl, List.nodup_nil, by simp⟩
  | succ n ih =>
      have object : v.kind = .object := by
        by_contra other
        exact lacks (evaluate_plain rfl other)
      obtain ⟨a, rfl⟩ := Value.kind_eq_object.mp object
      obtain ⟨w, i, nests, part, below⟩ := inner keys (alone a rfl) lacks
      have inside : ∀ b, w = .mapping b → l.store.Standalone b := by
        rintro b rfl
        exact (alone a rfl).inner (nests rfl)
      obtain ⟨row, length, distinct, each⟩ := ih inside below
      refine ⟨(.mapping a, inst) :: row, by rw [List.length_cons, length], ?_, ?_⟩
      · refine List.nodup_cons.mpr ⟨fun member => ?_, distinct⟩
        obtain ⟨_, _, _, m, less, again⟩ := each _ _ member
        exact again.unique (Nat.lt_succ_of_le less) lacks
      · intro u j member
        rcases List.mem_cons.mp member with same | later
        · obtain ⟨rfl, rfl⟩ := Prod.mk.inj same
          exact ⟨rfl, .refl, .refl, n + 1, Nat.le_refl _, lacks⟩
        · obtain ⟨schema, reaches, within, m, less, again⟩ := each u j later
          refine ⟨schema, ?_, ?_, m, Nat.le_succ_of_le less, again⟩
          · by_cases object : w.kind = .object
            · exact (nests object).reaches.trans reaches
            · -- nothing is inside what is evaluated as no schema
              cases n with
              | zero =>
                  rw [List.length_eq_zero_iff.mp length] at later
                  cases later
              | succ n => exact absurd (evaluate_plain rfl object) below
          · rcases part with rfl | among
            · exact within
            · exact .head among within

/-- Fuel makes a difference for no more than every schema on every part of the value takes. -/
theorem le (keys : l.store.KeysDistinct) (alone : l.store.Standalone addr) {root whole : Value}
    (schema : root.Reaches l.store (.mapping addr)) (part : whole.Reaches l.store inst)
    (lacks : Lacks l scope n (.mapping addr) inst) :
    n ≤ ((root.unfold l.store).countP fun v => v.kind == .object) *
      (whole.unfold l.store).length := by
  have alone : ∀ a, Value.mapping addr = .mapping a → l.store.Standalone a := by
    rintro a ⟨⟩
    exact alone
  obtain ⟨row, rfl, distinct, each⟩ := chain keys alone lacks
  rw [List.countP_eq_length_filter, ← List.length_product]
  apply distinct.length_le_of_subset
  rintro ⟨w, i⟩ member
  obtain ⟨object, reaches, within, _⟩ := each w i member
  refine List.mem_product.mpr ⟨List.mem_filter.mpr ⟨?_, by simp [object]⟩, ?_⟩
  · exact Value.Reaches.mem_unfold (schema.trans reaches)
  · exact Value.Reaches.mem_unfold (part.trans within)

end Lacks

theorem lt_depthBound (s : Store) (root inst : Value) :
    ((root.unfold s).countP fun v => v.kind == .object) * (inst.unfold s).length + 1 <
      depthBound s root inst := by
  simp only [depthBound, List.countP_append, List.length_append]
  generalize (root.unfold s).countP (fun v => v.kind == .object) = m
  generalize (inst.unfold s).countP (fun v => v.kind == .object) = m'
  generalize (root.unfold s).length = o
  generalize (inst.unfold s).length = o'
  have power : m + m' + 2 ≤ (m + m' + 2) ^ 4 := Nat.le_self_pow (by decide) _
  have product : m * o' + 2 ≤ (m + m' + 2) * (o + o' + 2) := by
    nlinarith
  calc m * o' + 1 < (m + m' + 2) * (o + o' + 2) := product
    _ ≤ 2 * Nat.pow (m + m' + 2) 4 * (o + o' + 2) := by
        apply Nat.mul_le_mul_right
        exact power.trans (Nat.le_mul_of_pos_left _ Nat.two_pos)

/-- A schema has no more levels than the depth bound. -/
theorem occurrences_le_depthBound (s : Store) (root inst : Value) :
    (root.unfold s).length ≤ depthBound s root inst := by
  simp only [depthBound, List.length_append]
  generalize List.countP _ (root.unfold s ++ inst.unfold s) = m
  calc (root.unfold s).length
      ≤ 1 * ((root.unfold s).length + (inst.unfold s).length + 2) := by omega
    _ ≤ 2 * Nat.pow (m + 2) 4 * ((root.unfold s).length + (inst.unfold s).length + 2) :=
        Nat.mul_le_mul_right _ (Nat.mul_pos Nat.two_pos (Nat.pow_pos (Nat.succ_pos _)))

/-- From the depth bound on, more fuel makes no difference to a schema that stands alone. -/
theorem evaluate_settled (keys : l.store.KeysDistinct) (alone : l.store.Standalone addr)
    {root whole : Value} (schema : root.Reaches l.store (.mapping addr))
    (part : whole.Reaches l.store inst) (enough : depthBound l.store root whole ≤ n + 1)
    (less : n ≤ k) :
    evaluate l n .inside scope (.mapping addr) inst =
      evaluate l k .inside scope (.mapping addr) inst := by
  induction less with
  | refl => rfl
  | @step k less ih =>
      rw [ih]
      by_contra lacks
      have most := Lacks.le keys alone schema part lacks
      have bound := lt_depthBound l.store root whole
      have : n ≤ k := less
      omega

end Evaluation

namespace Store

open Evaluation

variable {s : Store} {addr inner : Nat} {inst : Value} {l : Library} {scope : Scope} {n : Nat}

theorem identifierFlaw?_eq_none
    (unidentified : (s.entries addr).lookup Reference.identifierKey = none) :
    identifierFlaw? (s.entries addr) = none := by
  rw [identifierFlaw?, unidentified]

/-- A schema that stands alone is judged as it is evaluated inside any other one. -/
theorem judge_standalone (keys : s.KeysDistinct) (alone : s.Standalone inner) (store : l.store = s)
    {root : Value} (schema : root.Reaches s (.mapping inner))
    (enough : depthBound s root inst ≤ n + 1) :
    judge s inst inner = (evaluate l n .inside scope (.mapping inner) inst).verdict := by
  subst store
  obtain ⟨own, opened⟩ := ofRoot_ok (identifierFlaw?_eq_none alone.unidentified)
  obtain ⟨_, _, same⟩ := ofRoot_eq opened
  have own_store : own.store = l.store := by rw [same]
  rw [judge, identifierFlaw?_eq_none alone.unidentified]
  simp only [Evaluation.ofRoot, opened, bind, Except.bind]
  rw [evaluate_standalone (own_store ▸ keys) own_store.symm (own_store ▸ alone)]
  -- with more fuel than both have the two are the same
  rw [evaluate_settled keys alone .refl .refl (Nat.le_succ _)
      (Nat.le_max_left (depthBound l.store (.mapping inner) inst) n),
    evaluate_settled keys alone schema .refl enough
      (Nat.le_max_right (depthBound l.store (.mapping inner) inst) n)]

end Store

end SchemaAudit

import SchemaAudit.Audit
import SchemaAudit.Proofs.CopyJudgement
import SchemaAudit.Proofs.Separation
import SchemaAudit.Proofs.WalkAgreement

/-! # Sharing makes no difference

An audit tells a schema that is used in two places from one that is inside itself. So a document
without such circles is audited as each of its copies, the one with a container of its own at every
place included.
-/

namespace SchemaAudit

theorem Report.congruence_eq : Congruence Eq where
  refl _ := rfl
  andThen := by
    rintro r _ next next' rfl same
    obtain ⟨log, outcome⟩ := r
    cases outcome with
    | accepted => rw [andThen_accepted, andThen_accepted, same]
    | rejected | faulted => rfl
  mapFinding _ _ := congrArg _
  logged := congrArg _

/-- Defaults that are judged alike have the same report. -/
theorem Node.judgeDefault_eq {judge judge' : Judge} {n n' : Node} {a b : Nat}
    (alike : Option.Rel (fun v w => judge v a = judge' w b) (n.get? .default) (n'.get? .default))
    (p : Place) (around : List Nat) :
    n.judgeDefault judge p a = n'.judgeDefault judge' (p.amid around) b := by
  rw [judgeDefault, judgeDefault]
  rcases rel_cases alike with ⟨none, none'⟩ | ⟨v, w, found, found', same⟩
  · rw [none, none']
  · simp only [found, found', same]
    rfl

namespace Copy

variable {s t : Store} {n : Nat} {around around' : List Value} {v w x y : Value}

theorem Inside.widen (inside : Inside s t n (v :: around) (w :: around') x y) :
    Inside s t (n + 1) around around' x y := by
  obtain ⟨k, less, copy, deeper, deeper'⟩ := inside
  exact ⟨k, by omega, copy, fun u member => deeper u (List.mem_cons_of_mem v member),
    fun u member => deeper' u (List.mem_cons_of_mem w member)⟩

/-- Values and their copies inside the containers around them, and values without parts. -/
def amid (s t : Store) (n : Nat) (around around' : List Value) : Pairing s t where
  data v w := v = w ∧ v.IsScalar ∨ Inside s t n around around' v w
  node a b := Inside s t n around around' (.mapping a) (.mapping b)
  scalars _ plain := .inl ⟨rfl, plain⟩
  shape := by
    rintro v w (⟨rfl, plain⟩ | inside)
    · exact .scalar plain
    · cases n with
      | zero => exact inside.not_zero.elim
      | succ n => exact inside.shape.mono fun _ _ inner => .inr inner.widen

theorem amid_wide : (amid s t n around around').Wide := by
  rintro a b (⟨_, plain⟩ | inside)
  · exact plain.elim
  · exact inside

theorem entries_amid {a b : Nat}
    (inside : Inside s t (n + 1) around around' (.mapping a) (.mapping b)) :
    Entries.Related (amid s t n (.mapping a :: around) (.mapping b :: around')).data
      (s.entries a) (t.entries b) := by
  cases inside.shape with
  | scalar plain => exact plain.elim
  | mapping entries => exact entries.imp fun _ _ same => ⟨same.1, .inr same.2⟩

theorem Inside.copy (inside : Inside s t n around around' v w) : ∃ k, Copy s t k v w := by
  obtain ⟨k, _, copy, _⟩ := inside
  exact ⟨k, copy⟩

/-- The audits of a value and of its copy meet what stands for each other. -/
theorem meeting (keys : s.KeysDistinct) (keys' : t.KeysDistinct) :
    Meeting (judge s) (judge t) s t Eq fun l l' v w =>
      ∃ n, (amid s t n (l.map .mapping) (l'.map .mapping)).data v w where
  kind := by
    rintro _ _ _ _ ⟨n, same⟩
    exact ((amid s t n _ _).shape same).kind
  fresh := by
    rintro l l' a b ⟨n, same⟩
    obtain ⟨fresh, fresh'⟩ := (amid_wide _ _ same).fresh
    have outside : ∀ {x : Nat} {xs : List Nat}, Value.mapping x ∉ xs.map Value.mapping → x ∉ xs :=
      fun away member => away (List.mem_map_of_mem member)
    exact iff_of_false (outside fresh) (outside fresh')
  inside := by
    rintro l l' a b ⟨n, same⟩ _
    have inside := amid_wide _ _ same
    cases n with
    | zero => exact inside.not_zero.elim
    | succ n =>
        refine ⟨amid s t n (.mapping a :: l.map .mapping) (.mapping b :: l'.map .mapping), ?_, ?_⟩
        · exact amid_wide.keptBy (entries_amid inside)
        · rintro _ v w _ part
          cases part with
          | node same => exact ⟨n, .inr same⟩
          | data same => exact ⟨n, same⟩
  default := by
    rintro l l' a b ⟨n, same⟩ p around
    have node := (amid_wide _ _ same).copy
    apply Node.judgeDefault_eq
    rw [Node.get?_node, Node.get?_node]
    have held := (entries_related node).lookup Attribute.default.key
    rw [Store.attribute?, Store.attribute?]
    rcases rel_cases held with ⟨none, none'⟩ | ⟨v, w, found, found', inst⟩
    · rw [none, none']
      exact .none
    · rw [found, found']
      exact .some (judge_eq keys keys' node inst)

end Copy

namespace Document

/-- Copies have the same audits. -/
theorem audit_copy {d e : Document} {n : Nat} (copy : Copy d.store e.store n d.root e.root)
    (keys : d.store.KeysDistinct) (keys' : e.store.KeysDistinct) (limit : Nat) :
    d.audit limit = e.audit limit :=
  auditWith_same Report.congruence_eq (Copy.meeting keys keys') ⟨n, .inr (.start copy)⟩ limit

/-- A document in which no container is inside itself has the same audits as the tree that comes
    out when each place gets a container of its own. -/
theorem audit_separated (d : Document) (acyclic : d.Acyclic) (keys : d.store.KeysDistinct) :
    d.separated.IsTree ∧
    (∃ n, Copy d.store d.separated.store n d.root d.separated.root) ∧
    ∀ limit, d.separated.audit limit = d.audit limit := by
  obtain ⟨n, levels⟩ := acyclic_iff_copy.mp acyclic
  have copy := copy_separated (p := []) acyclic rfl levels
  exact ⟨separated_isTree acyclic, ⟨n, copy⟩,
    fun limit => (audit_copy copy keys (keysDistinct_separated keys) limit).symm⟩

/-- A schema that is used twice, whose default is the very list that it allows. -/
def sharedTwice : Document where
  store :=
    { lists := #[[.int 1], [.list 0]]
      maps := #[[("type", .text "object"), ("properties", .mapping 1),
        ("additionalProperties", .mapping 2)], [("a", .mapping 2)],
        [("enum", .list 1), ("default", .list 0)]] }
  root := .mapping 0

theorem audit_separated_sharedTwice :
    sharedTwice.Acyclic ∧ sharedTwice.store.KeysDistinct ∧ ¬ sharedTwice.IsTree ∧
    sharedTwice.separated.IsTree ∧
    (∃ n, Copy sharedTwice.store sharedTwice.separated.store n sharedTwice.root
      sharedTwice.separated.root) ∧
    (sharedTwice.separated.audit 2).outcome = .accepted ∧
    ∀ limit, sharedTwice.separated.audit limit = sharedTwice.audit limit := by
  have acyclic : sharedTwice.Acyclic := by
    refine acyclic_iff_copy.mpr ⟨6, ?_⟩
    simp [Copy.self_iff, sharedTwice, Value.children, Store.entries, Store.elements]
  have keys : sharedTwice.store.KeysDistinct := by decide +kernel
  obtain ⟨tree, copy, same⟩ := audit_separated sharedTwice acyclic keys
  refine ⟨acyclic, keys, fun once => ?_, tree, copy, ?_, same⟩
  · have one : [1, 0] = [2] := once _ _ (.mapping 2) (.mapping 2) rfl rfl id rfl
    cases one
  · rw [same]
    decide +kernel

end Document

end SchemaAudit

import SchemaAudit.Document.Order
import SchemaAudit.Instance.Unions
import SchemaAudit.Proofs.Pairing

/-! # Comparing values that stand for each other

Comparisons look at most so many levels deep. Where values stand for each other, as far as one
looks, comparing them here comes to the same as comparing them there: whether two are the same,
which comes first, whether the elements of a list are distinct.
-/

namespace SchemaAudit

variable {s t : Store} {v w v' w' : Value} {f f' : Nat}

/-- How deep one has to look at the values of a pairing to tell them apart. -/
structure Likeness (m : Pairing s t) where
  /-- Values that look the same that many levels deep, in the one store and in the other. -/
  seen : Nat → Nat → Value → Value → Prop
  data : ∀ {f f' v w}, seen f f' v w → m.data v w
  whole : ∀ {v w}, m.data v w → seen (s.size + 2) (t.size + 2) v w
  level : ∀ {f f' v w}, seen f f' v w → (f = 0 ↔ f' = 0)
  below : ∀ {f f' v w}, seen (f + 1) (f' + 1) v w → (f = 0 ↔ f' = 0)
  shape : ∀ {f f' v w}, seen (f + 1) (f' + 1) v w → Shape s t (seen f f') v w
  /-- What one value stands for twice is the same. -/
  twins : ∀ {f f' v w w'}, seen (f + 1) (f' + 1) v w → seen (f + 1) (f' + 1) v w' →
    w.sameWithin t (f' + 1) w' = true ∧ w.alikeWithin t (f' + 1) w' = true
  /-- What stands for one value twice is the same. -/
  twinned : ∀ {f f' v v' w}, seen (f + 1) (f' + 1) v w → seen (f + 1) (f' + 1) v' w →
    v.sameWithin s (f + 1) v' = true ∧ v.alikeWithin s (f + 1) v' = true

namespace Value

theorem pairwise_of_forall₂ {related : Value → Value → Prop} {agree agree' : Value → Value → Bool}
    {vs ws vs' ws' : List Value} (first : List.Forall₂ related vs ws)
    (second : List.Forall₂ related vs' ws')
    (each : ∀ v w v' w', related v w → related v' w' → agree v v' = agree' w w') :
    pairwise agree vs vs' = pairwise agree' ws ws' := by
  induction first generalizing vs' ws' with
  | nil => cases second <;> rfl
  | cons here _ ih =>
      cases second with
      | nil => rfl
      | cons there rest => simp only [pairwise, each _ _ _ _ here there, ih rest]

theorem keywise_of_related {related : Value → Value → Prop} {agree agree' : Value → Value → Bool}
    {vs ws vs' ws' : Entries} (first : Entries.Related related vs ws)
    (second : Entries.Related related vs' ws')
    (each : ∀ v w v' w', related v w → related v' w' → agree v v' = agree' w w') :
    keywise agree vs vs' = keywise agree' ws ws' := by
  rw [keywise, keywise, first.length_eq, second.length_eq]
  congr 1
  apply all_of_forall₂ first
  rintro ⟨key, v⟩ ⟨_, w⟩ ⟨rfl, here⟩
  rcases rel_cases (second.lookup key) with ⟨none, none'⟩ | ⟨v', w', found, found', there⟩
  · simp only [none, none']
  · simp only [found, found']
    exact each _ _ _ _ here there

theorem lexBefore?_of_forall₂ {related : Value → Value → Prop}
    {alike alike' : Value → Value → Bool} {before? before?' : Value → Value → Option Bool}
    {vs ws vs' ws' : List Value} (first : List.Forall₂ related vs ws)
    (second : List.Forall₂ related vs' ws')
    (alikes : ∀ v w v' w', related v w → related v' w' → alike v v' = alike' w w')
    (befores : ∀ v w v' w', related v w → related v' w' → before? v v' = before?' w w') :
    lexBefore? alike before? vs vs' = lexBefore? alike' before?' ws ws' := by
  induction first generalizing vs' ws' with
  | nil => cases second <;> rfl
  | cons here _ ih =>
      cases second with
      | nil => rfl
      | cons there rest =>
          simp only [lexBefore?, alikes _ _ _ _ here there, befores _ _ _ _ here there, ih rest]

end Value

namespace Likeness

variable {m : Pairing s t} (l : Likeness m)

/-- What a value is compared by as a sequence: its elements, or whole numbers. -/
def Item (f f' : Nat) (v w : Value) : Prop :=
  l.seen f f' v w ∨ ∃ n : Int, v = .int n ∧ w = .int n

theorem sequence? (here : l.seen (f + 1) (f' + 1) v w) :
    Option.Rel (List.Forall₂ (l.Item f f')) (v.sequence? s) (w.sequence? t) := by
  cases l.shape here with
  | list elements | tuple elements => exact .some (elements.imp fun _ _ => .inl)
  | mapping => exact .none
  | scalar plain =>
      cases v with
      | octets os =>
          apply Option.Rel.some
          apply List.forall₂_same.mpr
          intro u member
          obtain ⟨o, _, rfl⟩ := List.mem_map.mp member
          exact .inr ⟨_, rfl, rfl⟩
      | list | tuple | mapping => exact plain.elim
      | _ => exact .none

theorem sameWithin_int (fuels : f = 0 ↔ f' = 0) (j k : Int) :
    (Value.int j).sameWithin s f (.int k) = (Value.int j).sameWithin t f' (.int k) := by
  cases f with
  | zero =>
      obtain rfl := fuels.mp rfl
      rfl
  | succ f =>
      obtain ⟨f', rfl⟩ := Nat.exists_eq_succ_of_ne_zero fun none => f.succ_ne_zero (fuels.mpr none)
      rfl

/-- A number compares with a value as with what the value stands for. -/
theorem sameWithin_number (here : l.seen f f' v w) (k : Int) :
    (Value.int k).sameWithin s f v = (Value.int k).sameWithin t f' w ∧
      v.sameWithin s f (.int k) = w.sameWithin t f' (.int k) := by
  cases f with
  | zero =>
      obtain rfl := (l.level here).mp rfl
      exact ⟨rfl, rfl⟩
  | succ f =>
      obtain ⟨f', rfl⟩ := Nat.exists_eq_succ_of_ne_zero
        fun none => f.succ_ne_zero ((l.level here).mpr none)
      cases l.shape here with
      | scalar plain =>
          cases v with
          | list | tuple | mapping => exact plain.elim
          | _ => exact ⟨rfl, rfl⟩
      | _ => exact ⟨rfl, rfl⟩

/-- Two maps are compared entry by entry as the maps they stand for. -/
theorem keywise_eq (here : l.seen (f + 1) (f' + 1) v w) (there : l.seen (f + 1) (f' + 1) v' w')
    (inner : ∀ u x u' x', l.seen f f' u x → l.seen f f' u' x' →
      u.sameWithin s f u' = x.sameWithin t f' x') :
    (match v.entries? s, v'.entries? s with
      | some es, some gs => Value.keywise (Value.sameWithin s f) es gs
      | _, _ => false) = (match w.entries? t, w'.entries? t with
      | some fs, some hs => Value.keywise (Value.sameWithin t f') fs hs
      | _, _ => false) := by
  rcases rel_cases (l.shape here).entries? with ⟨none, none'⟩ | ⟨es, fs, map, map', entries⟩
  · rw [none, none']
  rcases rel_cases (l.shape there).entries? with ⟨none, none'⟩ | ⟨gs, hs, two, two', more⟩
  · rw [map, map', none, none']
  · rw [map, map', two, two']
    exact Value.keywise_of_related entries more fun _ _ _ _ here there => inner _ _ _ _ here there

/-- Whether two values are the same is the same of the values they stand for. -/
theorem sameWithin_eq (here : l.seen f f' v w) (there : l.seen f f' v' w') :
    v.sameWithin s f v' = w.sameWithin t f' w' := by
  induction f generalizing f' v w v' w' with
  | zero =>
      obtain rfl := (l.level here).mp rfl
      rfl
  | succ f ih =>
      obtain ⟨f', rfl⟩ := Nat.exists_eq_succ_of_ne_zero
        fun none => f.succ_ne_zero ((l.level here).mpr none)
      by_cases same : v = v'
      · subst same
        rw [(l.twins here there).1]
        simp [Value.sameWithin]
      by_cases same' : w = w'
      · subst same'
        rw [(l.twinned here there).1]
        simp [Value.sameWithin]
      have apart : (v == v') = false := by simpa using same
      have apart' : (w == w') = false := by simpa using same'
      have items : ∀ u x u' x', l.Item f f' u x → l.Item f f' u' x' →
          u.sameWithin s f u' = x.sameWithin t f' x' := by
        rintro u x u' x' (first | ⟨j, rfl, rfl⟩) (second | ⟨k, rfl, rfl⟩)
        · exact ih first second
        · exact (l.sameWithin_number first k).2
        · exact (l.sameWithin_number second j).1
        · exact sameWithin_int (l.below here) j k
      rw [Value.sameWithin, Value.sameWithin, apart, apart', Bool.false_or, Bool.false_or,
        (l.shape here).magnitude?, (l.shape there).magnitude?]
      split
      · rfl
      have maps := l.keywise_eq here there fun _ _ _ _ => ih
      rcases rel_cases (l.sequence? here) with ⟨none, none'⟩ | ⟨vs, ws, row, row', elements⟩
      · rw [none, none']
        exact maps
      rcases rel_cases (l.sequence? there) with ⟨none, none'⟩ | ⟨us, xs, two, two', more⟩
      · rw [row, row', none, none']
        exact maps
      · rw [row, row', two, two']
        exact Value.pairwise_of_forall₂ elements more items

/-- Whether two values are loosely the same is the same of the values they stand for. -/
theorem alikeWithin_eq (here : l.seen f f' v w) (there : l.seen f f' v' w') :
    v.alikeWithin s f v' = w.alikeWithin t f' w' := by
  induction f generalizing f' v w v' w' with
  | zero =>
      obtain rfl := (l.level here).mp rfl
      rfl
  | succ f ih =>
      obtain ⟨f', rfl⟩ := Nat.exists_eq_succ_of_ne_zero
        fun none => f.succ_ne_zero ((l.level here).mpr none)
      by_cases same : v = v'
      · subst same
        rw [(l.twins here there).2]
        simp [Value.alikeWithin]
      by_cases same' : w = w'
      · subst same'
        rw [(l.twinned here there).2]
        simp [Value.alikeWithin]
      have apart : (v == v') = false := by simpa using same
      have apart' : (w == w') = false := by simpa using same'
      have first := l.shape here
      have second := l.shape there
      rw [Value.alikeWithin.eq_def, Value.alikeWithin.eq_def]
      simp only [apart, apart', Bool.false_or, first.looseMagnitude?, second.looseMagnitude?]
      split
      · rfl
      cases first with
      | scalar plain => cases v <;> first | exact plain.elim | rfl
      | list elements =>
          cases second with
          | scalar plain => cases v' <;> first | exact plain.elim | rfl
          | list more => exact Value.pairwise_of_forall₂ elements more fun _ _ _ _ => ih
          | _ => rfl
      | tuple elements =>
          cases second with
          | scalar plain => cases v' <;> first | exact plain.elim | rfl
          | tuple more => exact Value.pairwise_of_forall₂ elements more fun _ _ _ _ => ih
          | _ => rfl
      | mapping entries =>
          cases second with
          | scalar plain => cases v' <;> first | exact plain.elim | rfl
          | mapping more => exact Value.keywise_of_related entries more fun _ _ _ _ => ih
          | _ => rfl

/-- Whether one value comes before another is the same of the values they stand for. -/
theorem beforeWithin?_eq (here : l.seen f f' v w) (there : l.seen f f' v' w') :
    v.beforeWithin? s f v' = w.beforeWithin? t f' w' := by
  induction f generalizing f' v w v' w' with
  | zero =>
      obtain rfl := (l.level here).mp rfl
      rfl
  | succ f ih =>
      obtain ⟨f', rfl⟩ := Nat.exists_eq_succ_of_ne_zero
        fun none => f.succ_ne_zero ((l.level here).mpr none)
      have lex : ∀ {vs ws vs' ws' : List Value}, List.Forall₂ (l.seen f f') vs ws →
          List.Forall₂ (l.seen f f') vs' ws' →
          Value.lexBefore? (Value.alike s) (Value.beforeWithin? s f) vs vs' =
            Value.lexBefore? (Value.alike t) (Value.beforeWithin? t f') ws ws' := by
        intro vs ws vs' ws' row more
        refine Value.lexBefore?_of_forall₂ row more (fun v w v' w' one two => ?_) ?_
        · exact l.alikeWithin_eq (l.whole (l.data one)) (l.whole (l.data two))
        · exact fun _ _ _ _ => ih
      have first := l.shape here
      have second := l.shape there
      rw [Value.beforeWithin?.eq_def, Value.beforeWithin?.eq_def]
      simp only [first.looseMagnitude?, second.looseMagnitude?]
      split
      · rfl
      cases first with
      | scalar plain =>
          cases second with
          | scalar plain' =>
              cases v <;> first
                | exact plain.elim
                | cases v' <;> first | exact plain'.elim | rfl
          | _ => cases v <;> first | exact plain.elim | rfl
      | list elements =>
          cases second with
          | scalar plain => cases v' <;> first | exact plain.elim | rfl
          | list more => exact lex elements more
          | _ => rfl
      | tuple elements =>
          cases second with
          | scalar plain => cases v' <;> first | exact plain.elim | rfl
          | tuple more => exact lex elements more
          | _ => rfl
      | mapping =>
          cases second with
          | scalar plain => cases v' <;> first | exact plain.elim | rfl
          | _ => rfl

/-- Whether a value can be looked up by is the same of the value it stands for. -/
theorem isLookupKey_eq (here : l.seen f f' v w) :
    Evaluation.isLookupKey s f v = Evaluation.isLookupKey t f' w := by
  induction f generalizing f' v w with
  | zero =>
      obtain rfl := (l.level here).mp rfl
      rfl
  | succ f ih =>
      obtain ⟨f', rfl⟩ := Nat.exists_eq_succ_of_ne_zero
        fun none => f.succ_ne_zero ((l.level here).mpr none)
      cases l.shape here with
      | scalar plain => cases v <;> first | exact plain.elim | rfl
      | tuple elements => exact all_of_forall₂ elements fun _ _ => ih
      | list | mapping => rfl

end Likeness

/-! ## Sorting -/

namespace Sorting

variable {α β : Type} {related : α → β → Prop} {before? : α → α → Option Bool}
  {before?' : β → β → Option Bool} {vs : List α} {ws : List β} {v : α} {w : β}

theorem runLength?_of_forall₂
    (same : ∀ v w v' w', related v w → related v' w' → before? v v' = before?' w w')
    (falling : Bool) (last : related v w) (rest : List.Forall₂ related vs ws) :
    runLength? before? falling v vs = runLength? before?' falling w ws := by
  induction rest generalizing v w with
  | nil => rfl
  | cons next _ ih => simp only [runLength?, same _ _ _ _ next last, ih next]

theorem bisect?_of_forall₂
    (same : ∀ v w v' w', related v w → related v' w' → before? v v' = before?' w w')
    (row : List.Forall₂ related vs ws) (here : related v w) (fuel low high : Nat) :
    bisect? before? vs.toArray v fuel low high = bisect? before?' ws.toArray w fuel low high := by
  induction fuel generalizing low high with
  | zero => rfl
  | succ fuel ih =>
      rw [bisect?, bisect?]
      split
      · simp only [List.getElem?_toArray]
        rcases rel_cases (getElem?_of_forall₂ row (low + (high - low) / 2)) with
          ⟨none, none'⟩ | ⟨u, x, found, found', there⟩
        · rw [none, none']
        · rw [found, found']
          simp only [same _ _ _ _ here there, ih]
      · rfl

theorem insert?_of_forall₂
    (same : ∀ v w v' w', related v w → related v' w' → before? v v' = before?' w w')
    (row : List.Forall₂ related vs ws) (here : related v w) :
    Option.Rel (List.Forall₂ related) (insert? before? vs v) (insert? before?' ws w) := by
  rw [insert?, insert?, bisect?_of_forall₂ same row here, row.length_eq]
  cases bisect? before?' ws.toArray w ws.length 0 ws.length with
  | none => exact .none
  | some place =>
      exact .some (List.rel_append (List.forall₂_take place row)
        (.cons here (List.forall₂_drop place row)))

theorem insertAll_of_forall₂
    (same : ∀ v w v' w', related v w → related v' w' → before? v v' = before?' w w')
    {us : List α} {xs : List β} (start : List.Forall₂ related us xs)
    (row : List.Forall₂ related vs ws) :
    Option.Rel (List.Forall₂ related) (vs.foldlM (insert? before?) us)
      (ws.foldlM (insert? before?') xs) := by
  induction row generalizing us xs with
  | nil => exact .some start
  | cons here _ ih =>
      rw [List.foldlM_cons, List.foldlM_cons]
      rcases rel_cases (insert?_of_forall₂ same start here) with
        ⟨none, none'⟩ | ⟨more, more', put, put', longer⟩
      · rw [none, none']
        exact .none
      · rw [put, put']
        exact ih longer

/-- Sorting what stands for each other, in orders that are the same, comes to what stands for each
    other. -/
theorem sort?_of_forall₂
    (same : ∀ v w v' w', related v w → related v' w' → before? v v' = before?' w w')
    (row : List.Forall₂ related vs ws) :
    Option.Rel (List.Forall₂ related) (sort? before? vs) (sort? before?' ws) := by
  cases row with
  | nil => exact .some .nil
  | cons first row =>
      cases row with
      | nil => exact .some (.cons first .nil)
      | cons second rest =>
          rw [sort?, sort?, same _ _ _ _ second first]
          cases before?' _ _ with
          | none => exact .none
          | some falling =>
              simp only [Option.bind_some, runLength?_of_forall₂ same falling second rest]
              cases runLength? before?' falling _ _ with
              | none => exact .none
              | some further =>
                  simp only [Option.bind_some]
                  apply insertAll_of_forall₂ same ?_ (List.forall₂_drop further rest)
                  have run := List.Forall₂.cons first
                    (.cons second (List.forall₂_take further rest))
                  cases falling with
                  | false => exact run
                  | true => exact List.rel_reverse run

end Sorting

/-! ## Distinct elements -/

namespace Likeness

variable {m : Pairing s t} (l : Likeness m) {vs ws : List Value}

include l

theorem same_eq (here : m.data v w) (there : m.data v' w') : v.same s v' = w.same t w' :=
  l.sameWithin_eq (l.whole here) (l.whole there)

theorem elementBefore?_eq (here : m.data v w) (there : m.data v' w') :
    Value.elementBefore? s v v' = Value.elementBefore? t w w' := by
  have before : v.before? s v' = w.before? t w' :=
    l.beforeWithin?_eq (l.whole here) (l.whole there)
  cases m.shape here with
  | scalar plain =>
      cases v with
      | bool => rfl
      | list | tuple | mapping => exact plain.elim
      | _ =>
          cases m.shape there with
          | scalar plain' =>
              cases v' with
              | bool => rfl
              | list | tuple | mapping => exact plain'.elim
              | _ => exact before
          | _ => exact before
  | _ =>
      cases m.shape there with
      | scalar plain' =>
          cases v' with
          | bool => rfl
          | list | tuple | mapping => exact plain'.elim
          | _ => exact before
      | _ => exact before

theorem hasEqualNeighbours_eq (row : List.Forall₂ m.data vs ws) :
    Value.hasEqualNeighbours s vs = Value.hasEqualNeighbours t ws := by
  induction row with
  | nil => rfl
  | cons first rest ih =>
      cases rest with
      | nil => rfl
      | cons second =>
          rw [Value.hasEqualNeighbours, Value.hasEqualNeighbours, l.same_eq first second, ih]

theorem hasEqualPair_eq (row : List.Forall₂ m.data vs ws) :
    Value.hasEqualPair s vs = Value.hasEqualPair t ws := by
  induction row with
  | nil => rfl
  | cons first rest ih =>
      rw [Value.hasEqualPair, Value.hasEqualPair, ih,
        any_of_forall₂ rest fun _ _ there => l.same_eq first there]

/-- Whether the elements of a list are distinct is the same of the elements they stand for. -/
theorem distinct_eq (row : List.Forall₂ m.data vs ws) :
    Value.distinct s vs = Value.distinct t ws := by
  rw [Value.distinct, Value.distinct]
  have before : ∀ v w v' w', m.data v w → m.data v' w' →
      Value.elementBefore? s v v' = Value.elementBefore? t w w' :=
    fun _ _ _ _ => l.elementBefore?_eq
  rcases rel_cases (Sorting.sort?_of_forall₂ before row) with
    ⟨none, none'⟩ | ⟨sorted, sorted', found, found', order⟩
  · rw [none, none', l.hasEqualPair_eq row]
  · rw [found, found']
    simp only [l.hasEqualNeighbours_eq order]

end Likeness

end SchemaAudit

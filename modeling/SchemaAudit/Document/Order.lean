import SchemaAudit.Document.Equality

/-! # The order of values

Numbers, texts, octets, and lists of such are ordered; other values are not. Lists are ordered
by their first elements that are not alike, and a list comes before its continuations. Not
every pair can be ordered, and "not a number" is neither before nor after any number, so a sort
says which comparisons it makes: it finds the run that the list opens with and then inserts
each further element by bisection.
-/

namespace SchemaAudit

namespace Value

/-- The order of two lists, given that of their elements; `none` if it hangs on two elements
    that cannot be ordered. -/
def lexBefore? (alike : Value → Value → Bool) (before? : Value → Value → Option Bool) :
    List Value → List Value → Option Bool
  | [], [] => some false
  | [], _ :: _ => some true
  | _ :: _, [] => some false
  | v :: vs, w :: ws => if alike v w then lexBefore? alike before? vs ws else before? v w

/-- Whether one value comes before another, looking at most `fuel` levels deep. -/
def beforeWithin? (s : Store) : Nat → Value → Value → Option Bool
  | 0, _, _ => none
  | fuel + 1, v, w =>
    match v.looseMagnitude?, w.looseMagnitude? with
    | some x, some y => some (x.less y)
    | _, _ =>
      match v, w with
      | .text t, .text u => some (t < u)
      | .octets os, .octets ps => some (decide (os.map UInt8.toNat < ps.map UInt8.toNat))
      | .list a, .list b | .tuple a, .tuple b =>
        lexBefore? (alike s) (beforeWithin? s fuel) (s.elements a) (s.elements b)
      | _, _ => none

/-- Whether one value comes before another; `none` if they cannot be ordered. -/
def before? (s : Store) (v w : Value) : Option Bool := beforeWithin? s (s.size + 2) v w

end Value

namespace Sorting

/-- The number of further elements, behind `last`, that go on the same way: each before the one
    ahead of it if `falling`, none before the one ahead of it otherwise. -/
def runLength? {α : Type} (before? : α → α → Option Bool) (falling : Bool) (last : α) :
    List α → Option Nat
  | [] => some 0
  | v :: rest =>
    (before? v last).bind fun b =>
      if b = falling then (runLength? before? falling v rest).map (· + 1) else some 0

/-- The place in `sorted[low ..< high]` behind everything that `v` is not before, found by
    halving at most `fuel` times. -/
def bisect? {α : Type} (before? : α → α → Option Bool) (sorted : Array α) (v : α) :
    Nat → Nat → Nat → Option Nat
  | 0, low, _ => some low
  | fuel + 1, low, high =>
    if low < high then
      let middle := low + (high - low) / 2
      match sorted[middle]? with
      | none => some low
      | some w =>
        (before? v w).bind fun b =>
          if b then bisect? before? sorted v fuel low middle
          else bisect? before? sorted v fuel (middle + 1) high
    else some low

/-- The sorted elements with one more put in its place. -/
def insert? {α : Type} (before? : α → α → Option Bool) (sorted : List α) (v : α) :
    Option (List α) :=
  (bisect? before? sorted.toArray v sorted.length 0 sorted.length).map fun place =>
    sorted.take place ++ v :: sorted.drop place

/-- The elements in order, equal ones as they were; `none` if two that are compared cannot be
    ordered. -/
def sort? {α : Type} (before? : α → α → Option Bool) : List α → Option (List α)
  | [] => some []
  | [v] => some [v]
  | v :: w :: rest =>
    (before? w v).bind fun falling =>
      (runLength? before? falling w rest).bind fun further =>
        let run := v :: w :: rest.take further
        let start := if falling then run.reverse else run
        (rest.drop further).foldlM (insert? before?) start

end Sorting

namespace Value

def hasEqualNeighbours (s : Store) : List Value → Bool
  | v :: w :: rest => same s v w || hasEqualNeighbours s (w :: rest)
  | _ => false

def hasEqualPair (s : Store) : List Value → Bool
  | [] => false
  | v :: rest => rest.any (same s v) || hasEqualPair s rest

/-- The order of elements as far as distinctness looks at it: booleans have no place in it. -/
def elementBefore? (s : Store) : Value → Value → Option Bool
  | .bool _, _ | _, .bool _ => none
  | v, w => before? s v w

/-- Whether the elements of a list are distinct. Elements that can be sorted are compared with
    their neighbours only, others each with each. -/
def distinct (s : Store) (vs : List Value) : Bool :=
  match Sorting.sort? (elementBefore? s) vs with
  | some sorted => !hasEqualNeighbours s sorted
  | none => !hasEqualPair s vs

end Value

end SchemaAudit

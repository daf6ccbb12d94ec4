import SchemaAudit.Document.Value
import SchemaAudit.Number.Magnitude

/-! # When values are the same

Schemas compare values by content: numbers by value, lists and tuples element by element,
mappings without regard to order, and booleans apart from numbers. The looser comparison, which
the order of values rests on, takes booleans for zero and one and keeps lists apart from
tuples. Containers at one address are the same without a look inside.
-/

namespace SchemaAudit

namespace Value

/-- The value of a number; booleans are none. -/
def magnitude? : Value → Option Magnitude
  | .int n => some (.ofInt n)
  | .float x => some (.ofBinary64 x)
  | .nan _ => some .nan
  | _ => none

/-- The value of a number or boolean, the latter as zero or one. -/
def looseMagnitude? : Value → Option Magnitude
  | .bool b => some (.ofInt (if b then 1 else 0))
  | v => v.magnitude?

/-- The elements of a list, a tuple, or octets taken as whole numbers. -/
def sequence? (s : Store) : Value → Option (List Value)
  | .list a | .tuple a => some (s.elements a)
  | .octets os => some (os.map fun o => .int o.toNat)
  | _ => none

/-- Whether two lists have the same length and agree element by element. -/
def pairwise (agree : Value → Value → Bool) : List Value → List Value → Bool
  | [], [] => true
  | v :: vs, w :: ws => agree v w && pairwise agree vs ws
  | _, _ => false

/-- Whether two mappings have the same keys and agree at each. -/
def keywise (agree : Value → Value → Bool) (vs ws : Entries) : Bool :=
  vs.length == ws.length &&
    vs.all fun (k, v) => match ws.lookup k with
      | some w => agree v w
      | none => false

/-- Whether two values are the same, looking at most `fuel` levels deep. -/
def sameWithin (s : Store) : Nat → Value → Value → Bool
  | 0, _, _ => false
  | fuel + 1, v, w =>
    v == w ||
    match v.magnitude?, w.magnitude? with
    | some x, some y => x.equal y
    | _, _ =>
      match v.sequence? s, w.sequence? s with
      | some vs, some ws => pairwise (sameWithin s fuel) vs ws
      | _, _ =>
        match v.entries? s, w.entries? s with
        | some vs, some ws => keywise (sameWithin s fuel) vs ws
        | _, _ => false

/-- Whether two values are the same to a schema. -/
def same (s : Store) (v w : Value) : Bool := sameWithin s (s.size + 2) v w

/-- Whether two values are loosely the same, looking at most `fuel` levels deep. -/
def alikeWithin (s : Store) : Nat → Value → Value → Bool
  | 0, _, _ => false
  | fuel + 1, v, w =>
    v == w ||
    match v.looseMagnitude?, w.looseMagnitude? with
    | some x, some y => x.equal y
    | _, _ =>
      match v, w with
      | .list a, .list b | .tuple a, .tuple b =>
        pairwise (alikeWithin s fuel) (s.elements a) (s.elements b)
      | .mapping a, .mapping b => keywise (alikeWithin s fuel) (s.entries a) (s.entries b)
      | _, _ => false

def alike (s : Store) (v w : Value) : Bool := alikeWithin s (s.size + 2) v w

end Value

end SchemaAudit

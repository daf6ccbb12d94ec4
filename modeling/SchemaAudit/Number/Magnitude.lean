import SchemaAudit.Number.Binary64

/-! # Exact comparison of numbers

Whole numbers and double-precision numbers are compared by value, without rounding either
side: both are whole multiples of a power of two, or infinite, or not a number.
-/

namespace SchemaAudit

/-- A number as comparisons see it. -/
inductive Magnitude where
  /-- The value `num / 2 ^ places`. -/
  | exact (num : Int) (places : Nat)
  | infinite (negative : Bool)
  /-- Unequal to everything, and neither below nor above anything. -/
  | nan
  deriving DecidableEq, Repr

namespace Magnitude

def ofInt (n : Int) : Magnitude := .exact n 0

def ofBinary64 : Binary64 → Magnitude
  | .finite s m e => let (num, k) := Binary64.fraction s m e; .exact num k
  | .infinite s => .infinite s

/-- How two numbers lie to each other; `none` if one of them is not a number. -/
def compare? : Magnitude → Magnitude → Option Ordering
  | .nan, _ | _, .nan => none
  | .infinite s, .infinite t =>
    some (if s = t then .eq else if s then .lt else .gt)
  | .infinite s, .exact .. => some (if s then .lt else .gt)
  | .exact .., .infinite t => some (if t then .gt else .lt)
  | .exact a i, .exact b j => some (compare (a * Binary64.twoTo j) (b * Binary64.twoTo i))

def equal (x y : Magnitude) : Bool := x.compare? y == some .eq

def less (x y : Magnitude) : Bool := x.compare? y == some .lt

def lessOrEqual (x y : Magnitude) : Bool := x.less y || x.equal y

/-- Whether a number is a whole multiple of another, both exact and the divisor not zero. -/
def isMultipleOf : Magnitude → Magnitude → Bool
  | .exact a i, .exact b j => (a * Binary64.twoTo j) % (b * Binary64.twoTo i) == 0
  | _, _ => false

end Magnitude

end SchemaAudit

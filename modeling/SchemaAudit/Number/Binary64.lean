/-! # Double-precision numbers

A finite number is a signed whole multiple of a power of two, so that sums of fractions,
comparisons and remainders are settled in exact integer arithmetic. Rounding happens in one
place, `Binary64.ofQuotient`, which every conversion and the division go through.
-/

namespace SchemaAudit

/-- A double-precision number other than "not a number". The finite ones are
    `± mantissa * 2 ^ exponent`, with the mantissa below `2 ^ 53`, and at least `2 ^ 52` unless
    the exponent is the least one, `-1074`. Zero keeps its sign. -/
inductive Binary64 where
  | finite (negative : Bool) (mantissa : Nat) (exponent : Int)
  | infinite (negative : Bool)
  deriving DecidableEq, Repr

namespace Binary64

/-- The least exponent: the spacing of the numbers nearest zero is `2 ^ -1074`. -/
def leastExponent : Int := -1074

def greatestExponent : Int := 971

def zero (negative : Bool) : Binary64 := .finite negative 0 leastExponent

/-- The quotient `num / den / 2 ^ e` as a numerator and a denominator. -/
def scaled (num den : Nat) (e : Int) : Nat × Nat :=
  if 0 ≤ e then (num, den * Nat.pow 2 e.toNat) else (num * Nat.pow 2 (-e).toNat, den)

/-- The quotient `num / den` rounded to the nearest whole number, a half to the even one. -/
def roundHalfEven (num den : Nat) : Nat :=
  let below := num / den
  let rest := 2 * (num % den)
  if rest < den then below
  else if den < rest then below + 1
  else if below % 2 = 0 then below else below + 1

/-- The exponent at which `num / den` is rounded: the mantissa fills 53 bits, unless the
    number is so small that the least exponent is reached first. -/
def exponentFor (num den : Nat) : Int :=
  let guess := max ((num.log2 : Int) - den.log2 - 53) leastExponent
  let (n, d) := scaled num den guess
  if Nat.pow 2 53 ≤ n / d then guess + 1 else guess

/-- The number nearest `± num / den`, of two equally near the one with the even mantissa. What
    would need an exponent above the greatest becomes infinite. -/
def ofQuotient (negative : Bool) (num den : Nat) : Binary64 :=
  if num = 0 then zero negative
  else
    let e := exponentFor num den
    let (n, d) := scaled num den e
    let m := roundHalfEven n d
    let (m, e) := if m = Nat.pow 2 53 then (Nat.pow 2 52, e + 1) else (m, e)
    if greatestExponent < e then .infinite negative else .finite negative m e

/-- The number nearest `± digits * 10 ^ exponent`. Exponents far outside the format's range are
    answered without computing the power. -/
def ofDecimal (negative : Bool) (digits : Nat) (exponent : Int) : Binary64 :=
  let width : Int := (Nat.toDigits 10 digits).length
  if digits = 0 then zero negative
  else if 400 < exponent + width then .infinite negative
  else if exponent + width < -400 then zero negative
  else if 0 ≤ exponent then ofQuotient negative (digits * Nat.pow 10 exponent.toNat) 1
  else ofQuotient negative digits (Nat.pow 10 (-exponent).toNat)

/-- The number nearest a whole number, unless that lies beyond the finite ones. -/
def ofInt? (n : Int) : Option Binary64 :=
  match ofQuotient (n < 0) n.natAbs 1 with
  | .finite s m e => some (.finite s m e)
  | .infinite _ => none

/-- A power of two among the whole numbers. -/
def twoTo (k : Nat) : Int := Int.ofNat (Nat.pow 2 k)

@[simp] theorem twoTo_zero : twoTo 0 = 1 := rfl

theorem twoTo_ne_zero (k : Nat) : twoTo k ≠ 0 :=
  Int.ofNat_ne_zero.mpr (Nat.ne_of_gt (Nat.two_pow_pos k))

/-- The signed numerator of a finite number over a power of two, with the power's exponent. -/
def fraction (negative : Bool) (mantissa : Nat) (exponent : Int) : Int × Nat :=
  let signed : Int := if negative then -mantissa else mantissa
  if 0 ≤ exponent then (signed * twoTo exponent.toNat, 0) else (signed, (-exponent).toNat)

def isZero : Binary64 → Bool
  | .finite _ m _ => m == 0
  | .infinite _ => false

def isWhole : Binary64 → Bool
  | .finite s m e => let (num, k) := fraction s m e; num % twoTo k == 0
  | .infinite _ => false

/-- The quotient of two numbers, the divisor not zero; `none` where it is not a number. -/
def quotient? : Binary64 → Binary64 → Option Binary64
  | .infinite _, .infinite _ => none
  | .infinite s, .finite t _ _ => some (.infinite (s != t))
  | .finite s _ _, .infinite t => some (zero (s != t))
  | .finite s m e, .finite t n f =>
    let (num, den) := scaled m n (f - e)
    some (ofQuotient (s != t) num den)

end Binary64

end SchemaAudit

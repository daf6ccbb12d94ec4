import SchemaAudit.Number.Binary64

/-! # The shortest decimal text of a number

A number is written with the fewest digits that read back as the same number, and of those
with the ones nearest to it. All tests are made on exact fractions.
-/

namespace SchemaAudit

/-- A positive decimal `digits * 10 ^ exponent`. -/
structure Decimal where
  digits : Nat
  exponent : Int
  deriving DecidableEq, Repr

namespace Decimal

structure Fraction where
  num : Nat
  den : Nat

namespace Fraction

def lt (x y : Fraction) : Bool := x.num * y.den < y.num * x.den

def distance (x y : Fraction) : Fraction :=
  ⟨((x.num * y.den : Int) - (y.num * x.den : Int)).natAbs, x.den * y.den⟩

/-- The value `n * 2 ^ e`. -/
def ofScaled (n : Nat) (e : Int) : Fraction :=
  if 0 ≤ e then ⟨n * Nat.pow 2 e.toNat, 1⟩ else ⟨n, Nat.pow 2 (-e).toNat⟩

/-- The exponent `p` with `10 ^ p ≤ x < 10 ^ (p + 1)`. -/
def decimalExponent (x : Fraction) : Int :=
  if x.den ≤ x.num then ((Nat.toDigits 10 (x.num / x.den)).length : Int) - 1
  else -((Nat.toDigits 10 ((x.den - 1) / x.num)).length : Int)

end Fraction

def value (d : Decimal) : Fraction :=
  if 0 ≤ d.exponent then ⟨d.digits * Nat.pow 10 d.exponent.toNat, 1⟩
  else ⟨d.digits, Nat.pow 10 (-d.exponent).toNat⟩

/-- The reals that read back as one number: between the midpoints to its neighbours, the ends
    included or not. -/
structure Basin where
  low : Fraction
  centre : Fraction
  high : Fraction
  closed : Bool

namespace Basin

/-- The basin of `mantissa * 2 ^ exponent`. The neighbour below a power of two is only half as
    far as the one above; the ends round to the even mantissa. -/
def of (mantissa : Nat) (exponent : Int) : Basin :=
  let step := if mantissa = Nat.pow 2 52 ∧ Binary64.leastExponent < exponent then 1 else 2
  { low := .ofScaled (4 * mantissa - step) (exponent - 2)
    centre := .ofScaled (4 * mantissa) (exponent - 2)
    high := .ofScaled (4 * mantissa + 2) (exponent - 2)
    closed := mantissa % 2 == 0 }

def contains (b : Basin) (x : Fraction) : Bool :=
  if b.closed then !x.lt b.low && !b.high.lt x else b.low.lt x && x.lt b.high

/-- The decimal with its last digit at `10 ^ place` that reads back, if there is one: of the
    two around the centre the nearer, and of two equally near the even one. -/
def onGrid (b : Basin) (place : Int) : Option Decimal :=
  let unit := (Decimal.mk 1 place).value
  let floor := (b.centre.num * unit.den) / (b.centre.den * unit.num)
  let below : Decimal := ⟨floor, place⟩
  let above : Decimal := ⟨floor + 1, place⟩
  match b.contains below.value && floor != 0, b.contains above.value with
  | false, false => none
  | true, false => some below
  | false, true => some above
  | true, true =>
    let down := b.centre.distance below.value
    let up := above.value.distance b.centre
    if down.lt up then some below
    else if up.lt down then some above
    else if floor % 2 = 0 then some below else some above

/-- The first grid, from one digit up to `count` further ones, that holds a decimal. -/
def firstGrid (b : Basin) (place : Int) : Nat → Option Decimal
  | 0 => b.onGrid place
  | count + 1 =>
    match b.onGrid place with
    | some d => some d
    | none => b.firstGrid (place - 1) count

end Basin

/-- The same decimal without trailing zeros, `count` of them at most. -/
def trim : Nat → Decimal → Decimal
  | 0, d => d
  | count + 1, d =>
    if d.digits % 10 = 0 ∧ d.digits ≠ 0 then trim count ⟨d.digits / 10, d.exponent + 1⟩ else d

/-- The shortest decimal that reads back as `mantissa * 2 ^ exponent`; seventeen digits always
    do. -/
def shortest (mantissa : Nat) (exponent : Int) : Decimal :=
  let b := Basin.of mantissa exponent
  match b.firstGrid b.centre.decimalExponent 16 with
  | some d => trim 17 d
  | none => ⟨mantissa, 0⟩

/-- How numbers are laid out: positionally while the exponent of the leading digit is at least
    `leastPositional` and below `firstScientific`, otherwise with an exponent of two digits or
    more and a sign. A whole number keeps one zero behind the point. -/
structure Layout where
  leastPositional : Int
  firstScientific : Int
  exponentWidth : Nat

/-- The layout of numbers in every text this library writes. -/
def layout : Layout := ⟨-4, 16, 2⟩

def zeros (count : Nat) : String := String.ofList (List.replicate count '0')

/-- A decimal exponent: sign, then at least `width` digits. -/
def exponentText (width : Nat) (e : Int) : String :=
  let digits := toString e.natAbs
  (if e < 0 then "-" else "+") ++ zeros (width - digits.length) ++ digits

def text (l : Layout) (d : Decimal) : String :=
  let ds := Nat.toDigits 10 d.digits
  let lead : Int := d.exponent + ds.length - 1
  if lead < l.leastPositional ∨ l.firstScientific ≤ lead then
    let rest := ds.drop 1
    String.ofList (ds.take 1) ++ (if rest.isEmpty then "" else "." ++ String.ofList rest)
      ++ "e" ++ exponentText l.exponentWidth lead
  else if lead < 0 then
    "0." ++ zeros (-lead - 1).toNat ++ String.ofList ds
  else
    let point := lead.toNat + 1
    let whole := String.ofList (ds.take point) ++ zeros (point - ds.length)
    let rest := ds.drop point
    whole ++ "." ++ (if rest.isEmpty then "0" else String.ofList rest)

end Decimal

namespace Binary64

def text : Binary64 → String
  | .infinite s => (if s then "-" else "") ++ "inf"
  | .finite s m e =>
    (if s then "-" else "") ++ (if m = 0 then "0.0" else (Decimal.shortest m e).text Decimal.layout)

end Binary64

end SchemaAudit

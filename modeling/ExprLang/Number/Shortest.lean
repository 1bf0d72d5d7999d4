/-!
# The fewest digits that read back

`shortest m q` is a decimal `n * 10 ^ g` for the double `m * 2 ^ q`. A decimal reads back as that
double if it lies between the midpoints to the two neighbouring doubles; the midpoints themselves
belong to the double with an even significand. The grids of multiples of `10 ^ g` are tried from
the coarsest whose step does not exceed the value. On a grid only the multiples just below and
just above the value matter: the first grid where one of them reads back gives the digits, and of
two that read back the nearer is taken, the upper one if they are equally near.
-/

namespace ExprLang

/-- The number `digits * 10 ^ exponent`. -/
structure Decimal where
  digits : Nat
  exponent : Int
  deriving DecidableEq, Repr

namespace Decimal

/-- The interval of a double on a common scale: four times the value is `value`, and `low` and
`high` are its ends; a grid step is `step`. -/
structure Interval where
  low : Nat
  value : Nat
  high : Nat
  step : Nat
  /-- Whether the ends belong to the interval. -/
  closed : Bool

namespace Interval

/-- The interval of `m * 2 ^ q` against the grid of `10 ^ g`. The gap below the least significand
of an exponent is half the gap above it, except at the least exponent. -/
def of (m : Nat) (q g : Int) : Interval :=
  let scale := Nat.pow 2 q.toNat * Nat.pow 10 (-g).toNat
  let below := if m = Nat.pow 2 52 ∧ -1074 < q then 1 else 2
  { low := (4 * m - below) * scale
    value := 4 * m * scale
    high := (4 * m + 2) * scale
    step := 4 * Nat.pow 2 (-q).toNat * Nat.pow 10 g.toNat
    closed := m % 2 == 0 }

/-- Whether a number on the common scale lies in the interval. -/
def covers (i : Interval) (x : Nat) : Bool :=
  if i.closed then i.low ≤ x && x ≤ i.high else i.low < x && x < i.high

/-- The multiple of the step that is taken on this grid, if one of the two neighbours lies in the
interval and the step does not exceed the value. -/
def hit? (i : Interval) : Option Nat :=
  let n := i.value / i.step
  let lower := n * i.step
  let upper := (n + 1) * i.step
  if n = 0 then none
  else
    match i.covers lower, i.covers upper with
    | true, true => some (if i.value - lower < upper - i.value then n else n + 1)
    | true, false => some n
    | false, true => some (n + 1)
    | false, false => none

end Interval

/-- The first hit on the grids of `10 ^ g`, `10 ^ (g - 1)`, …. -/
def search (m : Nat) (q : Int) : Nat → Int → Decimal
  | 0, g => ⟨0, g⟩
  | tries + 1, g =>
    match (Interval.of m q g).hit? with
    | some n => ⟨n, g⟩
    | none => search m q tries (g - 1)

/-- Moves the zeros at the end of the digits into the exponent. -/
def stripZeros : Nat → Decimal → Decimal
  | 0, d => d
  | tries + 1, d =>
    if d.digits % 10 = 0 then stripZeros tries ⟨d.digits / 10, d.exponent + 1⟩ else d

/-- A power of ten that is not below `m * 2 ^ q`: `30103 / 100000` exceeds the logarithm of two. -/
def topExponent (m : Nat) (q : Int) : Int := (m.log2 + 1 + q) * 30103 / 100000 + 1

/-- The shortest decimal of the positive double `m * 2 ^ q`. Every double is a multiple of
`10 ^ (-1074)`, so the search ends before its tries do. -/
def shortest (m : Nat) (q : Int) : Decimal :=
  let top := topExponent m q
  stripZeros 2 (search m q (top + 1075).toNat top)

end Decimal

end ExprLang

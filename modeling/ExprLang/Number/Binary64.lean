/-!
# Doubles as integers times powers of two

`Binary64.ofFloat` splits a double into its sign, an integer significand and a power of two, so
that everything that has to be exact is done on integers. `nearest` goes the other way: it is the
double closest to a quotient of natural numbers, a tie going to the even significand.

Powers are written `Nat.pow`, which is the same function whatever else is imported.
-/

namespace ExprLang

/-- The value of a double. A finite one is `significand * 2 ^ exponent`, with its sign apart. -/
inductive Binary64 where
  | nan
  | infinite (negative : Bool)
  | finite (negative : Bool) (significand : Nat) (exponent : Int)
  deriving DecidableEq, Repr

namespace Binary64

/-- The exponent of the last place of a subnormal. -/
def leastExponent : Int := -1074

/-- Reads sign, exponent field and fraction of a bit pattern. -/
def ofBits (bits : Nat) : Binary64 :=
  let negative := bits / Nat.pow 2 63 % 2 == 1
  let field := bits / Nat.pow 2 52 % Nat.pow 2 11
  let fraction := bits % Nat.pow 2 52
  if field = 2047 then
    if fraction = 0 then .infinite negative else .nan
  else if field = 0 then .finite negative fraction leastExponent
  else .finite negative (Nat.pow 2 52 + fraction) (leastExponent + (field - 1 : Nat))

/-- The value of a double. -/
def ofFloat (x : Float) : Binary64 := ofBits x.toBits.toNat

/-- The quotient `n / d`, rounded to the nearest integer and to the even one of two. -/
def roundQuotient (n d : Nat) : Nat :=
  let q := n / d
  let r := n % d
  if 2 * r < d then q else if d < 2 * r then q + 1 else q + q % 2

/-- The numerator and denominator of `n / d` divided by `2 ^ q`. -/
def scaled (n d : Nat) (q : Int) : Nat × Nat :=
  (n * Nat.pow 2 (-q).toNat, d * Nat.pow 2 q.toNat)

/-- The exponent of the leading binary digit of `n / d`. -/
def leadingExponent (n d : Nat) : Int :=
  let l : Int := (n.log2 : Int) - d.log2
  let (a, b) := scaled n d l
  if a < b then l - 1 else l

/-- The bit pattern of infinity. -/
def infinityBits : Nat := 2047 * Nat.pow 2 52

/-- The bit pattern of the double nearest to the positive quotient `n / d`. The exponent field and
the fraction are one number, so a significand that rounds up to the next power of two carries into
the field. -/
def nearestBits (n d : Nat) : Nat :=
  let q := max (leadingExponent n d - 52) leastExponent
  let (a, b) := scaled n d q
  min ((q - leastExponent).toNat * Nat.pow 2 52 + roundQuotient a b) infinityBits

/-- The double nearest to the quotient `n / d`, with the given sign. -/
def nearest (negative : Bool) (n d : Nat) : Float :=
  let sign := if negative then Nat.pow 2 63 else 0
  Float.ofBits (UInt64.ofNat (sign + if n = 0 then 0 else nearestBits n d))

/-- The double `significand * 2 ^ exponent`, rounded if need be. -/
def toFloat : Binary64 → Float
  | .nan => Float.ofBits 0x7FF8000000000000
  | .infinite negative =>
    Float.ofBits (UInt64.ofNat ((if negative then Nat.pow 2 63 else 0) + infinityBits))
  | .finite negative m q => nearest negative (m * Nat.pow 2 q.toNat) (Nat.pow 2 (-q).toNat)

end Binary64

end ExprLang

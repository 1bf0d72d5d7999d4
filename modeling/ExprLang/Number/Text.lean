import ExprLang.Number.Binary64
import ExprLang.Number.Shortest

/-!
# Numbers as text

A number is written with the fewest digits that read back. `Number.text` never uses an exponent
and writes an integer without a point; `Number.detail` marks every number as fractional and turns
to an exponent for the very large and the very small. `Number.read` takes digits with at most one
point to the nearest double.
-/

namespace ExprLang

namespace Decimal

/-- The decimal digits of a number. -/
def digitText (n : Nat) : List Char := Nat.toDigits 10 n

/-- Positional notation: the digits before the point, `0` if there are none, and those after. -/
def positional (d : Decimal) : List Char × List Char :=
  let ds := digitText d.digits
  if 0 ≤ d.exponent then (ds ++ List.replicate d.exponent.toNat '0', [])
  else
    let places := (-d.exponent).toNat
    let padded := List.replicate (places + 1 - ds.length) '0' ++ ds
    padded.splitAt (padded.length - places)

/-- Scientific notation: one digit, the digits after the point, and the exponent. -/
def scientific (d : Decimal) : List Char × List Char × Int :=
  let ds := digitText d.digits
  (ds.take 1, ds.drop 1, d.exponent + (ds.length - 1 : Nat))

end Decimal

namespace Number

/-- The choices of a written form. -/
structure Style where
  /-- Whether a number without fractional digits is written with `.0`. -/
  pointed : Bool
  /-- Whether a number whose leading digit stands at this power of ten is written positionally. -/
  isPositional : Int → Bool

/-- Whole part and fraction, with the point between them if there is a fraction to show. -/
def joined (pointed : Bool) (whole fraction : List Char) : String :=
  if fraction.isEmpty then String.ofList whole ++ (if pointed then ".0" else "")
  else String.ofList whole ++ "." ++ String.ofList fraction

/-- A positive decimal in a style. -/
def Style.decimal (style : Style) (d : Decimal) : String :=
  let (lead, fraction, exponent) := d.scientific
  if style.isPositional exponent then
    let (whole, fraction) := d.positional
    joined style.pointed whole fraction
  else joined false lead fraction ++ "e" ++ toString exponent

/-- A double in a style. The sign of zero is kept, that of an undefined number is not. -/
def Style.write (style : Style) (x : Float) : String :=
  match Binary64.ofFloat x with
  | .nan => "NaN"
  | .infinite negative => (if negative then "-" else "") ++ "inf"
  | .finite negative m q =>
    (if negative then "-" else "") ++
      if m = 0 then joined style.pointed ['0'] [] else style.decimal (Decimal.shortest m q)

/-- Results and program text: always positional, integers without a point. -/
def plain : Style := ⟨false, fun _ => true⟩

/-- Outlines: positional from `0.0001` up to below `10 ^ 16`, and always with a point there. -/
def detailed : Style := ⟨true, fun e => -4 ≤ e && e < 16⟩

/-- The text of a number in a result and in a program. -/
def text (x : Float) : String := plain.write x

/-- The text of a number in an outline. -/
def detail (x : Float) : String := detailed.write x

/-- The value of a run of digits. -/
def digitsValue (ds : List Char) : Nat := ds.foldl (fun n c => 10 * n + (c.toNat - '0'.toNat)) 0

/-- The double nearest to a text of digits with at most one point. -/
def read (cs : List Char) : Float :=
  let whole := cs.takeWhile (· != '.')
  let fraction := (cs.dropWhile (· != '.')).drop 1
  Binary64.nearest false (digitsValue (whole ++ fraction)) (Nat.pow 10 fraction.length)

end Number

end ExprLang

import ExprLang.Number.Binary64

/-!
# The exact remainder

`Number.remainder x y` is `x - n * y`, where `n` is `x / y` with its fraction cut off. The result
is exact, has the sign of `x` and is smaller than `y` in absolute value.
-/

namespace ExprLang.Number

/-- The remainder of `x` by `y`, undefined for an infinite `x` and for a zero `y`. -/
def remainder (x y : Float) : Float :=
  match Binary64.ofFloat x, Binary64.ofFloat y with
  | .finite negative m q, .finite _ n r =>
    if n = 0 then Binary64.toFloat .nan
    else
      let e := min q r
      let rest := (m * Nat.pow 2 (q - e).toNat) % (n * Nat.pow 2 (r - e).toNat)
      Binary64.toFloat (.finite negative rest e)
  | .finite .., .infinite _ => x
  | _, _ => Binary64.toFloat .nan

end ExprLang.Number

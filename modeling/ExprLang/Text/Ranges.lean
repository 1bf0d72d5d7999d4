/-!
# Sets of characters given by ranges of code points

`Ranges` is a list of pairs, first and last code point of a run; `Ranges.contains` is membership.
The character classes of this folder are tables of this form.
-/

namespace ExprLang.Text

/-- A set of code points, as inclusive runs `(first, last)` in ascending order. -/
abbrev Ranges := List (Nat × Nat)

/-- Membership of a code point in one of the runs. -/
def Ranges.contains : Ranges → Nat → Bool
  | [], _ => false
  | (first, last) :: rest, n => (Nat.ble first n && Nat.ble n last) || Ranges.contains rest n

end ExprLang.Text

import ExprLang.Text.Ranges

/-!
# White space

`isBlank` holds of the 25 characters that Unicode gives the property *White_Space*.
-/

namespace ExprLang.Text

/-- The runs of the property *White_Space*. -/
def blank : Ranges :=
  [(0x9, 0xD), (0x20, 0x20), (0x85, 0x85), (0xA0, 0xA0), (0x1680, 0x1680), (0x2000, 0x200A),
   (0x2028, 0x2029), (0x202F, 0x202F), (0x205F, 0x205F), (0x3000, 0x3000)]

/-- A space, a tab, a line end or another blank. -/
def isBlank (c : Char) : Bool := Ranges.contains blank c.toNat

end ExprLang.Text

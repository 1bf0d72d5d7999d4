/-!
# Places in a line

A `Span` is a range of byte offsets into the UTF-8 form of a line; `Located` pairs something with
the span it stands at. Offsets are numbers without a bound, which stand for words of 32 bits: every
line is meant to be shorter than `2 ^ 32` bytes, and a span in such a line ends below that.
-/

namespace ExprLang

/-- The bytes from `start` up to, but not including, `stop`. -/
structure Span where
  start : Nat
  stop : Nat
  deriving DecidableEq, Repr, Inhabited

namespace Span

/-- The empty span at an offset. -/
def point (offset : Nat) : Span := ⟨offset, offset⟩

/-- The least span that covers both. -/
def union (s t : Span) : Span := ⟨min s.start t.start, max s.stop t.stop⟩

/-- Whether the byte at an offset belongs to the span. -/
def contains (s : Span) (offset : Nat) : Bool := s.start ≤ offset && offset < s.stop

/-- The two offsets with two points between them. -/
def text (s : Span) : String := toString s.start ++ ".." ++ toString s.stop

/-- The span moved to the right. -/
def shift (offset : Nat) (s : Span) : Span := ⟨s.start + offset, s.stop + offset⟩

end Span

/-- Something that stands at a place in the line. -/
structure Located (α : Type) where
  val : α
  span : Span
  deriving DecidableEq, Repr

/-- A name where it is written. -/
abbrev Name := Located String

end ExprLang

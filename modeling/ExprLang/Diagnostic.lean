import ExprLang.Error
import ExprLang.Text.Lines

/-!
# Diagnostics

A `Diagnostic` is what is shown of an error: a title, a text and, if the place of the error is a
place of the line at hand, that line with a label at the place.
-/

namespace ExprLang

/-- A place in a source text, with a word about it. -/
structure Excerpt where
  source : String
  /-- What the source is called. -/
  name : String
  label? : Option String
  span : Span

/-- What is shown of an error. -/
structure Diagnostic where
  title : String
  text : String
  excerpt? : Option Excerpt := none

/-- Whether both ends of a span are character boundaries of a text, in order. An error in the body
of a function that was declared on another line may have a place that this line does not have. -/
def Span.fits (s : Span) (cs : List Char) : Bool :=
  s.start ≤ s.stop && Text.isBoundary cs s.start && Text.isBoundary cs s.stop

namespace Diagnostic

/-- What a line is called. -/
def lineName : String := "<line>"

/-- The diagnostic of an error in a line. -/
def ofError (e : Error) (line : String) : Diagnostic :=
  { title := e.val.title
    text := e.val.detail
    excerpt? :=
      if e.span.fits line.toList then some ⟨line, lineName, some e.val.label, e.span⟩ else none }

end Diagnostic

end ExprLang

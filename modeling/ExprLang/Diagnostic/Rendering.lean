import ExprLang.Diagnostic
import ExprLang.Text.Blank
import ExprLang.Text.Width

/-!
# Diagnostics as text

A diagnostic is laid out as a list of pieces, texts and changes of ink, so that the layout does not
depend on whether colours are shown: without colours the changes of ink are dropped.

An excerpt shows the labelled lines with their numbers. A label within one line is a row of carets
under it. A label over several lines is a bracket at their left: its upper arm points at the start
of the label, or is part of the first line if only blanks precede the label, and its lower arm
points at the end.
-/

namespace ExprLang

/-- The inks of a diagnostic. -/
inductive Ink where
  /-- The word before the title of a diagnostic with an excerpt. -/
  | alert
  /-- The word before the title of a diagnostic without an excerpt. -/
  | warning
  /-- The title. -/
  | heading
  /-- Line numbers and the frame. -/
  | frame
  /-- The label and what it labels. -/
  | mark
  /-- No ink of its own. -/
  | off
  deriving DecidableEq, Repr

namespace Ink

/-- The control sequences that change to an ink. Each starts from the plain state. -/
def sequences : Ink → String
  | alert => "\x1b[0m\x1b[1m\x1b[38;5;9m"
  | warning => "\x1b[0m\x1b[1m\x1b[31m"
  | heading => "\x1b[0m\x1b[1m"
  | frame => "\x1b[0m\x1b[34m"
  | mark => "\x1b[0m\x1b[31m"
  | off => "\x1b[0m"

end Ink

/-- A part of a layout. -/
inductive Piece where
  | text (s : String)
  | ink (i : Ink)
  deriving DecidableEq, Repr

namespace Piece

/-- The output of a part, with or without colours. -/
def write (colour : Bool) : Piece → String
  | text s => s
  | ink i => if colour then i.sequences else ""

/-- A text in an ink. -/
def inked (i : Ink) (s : String) : List Piece := [ink i, text s, ink .off]

/-- The output of a layout, with or without colours. -/
def writeAll (colour : Bool) (ps : List Piece) : String := String.join (ps.map (write colour))

end Piece

/-- A character of a shown line: its offset in the line, and the columns it takes. -/
structure Cell where
  offset : Nat
  width : Nat
  char : Char

namespace Cell

/-- The distance between tab stops. -/
def tabStop : Nat := 4

/-- The cells of a text that begins at an offset and a column. A tab reaches to the next tab
stop. -/
def place : List Char → Nat → Nat → List Cell
  | [], _, _ => []
  | c :: cs, offset, column =>
    let width := if c == '\t' then tabStop - column % tabStop else Text.columns c
    ⟨offset, width, c⟩ :: place cs (offset + c.utf8Size) (column + width)

/-- The cells of a line. -/
def ofLine (cs : List Char) : List Cell := place cs 0 0

/-- The cell that stands behind a line. -/
def behind (cs : List Char) : Cell := ⟨Text.byteLength cs, 1, '\x00'⟩

/-- What is shown of a cell: spaces for a tab. -/
def text (c : Cell) : String :=
  if c.char == '\t' then String.ofList (List.replicate c.width ' ') else String.singleton c.char

/-- A character as often as the cell is wide. -/
def fill (c : Cell) (x : Char) : String := String.ofList (List.replicate c.width x)

/-- Whether the cell shares a byte with a span of its line. -/
def overlaps (c : Cell) (s : Span) : Bool :=
  max c.offset s.start < min (c.offset + c.char.utf8Size) s.stop

end Cell

/-- Changes to the mark where marked cells begin and back where they end. -/
def markRuns (marked : Cell → Bool) (content : Cell → String) : Bool → List Cell → List Piece
  | inMark, [] => if inMark then [.ink .off] else []
  | inMark, c :: cs =>
    let change :=
      if marked c == inMark then [] else [Piece.ink (if inMark then .off else .mark)]
    change ++ .text (content c) :: markRuns marked content (marked c) cs

/-- The place of a label in the lines of its source. -/
structure LabelPlace where
  first : Text.Line
  last : Text.Line
  /-- The start of the label in its first line. -/
  start : Nat
  /-- The end of the label in its last line. -/
  stop : Nat

namespace LabelPlace

/-- The place of a label in the lines of a text. -/
def of (ls : Array Text.Line) (s : Span) : LabelPlace :=
  let first := Text.lineAt ls s.start
  let last := Text.lineAt ls s.stop
  ⟨first, last, s.start - first.start, s.stop - last.start⟩

/-- How many lines from the first one on are shown of a long label. -/
def linesBefore : Nat := 3

/-- How many lines before the last one are shown of a long label. -/
def linesAfter : Nat := 1

/-- Whether only blanks precede the label, so that the bracket needs no upper arm of its own. -/
def startsLine (p : LabelPlace) : Bool :=
  p.start ≤ Text.byteLength (p.first.shown.takeWhile Text.isBlank)

/-- The lines before and after those that are left out, if lines are left out. A single one is
not. -/
def gap (p : LabelPlace) : Option (Nat × Nat) :=
  let lastBefore := p.first.index + linesBefore
  let firstAfter := p.last.index - linesAfter
  if lastBefore + 2 < firstAfter then some (lastBefore, firstAfter) else none

end LabelPlace

namespace Excerpt

/-- The column of line numbers with a number, and the bar behind it. -/
def numbered (width : Nat) (number : Nat) : List Piece :=
  let digits := toString number
  Piece.inked .frame (String.ofList (List.replicate (width - digits.length) ' ') ++ digits) ++
    .text " " :: Piece.inked .frame "│"

/-- The column of line numbers without a number, and a border behind it. -/
def unnumbered (width : Nat) (border : String) : List Piece :=
  .text (String.ofList (List.replicate (width + 1) ' ')) :: Piece.inked .frame border

/-- A label that is not empty, behind a space. -/
def labelPieces (label : String) : List Piece :=
  if label.isEmpty then [] else .text " " :: Piece.inked .mark label

/-- A label within one line: the line, and carets under the label, which covers at least one
byte. -/
def singleLine (width : Nat) (p : LabelPlace) (label : String) : List Piece :=
  let shown := p.first.shown
  let range : Span := ⟨p.start, max p.stop (p.start + 1)⟩
  let marked (c : Cell) := c.overlaps range
  let caret (c : Cell) :=
    if marked c then c.fill '^' else if c.offset < range.stop then c.fill ' ' else ""
  numbered width p.first.number ++ .text " " :: markRuns marked Cell.text false (Cell.ofLine shown) ++
    .text "\n" :: unnumbered width "│" ++
    .text " " :: markRuns marked caret false (Cell.ofLine shown ++ [Cell.behind shown]) ++
    labelPieces label ++ [.text "\n"]

/-- A line of a longer label, with its part of the bracket. -/
def bracketLine (width : Nat) (l : Text.Line) (bracket : List Piece) (marked : Cell → Bool) :
    List Piece :=
  numbered width l.number ++ bracket ++
    .text " " :: markRuns marked Cell.text false (Cell.ofLine l.shown) ++ [.text "\n"]

/-- An arm of the bracket: a rule as wide as the cells of a line that a test admits, and a caret. -/
def arm (width : Nat) (l : Text.Line) (corner : String) (reaches : Cell → Bool) (label : String) :
    List Piece :=
  let rule := String.join (((Cell.ofLine l.shown).takeWhile reaches).map (·.fill '─'))
  let tail := if label.isEmpty then "" else " " ++ label
  unnumbered width "│" ++ .text " " :: Piece.inked .mark corner ++
    Piece.inked .mark (rule ++ "^" ++ tail) ++ [.text "\n"]

/-- The bar of the bracket. -/
def bar : List Piece := .text " " :: Piece.inked .mark "│"

/-- The first line of a longer label, with the upper arm of the bracket. -/
def firstLine (width : Nat) (p : LabelPlace) : List Piece :=
  let marked (c : Cell) := decide (p.start ≤ c.offset)
  if p.startsLine then bracketLine width p.first (.text " " :: Piece.inked .mark "╭") marked
  else
    bracketLine width p.first [.text "  "] marked ++
      arm width p.first "╭" (fun c => c.offset < p.start + 1) ""

/-- The last line of a longer label, with the lower arm of the bracket. -/
def lastLine (width : Nat) (p : LabelPlace) (label : String) : List Piece :=
  bracketLine width p.last bar (fun c => c.offset + c.char.utf8Size ≤ p.stop) ++
    arm width p.last "╰" (fun c => c.offset < p.stop) label

/-- A label over several lines. -/
def multiLine (width : Nat) (ls : Array Text.Line) (p : LabelPlace) (label : String) : List Piece :=
  let inner (l : Text.Line) :=
    if p.first.index < l.index && l.index < p.last.index then
      match p.gap with
      | some (lastBefore, firstAfter) =>
        if l.index ≤ lastBefore || firstAfter ≤ l.index then
          bracketLine width l bar (fun _ => true) ++
            if l.index = lastBefore then unnumbered width "·" ++ bar ++ [.text "\n"] else []
        else []
      | none => bracketLine width l bar fun _ => true
    else []
  firstLine width p ++ ls.toList.flatMap inner ++ lastLine width p label

/-- A label that ends on an earlier line than it starts: the lower arm comes first, and the lines
between the arms are outside the bracket. A single one is shown. -/
def crossedLines (width : Nat) (ls : Array Text.Line) (p : LabelPlace) (label : String) :
    List Piece :=
  let between :=
    match (ls.toList.take p.first.index).drop (p.last.index + 1) with
    | [] => []
    | [l] => bracketLine width l [.text "  "] fun _ => false
    | _ => unnumbered width "·" ++ [.text "  \n"]
  lastLine width p label ++ between ++ firstLine width p

/-- An excerpt: where the label is, and the labelled lines. -/
def pieces (e : Excerpt) : List Piece :=
  let ls := Text.lines e.source.toList
  let p := LabelPlace.of ls e.span
  let width := (toString (max p.first.number p.last.number)).length
  let label := e.label?.getD ""
  let spread := p.first.index != p.last.index
  unnumbered width "┌─" ++
    .text (" " ++ e.name ++ ":" ++ toString p.first.number ++ ":" ++
      toString (p.first.column e.span.start) ++ "\n") ::
    unnumbered width "│" ++ .text (if spread then "  \n" else "\n") ::
    (if p.first.index < p.last.index then multiLine width ls p label
      else if spread then crossedLines width ls p label
      else singleLine width p label) ++ [.text "\n"]

end Excerpt

namespace Diagnostic

/-- The title behind the word `error`. -/
def headline (word : Ink) (title : String) : List Piece :=
  [.ink word, .text "error", .ink .heading, .text (": " ++ title)]

/-- The layout of a diagnostic. -/
def pieces (d : Diagnostic) : List Piece :=
  let head :=
    match d.excerpt? with
    | some e => headline .alert d.title ++ [.ink .off, .text "\n"] ++ e.pieces
    | none => headline .warning d.title ++ [.text "\n\n", .ink .off]
  head ++ if d.text.isEmpty then [] else [.text (d.text ++ "\n")]

/-- The output of a diagnostic, with or without colours. -/
def write (d : Diagnostic) (colour : Bool) : String := Piece.writeAll colour d.pieces

/-- The output of the diagnostic of an error, with an empty line behind it. -/
def pretty (e : Error) (line : String) (colour : Bool) : String :=
  (ofError e line).write colour ++ "\n"

end Diagnostic

end ExprLang

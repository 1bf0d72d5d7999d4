/-!
# Lines of a text and byte offsets in it

A text is cut into lines behind each `\n`; the last line may be empty. Offsets count the bytes of
the UTF-8 form.
-/

namespace ExprLang.Text

/-- The number of bytes of a text. -/
def byteLength (cs : List Char) : Nat := cs.foldl (fun n c => n + c.utf8Size) 0

/-- Whether an offset is at the start of a character or at the end of the text. -/
def isBoundary : List Char → Nat → Bool
  | _, 0 => true
  | [], _ + 1 => false
  | c :: cs, n + 1 => c.utf8Size ≤ n + 1 && isBoundary cs (n + 1 - c.utf8Size)

/-- A line of a text: how many lines and bytes are before it, and its characters with the line
end. -/
structure Line where
  index : Nat
  start : Nat
  chars : List Char

namespace Line

/-- The number of the line, from one on. -/
def number (l : Line) : Nat := l.index + 1

/-- Whether a character is no part of the line when its end is cut off. -/
def isLineEnd (c : Char) : Bool := c == '\n' || c == '\r' || c == '\x00'

/-- The line without its line end. -/
def shown (l : Line) : List Char := (l.chars.reverse.dropWhile isLineEnd).reverse

/-- Counts on from `n` by the characters that end within a number of bytes. -/
def charsWithin : List Char → Nat → Nat → Nat
  | [], _, n => n
  | c :: cs, bytes, n =>
    if c.utf8Size ≤ bytes then charsWithin cs (bytes - c.utf8Size) (n + 1) else n

/-- The column of an offset in the text, in characters from one on. -/
def column (l : Line) (offset : Nat) : Nat := charsWithin l.chars (offset - l.start) 1

end Line

/-- Cuts a text into lines. The arguments are what was cut off already, the place of the current
line, and its characters so far, last first. -/
def cutLines : List Char → Array Line → Nat → Nat → List Char → Array Line
  | [], lines, index, start, line => lines.push ⟨index, start, line.reverse⟩
  | c :: cs, lines, index, start, line =>
    if c == '\n' then
      let chars := (c :: line).reverse
      cutLines cs (lines.push ⟨index, start, chars⟩) (index + 1) (start + byteLength chars) []
    else cutLines cs lines index start (c :: line)

/-- The lines of a text. -/
def lines (cs : List Char) : Array Line := cutLines cs #[] 0 0 []

/-- The line that holds an offset: the last one that starts at or before it. -/
def lineAt (ls : Array Line) (offset : Nat) : Line :=
  ls.foldl (fun found l => if l.start ≤ offset then l else found) ⟨0, 0, []⟩

end ExprLang.Text

import ExprLang.Error.Lexical
import ExprLang.Text.Blank
import ExprLang.Text.Numeric
import ExprLang.Token

/-!
# Cutting a line into tokens

* `scan` cuts one lexeme off a non-empty text. It looks at the first character, and at the second
  where two characters may form one symbol or one line end; words, numbers, blanks and strings
  extend as far as they can.
* `Lexer` is a position in a line: `nextToken` scans there and records what is wrong with the
  lexeme; past the end of the line it answers the end of input for ever.
* `tokenize` runs a lexer over a whole line.

No character is skipped: layout and stray characters have tokens of their own. The offsets that a
lexer counts are those of `Span`, so its line is meant to be shorter than `2 ^ 32` bytes.
-/

namespace ExprLang

/-- One lexeme, what is wrong with it, and the text after it. -/
structure Scan where
  lexeme : Lexeme
  error? : Option LexicalError := none
  rest : List Char

namespace Scan

/-- The symbol at the head of a text. Two characters are taken together if they form a symbol. -/
def symbol? (c : Char) (rest : List Char) : Option (Symbol × List Char) :=
  match rest with
  | [] => (Symbol.ofChar? c).map fun s => (s, [])
  | d :: tail =>
    match Symbol.ofPair? c d with
    | some s => some (s, tail)
    | none => (Symbol.ofChar? c).map fun s => (s, rest)

/-- The number of the given digits and point. It is wrong if no finite double is near it. -/
def ofNumber (text rest : List Char) : Scan :=
  let x := Number.read text
  if x.isFinite then ⟨⟨.literal, String.ofList text, some (.number x)⟩, none, rest⟩
  else ⟨⟨.literal, String.ofList text, none⟩, some (.invalidNumber (String.ofList text)), rest⟩

/-- A number that begins with a digit: digits, and then a point with any digits after it. -/
def number (c : Char) (rest : List Char) : Scan :=
  let whole := c :: rest.takeWhile Char.isDigit
  match rest.dropWhile Char.isDigit with
  | '.' :: tail =>
    ofNumber (whole ++ '.' :: tail.takeWhile Char.isDigit) (tail.dropWhile Char.isDigit)
  | rest => ofNumber whole rest

/-- Whether a character continues a word. -/
def isWordChar (c : Char) : Bool := Text.isAlphanumeric c || c == '_'

/-- A word that begins with a given character. -/
def word (c : Char) (rest : List Char) : Scan :=
  ⟨.ofWord (String.ofList (c :: rest.takeWhile isWordChar)), none, rest.dropWhile isWordChar⟩

/-- Whether a character continues a run of white space; line ends have tokens of their own. -/
def isSpace (c : Char) : Bool := Text.isBlank c && c != '\n' && c != '\r'

/-- White space that begins with a given character. -/
def space (c : Char) (rest : List Char) : Scan :=
  ⟨⟨.whitespace, String.ofList (c :: rest.takeWhile isSpace), none⟩, none, rest.dropWhile isSpace⟩

/-- A string after its opening quote. It has no escapes and may hold line ends; without a closing
quote it extends to the end of the text. -/
def string (rest : List Char) : Scan :=
  let content := rest.takeWhile (· != '"')
  let value := some (Literal.string (String.ofList content))
  match rest.dropWhile (· != '"') with
  | [] => ⟨⟨.literal, String.ofList ('"' :: content), value⟩, some .unterminatedString, []⟩
  | _ :: rest => ⟨⟨.literal, String.ofList ('"' :: content ++ ['"']), value⟩, none, rest⟩

end Scan

/-- The lexeme at the head of the text `c :: rest`. -/
def scan (c : Char) (rest : List Char) : Scan :=
  match Scan.symbol? c rest with
  | some (s, rest) => ⟨⟨.symbol s, s.spelling, none⟩, none, rest⟩
  | none =>
    if c == '"' then Scan.string rest
    else if c == '\n' then ⟨⟨.lineEnd, "\n", none⟩, none, rest⟩
    else if c == '\r' then
      match rest with
      | '\n' :: tail => ⟨⟨.lineEnd, "\r\n", none⟩, none, tail⟩
      | _ => ⟨⟨.whitespace, "\r", none⟩, none, rest⟩
    else if c.isDigit then Scan.number c rest
    else if Text.isAlphabetic c || c == '_' then Scan.word c rest
    else if Text.isBlank c then Scan.space c rest
    else ⟨⟨.stray, String.singleton c, none⟩, some (.unrecognized c), rest⟩

/-- A position in a line. -/
structure Lexer where
  /-- The text not yet cut into tokens. -/
  rest : List Char
  /-- The number of bytes before it. -/
  position : Nat := 0
  /-- The offset that is reported for a number of bytes. -/
  place : Nat → Nat := id
  /-- Whether the end of input was handed out as the last token. -/
  finished : Bool := false
  /-- What was wrong with the tokens so far. -/
  errors : Array (Located LexicalError) := #[]

namespace Lexer

/-- A lexer at the start of a line; offsets are byte offsets. -/
def ofLine (line : String) : Lexer := { rest := line.toList }

/-- The offset reported after a number of bytes, when each character comes with an offset of its
own: the offset of the character there, or the end of the last character. -/
def placeAmong : List (Nat × Char) → Nat → Nat
  | [], _ => 0
  | [(offset, c)], bytes => if bytes = 0 then offset else offset + c.utf8Size
  | (offset, c) :: next :: rest, bytes =>
    if bytes = 0 then offset else placeAmong (next :: rest) (bytes - c.utf8Size)

/-- A lexer over characters that come with offsets of their own. -/
def ofPlaced (chars : List (Nat × Char)) : Lexer :=
  { rest := chars.map Prod.snd, place := placeAmong chars }

/-- The offset of the next character. -/
def offset (l : Lexer) : Nat := l.place l.position

/-- The next token, and the lexer behind it. -/
def nextToken (l : Lexer) : Token × Lexer :=
  match l.rest with
  | [] => (.placeholder .endOfInput l.offset, l)
  | c :: cs =>
    let s := scan c cs
    let position := l.position + s.lexeme.text.utf8ByteSize
    let span : Span := ⟨l.offset, l.place position⟩
    let errors :=
      match s.error? with
      | some e => l.errors.push ⟨e, span⟩
      | none => l.errors
    (⟨s.lexeme, span⟩, { l with rest := s.rest, position, errors })

/-- The next token, until the end of input was handed out once. -/
def next? (l : Lexer) : Option Token × Lexer :=
  if l.finished then (none, l)
  else
    let (t, l) := l.nextToken
    (some t, { l with finished := t.kind == .endOfInput })

/-- The tokens up to the end of input, and the lexer behind them. A token has at least one
character, so there are no more steps than characters and two for the end. -/
def drain : Nat → Lexer → List Token × Lexer
  | 0, l => ([], l)
  | steps + 1, l =>
    match l.next? with
    | (none, l) => ([], l)
    | (some t, l) =>
      let (ts, l) := drain steps l
      (t :: ts, l)

/-- The tokens that are left, and the lexer at the end. -/
def tokens (l : Lexer) : List Token × Lexer := l.drain (l.rest.length + 2)

/-- The lexer without its errors. -/
def clearErrors (l : Lexer) : Lexer := { l with errors := #[] }

/-- A character that may be missing, in an outline. -/
def charOutline : Option Char → String
  | none => "None"
  | some c => "Some(" ++ Text.quoteChar c ++ ")"

/-- The two characters ahead and their offsets. -/
def outline (l : Lexer) : String :=
  let ahead := l.position + (l.rest.head?.map Char.utf8Size).getD 0
  "Lexer \x7b\n\tposition: " ++ toString l.offset ++ ",\n\tnext_position: " ++
    toString (l.place ahead) ++ ",\n\tch: " ++ charOutline l.rest[0]? ++ ", next_ch: " ++
    charOutline l.rest[1]? ++ "\n\x7d"

end Lexer

/-- The tokens of a line, the end of input last, and what is wrong with them. -/
def tokenize (line : String) : List Token × List (Located LexicalError) :=
  let (tokens, l) := (Lexer.ofLine line).tokens
  (tokens, l.errors.toList)

end ExprLang

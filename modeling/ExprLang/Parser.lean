import ExprLang.Error
import ExprLang.Lexer

/-!
# Reading tokens with recovery

A `Parser` is a position among the tokens of a line together with the errors so far. The first
error of a statement sets `recovering`; from then on nothing more is recorded for the statement, and
whoever expects a token goes on with a stand-in for it. A lexical error counts as the first error
of its statement: what follows it is not recorded either.

* `advance`, `expect` and `expectClosing` read a token;
* `report` records an error;
* `skipStatement` skips to the end of the statement.
-/

namespace ExprLang

/-- A position among the tokens of a line. -/
structure Parser where
  /-- The tokens ahead, without layout and stray characters and without the end of input. -/
  ahead : List Token
  /-- The end of input. -/
  last : Token
  lexErrors : List (Located LexicalError)
  /-- The number of tokens of the line, a bound on every repetition. -/
  size : Nat
  errors : Array (Located SyntaxError) := #[]
  /-- Whether the statement already has an error. -/
  recovering : Bool := false
  /-- Where the current statement begins: the end of the last semicolon. -/
  statementStart : Nat := 0
  ahead_le : ahead.length ≤ size

/-- A step of reading. -/
abbrev Parse := StateM Parser

namespace Parser

/-- A parser at the start of a line. -/
def ofLine (line : String) : Parser :=
  let (tokens, lexErrors) := tokenize line
  let significant := tokens.filter fun t => !t.kind.isTrivia
  { ahead := significant.dropLast
    last := significant.getLastD (.placeholder .endOfInput 0)
    lexErrors
    size := significant.dropLast.length
    ahead_le := Nat.le_refl _ }

/-- The token at a distance; past the end there is only the end of input. -/
def peek (p : Parser) (distance : Nat) : Token := p.ahead[distance]?.getD p.last

/-- The token that is read next. -/
def current (p : Parser) : Token := p.ahead.headD p.last

/-- Whether a lexical error of the current statement begins at or before an offset. -/
def lexErrorUpTo (p : Parser) (offset : Nat) : Bool :=
  p.lexErrors.any fun e => p.statementStart ≤ e.span.start && e.span.start ≤ offset

/-- The kinds of tokens that end a statement. -/
def endsStatement : TokenKind → Bool
  | .symbol .semicolon | .endOfInput => true
  | _ => false

/-- The parser behind the next token. The end of input is never passed. -/
def tail (p : Parser) : Parser :=
  { p with
    ahead := p.ahead.tail
    ahead_le := by have := p.ahead_le; simp only [List.length_tail]; omega }

/-- Reads a token, whatever it is. -/
def advance : Parse Token := modifyGet fun p => (p.current, p.tail)

/-- Records an error, if it is the first of its statement. -/
def report (e : SyntaxError) (span : Span) : Parse Unit :=
  modify fun p =>
    if p.recovering || p.lexErrorUpTo span.start then { p with recovering := true }
    else { p with errors := p.errors.push ⟨e, span⟩, recovering := true }

/-- Reads a token of a kind. If another one is there, it stays and a stand-in is answered. -/
def expect (kind : TokenKind) : Parse Token := do
  let found := (← get).current
  if found.kind = kind then advance
  else
    report (.unexpected found.kind kind) found.span
    return .placeholder kind found.span.start

/-- Reads the closing parenthesis of a construct. A statement that ends before it has left the
parenthesis open. -/
def expectClosing (context : ParenContext) : Parse Token := do
  let found := (← get).current
  if endsStatement found.kind then
    report (.unclosed context) found.span
    return .placeholder (.symbol .rightParen) found.span.start
  else expect (.symbol .rightParen)

/-- The parser at the token that ends the statement. -/
def atStatementEnd (p : Parser) : Parser :=
  { p with
    ahead := p.ahead.dropWhile fun t => !endsStatement t.kind
    ahead_le := Nat.le_trans (List.dropWhile_suffix _).length_le p.ahead_le }

/-- Skips to the token that ends the statement. -/
def skipStatement : Parse Unit := modify atStatementEnd

/-- Items with commas between them. Reading ends at the first item that has an error or no comma
behind it. Every further round reads a comma, so there are no more rounds than tokens. -/
def commaList {α : Type} (item : Parse α) : Nat → Parse (List α)
  | 0 => do return [← item]
  | rounds + 1 => do
    let x ← item
    let p ← get
    if p.recovering || p.current.kind != .symbol .comma then return [x]
    else
      let _ ← advance
      return x :: (← commaList item rounds)

/-- One or more items with commas between them. -/
def commaSeparated {α : Type} (item : Parse α) : Parse (List α) := do
  commaList item (← get).size

end Parser

end ExprLang

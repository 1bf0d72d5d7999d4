import ExprLang.Number.Text
import ExprLang.Span
import ExprLang.Text.Escape

/-!
# Tokens

The words of the language: symbols, keywords, the two named constants, literals and names, beside
the layout between them. A `Lexeme` is a piece of a line with its kind and, for a literal, its
value; a `Token` is a lexeme with its place.
-/

namespace ExprLang

/-- Operators and punctuation. -/
inductive Symbol where
  | plus | minus | star | slash | caret | percent | atSign
  | bang | ampersand | doubleAmpersand | pipe | doublePipe
  | equal | doubleEqual | notEqual | less | lessEqual | greater | greaterEqual
  | leftParen | rightParen | comma | arrow | semicolon
  deriving DecidableEq, Repr

namespace Symbol

/-- The symbol as it is written. -/
def spelling : Symbol → String
  | plus => "+"
  | minus => "-"
  | star => "*"
  | slash => "/"
  | caret => "^"
  | percent => "%"
  | atSign => "@"
  | bang => "!"
  | ampersand => "&"
  | doubleAmpersand => "&&"
  | pipe => "|"
  | doublePipe => "||"
  | equal => "="
  | doubleEqual => "=="
  | notEqual => "!="
  | less => "<"
  | lessEqual => "<="
  | greater => ">"
  | greaterEqual => ">="
  | leftParen => "("
  | rightParen => ")"
  | comma => ","
  | arrow => "=>"
  | semicolon => ";"

/-- The name of the symbol in a token listing. -/
def name : Symbol → String
  | plus => "Plus"
  | minus => "Minus"
  | star => "Star"
  | slash => "Slash"
  | caret => "Caret"
  | percent => "Percent"
  | atSign => "At"
  | bang => "Bang"
  | ampersand => "Ampersand"
  | doubleAmpersand => "AmpersandAmpersand"
  | pipe => "Pipe"
  | doublePipe => "PipePipe"
  | equal => "Equal"
  | doubleEqual => "EqualEqual"
  | notEqual => "NotEqual"
  | less => "Less"
  | lessEqual => "LessEqual"
  | greater => "Greater"
  | greaterEqual => "GreaterEqual"
  | leftParen => "LParen"
  | rightParen => "RParen"
  | comma => "Comma"
  | arrow => "Arrow"
  | semicolon => "Semicolon"

/-- Every symbol, once. -/
def all : List Symbol :=
  [plus, minus, star, slash, caret, percent, atSign, bang, ampersand, doubleAmpersand, pipe,
    doublePipe, equal, doubleEqual, notEqual, less, lessEqual, greater, greaterEqual, leftParen,
    rightParen, comma, arrow, semicolon]

/-- The symbol of one character. -/
def ofChar? : Char → Option Symbol
  | '+' => some plus
  | '-' => some minus
  | '*' => some star
  | '/' => some slash
  | '^' => some caret
  | '%' => some percent
  | '@' => some atSign
  | '!' => some bang
  | '&' => some ampersand
  | '|' => some pipe
  | '=' => some equal
  | '<' => some less
  | '>' => some greater
  | '(' => some leftParen
  | ')' => some rightParen
  | ',' => some comma
  | ';' => some semicolon
  | _ => none

/-- The symbol of two characters. -/
def ofPair? : Char → Char → Option Symbol
  | '=', '=' => some doubleEqual
  | '=', '>' => some arrow
  | '!', '=' => some notEqual
  | '<', '=' => some lessEqual
  | '>', '=' => some greaterEqual
  | '&', '&' => some doubleAmpersand
  | '|', '|' => some doublePipe
  | _, _ => none

end Symbol

/-- The reserved words, the named constants apart. -/
inductive Keyword where
  | letWord | ifWord | thenWord | elseWord | inWord | functionWord | trueWord | falseWord
  deriving DecidableEq, Repr

namespace Keyword

/-- The word itself. -/
def spelling : Keyword → String
  | letWord => "let"
  | ifWord => "if"
  | thenWord => "then"
  | elseWord => "else"
  | inWord => "in"
  | functionWord => "function"
  | trueWord => "true"
  | falseWord => "false"

/-- The name of the word in a token listing. -/
def name : Keyword → String
  | letWord => "Let"
  | ifWord => "If"
  | thenWord => "Then"
  | elseWord => "Else"
  | inWord => "In"
  | functionWord => "Function"
  | trueWord => "True"
  | falseWord => "False"

/-- Every keyword, once. -/
def all : List Keyword :=
  [letWord, ifWord, thenWord, elseWord, inWord, functionWord, trueWord, falseWord]

end Keyword

/-- The kinds of tokens. -/
inductive TokenKind where
  | symbol (s : Symbol)
  | keyword (k : Keyword)
  /-- A number with a name of its own. -/
  | constant
  /-- A number or a string. -/
  | literal
  | identifier
  | whitespace
  | lineEnd
  | endOfInput
  /-- A character that begins no word of the language. -/
  | stray
  deriving DecidableEq, Repr

namespace TokenKind

/-- The name of the kind in a token listing. -/
def name : TokenKind → String
  | symbol s => s.name
  | keyword k => k.name
  | constant => "Constant"
  | literal => "Literal"
  | identifier => "Identifier"
  | whitespace => "Whitespace"
  | lineEnd => "EndOfLine"
  | endOfInput => "EndOfInput"
  | stray => "BadToken"

/-- The spelling, or a word for the kind where spellings vary. -/
def spelling : TokenKind → String
  | symbol s => s.spelling
  | keyword k => k.spelling
  | constant => "constant"
  | literal => "literal"
  | identifier => "identifier"
  | whitespace => "whitespace"
  | lineEnd => "end of line"
  | endOfInput => "end of input"
  | stray => "bad token"

/-- How a message speaks of a token of this kind. -/
def phrase : TokenKind → String
  | symbol s => "`" ++ s.spelling ++ "`"
  | keyword k => "the keyword `" ++ k.spelling ++ "`"
  | constant => "a constant"
  | literal => "a literal"
  | identifier => "an identifier"
  | kind => kind.spelling

/-- Reserved words, the named constants included. -/
def isReserved : TokenKind → Bool
  | keyword _ | constant => true
  | _ => false

/-- Layout and stray characters, which the grammar does not mention. -/
def isTrivia : TokenKind → Bool
  | whitespace | lineEnd | stray => true
  | _ => false

/-- Every kind, once. -/
def all : List TokenKind :=
  Symbol.all.map symbol ++ Keyword.all.map keyword ++
    [constant, literal, identifier, whitespace, lineEnd, endOfInput, stray]

end TokenKind

/-- The value that a token stands for. -/
inductive Literal where
  | number (x : Float)
  | string (s : String)
  | boolean (b : Bool)
  deriving DecidableEq

namespace Literal

/-- The literal as it is written in a program; a string has no escapes. -/
def text : Literal → String
  | number x => Number.text x
  | string s => "\"" ++ s ++ "\""
  | boolean b => toString b

end Literal

/-- A piece of a line, its kind and its value. -/
structure Lexeme where
  kind : TokenKind
  text : String
  literal? : Option Literal := none
  deriving DecidableEq

/-- A lexeme with its place. -/
structure Token extends Lexeme where
  span : Span
  deriving DecidableEq

namespace Token

/-- A token that stands in for one that is missing. -/
def placeholder (kind : TokenKind) (offset : Nat) : Token := ⟨⟨kind, "", none⟩, .point offset⟩

/-- The name that a token spells, with its place. -/
def toName (t : Token) : Name := ⟨t.text, t.span⟩

/-- The line of a token listing: kind, text, place and value. -/
def listing (t : Token) : String :=
  t.kind.name ++ " '" ++ Text.escape t.text ++ "' [" ++ toString t.span.start ++ "]" ++
    match t.literal? with
    | some l => " (" ++ l.text ++ ")"
    | none => ""

end Token

/-- The constant that a name stands for. -/
def constant? : String → Option Float
  | "PI" => some (Float.ofBits 0x400921FB54442D18)
  | "E" => some (Float.ofBits 0x4005BF0A8B145769)
  | _ => none

/-- The keyword that a word is. -/
def Keyword.ofWord? : String → Option Keyword
  | "let" => some .letWord
  | "if" => some .ifWord
  | "then" => some .thenWord
  | "else" => some .elseWord
  | "in" => some .inWord
  | "function" => some .functionWord
  | "true" => some .trueWord
  | "false" => some .falseWord
  | _ => none

/-- The value of a keyword that is a literal. -/
def Keyword.literal? : Keyword → Option Literal
  | .trueWord => some (.boolean true)
  | .falseWord => some (.boolean false)
  | _ => none

/-- Kind and value of a reserved word. -/
def reserved? (word : String) : Option (TokenKind × Option Literal) :=
  match constant? word with
  | some x => some (.constant, some (.number x))
  | none => (Keyword.ofWord? word).map fun k => (.keyword k, k.literal?)

/-- The lexeme of a word: a reserved word or a name. -/
def Lexeme.ofWord (word : String) : Lexeme :=
  match reserved? word with
  | some (kind, literal?) => ⟨kind, word, literal?⟩
  | none => ⟨.identifier, word, none⟩

end ExprLang

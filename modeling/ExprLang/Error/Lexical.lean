import ExprLang.Span
import ExprLang.Text.Escape

/-!
# Lexical errors
-/

namespace ExprLang

/-- What can be wrong with a piece of a line before any grammar is looked at. -/
inductive LexicalError where
  /-- A character that begins no token. -/
  | unrecognized (c : Char)
  /-- A string without its closing quote. -/
  | unterminatedString
  /-- Digits whose value exceeds every finite number. -/
  | invalidNumber (text : String)
  deriving DecidableEq, Repr

namespace LexicalError

/-- The name of the cause. -/
def name : LexicalError → String
  | unrecognized _ => "UnrecognizedCharacter"
  | unterminatedString => "UnterminatedString"
  | invalidNumber _ => "InvalidNumber"

/-- What is wrong. -/
def detail : LexicalError → String
  | unrecognized c => "unexpected character `" ++ Text.escapeChar .message c ++ "`"
  | unterminatedString => "unterminated string literal"
  | invalidNumber text => "cannot represent `" ++ text ++ "` as a number"

/-- What is written under the place. -/
def label : LexicalError → String
  | unrecognized _ => "not part of the language"
  | unterminatedString => "missing closing `\"`"
  | invalidNumber _ => "invalid number"

end LexicalError

end ExprLang

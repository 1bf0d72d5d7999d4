import ExprLang.Error.Lexical
import ExprLang.Error.Runtime
import ExprLang.Error.Semantic
import ExprLang.Error.Syntactic

/-!
# Errors

Everything that can be wrong with a line, from its characters to its evaluation: a `Cause`, and an
`Error` as a cause at a place.
-/

namespace ExprLang

/-- What went wrong, by the stage that found it. -/
inductive Cause where
  | lexical (e : LexicalError)
  | syntactic (e : SyntaxError)
  | semantic (e : SemanticError)
  | runtime (e : RuntimeError)
  deriving DecidableEq, Repr

namespace Cause

/-- The name of the cause within its stage. -/
def name : Cause → String
  | lexical e => e.name
  | syntactic e => e.name
  | semantic e => e.name
  | runtime e => e.name

/-- What is wrong. -/
def detail : Cause → String
  | lexical e => e.detail
  | syntactic e => e.detail
  | semantic e => e.detail
  | runtime e => e.detail

/-- What is written under the place. -/
def label : Cause → String
  | lexical e => e.label
  | syntactic e => e.label
  | semantic e => e.label
  | runtime e => e.label

/-- The heading of a report. A runtime error that no limit caused is about a reference. -/
def title : Cause → String
  | lexical _ => "Lexical error"
  | syntactic _ => "Syntax error"
  | semantic _ => "Semantic error"
  | runtime e => if e.isLimit then "Runtime error" else "Reference error"

/-- The sort of error at the head of a message. -/
def sort : Cause → String
  | lexical _ => "lexical error"
  | syntactic _ => "syntax error"
  | semantic _ => "semantic error"
  | runtime e => if e.isLimit then "runtime error" else "reference error"

/-- The message in one line. -/
def message (c : Cause) : String := c.sort ++ ": " ++ c.detail

end Cause

/-- A cause with its place. -/
abbrev Error := Located Cause

/-- A lexical error among errors of all stages. -/
def Error.ofLexical (e : Located LexicalError) : Error := ⟨.lexical e.val, e.span⟩

/-- A syntax error among errors of all stages. -/
def Error.ofSyntactic (e : Located SyntaxError) : Error := ⟨.syntactic e.val, e.span⟩

end ExprLang

import ExprLang.Token

/-!
# Syntax errors
-/

namespace ExprLang

/-- The constructs that end with a parenthesis. -/
inductive ParenContext where
  | grouping | call | declaration | condition
  deriving DecidableEq, Repr

namespace ParenContext

/-- The name of the construct. -/
def name : ParenContext → String
  | grouping => "Grouping"
  | call => "Call"
  | declaration => "Declaration"
  | condition => "Condition"

/-- How a message speaks of the construct. -/
def phrase : ParenContext → String
  | grouping => "parenthesized expression"
  | call => "function call"
  | declaration => "function declaration"
  | condition => "`if` condition"

/-- Every construct, once. -/
def all : List ParenContext := [grouping, call, declaration, condition]

end ParenContext

/-- Where the tokens of a line leave the grammar. -/
inductive SyntaxError where
  | unexpected (found expected : TokenKind)
  /-- The statement ends before a parenthesis is closed. -/
  | unclosed (context : ParenContext)
  | missingIn (found : TokenKind)
  | missingTerminator (found : TokenKind)
  | nestingTooDeep (limit : Nat)
  deriving DecidableEq, Repr

namespace SyntaxError

/-- The name of the cause. -/
def name : SyntaxError → String
  | unexpected .. => "UnexpectedToken"
  | unclosed _ => "UnclosedParenthesis"
  | missingIn _ => "MissingIn"
  | missingTerminator _ => "MissingTerminator"
  | nestingTooDeep _ => "NestingTooDeep"

/-- What is wrong. -/
def detail : SyntaxError → String
  | unexpected found expected => "received " ++ found.phrase ++ " while expecting " ++ expected.phrase
  | unclosed context => "missing `)` in " ++ context.phrase
  | missingIn found =>
    "received " ++ found.phrase ++ " while expecting the keyword `in` of a `let` expression"
  | missingTerminator found =>
    "received " ++ found.phrase ++ " while expecting `;` or end of input"
  | nestingTooDeep limit => "expression nesting exceeds " ++ toString limit ++ " levels"

/-- What is written under the place. -/
def label : SyntaxError → String
  | unexpected .. => "not expected here"
  | unclosed _ => "unbalanced parenthesis"
  | missingIn _ => "`let` bindings must be followed by `in`"
  | missingTerminator _ => "statements must be separated by `;`"
  | nestingTooDeep _ => "too deeply nested"

end SyntaxError

end ExprLang

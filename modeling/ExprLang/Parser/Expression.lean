import ExprLang.Expr
import ExprLang.Parser

/-!
# Reading expressions

Operators are read by precedence climbing: `expression n parent` reads an operand and then every
operator that binds tighter than `parent`, and reads the right operand of each with the precedence
of that operator, so operators of one level lean to the left. Conditionals and bindings extend as
far to the right as they can.

The number `n` is how many levels of nesting are left. Each operand in parentheses, in a right
operand, after a unary operator and so on is one level deeper than the expression around it; with
no level left the expression is an error. A chain of operators of one level stays on one level.

After an error the reader goes on with `standIn`; the statement is given up in the end.
-/

namespace ExprLang.Parser

/-- How deeply expressions may be nested. -/
def maxNesting : Nat := 128

/-- What is answered for an expression that could not be read. -/
def standIn (span : Span) : Expr := .literal (.boolean false) span

/-- The expression of a token with a value. A literal without one already has a lexical error, and
stands for an undefined number. -/
def valueExpr (t : Token) : Expr :=
  .literal (t.literal?.getD (.number (Binary64.toFloat .nan))) t.span

/-- Operators behind a left operand, as long as they bind tighter than `parent`. Every round reads
an operator, so there are no more rounds than tokens. -/
def operators (sub : Precedence → Parse Expr) (parent : Precedence) : Nat → Expr → Parse Expr
  | 0, left => return left
  | rounds + 1, left => do
    let p ← get
    if p.recovering then return left
    else
      match p.current.kind.binaryOp? with
      | none => return left
      | some op =>
        if op.precedence ≤ parent then return left
        else
          let _ ← advance
          let right ← sub op.precedence
          operators sub parent rounds (.binary left op right (left.span.union right.span))

/-- An expression in parentheses. -/
def group (sub : Precedence → Parse Expr) : Parse Expr := do
  let start ← advance
  let inner ← sub .lowest
  let close ← expectClosing .grouping
  return .group inner (start.span.union close.span)

/-- A conditional, from its `if` on. -/
def conditional (sub : Precedence → Parse Expr) : Parse Expr := do
  let start ← advance
  let _ ← expect (.symbol .leftParen)
  let condition ← sub .lowest
  let _ ← expectClosing .condition
  let resolution ← sub .lowest
  let _ ← expect (.keyword .elseWord)
  let alternative ← sub .lowest
  return .conditional condition resolution alternative (start.span.union alternative.span)

/-- A name, an equals sign and an expression. -/
def binding (sub : Precedence → Parse Expr) : Parse (Name × Expr) := do
  let name ← expect .identifier
  let _ ← expect (.symbol .equal)
  let value ← sub .lowest
  return (name.toName, value)

/-- The keyword between bindings and body. -/
def bodyMarker : Parse Unit := do
  let found := (← get).current
  if found.kind = .keyword .inWord then
    let _ ← advance
  else report (.missingIn found.kind) found.span

/-- Bindings and their body, from the `let` on. -/
def letIn (sub : Precedence → Parse Expr) : Parse Expr := do
  let start ← advance
  let bindings ← commaSeparated (binding sub)
  bodyMarker
  let body ← sub .lowest
  return .letIn bindings body (start.span.union body.span)

/-- A call, from the name of the function on. -/
def call (sub : Precedence → Parse Expr) : Parse Expr := do
  let name ← advance
  let _ ← advance
  let args ←
    if (← get).current.kind = .symbol .rightParen then pure []
    else commaSeparated (sub .lowest)
  let close ← expectClosing .call
  return .call name.toName args (name.span.union close.span)

/-- An operand without operators of its own. A name is a call if a parenthesis follows it. -/
def term (sub : Precedence → Parse Expr) : Parse Expr := do
  let p ← get
  match p.current.kind with
  | .symbol .leftParen => group sub
  | .keyword .ifWord => conditional sub
  | .keyword .letWord => letIn sub
  | .identifier =>
    if (p.peek 1).kind = .symbol .leftParen then call sub
    else return .var (← advance).toName
  | .keyword .trueWord | .keyword .falseWord | .constant => return valueExpr (← advance)
  | _ => return valueExpr (← expect .literal)

/-- An operand: a term, or a unary operator with its operand. -/
def operand (sub : Precedence → Parse Expr) : Parse Expr := do
  match (← get).current.kind.unaryOp? with
  | some op =>
    let start ← advance
    let inner ← sub .unary
    return .unary op inner (start.span.union inner.span)
  | none => term sub

/-- An expression with `n` levels of nesting left, up to the first operator that does not bind
tighter than `parent`. -/
def expression : Nat → Precedence → Parse Expr
  | 0, _ => do
    let p ← get
    if p.recovering then return standIn p.current.span
    else
      report (.nestingTooDeep maxNesting) p.current.span
      return standIn p.current.span
  | n + 1, parent => do
    let p ← get
    if p.recovering then return standIn p.current.span
    else
      let left ← operand (expression n)
      operators (expression n) parent (← get).size left

end ExprLang.Parser

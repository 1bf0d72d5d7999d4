import ExprLang.Limits
import ExprLang.Registry
import ExprLang.Scope

/-!
# Evaluation

An `Evaluator` holds the functions and counts what is active: `calls` of declared functions, and
expressions under evaluation in `depth`. Both are limited, so every evaluation ends.

* `eval n scope e` evaluates `e` with `n` levels of nesting left; it is recursive in `n` alone,
  because the body of a called function is no part of the expression that calls it.
* `Evaluator.eval` is evaluation with the levels that the limit leaves.

A scope is passed down and never changed. The bindings of a `let` do not see each other, and the
body of a function sees its parameters and nothing else. The first error ends the evaluation.
-/

namespace ExprLang

/-- The functions, the limit on active calls, and what is active. -/
structure Evaluator where
  registry : Registry
  maxDepth : Nat := defaultMaxDepth
  /-- The calls of declared functions that are active. -/
  calls : Nat := 0
  /-- The expressions that are under evaluation. -/
  depth : Nat := 0

/-- A step of evaluation: it may fail, and it keeps its effects if it does. -/
abbrev Eval := ExceptT Error (StateM Evaluator)

namespace Eval

/-- A failure at a place. -/
def fail {α : Type} (e : RuntimeError) (span : Span) : Eval α := throw ⟨.runtime e, span⟩

/-- A step between an entry and an exit, which is passed also on failure. -/
def within {α : Type} (enter leave : Evaluator → Evaluator) (step : Eval α) : Eval α := fun s =>
  let (result, s) := step (enter s)
  (result, leave s)

end Eval

namespace Evaluator

/-- One more expression is under evaluation. -/
def enterExpr (s : Evaluator) : Evaluator := { s with depth := s.depth + 1 }

/-- One expression less is under evaluation. -/
def leaveExpr (s : Evaluator) : Evaluator := { s with depth := s.depth - 1 }

/-- One more call is active. -/
def enterCall (s : Evaluator) : Evaluator := { s with calls := s.calls + 1 }

/-- One call less is active. -/
def leaveCall (s : Evaluator) : Evaluator := { s with calls := s.calls - 1 }

end Evaluator

open Eval

/-- The value of a variable. -/
def evalVariable (scope : Scope) (name : Name) : Eval Value :=
  match scope.get? name.val with
  | some v => pure v
  | none => fail (.undeclaredVariable name.val) name.span

/-- Declares a function. There is no value to show. -/
def evalDeclaration (name : Name) (params : List Name) (body : Expr) : Eval Value := do
  let s ← get
  let registry ← ofExcept
    (s.registry.declare (.declared name.val (params.map Located.val) body) name.span)
  set { s with registry }
  return .nothing

/-- Calls a function with the values of its arguments. A declared function is called with a scope
of its parameters, of which a repeated one has the last value; a built-in one does not count as an
active call. -/
def evalCall (ev : Scope → Expr → Eval Value) (name : String) (args : List Value) (span : Span) :
    Eval Value := do
  let s ← get
  match s.registry.get? ⟨name, args.length⟩ with
  | none => fail (.unknownFunction name args.length) span
  | some (.builtin b) => ofExcept (b.apply args span)
  | some (.declared _ params body) =>
    if s.maxDepth ≤ s.calls then fail (.recursionLimitExceeded s.maxDepth) span
    else within Evaluator.enterCall Evaluator.leaveCall (ev (.ofList (params.zip args)) body)

/-- The value of an expression, when `ev` gives the values of the expressions one level below. -/
def evalNode (ev : Scope → Expr → Eval Value) (scope : Scope) : Expr → Eval Value
  | .literal value _ => pure (.ofLiteral value)
  | .unary op operand span => do
    let v ← ev scope operand
    ofExcept (op.check v span)
    return (op.value? v).getD .nothing
  | .binary left op right span => do
    let v ← ev scope left
    let w ← ev scope right
    ofExcept (op.check v w span)
    return (op.value? v w).getD .nothing
  | .group inner _ => ev scope inner
  | .var name => evalVariable scope name
  | .conditional condition resolution alternative _ => do
    let v ← ev scope condition
    if ← ofExcept (v.asCondition condition.span) then ev scope resolution
    else ev scope alternative
  | .letIn bindings body _ => do
    let values ← bindings.mapM fun b => return (b.1.val, ← ev scope b.2)
    ev (scope.extend values) body
  | .declaration name params body _ => evalDeclaration name params body
  | .call name args span => do
    let values ← args.mapM (ev scope)
    evalCall ev name.val values span

/-- The value of an expression, with a number of levels of nesting left. -/
def eval : Nat → Scope → Expr → Eval Value
  | 0, _, e => do fail (.nestingTooDeep (nestingLimit (← get).maxDepth)) e.span
  | n + 1, scope, e =>
    within Evaluator.enterExpr Evaluator.leaveExpr (evalNode (eval n) scope e)

namespace Evaluator

/-- The levels of nesting that the limit leaves. -/
def levelsLeft (s : Evaluator) : Nat := nestingLimit s.maxDepth - s.depth

/-- The value of an expression, and the evaluator afterwards. -/
def eval (s : Evaluator) (scope : Scope) (e : Expr) : Except Error Value × Evaluator :=
  ExprLang.eval s.levelsLeft scope e s

end Evaluator

end ExprLang

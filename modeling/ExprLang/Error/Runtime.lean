/-!
# Runtime errors
-/

namespace ExprLang

/-- A name that stands for nothing, or an evaluation that was cut off. -/
inductive RuntimeError where
  | undeclaredVariable (name : String)
  | unknownFunction (name : String) (arity : Nat)
  /-- More calls were active than allowed. -/
  | recursionLimitExceeded (limit : Nat)
  /-- More expressions were under evaluation than allowed. -/
  | nestingTooDeep (limit : Nat)
  deriving DecidableEq, Repr

namespace RuntimeError

/-- The name of the cause. -/
def name : RuntimeError → String
  | undeclaredVariable _ => "UndeclaredVariable"
  | unknownFunction .. => "UnknownFunction"
  | recursionLimitExceeded _ => "RecursionLimitExceeded"
  | nestingTooDeep _ => "NestingTooDeep"

/-- Whether the evaluation was cut off by a limit. -/
def isLimit : RuntimeError → Bool
  | recursionLimitExceeded _ | nestingTooDeep _ => true
  | _ => false

/-- What is wrong. -/
def detail : RuntimeError → String
  | undeclaredVariable name => "variable `" ++ name ++ "` is not declared"
  | unknownFunction name arity =>
    "function `" ++ name ++ "` receiving " ++ toString arity ++ " argument(s) is not defined"
  | recursionLimitExceeded limit =>
    "recursion limit exceeded: more than " ++ toString limit ++ " nested function calls"
  | nestingTooDeep limit =>
    "expression nested deeper than " ++ toString limit ++ " levels during evaluation"

/-- What is written under the place. -/
def label : RuntimeError → String
  | undeclaredVariable _ => "not found in this scope"
  | unknownFunction .. => "unknown function"
  | recursionLimitExceeded _ => "call stopped here"
  | nestingTooDeep _ => "evaluation stopped here"

end RuntimeError

end ExprLang

import ExprLang.Operator
import ExprLang.Value

/-!
# Semantic errors
-/

namespace ExprLang

/-- An operation that does not fit its values, or a declaration that does not fit the others. -/
inductive SemanticError where
  | invalidUnaryOperand (op : UnaryOp) (operand : ValueType)
  | invalidBinaryOperands (op : BinaryOp) (left right : ValueType)
  | nonBooleanCondition (found : ValueType)
  | invalidArgument (function : String) (expected found : ValueType)
  | duplicateFunction (name : String) (arity : Nat)
  deriving DecidableEq, Repr

namespace SemanticError

/-- The name of the cause. -/
def name : SemanticError → String
  | invalidUnaryOperand .. => "InvalidUnaryOperand"
  | invalidBinaryOperands .. => "InvalidBinaryOperands"
  | nonBooleanCondition _ => "NonBooleanCondition"
  | invalidArgument .. => "InvalidBuiltinArgument"
  | duplicateFunction .. => "DuplicateFunction"

/-- What is wrong. -/
def detail : SemanticError → String
  | invalidUnaryOperand op operand =>
    "operator `" ++ op.spelling ++ "` cannot be applied to operand of type " ++ operand.name
  | invalidBinaryOperands op left right =>
    "operator `" ++ op.spelling ++ "` cannot be applied to operands of type " ++ left.name ++
      " and " ++ right.name
  | nonBooleanCondition found =>
    "received " ++ found.name ++ " while expecting a Boolean condition"
  | invalidArgument function expected found =>
    "function `" ++ function ++ "` receives " ++ expected.name ++ ", not " ++ found.name
  | duplicateFunction name arity =>
    "function `" ++ name ++ "` with " ++ toString arity ++ " parameter(s) is already defined"

/-- What is written under the place. -/
def label : SemanticError → String
  | invalidUnaryOperand .. => "invalid operand"
  | invalidBinaryOperands .. => "incompatible operands"
  | nonBooleanCondition _ => "condition must be a Boolean"
  | invalidArgument .. => "invalid argument"
  | duplicateFunction .. => "duplicate declaration"

end SemanticError

end ExprLang

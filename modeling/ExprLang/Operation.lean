import ExprLang.Error
import ExprLang.Number.Remainder

/-!
# What operators do to values

For each operator, the types it accepts (`accepts`), the complaint about others (`check`) and the
value (`value?`, which is undefined exactly where the types do not fit). The logical operators
always look at both operands.
-/

namespace ExprLang

namespace UnaryOp

/-- The types of operand that an operator accepts. -/
def allowed : UnaryOp → List ValueType
  | plus | minus => [.number]
  | not => [.boolean]

/-- Whether an operator accepts an operand. -/
def accepts (op : UnaryOp) (operand : ValueType) : Bool := op.allowed.contains operand

/-- Complains about an operand that the operator does not accept. -/
def check (op : UnaryOp) (operand : Value) (span : Span) : Except Error Unit :=
  if op.accepts operand.type then .ok ()
  else .error ⟨.semantic (.invalidUnaryOperand op operand.type), span⟩

/-- The value of an operator. -/
def value? : UnaryOp → Value → Option Value
  | plus, .number x => some (.number x)
  | minus, .number x => some (.number (-x))
  | not, .boolean b => some (.boolean !b)
  | _, _ => none

end UnaryOp

namespace BinaryOp

/-- The types that an operator accepts on both sides; none are listed where the operator asks for
no type of its own. -/
def allowed : BinaryOp → List ValueType
  | add | subtract | multiply | divide | power | modulo
  | less | lessOrEqual | greater | greaterOrEqual => [.number]
  | and | or | logicalAnd | logicalOr => [.boolean]
  | equal | notEqual | concat => []

/-- Whether an operator accepts two operands. Only values of one type are compared; anything can
be joined. -/
def accepts (op : BinaryOp) (left right : ValueType) : Bool :=
  match op with
  | concat => true
  | equal | notEqual => left == right
  | _ => op.allowed.contains left && op.allowed.contains right

/-- Complains about operands that the operator does not accept. -/
def check (op : BinaryOp) (left right : Value) (span : Span) : Except Error Unit :=
  if op.accepts left.type right.type then .ok ()
  else .error ⟨.semantic (.invalidBinaryOperands op left.type right.type), span⟩

/-- The value of an operator on numbers. -/
def onNumbers? (op : BinaryOp) (x y : Float) : Option Value :=
  match op with
  | add => some (.number (x + y))
  | subtract => some (.number (x - y))
  | multiply => some (.number (x * y))
  | divide => some (.number (x / y))
  | power => some (.number (x ^ y))
  | modulo => some (.number (Number.remainder x y))
  | less => some (.boolean (x < y))
  | lessOrEqual => some (.boolean (x ≤ y))
  | greater => some (.boolean (y < x))
  | greaterOrEqual => some (.boolean (y ≤ x))
  | _ => none

/-- The value of an operator on truth values. -/
def onBooleans? (op : BinaryOp) (a b : Bool) : Option Value :=
  match op with
  | and | logicalAnd => some (.boolean (a && b))
  | or | logicalOr => some (.boolean (a || b))
  | _ => none

/-- The value of an operator. -/
def value? (op : BinaryOp) (left right : Value) : Option Value :=
  match op, left, right with
  | concat, left, right => some (.string (left.text ++ right.text))
  | equal, left, right => if left.type = right.type then some (.boolean (left.same right)) else none
  | notEqual, left, right =>
    if left.type = right.type then some (.boolean !(left.same right)) else none
  | op, .number x, .number y => op.onNumbers? x y
  | op, .boolean a, .boolean b => op.onBooleans? a b
  | _, _, _ => none

end BinaryOp

namespace Value

/-- The truth value of a condition. -/
def asCondition (v : Value) (span : Span) : Except Error Bool :=
  match v with
  | boolean b => .ok b
  | other => .error ⟨.semantic (.nonBooleanCondition other.type), span⟩

/-- The number that a function of numbers is applied to. -/
def asNumberArgument (v : Value) (function : String) (span : Span) : Except Error Float :=
  match v with
  | number x => .ok x
  | other => .error ⟨.semantic (.invalidArgument function .number other.type), span⟩

end Value

end ExprLang

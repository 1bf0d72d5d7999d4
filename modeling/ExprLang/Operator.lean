import ExprLang.Token

/-!
# Operators

The unary and binary operators, the symbols they are written with, and how tightly they bind.
-/

namespace ExprLang

/-- Operators in front of an operand. -/
inductive UnaryOp where
  | plus | minus | not
  deriving DecidableEq, Repr

namespace UnaryOp

/-- The operator that a symbol is in front of an operand. -/
def ofSymbol? : Symbol → Option UnaryOp
  | .plus => some plus
  | .minus => some minus
  | .bang => some not
  | _ => none

/-- The symbol of an operator. -/
def symbol : UnaryOp → Symbol
  | plus => .plus
  | minus => .minus
  | not => .bang

/-- The operator as it is written. -/
def spelling (op : UnaryOp) : String := op.symbol.spelling

/-- The name of the operator in an outline. -/
def name : UnaryOp → String
  | plus => "Plus"
  | minus => "Minus"
  | not => "Not"

/-- Every unary operator, once. -/
def all : List UnaryOp := [plus, minus, not]

@[simp] theorem ofSymbol?_symbol (op : UnaryOp) : ofSymbol? op.symbol = some op := by
  cases op <;> rfl

end UnaryOp

/-- Operators between two operands. The single and the double forms of the logical operators mean
the same. -/
inductive BinaryOp where
  | add | subtract | multiply | divide | power | modulo | concat
  | less | lessOrEqual | greater | greaterOrEqual | equal | notEqual
  | and | or | logicalAnd | logicalOr
  deriving DecidableEq, Repr

/-- How tightly an operator binds, loosest first. -/
inductive Precedence where
  | lowest | logical | comparison | sum | product | exponent | unary
  deriving DecidableEq, Repr

namespace Precedence

/-- The position in the order. -/
def rank : Precedence → Nat
  | lowest => 0
  | logical => 1
  | comparison => 2
  | sum => 3
  | product => 4
  | exponent => 5
  | unary => 6

/-- The name of the level. -/
def name : Precedence → String
  | lowest => "Lowest"
  | logical => "Logical"
  | comparison => "Comparison"
  | sum => "Sum"
  | product => "Product"
  | exponent => "Exponent"
  | unary => "Prefix"

/-- Every level, loosest first. -/
def all : List Precedence := [lowest, logical, comparison, sum, product, exponent, unary]

instance : LE Precedence := ⟨fun a b => a.rank ≤ b.rank⟩

instance : LT Precedence := ⟨fun a b => a.rank < b.rank⟩

instance (a b : Precedence) : Decidable (a ≤ b) := inferInstanceAs (Decidable (a.rank ≤ b.rank))

instance (a b : Precedence) : Decidable (a < b) := inferInstanceAs (Decidable (a.rank < b.rank))

end Precedence

namespace BinaryOp

/-- The operator that a symbol is between two operands. -/
def ofSymbol? : Symbol → Option BinaryOp
  | .plus => some add
  | .minus => some subtract
  | .star => some multiply
  | .slash => some divide
  | .caret => some power
  | .percent => some modulo
  | .atSign => some concat
  | .less => some less
  | .lessEqual => some lessOrEqual
  | .greater => some greater
  | .greaterEqual => some greaterOrEqual
  | .doubleEqual => some equal
  | .notEqual => some notEqual
  | .ampersand => some and
  | .pipe => some or
  | .doubleAmpersand => some logicalAnd
  | .doublePipe => some logicalOr
  | _ => none

/-- The symbol of an operator. -/
def symbol : BinaryOp → Symbol
  | add => .plus
  | subtract => .minus
  | multiply => .star
  | divide => .slash
  | power => .caret
  | modulo => .percent
  | concat => .atSign
  | less => .less
  | lessOrEqual => .lessEqual
  | greater => .greater
  | greaterOrEqual => .greaterEqual
  | equal => .doubleEqual
  | notEqual => .notEqual
  | and => .ampersand
  | or => .pipe
  | logicalAnd => .doubleAmpersand
  | logicalOr => .doublePipe

/-- The operator as it is written. -/
def spelling (op : BinaryOp) : String := op.symbol.spelling

/-- The name of the operator in an outline. -/
def name : BinaryOp → String
  | add => "Add"
  | subtract => "Subtract"
  | multiply => "Multiply"
  | divide => "Divide"
  | power => "Power"
  | modulo => "Modulo"
  | concat => "Concat"
  | less => "Less"
  | lessOrEqual => "LessOrEqual"
  | greater => "Greater"
  | greaterOrEqual => "GreaterOrEqual"
  | equal => "Equal"
  | notEqual => "NotEqual"
  | and => "And"
  | or => "Or"
  | logicalAnd => "LogicalAnd"
  | logicalOr => "LogicalOr"

/-- Every binary operator, once. -/
def all : List BinaryOp :=
  [add, subtract, multiply, divide, power, modulo, concat, less, lessOrEqual, greater,
    greaterOrEqual, equal, notEqual, and, or, logicalAnd, logicalOr]

/-- How tightly an operator binds. The remainder and the joining of texts bind like a sum. -/
def precedence : BinaryOp → Precedence
  | power => .exponent
  | multiply | divide => .product
  | add | subtract | concat | modulo => .sum
  | less | lessOrEqual | greater | greaterOrEqual | equal | notEqual => .comparison
  | and | or | logicalAnd | logicalOr => .logical

@[simp] theorem ofSymbol?_symbol (op : BinaryOp) : ofSymbol? op.symbol = some op := by
  cases op <;> rfl

end BinaryOp

/-- The unary operator that a kind of token is. -/
def TokenKind.unaryOp? : TokenKind → Option UnaryOp
  | .symbol s => UnaryOp.ofSymbol? s
  | _ => none

/-- The binary operator that a kind of token is. -/
def TokenKind.binaryOp? : TokenKind → Option BinaryOp
  | .symbol s => BinaryOp.ofSymbol? s
  | _ => none

end ExprLang

import ExprLang.Expr

/-!
# Expressions as program text

`Expr.text` writes an expression the way a program would: one space around operators and after
commas, and no parentheses but those of the tree itself. `Program.text` joins statements with a
semicolon and a space.

The text is built from its end: `pieces e rest` are the pieces of `e` before those of `rest`, so
that a long chain of operators, which leans to the left, is walked without nesting.
-/

namespace ExprLang

/-- Names with commas between them, before the pieces of a rest. -/
def namePieces (rest : List String) : List Name → List String
  | [] => rest
  | [name] => name.val :: rest
  | name :: names => name.val :: ", " :: namePieces rest names

namespace Expr

mutual

/-- The pieces of the text of an expression, before those of a rest. -/
def pieces : Expr → List String → List String
  | literal value _, rest => value.text :: rest
  | unary op operand _, rest => op.spelling :: operand.pieces rest
  | binary left op right _, rest => left.pieces (" " :: op.spelling :: " " :: right.pieces rest)
  | group inner _, rest => "(" :: inner.pieces (")" :: rest)
  | var name, rest => name.val :: rest
  | conditional c r a _, rest =>
    "if (" :: c.pieces (") " :: r.pieces (" else " :: a.pieces rest))
  | letIn bindings body _, rest =>
    "let " :: bindingPieces bindings (" in " :: body.pieces rest)
  | declaration name params body _, rest =>
    "function " :: name.val :: "(" :: namePieces (") => " :: body.pieces rest) params
  | call name args _, rest => name.val :: "(" :: argPieces args (")" :: rest)

/-- The pieces of bindings with commas between them. -/
def bindingPieces : List (Name × Expr) → List String → List String
  | [], rest => rest
  | [(name, value)], rest => name.val :: " = " :: value.pieces rest
  | (name, value) :: more, rest =>
    name.val :: " = " :: value.pieces (", " :: bindingPieces more rest)

/-- The pieces of arguments with commas between them. -/
def argPieces : List Expr → List String → List String
  | [], rest => rest
  | [e], rest => e.pieces rest
  | e :: more, rest => e.pieces (", " :: argPieces more rest)

end

/-- The program text of an expression. -/
def text (e : Expr) : String := String.join (e.pieces [])

end Expr

namespace Program

/-- What is written for a statement that was given up. -/
def lost : String := "<error>"

/-- The program text of one statement. -/
def statementText : Option Expr → String
  | some e => e.text
  | none => lost

/-- The program text of the statements of a line. -/
def text (p : Program) : String := "; ".intercalate (p.map statementText)

end Program

end ExprLang

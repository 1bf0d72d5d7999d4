import ExprLang.Expr

/-!
# Trees and words of the grammar

The grammar of statements, said about trees and not about the reader:

* `Expr.words`: the words that a tree is written with, from left to right and without parentheses of
  its own;
* `Expr.isCanonical`: the trees that need no parentheses of their own, because operators lean to the
  left, bind as tightly as their precedence says, and nothing to the left of an operator extends
  over it;
* `Expr.isStatement`: a canonical tree, or a declaration with a canonical body;
* `Expr.nest`: how many levels of nesting a reader needs for a tree.
-/

namespace ExprLang

/-- What the grammar sees of a token: the name or the value that it stands for, else its kind. -/
inductive Word where
  | name (text : String)
  | value (literal? : Option Literal)
  | plain (kind : TokenKind)
  deriving DecidableEq

/-- The kinds of tokens that stand for a value. -/
def TokenKind.isValue : TokenKind → Bool
  | .literal | .constant | .keyword .trueWord | .keyword .falseWord => true
  | _ => false

/-- The word that a lexeme is. -/
def Lexeme.word (l : Lexeme) : Word :=
  if l.kind.isValue then .value l.literal?
  else if l.kind = .identifier then .name l.text
  else .plain l.kind

/-- The word that a token is. -/
def Token.word (t : Token) : Word := t.toLexeme.word

theorem Precedence.le_iff {a b : Precedence} : a ≤ b ↔ a.rank ≤ b.rank := Iff.rfl

theorem Precedence.lt_iff {a b : Precedence} : a < b ↔ a.rank < b.rank := Iff.rfl

namespace Expr

/-- The operator at the root of a binary operation. -/
def rootOp? : Expr → Option BinaryOp
  | binary _ op _ _ => some op
  | _ => none

/-- Whether an expression ends with the open end of a conditional or of bindings, which takes in any
operator that follows. -/
def rightOpen : Expr → Bool
  | conditional .. | letIn .. => true
  | unary _ operand _ => operand.rightOpen
  | binary _ _ right _ => right.rightOpen
  | _ => false

mutual

/-- Whether the text of an expression, in which there are no parentheses but those of the tree, has
no other reading. -/
def isCanonical : Expr → Bool
  | literal .. | var _ => true
  | unary _ operand _ => operand.rootOp?.isNone && operand.isCanonical
  | binary left op right _ =>
    left.isCanonical && right.isCanonical && !left.rightOpen &&
      left.rootOp?.all (fun o => op.precedence ≤ o.precedence) &&
      right.rootOp?.all (fun o => op.precedence < o.precedence)
  | group inner _ => inner.isCanonical
  | conditional c r a _ => c.isCanonical && r.isCanonical && a.isCanonical
  | letIn bindings body _ => !bindings.isEmpty && isCanonicalBindings bindings && body.isCanonical
  | declaration .. => false
  | call _ args _ => isCanonicalArgs args

/-- Canonical values in a list of bindings. -/
def isCanonicalBindings : List (Name × Expr) → Bool
  | [] => true
  | (_, value) :: rest => value.isCanonical && isCanonicalBindings rest

/-- Canonical expressions in a list of arguments. -/
def isCanonicalArgs : List Expr → Bool
  | [] => true
  | e :: rest => e.isCanonical && isCanonicalArgs rest

end

/-- A canonical expression, or a declaration of one. -/
def isStatement : Expr → Bool
  | declaration _ _ body _ => body.isCanonical
  | e => e.isCanonical

mutual

/-- The levels of nesting below an expression. A chain of operators that leans to the left stays on
one level. -/
def levelsBelow : Expr → Nat
  | literal .. | var _ => 0
  | unary _ operand _ => operand.levelsBelow + 1
  | binary left _ right _ => max left.levelsBelow (right.levelsBelow + 1)
  | group inner _ => inner.levelsBelow + 1
  | conditional c r a _ => max (c.levelsBelow + 1) (max (r.levelsBelow + 1) (a.levelsBelow + 1))
  | letIn bindings body _ => max (levelsBelowBindings bindings) (body.levelsBelow + 1)
  | declaration _ _ body _ => body.levelsBelow
  | call _ args _ => levelsBelowArgs args

/-- The levels of nesting of a list of bindings. -/
def levelsBelowBindings : List (Name × Expr) → Nat
  | [] => 0
  | (_, value) :: rest => max (value.levelsBelow + 1) (levelsBelowBindings rest)

/-- The levels of nesting of a list of arguments. -/
def levelsBelowArgs : List Expr → Nat
  | [] => 0
  | e :: rest => max (e.levelsBelow + 1) (levelsBelowArgs rest)

end

/-- The levels of nesting of an expression: its own and those below it. A declaration has the levels
of its body. -/
def nest (e : Expr) : Nat := e.levelsBelow + 1

/-- The words of names with commas between them. -/
def nameWords : List Name → List Word
  | [] => []
  | [name] => [.name name.val]
  | name :: names => .name name.val :: .plain (.symbol .comma) :: nameWords names

mutual

/-- The words of an expression. -/
def words : Expr → List Word
  | literal value _ => [.value (some value)]
  | unary op operand _ => .plain (.symbol op.symbol) :: operand.words
  | binary left op right _ => left.words ++ .plain (.symbol op.symbol) :: right.words
  | group inner _ => .plain (.symbol .leftParen) :: (inner.words ++ [.plain (.symbol .rightParen)])
  | var name => [.name name.val]
  | conditional c r a _ =>
    .plain (.keyword .ifWord) :: .plain (.symbol .leftParen) ::
      (c.words ++ .plain (.symbol .rightParen) ::
        (r.words ++ .plain (.keyword .elseWord) :: a.words))
  | letIn bindings body _ =>
    .plain (.keyword .letWord) :: (bindingWords bindings ++ .plain (.keyword .inWord) :: body.words)
  | declaration name params body _ =>
    .plain (.keyword .functionWord) :: .name name.val :: .plain (.symbol .leftParen) ::
      (nameWords params ++ .plain (.symbol .rightParen) :: .plain (.symbol .arrow) :: body.words)
  | call name args _ =>
    .name name.val :: .plain (.symbol .leftParen) ::
      (argWords args ++ [.plain (.symbol .rightParen)])

/-- The words of bindings with commas between them. -/
def bindingWords : List (Name × Expr) → List Word
  | [] => []
  | [(name, value)] => .name name.val :: .plain (.symbol .equal) :: value.words
  | (name, value) :: more =>
    .name name.val :: .plain (.symbol .equal) ::
      (value.words ++ .plain (.symbol .comma) :: bindingWords more)

/-- The words of arguments with commas between them. -/
def argWords : List Expr → List Word
  | [] => []
  | [e] => e.words
  | e :: more => e.words ++ .plain (.symbol .comma) :: argWords more

end

end Expr

end ExprLang

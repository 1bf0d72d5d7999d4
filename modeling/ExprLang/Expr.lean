import ExprLang.Operator

/-!
# Expressions

The tree of a statement. Every node knows its place in the line; `mapSpans` changes the places and
nothing else.
-/

namespace ExprLang

/-- An expression. A declaration is one too, though the grammar has it only as a statement. -/
inductive Expr where
  | literal (value : Literal) (span : Span)
  | unary (op : UnaryOp) (operand : Expr) (span : Span)
  | binary (left : Expr) (op : BinaryOp) (right : Expr) (span : Span)
  /-- An expression in parentheses. -/
  | group (inner : Expr) (span : Span)
  | var (name : Name)
  | conditional (condition resolution alternative : Expr) (span : Span)
  /-- Names for the values of expressions, visible in the body. -/
  | letIn (bindings : List (Name × Expr)) (body : Expr) (span : Span)
  | declaration (name : Name) (params : List Name) (body : Expr) (span : Span)
  | call (name : Name) (args : List Expr) (span : Span)

namespace Expr

/-- The place of an expression, from its first token to its last. -/
def span : Expr → Span
  | literal _ s | unary _ _ s | binary _ _ _ s | group _ s | conditional _ _ _ s | letIn _ _ s
  | declaration _ _ _ s | call _ _ s => s
  | var name => name.span

end Expr

/-- A name at a changed place. -/
def Located.mapSpan {α : Type} (f : Span → Span) (x : Located α) : Located α := ⟨x.val, f x.span⟩

namespace Expr

mutual

/-- Changes the place of every node and name. -/
def mapSpans (f : Span → Span) : Expr → Expr
  | literal value s => literal value (f s)
  | unary op operand s => unary op (operand.mapSpans f) (f s)
  | binary left op right s => binary (left.mapSpans f) op (right.mapSpans f) (f s)
  | group inner s => group (inner.mapSpans f) (f s)
  | var name => var (name.mapSpan f)
  | conditional c r a s => conditional (c.mapSpans f) (r.mapSpans f) (a.mapSpans f) (f s)
  | letIn bindings body s => letIn (mapSpansBindings f bindings) (body.mapSpans f) (f s)
  | declaration name params body s =>
    declaration (name.mapSpan f) (params.map (·.mapSpan f)) (body.mapSpans f) (f s)
  | call name args s => call (name.mapSpan f) (mapSpansArgs f args) (f s)

/-- Changes the places in a list of bindings. -/
def mapSpansBindings (f : Span → Span) : List (Name × Expr) → List (Name × Expr)
  | [] => []
  | (name, value) :: rest => (name.mapSpan f, value.mapSpans f) :: mapSpansBindings f rest

/-- Changes the places in a list of arguments. -/
def mapSpansArgs (f : Span → Span) : List Expr → List Expr
  | [] => []
  | e :: rest => e.mapSpans f :: mapSpansArgs f rest

end

/-- The expression with every place forgotten: equal forms mean equal programs. -/
def form (e : Expr) : Expr := e.mapSpans fun _ => ⟨0, 0⟩

end Expr

/-- The statements of a line, one for each slot between semicolons; `none` stands for a statement
that was given up. -/
abbrev Program := List (Option Expr)

end ExprLang

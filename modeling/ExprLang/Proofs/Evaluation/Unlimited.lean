import ExprLang.Evaluation

/-!
# Runs without limits

`Runs registry scope e outcome registry' peak` is the evaluation of an expression by the rules
alone, without any limit: how it ends, the functions that are known then, and the peak of what was
active at once. A run that does not end has no derivation.
-/

namespace ExprLang

/-- How many calls of declared functions and how many expressions were active at once, at most. -/
structure Peak where
  calls : Nat
  depth : Nat

namespace Peak

/-- Nothing was active. -/
def idle : Peak := ⟨0, 0⟩

/-- The peak of two runs, one after the other. -/
def max (p q : Peak) : Peak := ⟨Nat.max p.calls q.calls, Nat.max p.depth q.depth⟩

/-- The peak of an expression, when its parts have the given one. -/
def inExpr (p : Peak) : Peak := ⟨p.calls, p.depth + 1⟩

/-- The peak of a call, when the body of the function has the given one. -/
def inCall (p : Peak) : Peak := ⟨p.calls + 1, p.depth⟩

end Peak

/-- How a unary operation ends at the value of its operand. -/
def UnaryOp.outcome (op : UnaryOp) (v : Value) (span : Span) : Except Error Value :=
  (op.check v span).map fun _ => (op.value? v).getD .nothing

/-- How a binary operation ends at the values of its operands. -/
def BinaryOp.outcome (op : BinaryOp) (v w : Value) (span : Span) : Except Error Value :=
  (op.check v w span).map fun _ => (op.value? v w).getD .nothing

mutual

/-- Evaluation without limits. -/
inductive Runs : Registry → Scope → Expr → Except Error Value → Registry → Peak → Prop
  | literal {r : Registry} {scope : Scope} {value : Literal} {span : Span} :
      Runs r scope (.literal value span) (.ok (.ofLiteral value)) r Peak.idle.inExpr
  | var {r : Registry} {scope : Scope} {name : Name} {v : Value}
      (hv : scope.get? name.val = some v) :
      Runs r scope (.var name) (.ok v) r Peak.idle.inExpr
  | varError {r : Registry} {scope : Scope} {name : Name} (hname : scope.get? name.val = none) :
      Runs r scope (.var name) (.error ⟨.runtime (.undeclaredVariable name.val), name.span⟩) r
        Peak.idle.inExpr
  | unary {r r' : Registry} {scope : Scope} {op : UnaryOp} {e : Expr} {span : Span} {v : Value}
      {p : Peak} (he : Runs r scope e (.ok v) r' p) :
      Runs r scope (.unary op e span) (op.outcome v span) r' p.inExpr
  | unaryError {r r' : Registry} {scope : Scope} {op : UnaryOp} {e : Expr} {span : Span}
      {x : Error} {p : Peak} (he : Runs r scope e (.error x) r' p) :
      Runs r scope (.unary op e span) (.error x) r' p.inExpr
  | binary {r r' r'' : Registry} {scope : Scope} {op : BinaryOp} {d e : Expr} {span : Span}
      {v w : Value} {p q : Peak} (hd : Runs r scope d (.ok v) r' p)
      (he : Runs r' scope e (.ok w) r'' q) :
      Runs r scope (.binary d op e span) (op.outcome v w span) r'' (p.max q).inExpr
  | binaryLeft {r r' : Registry} {scope : Scope} {op : BinaryOp} {d e : Expr} {span : Span}
      {x : Error} {p : Peak} (hd : Runs r scope d (.error x) r' p) :
      Runs r scope (.binary d op e span) (.error x) r' p.inExpr
  | binaryRight {r r' r'' : Registry} {scope : Scope} {op : BinaryOp} {d e : Expr} {span : Span}
      {v : Value} {x : Error} {p q : Peak} (hd : Runs r scope d (.ok v) r' p)
      (he : Runs r' scope e (.error x) r'' q) :
      Runs r scope (.binary d op e span) (.error x) r'' (p.max q).inExpr
  | group {r r' : Registry} {scope : Scope} {e : Expr} {span : Span} {o : Except Error Value}
      {p : Peak} (he : Runs r scope e o r' p) : Runs r scope (.group e span) o r' p.inExpr
  | conditional {r r' r'' : Registry} {scope : Scope} {c d e : Expr} {span : Span} {v : Value}
      {b : Bool} {o : Except Error Value} {p q : Peak} (hc : Runs r scope c (.ok v) r' p)
      (hv : v.asCondition c.span = .ok b) (hbranch : Runs r' scope (if b then d else e) o r'' q) :
      Runs r scope (.conditional c d e span) o r'' (p.max q).inExpr
  | conditionalType {r r' : Registry} {scope : Scope} {c d e : Expr} {span : Span} {v : Value}
      {x : Error} {p : Peak} (hc : Runs r scope c (.ok v) r' p)
      (hv : v.asCondition c.span = .error x) :
      Runs r scope (.conditional c d e span) (.error x) r' p.inExpr
  | conditionalError {r r' : Registry} {scope : Scope} {c d e : Expr} {span : Span} {x : Error}
      {p : Peak} (hc : Runs r scope c (.error x) r' p) :
      Runs r scope (.conditional c d e span) (.error x) r' p.inExpr
  | letIn {r r' r'' : Registry} {scope : Scope} {bindings : List (Name × Expr)} {body : Expr}
      {span : Span} {values : List Value} {o : Except Error Value} {p q : Peak}
      (hvalues : RunsAll r scope (bindings.map Prod.snd) (.ok values) r' p)
      (hbody : Runs r' (scope.extend ((bindings.map fun b => b.1.val).zip values)) body o r'' q) :
      Runs r scope (.letIn bindings body span) o r'' (p.max q).inExpr
  | letInError {r r' : Registry} {scope : Scope} {bindings : List (Name × Expr)} {body : Expr}
      {span : Span} {x : Error} {p : Peak}
      (hvalues : RunsAll r scope (bindings.map Prod.snd) (.error x) r' p) :
      Runs r scope (.letIn bindings body span) (.error x) r' p.inExpr
  | declaration {r r' : Registry} {scope : Scope} {name : Name} {params : List Name} {body : Expr}
      {span : Span}
      (hdeclare : r.declare (.declared name.val (params.map Located.val) body) name.span = .ok r') :
      Runs r scope (.declaration name params body span) (.ok .nothing) r' Peak.idle.inExpr
  | declarationError {r : Registry} {scope : Scope} {name : Name} {params : List Name}
      {body : Expr} {span : Span} {x : Error}
      (hdeclare :
        r.declare (.declared name.val (params.map Located.val) body) name.span = .error x) :
      Runs r scope (.declaration name params body span) (.error x) r Peak.idle.inExpr
  | call {r r' r'' : Registry} {scope : Scope} {name : Name} {args : List Expr} {span : Span}
      {values : List Value} {declared : String} {params : List String} {body : Expr}
      {o : Except Error Value} {p q : Peak} (hargs : RunsAll r scope args (.ok values) r' p)
      (hname : r'.get? ⟨name.val, values.length⟩ = some (.declared declared params body))
      (hbody : Runs r' (.ofList (params.zip values)) body o r'' q) :
      Runs r scope (.call name args span) o r'' (p.max q.inCall).inExpr
  | callBuiltin {r r' : Registry} {scope : Scope} {name : Name} {args : List Expr} {span : Span}
      {values : List Value} {b : Builtin} {p : Peak}
      (hargs : RunsAll r scope args (.ok values) r' p)
      (hname : r'.get? ⟨name.val, values.length⟩ = some (.builtin b)) :
      Runs r scope (.call name args span) (b.apply values span) r' p.inExpr
  | callUnknown {r r' : Registry} {scope : Scope} {name : Name} {args : List Expr} {span : Span}
      {values : List Value} {p : Peak} (hargs : RunsAll r scope args (.ok values) r' p)
      (hname : r'.get? ⟨name.val, values.length⟩ = none) :
      Runs r scope (.call name args span)
        (.error ⟨.runtime (.unknownFunction name.val values.length), span⟩) r' p.inExpr
  | callError {r r' : Registry} {scope : Scope} {name : Name} {args : List Expr} {span : Span}
      {x : Error} {p : Peak} (hargs : RunsAll r scope args (.error x) r' p) :
      Runs r scope (.call name args span) (.error x) r' p.inExpr

/-- Evaluation of expressions from left to right, without limits. -/
inductive RunsAll :
    Registry → Scope → List Expr → Except Error (List Value) → Registry → Peak → Prop
  | nil {r : Registry} {scope : Scope} : RunsAll r scope [] (.ok []) r Peak.idle
  | cons {r r' r'' : Registry} {scope : Scope} {e : Expr} {es : List Expr} {v : Value}
      {vs : List Value} {p q : Peak} (he : Runs r scope e (.ok v) r' p)
      (hes : RunsAll r' scope es (.ok vs) r'' q) :
      RunsAll r scope (e :: es) (.ok (v :: vs)) r'' (p.max q)
  | head {r r' : Registry} {scope : Scope} {e : Expr} {es : List Expr} {x : Error} {p : Peak}
      (he : Runs r scope e (.error x) r' p) : RunsAll r scope (e :: es) (.error x) r' p
  | tail {r r' r'' : Registry} {scope : Scope} {e : Expr} {es : List Expr} {v : Value} {x : Error}
      {p q : Peak} (he : Runs r scope e (.ok v) r' p) (hes : RunsAll r' scope es (.error x) r'' q) :
      RunsAll r scope (e :: es) (.error x) r'' (p.max q)

end

end ExprLang

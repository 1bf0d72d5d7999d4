import ExprLang.Proofs.Evaluation.Plain

/-!
# Evaluation without fallbacks

The evaluation has an answer also where a sound program has no question: the value of an operator
whose check passed but that has none, a built-in function without exactly one argument, and a
declared function with more or fewer arguments than parameters. `evalStrict stuck` goes on as
`stuck` in these places, and it is the evaluation all the same (`evalStrict_eq`), whatever `stuck`
does: none of these places is ever reached.
-/

namespace ExprLang

open Eval

/-- The value of an operator that has one. -/
def strictValue (stuck : Eval Value) : Option Value → Eval Value
  | some v => return v
  | none => stuck

/-- Calls a function with as many arguments as it has parameters, and is stuck with others. -/
def strictCall (stuck : Eval Value) (ev : Scope → Expr → Eval Value) (name : String)
    (args : List Value) (span : Span) : Eval Value := do
  let s ← get
  match s.registry.get? ⟨name, args.length⟩ with
  | none => fail (.unknownFunction name args.length) span
  | some (.builtin b) =>
    match args with
    | [v] => ofExcept (b.applyTo v span)
    | _ => stuck
  | some (.declared _ params body) =>
    if params.length ≠ args.length then stuck
    else if s.maxDepth ≤ s.calls then fail (.recursionLimitExceeded s.maxDepth) span
    else within Evaluator.enterCall Evaluator.leaveCall (ev (.ofList (params.zip args)) body)

/-- The value of an expression, without a fallback for an operator that has no value. -/
def strictNode (stuck : Eval Value) (ev : Scope → Expr → Eval Value) (scope : Scope) :
    Expr → Eval Value
  | .unary op operand span => do
    let v ← ev scope operand
    ofExcept (op.check v span)
    strictValue stuck (op.value? v)
  | .binary left op right span => do
    let v ← ev scope left
    let w ← ev scope right
    ofExcept (op.check v w span)
    strictValue stuck (op.value? v w)
  | .call name args span => do
    let values ← args.mapM (ev scope)
    strictCall stuck ev name.val values span
  | e => evalNode ev scope e

/-- Evaluation without fallbacks. -/
def evalStrict (stuck : Eval Value) : Nat → Scope → Expr → Eval Value
  | 0, scope, e => eval 0 scope e
  | n + 1, scope, e =>
    within Evaluator.enterExpr Evaluator.leaveExpr (strictNode stuck (evalStrict stuck n) scope e)

variable {stuck : Eval Value} {ev : Scope → Expr → Eval Value}

/-- Behind a check that passed there is a value. -/
theorem check_bind_eq {check : Except Error Unit} {value? : Option Value}
    (hsome : check = .ok () → value?.isSome) :
    (ofExcept check >>= fun _ => strictValue stuck value?) =
      ofExcept check >>= fun _ => pure (value?.getD .nothing) := by
  cases check with
  | ok =>
    obtain ⟨v, rfl⟩ := Option.isSome_iff_exists.1 (hsome rfl)
    rfl
  | error x => rfl

theorem strictCall_eq (name : String) (args : List Value) (span : Span) :
    strictCall stuck ev name args span = evalCall ev name args span := by
  funext s
  unfold strictCall evalCall
  rw [get_bind, get_bind]
  cases hget : s.registry.get? ⟨name, args.length⟩ with
  | none => rfl
  | some f =>
    cases f with
    | builtin b =>
      obtain ⟨v, rfl⟩ := List.length_eq_one_iff.1 (Registry.length_of_get?_builtin hget)
      rfl
    | declared declared params body =>
      dsimp only
      rw [if_neg fun h => h (Registry.length_of_get?_declared hget)]

theorem strictNode_eq (scope : Scope) (e : Expr) :
    strictNode stuck ev scope e = evalNode ev scope e := by
  cases e with
  | unary op e span => exact bind_congr fun v => check_bind_eq UnaryOp.isSome_value?
  | binary d op e span =>
    exact bind_congr fun v => bind_congr fun w => check_bind_eq BinaryOp.isSome_value?
  | call name args span => exact bind_congr fun values => strictCall_eq name.val values span
  | _ => rfl

/-- **No fallback is ever reached.** -/
theorem evalStrict_eq (stuck : Eval Value) : evalStrict stuck = eval := by
  funext n
  induction n with
  | zero => rfl
  | succ n ih =>
    funext scope e
    rw [evalStrict, ih, strictNode_eq, eval]

end ExprLang

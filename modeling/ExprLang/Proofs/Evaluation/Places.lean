import ExprLang.Proofs.Evaluation.Agreement
import ExprLang.Proofs.Grammar.Forms
import ExprLang.Session

/-!
# Places do not matter to evaluation

When the places in an expression and in the bodies of the functions are changed, evaluation does the
same as before: the value is the same, the functions are the same but for their places, and of an
error only the place is another (`eval_mapSpans`). So statements of one form have outcomes of one
form (`evalStatements_congr`).
-/

namespace ExprLang

variable (f : Span → Span)

namespace Function

/-- Changes the places in the body of a function. -/
def mapSpans : Function → Function
  | builtin b => builtin b
  | declared name params body => declared name params (body.mapSpans f)

theorem signature_mapSpans (g : Function) : (g.mapSpans f).signature = g.signature := by
  cases g <;> rfl

end Function

namespace Registry

/-- Signatures have no places. -/
theorem Keyed.mapSpans {entries : List (Signature × Function)} (h : Keyed entries) :
    Keyed (entries.map fun entry => (entry.1, entry.2.mapSpans f)) := by
  intro key g hmem
  obtain ⟨entry, hentry, heq⟩ := List.mem_map.1 hmem
  cases heq
  rw [Function.signature_mapSpans]
  exact h entry.1 entry.2 hentry

/-- Changes the places in the bodies of all functions. -/
def mapSpans (r : Registry) : Registry :=
  ⟨r.entries.map fun entry => (entry.1, entry.2.mapSpans f), r.keyed.mapSpans f⟩

/-- The functions with every place forgotten. -/
def form (r : Registry) : Registry := r.mapSpans fun _ => ⟨0, 0⟩

variable (r : Registry)

theorem get?_mapSpans (s : Signature) : (r.mapSpans f).get? s = (r.get? s).map (·.mapSpans f) := by
  rw [get?, get?, mapSpans, List.find?_map, Option.map_map, Option.map_map]
  rfl

theorem contains_mapSpans (g : Function) :
    (r.mapSpans f).contains (g.mapSpans f).signature = r.contains g.signature := by
  rw [contains, contains, Function.signature_mapSpans, get?_mapSpans, Option.isSome_map]

theorem add_mapSpans (g : Function) :
    (r.mapSpans f).add (g.mapSpans f) = (r.add g).mapSpans f := by
  unfold add
  rw [contains_mapSpans]
  split
  · rfl
  · ext1
    simp only [mapSpans, Function.signature_mapSpans, List.map_append, List.map_singleton]

theorem declare_mapSpans (g : Function) (span : Span) :
    (r.mapSpans f).declare (g.mapSpans f) (f span) =
      ((r.declare g span).map (mapSpans f)).mapError (Located.mapSpan f) := by
  rw [declare, declare, contains_mapSpans, add_mapSpans, Function.signature_mapSpans]
  split <;> rfl

end Registry

/-- Changes the places in the bodies of the functions. -/
def Evaluator.mapSpans (s : Evaluator) : Evaluator := { s with registry := s.registry.mapSpans f }

/-! ### Steps -/

/-- A step does what another one does, at changed places. -/
def Moved {α : Type} (step step' : Eval α) : Prop :=
  ∀ s : Evaluator, step' (s.mapSpans f) =
    ((step s).1.mapError (Located.mapSpan f), (step s).2.mapSpans f)

namespace Moved

open Eval

variable {f} {α β : Type} {step step' : Eval α} {next next' : α → Eval β}

theorem ofExcept {x x' : Except Error α} (h : x' = x.mapError (Located.mapSpan f)) :
    Moved f (MonadExcept.ofExcept x) (MonadExcept.ofExcept x') := by
  intro s
  rw [ofExcept_apply, ofExcept_apply, h]

theorem pure (a : α) : Moved f (Pure.pure a) (Pure.pure a) := ofExcept (x := .ok a) rfl

theorem fail (e : RuntimeError) (span : Span) :
    Moved f (Eval.fail e span : Eval α) (Eval.fail e (f span)) := ofExcept (x := .error _) rfl

theorem bind (hstep : Moved f step step') (hnext : ∀ a, Moved f (next a) (next' a)) :
    Moved f (step >>= next) (step' >>= next') := by
  intro s
  have hstep := hstep s
  cases h : step s with
  | mk result t =>
    rw [h] at hstep
    cases result with
    | ok a =>
      rw [bind_ok hstep, bind_ok h]
      exact hnext a t
    | error x => rw [bind_error hstep, bind_error h]; rfl

/-- What is active has no places. -/
theorem inExpr (h : Moved f step step') :
    Moved f (within Evaluator.enterExpr Evaluator.leaveExpr step)
      (within Evaluator.enterExpr Evaluator.leaveExpr step') := by
  intro s
  show ((step' (s.enterExpr.mapSpans f)).1, (step' (s.enterExpr.mapSpans f)).2.leaveExpr) = _
  rw [h s.enterExpr]
  rfl

theorem inCall (h : Moved f step step') :
    Moved f (within Evaluator.enterCall Evaluator.leaveCall step)
      (within Evaluator.enterCall Evaluator.leaveCall step') := by
  intro s
  show ((step' (s.enterCall.mapSpans f)).1, (step' (s.enterCall.mapSpans f)).2.leaveCall) = _
  rw [h s.enterCall]
  rfl

end Moved

/-! ### Operators and functions -/

section

variable {f}

theorem UnaryOp.check_mapSpan (op : UnaryOp) (v : Value) (span : Span) :
    op.check v (f span) = (op.check v span).mapError (Located.mapSpan f) := by
  unfold check
  split <;> rfl

theorem BinaryOp.check_mapSpan (op : BinaryOp) (v w : Value) (span : Span) :
    op.check v w (f span) = (op.check v w span).mapError (Located.mapSpan f) := by
  unfold check
  split <;> rfl

theorem Value.asCondition_mapSpan (v : Value) (span : Span) :
    v.asCondition (f span) = (v.asCondition span).mapError (Located.mapSpan f) := by
  cases v <;> rfl

theorem Builtin.apply_mapSpan (b : Builtin) (args : List Value) (span : Span) :
    b.apply args (f span) = (b.apply args span).mapError (Located.mapSpan f) := by
  unfold apply
  cases b <;> cases args.getLastD .nothing <;> rfl

theorem evalVariable_moved (scope : Scope) (name : Name) :
    Moved f (evalVariable scope name) (evalVariable scope (name.mapSpan f)) := by
  unfold evalVariable
  rw [show (name.mapSpan f).val = name.val from rfl]
  cases scope.get? name.val with
  | some v => exact .pure v
  | none => exact .fail _ name.span

theorem evalDeclaration_moved (name : Name) (params : List Name) (body : Expr) :
    Moved f (evalDeclaration name params body)
      (evalDeclaration (name.mapSpan f) (params.map (·.mapSpan f)) (body.mapSpans f)) := by
  intro s
  have hparams : (params.map (·.mapSpan f)).map Located.val = params.map Located.val :=
    List.map_map
  have hdeclare := s.registry.declare_mapSpans f
    (.declared name.val (params.map Located.val) body) name.span
  unfold evalDeclaration
  rw [Eval.get_bind, Eval.get_bind, hparams]
  show (MonadExcept.ofExcept ((s.registry.mapSpans f).declare
    ((Function.declared name.val (params.map Located.val) body).mapSpans f) (f name.span)) >>=
      _ : Eval Value) (s.mapSpans f) = _
  rw [hdeclare]
  cases s.registry.declare (.declared name.val (params.map Located.val) body) name.span <;> rfl

end

/-! ### Expressions -/

theorem Expr.map_snd_mapSpansBindings (bindings : List (Name × Expr)) :
    (mapSpansBindings f bindings).map Prod.snd = mapSpansArgs f (bindings.map Prod.snd) := by
  induction bindings with
  | nil => rfl
  | cons b rest ih => exact congrArg (_ :: ·) ih

theorem Expr.map_name_mapSpansBindings (bindings : List (Name × Expr)) :
    ((mapSpansBindings f bindings).map fun b => b.1.val) = bindings.map fun b => b.1.val := by
  induction bindings with
  | nil => rfl
  | cons b rest ih => exact congrArg (_ :: ·) ih

section

variable {f} {ev : Scope → Expr → Eval Value}
  (hev : ∀ scope e, Moved f (ev scope e) (ev scope (e.mapSpans f)))

include hev

theorem mapM_moved (scope : Scope) (es : List Expr) :
    Moved f (es.mapM (ev scope)) ((Expr.mapSpansArgs f es).mapM (ev scope)) := by
  induction es with
  | nil => exact .pure []
  | cons e es ih =>
    rw [Expr.mapSpansArgs, List.mapM_cons, List.mapM_cons]
    exact (hev scope e).bind fun v => ih.bind fun vs => .pure (v :: vs)

theorem evalCall_moved (name : String) (args : List Value) (span : Span) :
    Moved f (evalCall ev name args span) (evalCall ev name args (f span)) := by
  intro s
  unfold evalCall
  rw [Eval.get_bind, Eval.get_bind, show (s.mapSpans f).registry = s.registry.mapSpans f from rfl,
    Registry.get?_mapSpans]
  cases s.registry.get? ⟨name, args.length⟩ with
  | none => exact Moved.fail _ span s
  | some g =>
    cases g with
    | builtin b => exact Moved.ofExcept (b.apply_mapSpan args span) s
    | declared declared params body =>
      show (if s.maxDepth ≤ s.calls then _ else _ : Eval Value) (s.mapSpans f) = _
      dsimp only
      split
      · exact Moved.fail _ span s
      · exact (hev _ body).inCall s

theorem evalNode_moved (scope : Scope) (e : Expr) :
    Moved f (evalNode ev scope e) (evalNode ev scope (e.mapSpans f)) := by
  cases e with
  | literal value span => exact .pure _
  | unary op e span =>
    exact (hev scope e).bind fun v => (Moved.ofExcept (op.check_mapSpan v span)).bind fun _ =>
      .pure _
  | binary d op e span =>
    exact (hev scope d).bind fun v => (hev scope e).bind fun w =>
      (Moved.ofExcept (op.check_mapSpan v w span)).bind fun _ => .pure _
  | group e span => exact hev scope e
  | var name => exact evalVariable_moved scope name
  | conditional c d e span =>
    refine (hev scope c).bind fun v => ?_
    rw [Expr.span_mapSpans]
    refine (Moved.ofExcept (v.asCondition_mapSpan c.span)).bind fun b => ?_
    cases b with
    | true => exact hev scope d
    | false => exact hev scope e
  | letIn bindings body span =>
    rw [Expr.mapSpans, evalNode, evalNode, mapM_bindings, mapM_bindings,
      Expr.map_snd_mapSpansBindings, Expr.map_name_mapSpansBindings]
    exact ((mapM_moved hev scope _).bind fun values => .pure _).bind fun values => hev _ body
  | declaration name params body span => exact evalDeclaration_moved name params body
  | call name args span =>
    exact (mapM_moved hev scope args).bind fun values => evalCall_moved hev name.val values span

end

/-- **Places do not matter to evaluation.** -/
theorem eval_mapSpans (n : Nat) (scope : Scope) (e : Expr) :
    Moved f (eval n scope e) (eval n scope (e.mapSpans f)) := by
  induction n generalizing scope e with
  | zero =>
    intro s
    show (Eval.fail (.nestingTooDeep (nestingLimit s.maxDepth)) (e.mapSpans f).span : Eval Value)
      (s.mapSpans f) = _
    rw [Expr.span_mapSpans]
    exact Moved.fail _ e.span s
  | succ n ih => exact (evalNode_moved ih scope e).inExpr

/-! ### Statements -/

section

variable (maxDepth : Nat) (r : Registry)

theorem evalStatement_mapSpans (entry : Option Expr) :
    evalStatement maxDepth (r.mapSpans f) (entry.map (·.mapSpans f)) =
      ((evalStatement maxDepth r entry).1.mapError (Located.mapSpan f),
        (evalStatement maxDepth r entry).2.mapSpans f) := by
  cases entry with
  | none => rfl
  | some e =>
    have h := eval_mapSpans f (nestingLimit maxDepth) .empty e { registry := r, maxDepth }
    exact congrArg (fun result => (result.1, result.2.registry)) h

theorem evalStatements_mapSpans (program : Program) :
    evalStatements maxDepth (r.mapSpans f) (program.map (Option.map (·.mapSpans f))) =
      ((evalStatements maxDepth r program).1.map (Except.mapError (Located.mapSpan f)),
        (evalStatements maxDepth r program).2.mapSpans f) := by
  induction program generalizing r with
  | nil => rfl
  | cons entry program ih =>
    rw [List.map_cons, evalStatements, evalStatements, evalStatement_mapSpans]
    dsimp only
    rw [ih]
    rfl

end

/-- What came of a statement, without the place of an error. -/
def Outcome.form (o : Outcome) : Except Cause Value := o.mapError Located.val

/-- **Statements of one form have outcomes of one form.** -/
theorem evalStatements_congr (maxDepth : Nat) {r r' : Registry} (hr : r.form = r'.form)
    {p p' : Program} (hp : p.map (Option.map Expr.form) = p'.map (Option.map Expr.form)) :
    (evalStatements maxDepth r p).1.map Outcome.form =
        (evalStatements maxDepth r' p').1.map Outcome.form ∧
      (evalStatements maxDepth r p).2.form = (evalStatements maxDepth r' p').2.form := by
  have h : evalStatements maxDepth r.form (p.map (Option.map Expr.form)) = _ :=
    evalStatements_mapSpans _ maxDepth r p
  have h' : evalStatements maxDepth r'.form (p'.map (Option.map Expr.form)) = _ :=
    evalStatements_mapSpans _ maxDepth r' p'
  rw [hr, hp, h'] at h
  obtain ⟨houtcomes, hregistry⟩ := Prod.mk.inj h
  -- the place of an error is forgotten in any case
  have hform : ∀ os : List Outcome, os.map Outcome.form =
      (os.map (Except.mapError (Located.mapSpan fun _ => ⟨0, 0⟩))).map Outcome.form := by
    intro os
    rw [List.map_map]
    exact List.map_congr_left fun o _ => by cases o <;> rfl
  exact ⟨by rw [hform, ← houtcomes, ← hform], hregistry.symm⟩

end ExprLang

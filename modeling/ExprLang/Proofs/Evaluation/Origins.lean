import ExprLang.Proofs.Evaluation.Extension
import ExprLang.Proofs.Grammar.Nodes

/-!
# Where errors of evaluation come from

An error comes from the code that was being evaluated when it was raised: the statement, or the body
of the function that was called last. `evalTraced` is an evaluation that tells this `Origin` along
with every error, and apart from that it is the evaluation (`eval_eq_traced`).

The place of an error is the place of a node of its origin (`evalTraced_raises`). For a plain
expression this is one invariant, since evaluation goes from a node to the nodes below it and from
a call to the body of a function at hand.
-/

namespace ExprLang

open Eval

/-- The code that is being evaluated. -/
inductive Origin where
  | statement
  /-- The body of a declared function. -/
  | body (f : Function)

/-- An error and the code that it comes from. -/
structure TracedError where
  error : Error
  origin : Origin

/-- A step of evaluation that tells where its error comes from. -/
abbrev Trace := ExceptT TracedError (StateM Evaluator)

namespace Trace

/-- A step of the code at hand. -/
def of {α : Type} (o : Origin) (step : Eval α) : Trace α := fun s =>
  ((step s).1.mapError fun x => ⟨x, o⟩, (step s).2)

/-- A step between an entry and an exit, which is passed also on failure. -/
def within {α : Type} (enter leave : Evaluator → Evaluator) (step : Trace α) : Trace α := fun s =>
  ((step (enter s)).1, leave (step (enter s)).2)

end Trace

/-- Calls a function. What goes wrong in its body comes from there, and a refused call from the code
that calls. -/
def tracedCall (ev : Origin → Scope → Expr → Trace Value) (o : Origin) (name : String)
    (args : List Value) (span : Span) : Trace Value := do
  let s ← get
  match s.registry.get? ⟨name, args.length⟩ with
  | none => .of o (fail (.unknownFunction name args.length) span)
  | some (.builtin b) => .of o (ofExcept (b.apply args span))
  | some (.declared declared params body) =>
    if s.maxDepth ≤ s.calls then .of o (fail (.recursionLimitExceeded s.maxDepth) span)
    else
      .within Evaluator.enterCall Evaluator.leaveCall
        (ev (.body (.declared declared params body)) (.ofList (params.zip args)) body)

/-- The value of an expression of the code at hand, or an error and where it comes from. -/
def tracedNode (ev : Origin → Scope → Expr → Trace Value) (o : Origin) (scope : Scope) :
    Expr → Trace Value
  | .literal value _ => pure (.ofLiteral value)
  | .unary op operand span => do
    let v ← ev o scope operand
    Trace.of o (ofExcept (op.check v span))
    return (op.value? v).getD .nothing
  | .binary left op right span => do
    let v ← ev o scope left
    let w ← ev o scope right
    Trace.of o (ofExcept (op.check v w span))
    return (op.value? v w).getD .nothing
  | .group inner _ => ev o scope inner
  | .var name => .of o (evalVariable scope name)
  | .conditional condition resolution alternative _ => do
    let v ← ev o scope condition
    if ← Trace.of o (ofExcept (v.asCondition condition.span)) then ev o scope resolution
    else ev o scope alternative
  | .letIn bindings body _ => do
    let values ← bindings.mapM fun b => return (b.1.val, ← ev o scope b.2)
    ev o (scope.extend values) body
  | .declaration name params body _ => .of o (evalDeclaration name params body)
  | .call name args span => do
    let values ← args.mapM (ev o scope)
    tracedCall ev o name.val values span

/-- Evaluation that tells where errors come from. -/
def evalTraced : Nat → Origin → Scope → Expr → Trace Value
  | 0, o, scope, e => .of o (eval 0 scope e)
  | n + 1, o, scope, e =>
    .within Evaluator.enterExpr Evaluator.leaveExpr (tracedNode (evalTraced n) o scope e)

namespace Trace

variable {α β : Type} {m : Trace α} {f : α → Trace β} {s t : Evaluator}

theorem bind_ok {a : α} (h : m s = (.ok a, t)) : (m >>= f) s = f a t := by
  show ExceptT.bindCont f (m s).1 (m s).2 = _
  rw [h]
  rfl

theorem bind_error {x : TracedError} (h : m s = (.error x, t)) : (m >>= f) s = (.error x, t) := by
  show ExceptT.bindCont f (m s).1 (m s).2 = _
  rw [h]
  rfl

theorem get_bind (f : Evaluator → Trace β) (s : Evaluator) : (get >>= f) s = f s s := rfl

end Trace

/-! ### The evaluation without origins -/

/-- A step that does what a traced step does, and does not tell where its error comes from. -/
def Traces {α : Type} (traced : Trace α) (step : Eval α) : Prop :=
  ∀ s : Evaluator, step s = ((traced s).1.mapError TracedError.error, (traced s).2)

namespace Traces

variable {α β : Type} {traced : Trace α} {step : Eval α} {f : α → Trace β} {g : α → Eval β}

theorem of (o : Origin) (step : Eval α) : Traces (.of o step) step := by
  intro s
  unfold Trace.of
  cases step s with
  | mk result t => cases result <;> rfl

theorem pure (a : α) : Traces (Pure.pure a) (Pure.pure a) := fun _ => rfl

theorem bind (h : Traces traced step) (hf : ∀ a, Traces (f a) (g a)) :
    Traces (traced >>= f) (step >>= g) := by
  intro s
  have hs := h s
  cases htraced : traced s with
  | mk result t =>
    rw [htraced] at hs
    cases result with
    | ok a =>
      rw [Eval.bind_ok hs, Trace.bind_ok htraced]
      exact hf a t
    | error x =>
      rw [Eval.bind_error hs, Trace.bind_error htraced]
      rfl

theorem mapM {as : List α} (h : ∀ a ∈ as, Traces (f a) (g a)) :
    Traces (as.mapM f) (as.mapM g) := by
  induction as with
  | nil => exact .pure []
  | cons a as ih =>
    rw [List.forall_mem_cons] at h
    rw [List.mapM_cons, List.mapM_cons]
    exact h.1.bind fun b => (ih h.2).bind fun bs => .pure (b :: bs)

theorem within (h : Traces traced step) (enter leave : Evaluator → Evaluator) :
    Traces (.within enter leave traced) (Eval.within enter leave step) := by
  intro s
  show ((step (enter s)).1, leave (step (enter s)).2) = _
  rw [h (enter s)]
  rfl

end Traces

section

variable {traced : Origin → Scope → Expr → Trace Value} {ev : Scope → Expr → Eval Value}
  (hev : ∀ o scope e, Traces (traced o scope e) (ev scope e))

include hev

theorem tracedCall_traces (o : Origin) (name : String) (args : List Value) (span : Span) :
    Traces (tracedCall traced o name args span) (evalCall ev name args span) := by
  intro s
  unfold tracedCall evalCall
  rw [Eval.get_bind, Trace.get_bind]
  cases s.registry.get? ⟨name, args.length⟩ with
  | none => exact Traces.of o _ s
  | some f =>
    cases f with
    | builtin b => exact Traces.of o _ s
    | declared declared params body =>
      dsimp only
      split
      · exact Traces.of o _ s
      · exact (hev _ _ body).within _ _ s

theorem tracedNode_traces (o : Origin) (scope : Scope) (e : Expr) :
    Traces (tracedNode traced o scope e) (evalNode ev scope e) := by
  cases e with
  | literal value span => exact .pure _
  | unary op e span =>
    exact (hev o scope e).bind fun v => (Traces.of o _).bind fun _ => .pure _
  | binary d op e span =>
    exact (hev o scope d).bind fun v => (hev o scope e).bind fun w =>
      (Traces.of o _).bind fun _ => .pure _
  | group e span => exact hev o scope e
  | var name => exact .of o _
  | conditional c d e span =>
    refine (hev o scope c).bind fun v => (Traces.of o _).bind fun b => ?_
    cases b with
    | true => exact hev o scope d
    | false => exact hev o scope e
  | letIn bindings body span =>
    refine (Traces.mapM fun b _ => ?_).bind fun values => hev o _ body
    exact (hev o scope b.2).bind fun v => .pure _
  | declaration name params body span => exact .of o _
  | call name args span =>
    exact (Traces.mapM fun e _ => hev o scope e).bind fun values =>
      tracedCall_traces hev o name.val values span

end

/-- **Apart from the origins it tells, traced evaluation is evaluation.** -/
theorem eval_eq_traced (n : Nat) (o : Origin) (scope : Scope) (e : Expr) :
    Traces (evalTraced n o scope e) (eval n scope e) := by
  induction n generalizing o scope e with
  | zero => exact .of o _
  | succ n ih => exact (tracedNode_traces ih o scope e).within _ _

/-! ### Nodes of an origin -/

namespace Expr

variable {c d e : Expr}

/-- What is evaluated below an expression is a part of it. -/
theorem expr_mem_parts_of_mem_operands (h : c ∈ e.operands) : .expr c ∈ e.parts := by
  rw [expr_mem_parts]
  cases e with
  | literal | var | declaration => cases h
  | letIn bindings body span =>
    rcases List.mem_cons.1 h with rfl | h
    · exact Or.inr rfl
    · obtain ⟨b, hb, rfl⟩ := List.mem_map.1 h
      exact Or.inl ⟨b.1, hb⟩
  | call name args span => exact h
  | _ => simpa [operands] using h

/-- A part of a node is a node. -/
theorem NodeOf.child (hd : d.NodeOf e) (hc : .expr c ∈ d.parts) : c.NodeOf e := by
  induction hd with
  | self => exact .part (.self c) hc
  | part _ hp ih => exact .part ih hp

end Expr

/-- A node of the code of an origin, when `e` is the statement and `r` has the functions. -/
inductive Origin.Contains (r : Registry) (e : Expr) : Origin → Expr → Prop
  | statement {d : Expr} (hd : d.NodeOf e) : Contains r e .statement d
  | body {name : String} {params : List String} {body d : Expr}
      (hf : .declared name params body ∈ r.functions) (hd : d.NodeOf body) :
      Contains r e (.body (.declared name params body)) d

/-- An error that stands at the place of a node of its origin. -/
def TracedError.AtNode (r : Registry) (e : Expr) (x : TracedError) : Prop :=
  ∃ d, x.origin.Contains r e d ∧ x.error.span = d.span

theorem Origin.Contains.child {r : Registry} {c d e : Expr} {o : Origin} (h : o.Contains r e d)
    (hc : c ∈ d.operands) : o.Contains r e c := by
  cases h with
  | statement hd => exact .statement (hd.child (Expr.expr_mem_parts_of_mem_operands hc))
  | body hf hd => exact .body hf (hd.child (Expr.expr_mem_parts_of_mem_operands hc))

/-! ### Places of errors -/

section

variable {x : Error} {span : Span}

theorem UnaryOp.span_of_check {op : UnaryOp} {v : Value} (h : op.check v span = .error x) :
    x.span = span := by
  unfold check at h
  split at h <;> cases h
  rfl

theorem BinaryOp.span_of_check {op : BinaryOp} {v w : Value} (h : op.check v w span = .error x) :
    x.span = span := by
  unfold check at h
  split at h <;> cases h
  rfl

theorem Value.span_of_asCondition {v : Value} (h : v.asCondition span = .error x) :
    x.span = span := by
  cases v <;> cases h <;> rfl

theorem Builtin.span_of_apply {b : Builtin} {args : List Value} (h : b.apply args span = .error x) :
    x.span = span := by
  unfold apply at h
  cases b <;> cases hv : args.getLastD .nothing <;> rw [hv] at h <;> cases h <;> rfl

end

/-- A step that keeps the functions `r` as they are and whose errors have `P`. -/
def Raises {α : Type} (r : Registry) (P : TracedError → Prop) (step : Trace α) : Prop :=
  ∀ s : Evaluator, s.registry = r → (step s).2.registry = r ∧ ∀ x, (step s).1 = .error x → P x

namespace Raises

variable {α β : Type} {r : Registry} {P : TracedError → Prop} {step : Trace α} {f : α → Trace β}

theorem of_pure (o : Origin) (a : α) : Raises r P (.of o (Pure.pure a)) := by
  intro s hs
  refine ⟨hs, fun x hx => ?_⟩
  cases hx

theorem of_fail {o : Origin} {e : RuntimeError} {span : Span} (h : P ⟨⟨.runtime e, span⟩, o⟩) :
    Raises r P (.of o (fail e span : Eval α)) := by
  intro s hs
  refine ⟨hs, fun x hx => ?_⟩
  cases hx
  exact h

theorem of_ofExcept {o : Origin} {result : Except Error α}
    (h : ∀ x, result = .error x → P ⟨x, o⟩) : Raises r P (.of o (MonadExcept.ofExcept result)) := by
  cases result with
  | ok a => exact of_pure o a
  | error x =>
    intro s hs
    refine ⟨hs, fun y hy => ?_⟩
    cases hy
    exact h x rfl

theorem pure (a : α) : Raises r P (Pure.pure a) := by
  intro s hs
  refine ⟨hs, fun x hx => ?_⟩
  cases hx

theorem bind (h : Raises r P step) (hf : ∀ a, Raises r P (f a)) : Raises r P (step >>= f) := by
  intro s hs
  obtain ⟨ht, herror⟩ := h s hs
  cases hstep : step s with
  | mk result t =>
    rw [hstep] at ht herror
    cases result with
    | ok a =>
      rw [Trace.bind_ok hstep]
      exact hf a t ht
    | error x =>
      rw [Trace.bind_error hstep]
      refine ⟨ht, fun y hy => herror y ?_⟩
      cases hy
      rfl

theorem mapM {as : List α} (h : ∀ a ∈ as, Raises r P (f a)) : Raises r P (as.mapM f) := by
  induction as with
  | nil => exact .pure []
  | cons a as ih =>
    rw [List.forall_mem_cons] at h
    rw [List.mapM_cons]
    exact h.1.bind fun b => (ih h.2).bind fun bs => .pure (b :: bs)

/-- Counting what is active does not touch the functions. -/
theorem inExpr (h : Raises r P step) :
    Raises r P (.within Evaluator.enterExpr Evaluator.leaveExpr step) :=
  fun s hs => h s.enterExpr hs

theorem inCall (h : Raises r P step) :
    Raises r P (.within Evaluator.enterCall Evaluator.leaveCall step) :=
  fun s hs => h s.enterCall hs

end Raises

section

variable {r : Registry} {e : Expr} {ev : Origin → Scope → Expr → Trace Value}
  (hev : ∀ o scope d, o.Contains r e d → d.isPlain →
    Raises r (TracedError.AtNode r e) (ev o scope d))

include hev

/-- A refused call stands where the call stands, and the body of a function is a node of itself. -/
theorem tracedCall_raises (hr : r.Plain) {o : Origin} {d : Expr} (hd : o.Contains r e d)
    (name : String) (args : List Value) :
    Raises r (TracedError.AtNode r e) (tracedCall ev o name args d.span) := by
  intro s hs
  unfold tracedCall
  rw [Trace.get_bind, hs]
  cases hget : r.get? ⟨name, args.length⟩ with
  | none => exact Raises.of_fail ⟨d, hd, rfl⟩ s hs
  | some f =>
    cases f with
    | builtin b =>
      exact Raises.of_ofExcept (fun x hx => ⟨d, hd, Builtin.span_of_apply hx⟩) s hs
    | declared declared params body =>
      have hmem := (Registry.get?_eq_some hget).1
      dsimp only
      split
      · exact Raises.of_fail ⟨d, hd, rfl⟩ s hs
      · exact (hev _ _ body (.body hmem (.self body)) (hr _ _ _ hmem)).inCall s hs

theorem tracedNode_raises (hr : r.Plain) {o : Origin} (scope : Scope) {d : Expr}
    (hd : o.Contains r e d) (hplain : d.isPlain) :
    Raises r (TracedError.AtNode r e) (tracedNode ev o scope d) := by
  have hbelow : ∀ c ∈ d.operands, ∀ scope, Raises r (TracedError.AtNode r e) (ev o scope c) :=
    fun c hc scope => hev o scope c (hd.child hc) (Expr.isPlain_of_mem_operands hplain hc)
  cases d with
  | literal value span => exact .pure _
  | var name =>
    show Raises r _ (.of o (evalVariable scope name))
    unfold evalVariable
    cases scope.get? name.val with
    | some v => exact .of_pure o v
    | none => exact .of_fail ⟨_, hd, rfl⟩
  | unary op c span =>
    refine (hbelow c List.mem_cons_self scope).bind fun v => ?_
    exact (Raises.of_ofExcept fun x hx => ⟨_, hd, UnaryOp.span_of_check hx⟩).bind fun _ => .pure _
  | binary b op c span =>
    simp only [Expr.operands, List.forall_mem_cons] at hbelow
    refine (hbelow.1 scope).bind fun v => (hbelow.2.1 scope).bind fun w => ?_
    exact (Raises.of_ofExcept fun x hx => ⟨_, hd, BinaryOp.span_of_check hx⟩).bind fun _ => .pure _
  | group c span => exact hbelow c List.mem_cons_self scope
  | conditional a b c span =>
    simp only [Expr.operands, List.forall_mem_cons] at hbelow
    refine (hbelow.1 scope).bind fun v => ?_
    -- the complaint about a condition stands at the condition, not at the conditional
    have ha : o.Contains r e a := hd.child List.mem_cons_self
    refine (Raises.of_ofExcept fun x hx => ⟨a, ha, Value.span_of_asCondition hx⟩).bind fun t => ?_
    cases t with
    | true => exact hbelow.2.1 scope
    | false => exact hbelow.2.2.1 scope
  | letIn bindings body span =>
    simp only [Expr.operands, List.forall_mem_cons, List.forall_mem_map] at hbelow
    refine (Raises.mapM fun b hb => ?_).bind fun values => hbelow.1 _
    exact (hbelow.2 b hb scope).bind fun v => .pure _
  | declaration => exact absurd hplain Bool.false_ne_true
  | call name args span =>
    refine (Raises.mapM fun c hc => hbelow c hc scope).bind fun values => ?_
    exact tracedCall_raises hev hr hd name.val values

end

/-- **An error of evaluation stands at a node of its origin**, when the expression is a plain node
of the statement or of a body, and the bodies of the functions are plain. -/
theorem evalTraced_raises {r : Registry} (hr : r.Plain) {e : Expr} (n : Nat) {o : Origin}
    (scope : Scope) {d : Expr} (hd : o.Contains r e d) (hplain : d.isPlain) :
    Raises r (TracedError.AtNode r e) (evalTraced n o scope d) := by
  induction n generalizing o scope d with
  | zero =>
    intro s hs
    refine ⟨hs, fun x hx => ?_⟩
    cases hx
    exact ⟨d, hd, rfl⟩
  | succ n ih =>
    exact (tracedNode_raises (fun _ scope _ hd hplain => ih scope hd hplain) hr scope hd
      hplain).inExpr

end ExprLang

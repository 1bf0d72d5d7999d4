import ExprLang.Proofs.Evaluation.Ceilings
import ExprLang.Proofs.Evaluation.Counters
import ExprLang.Proofs.Evaluation.Plain

/-!
# The budget of levels for each call

The limit on nested expressions allows sixteen levels for each call that may be active, and sixteen
more. Where the expression and the bodies of the functions are no higher than that, the budget
suffices: an expression on its own needs as many levels as it is high, and each call that can still
become active adds the height of one body. `Affords h n k step` is the invariant: with `n` levels
left a step gets by on `k` of its own and `h` for each such call. It is stated for any bound `h` on
heights (`eval_affords`); sixteen enters with the limit.
-/

namespace ExprLang

open Eval

namespace Expr

mutual

/-- How many expressions are nested in each other at most, the expression itself included. -/
def height : Expr → Nat
  | literal .. | var _ => 1
  | unary _ operand _ => operand.height + 1
  | binary left _ right _ => max left.height right.height + 1
  | group inner _ => inner.height + 1
  | conditional c r a _ => max c.height (max r.height a.height) + 1
  | letIn bindings body _ => max (heightBindings bindings) body.height + 1
  | declaration _ _ body _ => body.height + 1
  | call _ args _ => heightArgs args + 1

/-- The greatest height of a value in a list of bindings. -/
def heightBindings : List (Name × Expr) → Nat
  | [] => 0
  | (_, value) :: rest => max value.height (heightBindings rest)

/-- The greatest height in a list of arguments. -/
def heightArgs : List Expr → Nat
  | [] => 0
  | e :: rest => max e.height (heightArgs rest)

end

theorem height_pos (e : Expr) : 0 < e.height := by
  cases e <;> simp [height]

theorem heightBindings_le {bindings : List (Name × Expr)} {k : Nat} :
    heightBindings bindings ≤ k ↔ ∀ e ∈ bindings.map Prod.snd, e.height ≤ k := by
  induction bindings with
  | nil => simp [heightBindings]
  | cons b rest ih => rw [heightBindings, Nat.max_le, ih, List.map_cons, List.forall_mem_cons]

theorem heightArgs_le {args : List Expr} {k : Nat} :
    heightArgs args ≤ k ↔ ∀ e ∈ args, e.height ≤ k := by
  induction args with
  | nil => simp [heightArgs]
  | cons e rest ih => rw [heightArgs, Nat.max_le, ih, List.forall_mem_cons]

end Expr

/-! ### Functions with shallow bodies -/

/-- The body of every function is at most `h` high. -/
def Registry.Shallow (h : Nat) (r : Registry) : Prop :=
  ∀ name params body, .declared name params body ∈ r.functions → body.height ≤ h

theorem Registry.Shallow.declare {h : Nat} {r r' : Registry} (hr : r.Shallow h) {name : String}
    {params : List String} {body : Expr} {span : Span} (hbody : body.height ≤ h)
    (hdeclare : r.declare (.declared name params body) span = .ok r') : r'.Shallow h := by
  unfold Registry.declare at hdeclare
  split at hdeclare
  · cases hdeclare
  · cases hdeclare
    intro name' params' body' hmem
    rcases Registry.mem_functions_add hmem with hmem | hmem
    · exact hr name' params' body' hmem
    · cases hmem
      exact hbody

/-! ### Steps that get by on their budget -/

/-- A result other than that expressions were nested too deep. -/
def NotTooDeep {α : Type} (result : Except Error α) : Prop :=
  ∀ limit span, result ≠ .error ⟨.runtime (.nestingTooDeep limit), span⟩

theorem notTooDeep_ok {α : Type} (a : α) : NotTooDeep (.ok a : Except Error α) := by
  intro limit span h
  cases h

theorem notTooDeep_semantic {α : Type} (x : SemanticError) (place : Span) :
    NotTooDeep (.error ⟨.semantic x, place⟩ : Except Error α) := by
  intro limit span h
  cases h

theorem notTooDeep_checkUnary (op : UnaryOp) (v : Value) (span : Span) :
    NotTooDeep (op.check v span) := by
  unfold UnaryOp.check
  split
  · exact notTooDeep_ok ()
  · exact notTooDeep_semantic _ span

theorem notTooDeep_checkBinary (op : BinaryOp) (v w : Value) (span : Span) :
    NotTooDeep (op.check v w span) := by
  unfold BinaryOp.check
  split
  · exact notTooDeep_ok ()
  · exact notTooDeep_semantic _ span

theorem notTooDeep_asCondition (v : Value) (span : Span) : NotTooDeep (v.asCondition span) := by
  cases v with
  | boolean b => exact notTooDeep_ok b
  | _ => exact notTooDeep_semantic _ span

theorem notTooDeep_onNumber (f : Float → Float) (b : Builtin) (v : Value) (span : Span) :
    NotTooDeep (Builtin.onNumber f b v span) := by
  cases v with
  | number x => exact notTooDeep_ok _
  | _ => exact notTooDeep_semantic _ span

theorem notTooDeep_apply (b : Builtin) (args : List Value) (span : Span) :
    NotTooDeep (b.apply args span) := by
  unfold Builtin.apply
  cases b with
  | print => exact notTooDeep_ok _
  | _ => exact notTooDeep_onNumber _ _ _ span

/-- With `n` levels left, `k` for the step itself and `h` for each call that can still become active
are enough, where no body is higher than `h`. -/
def Affords {α : Type} (h n k : Nat) (step : Eval α) : Prop :=
  ∀ s : Evaluator, s.registry.Shallow h → k + h * (s.maxDepth - s.calls) ≤ n →
    (step s).2.registry.Shallow h ∧ NotTooDeep (step s).1

namespace Affords

variable {α β : Type} {h n k : Nat} {step : Eval α} {f : α → Eval β}

theorem ofExcept {x : Except Error α} (hx : NotTooDeep x) :
    Affords h n k (MonadExcept.ofExcept x) := by
  intro s hs hn
  rw [ofExcept_apply]
  exact ⟨hs, hx⟩

theorem pure (a : α) : Affords h n k (Pure.pure a) := ofExcept (notTooDeep_ok a)

theorem fail {e : RuntimeError} (he : ∀ limit, e ≠ .nestingTooDeep limit) (span : Span) :
    Affords h n k (Eval.fail e span : Eval α) := by
  refine ofExcept (x := .error ⟨.runtime e, span⟩) fun limit place heq => he limit ?_
  cases heq
  rfl

/-- The second step has the same room as the first one, which restores the counters. -/
theorem bind (hrestores : Restores step) (hm : Affords h n k step)
    (hf : ∀ a, Affords h n k (f a)) : Affords h n k (step >>= f) := by
  intro s hs hn
  have hcounters := hrestores s
  obtain ⟨hregistry, hresult⟩ := hm s hs hn
  cases hstep : step s with
  | mk result t =>
    rw [hstep] at hcounters hregistry hresult
    cases result with
    | ok a =>
      rw [bind_ok hstep]
      apply hf a t hregistry
      rw [hcounters.calls, hcounters.maxDepth]
      exact hn
    | error x =>
      rw [bind_error hstep]
      refine ⟨hregistry, fun limit span hx => hresult limit span ?_⟩
      cases hx
      rfl

/-- An expression takes one level. -/
theorem inExpr (hstep : Affords h n k step) :
    Affords h (n + 1) (k + 1) (within Evaluator.enterExpr Evaluator.leaveExpr step) := by
  intro s hs hn
  apply hstep s.enterExpr hs
  show k + h * (s.maxDepth - s.calls) ≤ n
  omega

/-- A call takes the height of a body out of what is left for calls. -/
theorem inCall (hstep : Affords h n h step) {s : Evaluator} (hs : s.registry.Shallow h)
    (hn : k + h * (s.maxDepth - s.calls) ≤ n) (hcalls : s.calls < s.maxDepth) :
    (within Evaluator.enterCall Evaluator.leaveCall step s).2.registry.Shallow h ∧
      NotTooDeep (within Evaluator.enterCall Evaluator.leaveCall step s).1 := by
  apply hstep s.enterCall hs
  have hroom : s.maxDepth - s.calls = s.maxDepth - (s.calls + 1) + 1 := by omega
  rw [hroom, Nat.mul_succ] at hn
  show h + h * (s.maxDepth - (s.calls + 1)) ≤ n
  omega

end Affords

theorem evalVariable_affords {h n k : Nat} (scope : Scope) (name : Name) :
    Affords h n k (evalVariable scope name) := by
  unfold evalVariable
  split
  · exact .pure _
  · apply Affords.fail
    intro limit heq
    cases heq

/-- The body is not evaluated, but it becomes the body of a function. -/
theorem evalDeclaration_affords {h n k : Nat} (name : Name) (params : List Name) {body : Expr}
    (hbody : body.height ≤ h) : Affords h n k (evalDeclaration name params body) := by
  intro s hs hn
  unfold evalDeclaration
  rw [get_bind]
  cases hdeclare :
      s.registry.declare (.declared name.val (params.map Located.val) body) name.span with
  | error x =>
    refine ⟨hs, fun limit span heq => ?_⟩
    unfold Registry.declare at hdeclare
    split at hdeclare
    · cases hdeclare
      cases heq
    · cases hdeclare
  | ok r => exact ⟨hs.declare hbody hdeclare, notTooDeep_ok _⟩

section

variable {h n : Nat} {ev : Scope → Expr → Eval Value}
  (hev : ∀ scope e k, e.height ≤ k → k ≤ h → Affords h n k (ev scope e))

include hev

theorem evalCall_affords (name : String) (args : List Value) (span : Span) {k : Nat} :
    Affords h n k (evalCall ev name args span) := by
  intro s hs hn
  unfold evalCall
  rw [get_bind]
  cases hname : s.registry.get? ⟨name, args.length⟩ with
  | none => exact Affords.fail (by simp) span s hs hn
  | some f =>
    cases f with
    | builtin b => exact Affords.ofExcept (notTooDeep_apply b args span) s hs hn
    | declared declared params body =>
      have hbody := hs declared params body (Registry.get?_eq_some hname).1
      dsimp only
      split
      · exact Affords.fail (by simp) span s hs hn
      · next hcalls =>
        exact (hev _ body h hbody (Nat.le_refl h)).inCall hs hn (Nat.lt_of_not_le hcalls)

variable (hrestores : ∀ scope e, Restores (ev scope e))

include hrestores

theorem mapM_affords (scope : Scope) {es : List Expr} {k : Nat} (hes : ∀ e ∈ es, e.height ≤ k)
    (hk : k ≤ h) : Affords h n k (es.mapM (ev scope)) := by
  induction es with
  | nil => exact .pure []
  | cons e es ih =>
    rw [List.forall_mem_cons] at hes
    rw [List.mapM_cons]
    refine .bind (hrestores scope e) (hev scope e k hes.1 hk) fun v => ?_
    refine .bind (mapM_restores hrestores scope es) (ih hes.2) fun vs => ?_
    exact .pure (v :: vs)

theorem evalNode_affords (scope : Scope) {e : Expr} {k : Nat} (he : e.height ≤ k + 1)
    (hk : k ≤ h) : Affords h n k (evalNode ev scope e) := by
  cases e with
  | literal value span => exact .pure _
  | var name => exact evalVariable_affords scope name
  | unary op e span =>
    simp only [Expr.height, Nat.add_le_add_iff_right] at he
    refine .bind (hrestores scope e) (hev scope e k he hk) fun v => ?_
    exact .bind (.ofExcept _) (.ofExcept (notTooDeep_checkUnary op v span)) fun _ => .pure _
  | binary d op e span =>
    simp only [Expr.height, Nat.add_le_add_iff_right, Nat.max_le] at he
    obtain ⟨hd, he⟩ := he
    refine .bind (hrestores scope d) (hev scope d k hd hk) fun v => ?_
    refine .bind (hrestores scope e) (hev scope e k he hk) fun w => ?_
    exact .bind (.ofExcept _) (.ofExcept (notTooDeep_checkBinary op v w span)) fun _ => .pure _
  | group e span =>
    simp only [Expr.height, Nat.add_le_add_iff_right] at he
    exact hev scope e k he hk
  | conditional c d e span =>
    simp only [Expr.height, Nat.add_le_add_iff_right, Nat.max_le] at he
    obtain ⟨hc, hd, he⟩ := he
    refine .bind (hrestores scope c) (hev scope c k hc hk) fun v => ?_
    refine .bind (.ofExcept _) (.ofExcept (notTooDeep_asCondition v c.span)) fun b => ?_
    cases b with
    | true => exact hev scope d k hd hk
    | false => exact hev scope e k he hk
  | letIn bindings body span =>
    simp only [Expr.height, Nat.add_le_add_iff_right, Nat.max_le, Expr.heightBindings_le] at he
    obtain ⟨hbindings, hbody⟩ := he
    have hvalues := mapM_restores hrestores scope (bindings.map Prod.snd)
    rw [evalNode, mapM_bindings]
    refine .bind (hvalues.bind fun values => .pure _) ?_ fun values => hev _ body k hbody hk
    exact .bind hvalues (mapM_affords hev hrestores scope hbindings hk) fun values => .pure _
  | declaration name params body span =>
    simp only [Expr.height, Nat.add_le_add_iff_right] at he
    exact evalDeclaration_affords name params (Nat.le_trans he hk)
  | call name args span =>
    simp only [Expr.height, Nat.add_le_add_iff_right, Expr.heightArgs_le] at he
    refine .bind (mapM_restores hrestores scope args) (mapM_affords hev hrestores scope he hk) ?_
    intro values
    exact evalCall_affords hev name.val values span

end

/-- **An expression gets by on its height.** -/
theorem eval_affords {h : Nat} (n : Nat) (scope : Scope) (e : Expr) (k : Nat) (he : e.height ≤ k)
    (hk : k ≤ h) : Affords h n k (eval n scope e) := by
  have hpos := e.height_pos
  induction n generalizing scope e k with
  | zero =>
    -- an expression needs a level for itself, so nothing gets by on no level at all
    intro s hs hn
    omega
  | succ n ih =>
    obtain ⟨k, rfl⟩ := Nat.exists_eq_succ_of_ne_zero (show k ≠ 0 by omega)
    have hev : ∀ scope e k, e.height ≤ k → k ≤ h → Affords h n k (eval n scope e) :=
      fun scope e k he hk => ih scope e k he hk e.height_pos
    exact (evalNode_affords hev (eval_restores n) scope he (Nat.le_of_succ_le hk)).inExpr

/-- Below the cap the levels are those for the calls that may be active, and those of one body
more. -/
theorem nestingLimit_of_le {m : Nat}
    (hm : (m + 1) * nestingPerCall ≤ (maxStack - baseStack) / levelStack) :
    nestingLimit m = nestingPerCall + nestingPerCall * m := by
  rw [nestingLimit_eq, Nat.min_eq_left hm, Nat.mul_comm, Nat.mul_succ, Nat.add_comm]

/-- **Sixteen levels for each call suffice.** Where the limit on nesting is not capped, and neither
the expression nor the body of a function is higher than sixteen, the nesting is never too deep. So
an evaluation that would not end with as many calls as are allowed, or not at all, is stopped by the
limit on calls. -/
theorem nesting_budget_suffices (m : Nat)
    (hm : (m + 1) * 16 ≤ (1024 * 1024 * 1024 - 1024 * 1024) / (4 * 1024)) (registry : Registry)
    (hregistry : ∀ name params body, .declared name params body ∈ registry.functions →
      body.height ≤ 16)
    (scope : Scope) (e : Expr) (he : e.height ≤ 16) :
    (∀ limit span, ((Evaluator.fresh registry m).eval scope e).1 ≠
      .error ⟨.runtime (.nestingTooDeep limit), span⟩) ∧
    ((¬ ∃ o r p, Runs registry scope e o r p ∧ p.calls ≤ m) →
      ∃ span, ((Evaluator.fresh registry m).eval scope e).1 =
        .error ⟨.runtime (.recursionLimitExceeded m), span⟩) := by
  have hlevels : (Evaluator.fresh registry m).levelsLeft = nestingLimit m := Nat.sub_zero _
  have hroom : 16 + 16 * (m - 0) ≤ (Evaluator.fresh registry m).levelsLeft := by
    rw [hlevels, nestingLimit_of_le hm]
    exact Nat.le_refl _
  obtain ⟨-, hdeep⟩ := eval_affords (Evaluator.fresh registry m).levelsLeft scope e 16 he
    (Nat.le_refl 16) (Evaluator.fresh registry m) hregistry hroom
  refine ⟨hdeep, fun hnone => ?_⟩
  have hcut : CutOff m ((Evaluator.fresh registry m).eval scope e).1 := by
    obtain ⟨-, hcut | ⟨p, hrun⟩⟩ := eval_explained (Evaluator.fresh registry m).levelsLeft scope e
      (Evaluator.fresh registry m)
    · exact hcut
    · by_cases hcalls : p.calls ≤ m
      · exact absurd ⟨_, _, p, hrun, hcalls⟩ hnone
      · -- the run takes more calls than are allowed, so it is not what the evaluation does
        exact cutOff_eval_fresh hrun fun hfits => hcalls hfits.1
  obtain ⟨span, hcut | hcut⟩ := hcut
  · exact ⟨span, hcut⟩
  · exact absurd hcut (hdeep _ span)

section

variable {r r' : Registry} {scope : Scope} {name : Name} {span : Span} {o : Except Error Value}
  {p : Peak} (hloop : r.get? ⟨name.val, 0⟩ = some (.declared name.val [] (.call name [] span)))

include hloop

/-- A run of a function that only calls itself has another one inside, with one call less. -/
theorem exists_inner_run (h : Runs r scope (.call name [] span) o r' p) :
    ∃ q, Runs r (.ofList []) (.call name [] span) o r' q ∧ p.calls = q.calls + 1 := by
  cases h with
  | @call _ _ _ _ _ _ _ _ _ params body _ _ q hargs hname hbody =>
    cases hargs
    obtain ⟨-, rfl, rfl⟩ := Function.declared.inj (Option.some.inj (hname.symm.trans hloop))
    exact ⟨q, hbody, Nat.zero_max _⟩
  | callBuiltin hargs hname =>
    cases hargs
    cases hname.symm.trans hloop
  | callUnknown hargs hname =>
    cases hargs
    cases hname.symm.trans hloop
  | callError hargs => cases hargs

/-- A function that only calls itself has no run that ends. -/
theorem not_runs_of_loop : ¬ Runs r scope (.call name [] span) o r' p := by
  intro h
  generalize hn : p.calls = n
  induction n generalizing scope p with
  | zero =>
    obtain ⟨q, -, hq⟩ := exists_inner_run hloop h
    omega
  | succ n ih =>
    obtain ⟨q, h, hq⟩ := exists_inner_run hloop h
    apply ih h
    omega

end

/-- The greatest limit on calls that the cap allows for. -/
theorem nesting_budget_suffices_loop :
    let loop : Expr := .call ⟨"f", ⟨16, 17⟩⟩ [] ⟨16, 19⟩
    let registry : Registry := Registry.empty.add (.declared "f" [] loop)
    (16367 + 1) * 16 = (1024 * 1024 * 1024 - 1024 * 1024) / (4 * 1024) ∧ loop.height = 1 ∧
      ∃ span, ((Evaluator.fresh registry 16367).eval .empty loop).1 =
        .error ⟨.runtime (.recursionLimitExceeded 16367), span⟩ := by
  intro loop registry
  have hheight : loop.height = 1 := rfl
  have hm : (16367 + 1) * 16 = (1024 * 1024 * 1024 - 1024 * 1024) / (4 * 1024) := rfl
  refine ⟨hm, hheight, ?_⟩
  have hregistry : ∀ name params body, .declared name params body ∈ registry.functions →
      body.height ≤ 16 := by
    intro name params body hmem
    cases List.mem_singleton.1 hmem
    decide
  apply (nesting_budget_suffices 16367 (Nat.le_of_eq hm) registry hregistry .empty loop
    (by decide)).2
  rintro ⟨o, r, p, hrun, -⟩
  exact not_runs_of_loop rfl hrun

end ExprLang

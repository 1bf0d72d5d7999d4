import ExprLang.Proofs.Evaluation.Bindings

/-!
# A `let` is an application

`let x = e, y = e' in body` does what a call with the arguments `e` and `e'` does, where the
function has the parameters `x` and `y` and that body. The `let` evaluates its body in its own
scope, the call in a fresh one; a body that mentions no other names cannot tell them apart. While
the body of the call is evaluated, one call more is active. This shows in nothing but the limit on
calls: `Tolerates step` says so of a step, one step after the other keeps it, and so does every
kind of expression (`eval_tolerates`).
-/

namespace ExprLang

open Eval

/-! ### One call more -/

/-- The result of a step that was refused a call. -/
def CallLimited {α : Type} (result : Except Error α) : Prop :=
  ∃ limit span, result = .error ⟨.runtime (.recursionLimitExceeded limit), span⟩

/-- The result of an expression at a place, for which no level of nesting was left. -/
def TooDeepAt {α : Type} (span : Span) (result : Except Error α) : Prop :=
  ∃ limit, result = .error ⟨.runtime (.nestingTooDeep limit), span⟩

/-- A step that does the same while one call more is active, unless it is refused a call then. -/
def Tolerates {α : Type} (step : Eval α) : Prop :=
  ∀ s : Evaluator, CallLimited (step s.enterCall).1 ∨
    step s.enterCall = ((step s).1, (step s).2.enterCall)

theorem Evaluator.enterCall_leaveCall {s : Evaluator} (h : 0 < s.calls) :
    s.leaveCall.enterCall = s := by
  show { s with calls := s.calls - 1 + 1 } = s
  rw [Nat.sub_add_cancel h]

namespace Tolerates

variable {α β : Type} {step : Eval α} {f : α → Eval β}

theorem ofExcept (x : Except Error α) : Tolerates (MonadExcept.ofExcept x) := by
  intro s
  rw [ofExcept_apply, ofExcept_apply]
  exact Or.inr rfl

theorem bind (hm : Tolerates step) (hf : ∀ a, Tolerates (f a)) : Tolerates (step >>= f) := by
  intro s
  rcases hm s with ⟨limit, span, hlimited⟩ | hsame
  · left
    rw [bind_error (Prod.ext hlimited rfl)]
    exact ⟨limit, span, rfl⟩
  · cases hstep : step s with
    | mk result t =>
      rw [hstep] at hsame
      cases result with
      | ok a =>
        rw [bind_ok hstep, bind_ok hsame]
        exact hf a t
      | error x =>
        rw [bind_error hstep, bind_error hsame]
        exact Or.inr rfl

theorem compositional : Compositional @Tolerates := ⟨ofExcept, bind⟩

theorem inExpr (h : Tolerates step) :
    Tolerates (within Evaluator.enterExpr Evaluator.leaveExpr step) := by
  refine fun s => (h s.enterExpr).imp_right fun hsame => ?_
  unfold within
  exact congrArg (fun p : Except Error α × Evaluator => (p.1, p.2.leaveExpr)) hsame

/-- The call that a step counts off is its own, and not the one that is active in addition. -/
theorem inCall (h : Tolerates step) (hrestores : Restores step) :
    Tolerates (within Evaluator.enterCall Evaluator.leaveCall step) := by
  intro s
  have hcalls : 0 < (step s.enterCall).2.calls := by
    rw [(hrestores s.enterCall).calls]
    exact Nat.succ_pos s.calls
  refine (h s.enterCall).imp_right fun hsame => ?_
  unfold within
  rw [hsame]
  exact Prod.ext rfl (Evaluator.enterCall_leaveCall hcalls).symm

end Tolerates

theorem evalDeclaration_tolerates (name : Name) (params : List Name) (body : Expr) :
    Tolerates (evalDeclaration name params body) := by
  intro s
  have hregistry : s.enterCall.registry = s.registry := rfl
  unfold evalDeclaration
  rw [get_bind, get_bind, hregistry]
  right
  cases s.registry.declare (.declared name.val (params.map Located.val) body) name.span with
  | error x => rfl
  | ok r => rfl

section

variable {ev : Scope → Expr → Eval Value} (hev : ∀ scope e, Tolerates (ev scope e))
  (hrestores : ∀ scope e, Restores (ev scope e))

include hev hrestores

/-- The one place where the active calls are looked at. -/
theorem evalCall_tolerates (name : String) (values : List Value) (span : Span) :
    Tolerates (evalCall ev name values span) := by
  intro s
  have hregistry : s.enterCall.registry = s.registry := rfl
  unfold evalCall
  rw [get_bind, get_bind, hregistry]
  cases s.registry.get? ⟨name, values.length⟩ with
  | none => exact Tolerates.compositional.fail _ _ s
  | some f =>
    cases f with
    | builtin b => exact Tolerates.ofExcept _ s
    | declared declared params body =>
      dsimp only
      by_cases hlimit : s.enterCall.maxDepth ≤ s.enterCall.calls
      · rw [if_pos hlimit]
        exact Or.inl ⟨_, span, rfl⟩
      · have hroom : ¬ s.maxDepth ≤ s.calls := fun h => hlimit (Nat.le_succ_of_le h)
        rw [if_neg hlimit, if_neg hroom]
        exact (hev _ body).inCall (hrestores _ body) s

theorem evalNode_tolerates (scope : Scope) (e : Expr) : Tolerates (evalNode ev scope e) :=
  Tolerates.compositional.evalNode scope (fun d _ scope => hev scope d)
    (evalCall_tolerates hev hrestores)
    fun name params body _ _ => evalDeclaration_tolerates name params body

end

/-- **One call more shows in the limit on calls alone.** -/
theorem eval_tolerates (n : Nat) (scope : Scope) (e : Expr) : Tolerates (eval n scope e) := by
  induction n generalizing scope e with
  | zero => exact fun s => Or.inr rfl
  | succ n ih => exact (evalNode_tolerates ih (eval_restores n) scope e).inExpr

/-! ### Calls and bindings -/

section

variable {s : Evaluator} {declared name : String} {params : List String} {body : Expr}

/-- A call of a declared function does what the body does, unless it is refused itself or refused
one on its way. -/
theorem evalCall_declared (n : Nat) {values : List Value}
    (hname : s.registry.get? ⟨name, values.length⟩ = some (.declared declared params body))
    (span : Span) (hlimited : ¬ CallLimited (evalCall (eval n) name values span s).1) :
    evalCall (eval n) name values span s = eval n (.ofList (params.zip values)) body s := by
  unfold evalCall at hlimited ⊢
  rw [get_bind, hname] at hlimited ⊢
  dsimp only at hlimited ⊢
  by_cases hlimit : s.maxDepth ≤ s.calls
  · rw [if_pos hlimit] at hlimited
    exact absurd ⟨_, span, rfl⟩ hlimited
  · rw [if_neg hlimit] at hlimited ⊢
    have hsame := (eval_tolerates n (.ofList (params.zip values)) body s).resolve_left hlimited
    unfold within
    rw [hsame]
    rfl

/-- A body sees of the scope around the bindings what they do not bind. -/
theorem eval_extend_eq_ofList (n : Nat) (scope : Scope) {bindings : List (String × Value)}
    (hfree : ∀ x ∈ body.free, x.val ∈ bindings.map Prod.fst) :
    eval n (scope.extend bindings) body = eval n (.ofList bindings) body := by
  refine eval_eq_of_agree n (Scope.Agree.extend (fun x hx => ?_) rfl)
  obtain ⟨hx, hunbound⟩ := List.mem_filter.1 hx
  simp [hfree x hx] at hunbound

end

/-- The expressions of the bindings are the arguments: what comes of them is the same on both sides,
and so is the body behind them. -/
theorem evalNode_letIn_eq_call {s : Evaluator} {n : Nat} {scope : Scope}
    {bindings : List (Name × Expr)} {body : Expr} {name : Name} {declared : String}
    (hleaves : ∀ e ∈ bindings.map Prod.snd, (eval n scope e s).2 = s)
    (hfree : ∀ x ∈ body.free, x.val ∈ bindings.map fun b => b.1.val)
    (hname : s.registry.get? ⟨name.val, bindings.length⟩ =
      some (.declared declared (bindings.map fun b => b.1.val) body)) (span span' : Span)
    (hlimited : ¬ CallLimited
      (evalNode (eval n) scope (.call name (bindings.map Prod.snd) span') s).1) :
    evalNode (eval n) scope (.letIn bindings body span) s =
      evalNode (eval n) scope (.call name (bindings.map Prod.snd) span') s := by
  rw [evalNode] at hlimited
  rw [evalNode, evalNode, mapM_bindings, bind_assoc]
  cases hvalues : (bindings.map Prod.snd).mapM (eval n scope) s with
  | mk result t =>
    obtain rfl : t = s := by
      have hstep := (compositional_leaves s).mapM hleaves
      rwa [hvalues] at hstep
    cases result with
    | error x => rw [bind_error hvalues, bind_error hvalues]
    | ok values =>
      have hlength : values.length = bindings.length := by
        rw [length_of_mapM hvalues, List.length_map]
      have hnames : ((bindings.map fun b => b.1.val).zip values).map Prod.fst =
          bindings.map fun b => b.1.val := List.map_fst_zip (by simp [hlength])
      rw [← hlength] at hname
      rw [← hnames] at hfree
      rw [bind_ok hvalues] at hlimited
      rw [bind_ok hvalues, bind_ok hvalues, pure_bind, evalCall_declared n hname span' hlimited,
        eval_extend_eq_ofList n scope hfree]

/-- **A `let` is an application.** Let `f` be the function whose parameters are the names of some
bindings, repeated ones included, and whose body mentions no other names. Then the `let` of the
bindings with that body does what the call of `f` with the bound expressions does: the same value
or the same error at the same place, and the same evaluator afterwards. This is so from every
evaluator and in every scope, unless one of the two is refused a call, or the `let` or the call is
itself too deep. More precisely, there has to be a level left for it, and the call must not be
refused. -/
theorem letIn_eq_call (s : Evaluator) (hr : s.registry.Plain) (scope : Scope)
    {bindings : List (Name × Expr)} {body : Expr} {name : Name} {declared : String}
    (hplain : ∀ b ∈ bindings, b.2.isPlain)
    (hfree : ∀ x ∈ body.free, x.val ∈ bindings.map fun b => b.1.val)
    (hname : s.registry.get? ⟨name.val, bindings.length⟩ =
      some (.declared declared (bindings.map fun b => b.1.val) body)) (span span' : Span) :
    let l := s.eval scope (.letIn bindings body span)
    let c := s.eval scope (.call name (bindings.map Prod.snd) span')
    (¬ CallLimited l.1 → ¬ CallLimited c.1 → ¬ TooDeepAt span l.1 → ¬ TooDeepAt span' c.1 →
      l = c) ∧
    (0 < s.levelsLeft → ¬ CallLimited c.1 → l = c) := by
  intro l c
  have hsame : 0 < s.levelsLeft → ¬ CallLimited c.1 → l = c := by
    intro hlevels hlimited
    obtain ⟨n, hn⟩ : ∃ n, s.levelsLeft = n + 1 := Nat.exists_eq_succ_of_ne_zero hlevels.ne'
    have hleaves : ∀ e ∈ bindings.map Prod.snd, (eval n scope e s.enterExpr).2 = s.enterExpr :=
      List.forall_mem_map.2 fun b hb => eval_leaves (s := s.enterExpr) hr n scope (hplain b hb)
    have hcall : c = _ := Evaluator.eval_of_levelsLeft_succ hn scope _
    have hlet : l = _ := Evaluator.eval_of_levelsLeft_succ hn scope _
    rw [hcall] at hlimited
    rw [hlet, hcall, evalNode_letIn_eq_call hleaves hfree hname span span' hlimited]
  refine ⟨fun _ hlimited hdeep _ => hsame (Nat.pos_of_ne_zero fun hzero => hdeep ?_) hlimited,
    hsame⟩
  exact ⟨_, congrArg Prod.fst (Evaluator.eval_of_levelsLeft_zero hzero scope _)⟩

/-- `f(x, x) = if (x) f(false, false) else x` has its last argument for both of its parameters, and
calls itself. The `y` of `let x = false, x = y in …` is bound outside. -/
theorem letIn_eq_call_repeated :
    let var (name : String) : Expr := .var ⟨name, ⟨0, 1⟩⟩
    let f : Name := ⟨"f", ⟨0, 1⟩⟩
    let no : Expr := .literal (.boolean false) ⟨2, 7⟩
    let body : Expr := .conditional (var "x") (.call f [no, no] ⟨0, 14⟩) (var "x") ⟨0, 30⟩
    let s : Evaluator :=
      { registry := Registry.builtins.add (.declared "f" ["x", "x"] body) }
    let scope : Scope := .ofList [("y", .boolean true)]
    let bindings : List (Name × Expr) := [(⟨"x", ⟨4, 5⟩⟩, no), (⟨"x", ⟨15, 16⟩⟩, var "y")]
    let l := s.eval scope (.letIn bindings body ⟨0, 50⟩)
    let c := s.eval scope (.call f (bindings.map Prod.snd) ⟨0, 11⟩)
    (¬ CallLimited l.1 ∧ ¬ CallLimited c.1 ∧ ¬ TooDeepAt ⟨0, 50⟩ l.1 ∧ ¬ TooDeepAt ⟨0, 11⟩ c.1) ∧
      l = c ∧ c.1 = .ok (.boolean false) := by
  intro var f no body s scope bindings l c
  have hr : s.registry.Plain := Registry.plain_builtins.add_declared rfl
  have hplain : ∀ b ∈ bindings, b.2.isPlain := by decide
  have hfree : ∀ x ∈ body.free, x.val ∈ bindings.map fun b => b.1.val := by decide
  have hname : s.registry.get? ⟨f.val, bindings.length⟩ =
      some (.declared "f" (bindings.map fun b => b.1.val) body) := rfl
  have hl : l.1 = .ok (.boolean false) := by decide +kernel
  have hc : c.1 = .ok (.boolean false) := by decide +kernel
  have hallowed : ¬ CallLimited l.1 ∧ ¬ CallLimited c.1 ∧ ¬ TooDeepAt ⟨0, 50⟩ l.1 ∧
      ¬ TooDeepAt ⟨0, 11⟩ c.1 := by
    rw [hl, hc]
    exact ⟨nofun, nofun, nofun, nofun⟩
  have hsame := (letIn_eq_call s hr scope hplain hfree hname ⟨0, 50⟩ ⟨0, 11⟩).1
    hallowed.1 hallowed.2.1 hallowed.2.2.1 hallowed.2.2.2
  exact ⟨hallowed, hsame, hc⟩

end ExprLang

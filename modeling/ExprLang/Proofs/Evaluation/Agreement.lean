import ExprLang.Proofs.Evaluation.Unlimited
import Mathlib.Tactic.SplitIfs

/-!
# Runs within the limits and beyond them

`Agrees n step r o r' p` compares a step of evaluation, with `n` levels of nesting left, to a run
without limits that begins with the functions `r`, ends as `o` with the functions `r'`, and has the
peak `p`. If the peak is within the limits, the step does just that and leaves everything else as it
was; if not, the step is cut off. `Runs.agrees` is this for every run.
-/

namespace ExprLang

/-- The result of an evaluation that a limit cut off. -/
def CutOff {α : Type} (maxDepth : Nat) (result : Except Error α) : Prop :=
  ∃ span, result = .error ⟨.runtime (.recursionLimitExceeded maxDepth), span⟩ ∨
    result = .error ⟨.runtime (.nestingTooDeep (nestingLimit maxDepth)), span⟩

theorem CutOff.exists_error {α : Type} {maxDepth : Nat} {result : Except Error α}
    (h : CutOff maxDepth result) : ∃ x, result = .error x ∧
      ∀ {β : Type}, CutOff maxDepth (.error x : Except Error β) := by
  obtain ⟨span, h | h⟩ := h
  · exact ⟨_, h, fun {_} => ⟨span, Or.inl rfl⟩⟩
  · exact ⟨_, h, fun {_} => ⟨span, Or.inr rfl⟩⟩

namespace Eval

variable {α β : Type} {m : Eval α} {f : α → Eval β} {s s' : Evaluator}

theorem bind_ok {a : α} (h : m s = (.ok a, s')) : (m >>= f) s = f a s' := by
  show ExceptT.bindCont f (m s).1 (m s).2 = _
  rw [h]
  rfl

theorem bind_error {x : Error} (h : m s = (.error x, s')) : (m >>= f) s = (.error x, s') := by
  show ExceptT.bindCont f (m s).1 (m s).2 = _
  rw [h]
  rfl

theorem get_bind (f : Evaluator → Eval β) (s : Evaluator) : (get >>= f) s = f s s := rfl

theorem ofExcept_apply (x : Except Error α) (s : Evaluator) : (ofExcept x : Eval α) s = (x, s) := by
  cases x <;> rfl

theorem ofExcept_bind_pure (x : Except Error α) (g : α → β) :
    (ofExcept x >>= fun a => pure (g a) : Eval β) = ofExcept (x.map g) := by
  cases x <;> rfl

end Eval

namespace Peak

@[simp] theorem max_idle (p : Peak) : p.max idle = p := by
  simp [max, idle]

end Peak

open Eval

/-- Whether a peak is within the limits, with `n` levels of nesting left. -/
def Evaluator.Fits (s : Evaluator) (n : Nat) (p : Peak) : Prop :=
  p.depth ≤ n ∧ s.calls + p.calls ≤ s.maxDepth

/-- A step of evaluation does what a run without limits does, or is cut off. -/
structure Agrees {α : Type} (n : Nat) (step : Eval α) (r : Registry) (o : Except Error α)
    (r' : Registry) (p : Peak) : Prop where
  within : ∀ s : Evaluator, s.registry = r → s.Fits n p → step s = (o, { s with registry := r' })
  beyond : ∀ s : Evaluator, s.registry = r → s.calls ≤ s.maxDepth → ¬ s.Fits n p →
    CutOff s.maxDepth (step s).1

namespace Agrees

variable {α β : Type} {n : Nat} {step : Eval α} {f : α → Eval β} {r r' r'' : Registry}
  {o : Except Error α} {o' : Except Error β} {p q : Peak}

/-- What evaluates no expression is within any limit. -/
theorem of_apply (h : ∀ s : Evaluator, s.registry = r → step s = (o, { s with registry := r' })) :
    Agrees n step r o r' .idle where
  within s hr _ := h s hr
  beyond _ _ hcalls hfits := absurd ⟨Nat.zero_le n, hcalls⟩ hfits

theorem ofExcept (n : Nat) (x : Except Error α) (r : Registry) :
    Agrees n (MonadExcept.ofExcept x) r x r .idle := by
  refine of_apply fun s hr => ?_
  subst hr
  exact ofExcept_apply x s

theorem bind {a : α} (hm : Agrees n step r (.ok a) r' p) (hf : Agrees n (f a) r' o' r'' q) :
    Agrees n (step >>= f) r o' r'' (p.max q) where
  within s hr hfits := by
    obtain ⟨hdepth, hcalls⟩ := hfits
    have hp : s.Fits n p := ⟨Nat.le_trans (Nat.le_max_left ..) hdepth,
      Nat.le_trans (Nat.add_le_add_left (Nat.le_max_left ..) _) hcalls⟩
    have hq : Evaluator.Fits { s with registry := r' } n q :=
      ⟨Nat.le_trans (Nat.le_max_right ..) hdepth,
        Nat.le_trans (Nat.add_le_add_left (Nat.le_max_right ..) _) hcalls⟩
    rw [bind_ok (hm.within s hr hp), hf.within _ rfl hq]
  beyond s hr hcalls hfits := by
    -- what runs first may be cut off itself; if not, it gives back all of its room
    by_cases hp : s.Fits n p
    · rw [bind_ok (hm.within s hr hp)]
      refine hf.beyond _ rfl hcalls fun hq => hfits ?_
      obtain ⟨hpdepth, hpcalls⟩ := hp
      obtain ⟨hqdepth, hqcalls⟩ := hq
      refine ⟨Nat.max_le.2 ⟨hpdepth, hqdepth⟩, ?_⟩
      show s.calls + Nat.max p.calls q.calls ≤ s.maxDepth
      rw [← Nat.add_max_add_left]
      exact Nat.max_le.2 ⟨hpcalls, hqcalls⟩
    · obtain ⟨x, hx, hcut⟩ := (hm.beyond s hr hcalls hp).exists_error
      rw [bind_error (Prod.ext hx rfl)]
      exact hcut

theorem bind_error {x : Error} (hm : Agrees n step r (.error x) r' p) :
    Agrees n (step >>= f) r (.error x) r' p where
  within s hr hfits := Eval.bind_error (hm.within s hr hfits)
  beyond s hr hcalls hfits := by
    obtain ⟨y, hy, hcut⟩ := (hm.beyond s hr hcalls hfits).exists_error
    rw [Eval.bind_error (Prod.ext hy rfl)]
    exact hcut

/-- A step that ends with a check or a value. -/
theorem bind_ofExcept {a : α} {x : Except Error β} (hm : Agrees n step r (.ok a) r' p)
    (hf : f a = MonadExcept.ofExcept x) : Agrees n (step >>= f) r x r' p := by
  rw [← p.max_idle]
  refine hm.bind ?_
  rw [hf]
  exact .ofExcept n x r'

/-- One more expression is under evaluation, and one level of nesting less is left. -/
theorem inExpr (h : Agrees n step r o r' p) :
    Agrees (n + 1) (Eval.within Evaluator.enterExpr Evaluator.leaveExpr step) r o r' p.inExpr where
  within s hr hfits := by
    have hfits : s.enterExpr.Fits n p := ⟨Nat.le_of_succ_le_succ hfits.1, hfits.2⟩
    show ((step s.enterExpr).1, (step s.enterExpr).2.leaveExpr) = _
    rw [h.within s.enterExpr hr hfits]
    rfl
  beyond s hr hcalls hfits :=
    h.beyond s.enterExpr hr hcalls fun h => hfits ⟨Nat.succ_le_succ h.1, h.2⟩

end Agrees

/-- With no level of nesting left the limit on them is the result. -/
theorem agrees_eval {scope : Scope} {e : Expr} {r r' : Registry} {o : Except Error Value} {p : Peak}
    (h : ∀ n, Agrees n (evalNode (eval n) scope e) r o r' p) (n : Nat) :
    Agrees n (eval n scope e) r o r' p.inExpr := by
  cases n with
  | zero =>
    -- an expression needs a level for itself, so no peak fits
    refine ⟨fun s _ hfits => ?_, fun s _ _ _ => ⟨e.span, Or.inr rfl⟩⟩
    exact absurd hfits.1 (Nat.not_succ_le_zero _)
  | succ n => exact (h n).inExpr

/-! ### Declarations and calls -/

section

variable {n : Nat} {r r' : Registry} {name : Name} {params : List Name} {body : Expr}

theorem agrees_declaration
    (h : r.declare (.declared name.val (params.map Located.val) body) name.span = .ok r') :
    Agrees n (evalDeclaration name params body) r (.ok .nothing) r' .idle := by
  refine .of_apply fun s hr => ?_
  unfold evalDeclaration
  rw [get_bind, hr, h]
  rfl

theorem agrees_declarationError {x : Error}
    (h : r.declare (.declared name.val (params.map Located.val) body) name.span = .error x) :
    Agrees n (evalDeclaration name params body) r (.error x) r .idle := by
  refine .of_apply fun s hr => ?_
  unfold evalDeclaration
  rw [get_bind, hr, h]
  subst hr
  rfl

end

section

variable {n : Nat} {ev : Scope → Expr → Eval Value} {r r' : Registry} {name : String}
  {values : List Value} {span : Span}

theorem agrees_callUnknown (h : r.get? ⟨name, values.length⟩ = none) :
    Agrees n (evalCall ev name values span) r
      (.error ⟨.runtime (.unknownFunction name values.length), span⟩) r .idle := by
  refine .of_apply fun s hr => ?_
  unfold evalCall
  rw [get_bind, hr, h]
  subst hr
  rfl

theorem agrees_callBuiltin {b : Builtin} (h : r.get? ⟨name, values.length⟩ = some (.builtin b)) :
    Agrees n (evalCall ev name values span) r (b.apply values span) r .idle := by
  refine .of_apply fun s hr => ?_
  unfold evalCall
  rw [get_bind, hr, h]
  subst hr
  exact ofExcept_apply (b.apply values span) s

/-- A declared function counts as an active call while its body is evaluated. -/
theorem agrees_call {declared : String} {params : List String} {body : Expr}
    {o : Except Error Value} {p : Peak}
    (h : r.get? ⟨name, values.length⟩ = some (.declared declared params body))
    (hbody : Agrees n (ev (.ofList (params.zip values)) body) r o r' p) :
    Agrees n (evalCall ev name values span) r o r' p.inCall where
  within s hr hfits := by
    obtain ⟨hdepth, hcalls⟩ := hfits
    have hcalls : s.calls + (p.calls + 1) ≤ s.maxDepth := hcalls
    have hroom : ¬ s.maxDepth ≤ s.calls := by omega
    have hfits : s.enterCall.Fits n p := by
      refine ⟨hdepth, ?_⟩
      show s.calls + 1 + p.calls ≤ s.maxDepth
      omega
    unfold evalCall
    rw [get_bind, hr, h]
    dsimp only
    rw [if_neg hroom]
    show ((ev _ body s.enterCall).1, (ev _ body s.enterCall).2.leaveCall) = _
    rw [hbody.within s.enterCall hr hfits]
    rfl
  beyond s hr hcalls hfits := by
    unfold evalCall
    rw [get_bind, hr, h]
    dsimp only
    by_cases hroom : s.maxDepth ≤ s.calls
    · rw [if_pos hroom]
      exact ⟨span, Or.inl rfl⟩
    · -- there is room for this call, so it is the body that does not fit
      rw [if_neg hroom]
      have hcalls' : s.enterCall.calls ≤ s.enterCall.maxDepth := Nat.lt_of_not_le hroom
      refine hbody.beyond s.enterCall hr hcalls' fun hfits' => hfits ⟨hfits'.1, ?_⟩
      have hfits'' : s.calls + 1 + p.calls ≤ s.maxDepth := hfits'.2
      show s.calls + (p.calls + 1) ≤ s.maxDepth
      omega

end

/-! ### Every run -/

/-- The values of bindings are the values of their expressions, with the names. -/
theorem mapM_bindings (ev : Expr → Eval Value) (bindings : List (Name × Expr)) :
    (bindings.mapM fun b => return (b.1.val, ← ev b.2)) =
      (bindings.map Prod.snd).mapM ev >>= fun values =>
        pure ((bindings.map fun b => b.1.val).zip values) := by
  induction bindings with
  | nil => simp
  | cons b bindings ih =>
    simp only [List.mapM_cons, List.map_cons, ih, bind_assoc, pure_bind, List.zip_cons_cons]

mutual

/-- **A run within the limits is the evaluation; beyond them the evaluation is cut off.** -/
theorem Runs.agrees : ∀ {r : Registry} {scope : Scope} {e : Expr} {o : Except Error Value}
    {r' : Registry} {p : Peak}, Runs r scope e o r' p → ∀ n, Agrees n (eval n scope e) r o r' p
  | _, _, _, _, _, _, .literal => agrees_eval fun n => .ofExcept n (.ok _) _
  | _, scope, .var name, _, _, _, .var hv => by
    refine agrees_eval fun n => ?_
    show Agrees n (evalVariable scope name) _ _ _ _
    unfold evalVariable
    rw [hv]
    exact .ofExcept n (.ok _) _
  | _, scope, .var name, _, _, _, .varError hname => by
    refine agrees_eval fun n => ?_
    show Agrees n (evalVariable scope name) _ _ _ _
    unfold evalVariable
    rw [hname]
    exact .ofExcept n (.error _) _
  | _, _, _, _, _, _, .unary he =>
    agrees_eval fun n => (he.agrees n).bind_ofExcept (ofExcept_bind_pure _ fun _ => _)
  | _, _, _, _, _, _, .unaryError he => agrees_eval fun n => (he.agrees n).bind_error
  | _, _, _, _, _, _, .binary hd he =>
    agrees_eval fun n => (hd.agrees n).bind
      ((he.agrees n).bind_ofExcept (ofExcept_bind_pure _ fun _ => _))
  | _, _, _, _, _, _, .binaryLeft hd => agrees_eval fun n => (hd.agrees n).bind_error
  | _, _, _, _, _, _, .binaryRight hd he =>
    agrees_eval fun n => (hd.agrees n).bind (he.agrees n).bind_error
  | _, _, _, _, _, _, .group he => agrees_eval fun n => he.agrees n
  | _, _, _, _, _, _, .conditional (b := b) hc hv hbranch => by
    refine agrees_eval fun n => (hc.agrees n).bind ?_
    have hbranch := hbranch.agrees n
    rw [hv]
    cases b <;> exact hbranch
  | _, _, _, _, _, _, .conditionalType hc hv => by
    refine agrees_eval fun n => (hc.agrees n).bind_ofExcept ?_
    rw [hv]
    rfl
  | _, _, _, _, _, _, .conditionalError hc => agrees_eval fun n => (hc.agrees n).bind_error
  | _, scope, .letIn bindings body span, _, _, _, .letIn hvalues hbody => by
    refine agrees_eval fun n => ?_
    rw [evalNode, mapM_bindings, bind_assoc]
    refine (hvalues.agrees n).bind ?_
    rw [pure_bind]
    exact hbody.agrees n
  | _, _, .letIn bindings body span, _, _, _, .letInError hvalues => by
    refine agrees_eval fun n => ?_
    rw [evalNode, mapM_bindings, bind_assoc]
    exact (hvalues.agrees n).bind_error
  | _, _, _, _, _, _, .declaration hdeclare => agrees_eval fun n => agrees_declaration hdeclare
  | _, _, _, _, _, _, .declarationError hdeclare =>
    agrees_eval fun n => agrees_declarationError hdeclare
  | _, _, .call name args span, _, _, _, .call hargs hname hbody =>
    agrees_eval fun n => (hargs.agrees n).bind (agrees_call hname (hbody.agrees n))
  | _, _, .call name args span, _, _, _, .callBuiltin (p := p) hargs hname => by
    refine agrees_eval fun n => ?_
    rw [← p.max_idle]
    exact (hargs.agrees n).bind (agrees_callBuiltin hname)
  | _, _, .call name args span, _, _, _, .callUnknown (p := p) hargs hname => by
    refine agrees_eval fun n => ?_
    rw [← p.max_idle]
    exact (hargs.agrees n).bind (agrees_callUnknown hname)
  | _, _, _, _, _, _, .callError hargs => agrees_eval fun n => (hargs.agrees n).bind_error

theorem RunsAll.agrees : ∀ {r : Registry} {scope : Scope} {es : List Expr}
    {o : Except Error (List Value)} {r' : Registry} {p : Peak}, RunsAll r scope es o r' p →
    ∀ n, Agrees n (es.mapM (eval n scope)) r o r' p
  | _, _, _, _, _, _, .nil, n => .ofExcept n (.ok []) _
  | _, _, _, _, _, _, .cons he hes, n => by
    rw [List.mapM_cons]
    exact (he.agrees n).bind ((hes.agrees n).bind_ofExcept (x := .ok _) rfl)
  | _, _, _, _, _, _, .head he, n => by
    rw [List.mapM_cons]
    exact (he.agrees n).bind_error
  | _, _, _, _, _, _, .tail he hes, n => by
    rw [List.mapM_cons]
    exact (he.agrees n).bind (hes.agrees n).bind_error

end

end ExprLang

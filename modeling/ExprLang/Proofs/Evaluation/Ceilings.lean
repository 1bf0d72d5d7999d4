import ExprLang.Proofs.Evaluation.Agreement

/-!
# The two ceilings

An evaluation with limits is the run without limits, or it is cut off. `Explained step run` says
that whatever `step` does without being cut off is a run; `eval_explained` gives the run behind
every evaluation, and with `Runs.agrees` follows which evaluations are cut off: those of runs that
do not end, and those of runs whose peak is beyond the limits.
-/

namespace ExprLang

open Eval

/-- Whatever a step of evaluation does is a run, unless it is cut off. -/
def Explained {α : Type} (step : Eval α) (run : Registry → Except Error α → Registry → Prop) :
    Prop :=
  ∀ s : Evaluator, (step s).2.maxDepth = s.maxDepth ∧
    (CutOff s.maxDepth (step s).1 ∨ run s.registry (step s).1 (step s).2.registry)

namespace Explained

variable {α β : Type} {step : Eval α} {f : α → Eval β}
  {run : Registry → Except Error α → Registry → Prop}
  {run' : Registry → Except Error β → Registry → Prop}

theorem mono {run' : Registry → Except Error α → Registry → Prop} (h : Explained step run)
    (hrun : ∀ r o r', run r o r' → run' r o r') : Explained step run' :=
  fun s => ⟨(h s).1, (h s).2.imp_right (hrun _ _ _)⟩

theorem ofExcept {x : Except Error α} (h : ∀ r, run r x r) :
    Explained (MonadExcept.ofExcept x) run := by
  intro s
  rw [ofExcept_apply]
  exact ⟨rfl, Or.inr (h s.registry)⟩

/-- One step after the other. The run of the second one may assume that of the first. -/
theorem bind (hm : Explained step run)
    (herror : ∀ r x r', run r (.error x) r' → run' r (.error x) r')
    (hf : ∀ a, Explained (f a) fun r' o r'' => ∀ r, run r (.ok a) r' → run' r o r'') :
    Explained (step >>= f) run' := by
  intro s
  obtain ⟨hlimit, hrun⟩ := hm s
  cases hstep : step s with
  | mk result s' =>
    rw [hstep] at hlimit hrun
    dsimp only at hlimit hrun
    cases result with
    | error x =>
      rw [bind_error hstep]
      refine ⟨hlimit, hrun.imp (fun hcut => ?_) (herror _ _ _)⟩
      obtain ⟨y, hy, hcut⟩ := hcut.exists_error
      obtain rfl := Except.error.inj hy
      exact hcut
    | ok a =>
      rw [bind_ok hstep]
      obtain ⟨hlimit', hrun'⟩ := hf a s'
      refine ⟨hlimit'.trans hlimit, ?_⟩
      rw [← hlimit]
      refine hrun'.imp_right fun hrun' => hrun' s.registry ?_
      -- what gives a value was not cut off
      rcases hrun with ⟨span, h | h⟩ | hrun
      · cases h
      · cases h
      · exact hrun

/-- Counting what is active is no part of a run. -/
theorem inExpr (h : Explained step run) :
    Explained (within Evaluator.enterExpr Evaluator.leaveExpr step) run :=
  fun s => h s.enterExpr

theorem inCall (h : Explained step run) :
    Explained (within Evaluator.enterCall Evaluator.leaveCall step) run :=
  fun s => h s.enterCall

end Explained

/-- An expression has a run that ends as given. -/
def RunsTo (scope : Scope) (e : Expr) (r : Registry) (o : Except Error Value) (r' : Registry) :
    Prop :=
  ∃ p, Runs r scope e o r' p

/-- Expressions have a run that ends as given. -/
def RunsAllTo (scope : Scope) (es : List Expr) (r : Registry) (o : Except Error (List Value))
    (r' : Registry) : Prop :=
  ∃ p, RunsAll r scope es o r' p

theorem evalDeclaration_explained (scope : Scope) (name : Name) (params : List Name) (body : Expr)
    (span : Span) : Explained (evalDeclaration name params body)
      (RunsTo scope (.declaration name params body span)) := by
  intro s
  unfold evalDeclaration
  rw [get_bind]
  cases hdeclare :
      s.registry.declare (.declared name.val (params.map Located.val) body) name.span with
  | error x => exact ⟨rfl, Or.inr ⟨_, .declarationError hdeclare⟩⟩
  | ok registry => exact ⟨rfl, Or.inr ⟨_, .declaration hdeclare⟩⟩

section

variable {ev : Scope → Expr → Eval Value} (hev : ∀ scope e, Explained (ev scope e) (RunsTo scope e))

include hev

theorem mapM_explained (scope : Scope) (es : List Expr) :
    Explained (es.mapM (ev scope)) (RunsAllTo scope es) := by
  induction es with
  | nil => exact .ofExcept (x := .ok []) fun r => ⟨_, .nil⟩
  | cons e es ih =>
    rw [List.mapM_cons]
    refine (hev scope e).bind (fun r x r' ⟨p, he⟩ => ⟨_, .head he⟩) fun v => ?_
    refine ih.bind (fun r' x r'' ⟨q, hes⟩ r ⟨p, he⟩ => ⟨_, .tail he hes⟩) fun vs => ?_
    exact .ofExcept (x := .ok (v :: vs)) fun r'' r' ⟨q, hes⟩ r ⟨p, he⟩ => ⟨_, .cons he hes⟩

theorem evalCall_explained (scope : Scope) (name : Name) (args : List Expr) (values : List Value)
    (span : Span) : Explained (evalCall ev name.val values span) fun r' o r'' => ∀ r,
      RunsAllTo scope args r (.ok values) r' → RunsTo scope (.call name args span) r o r'' := by
  intro s
  unfold evalCall
  rw [get_bind]
  cases hname : s.registry.get? ⟨name.val, values.length⟩ with
  | none => exact ⟨rfl, Or.inr fun r ⟨p, hargs⟩ => ⟨_, .callUnknown hargs hname⟩⟩
  | some function =>
    cases function with
    | builtin b =>
      dsimp only
      rw [ofExcept_apply]
      exact ⟨rfl, Or.inr fun r ⟨p, hargs⟩ => ⟨_, .callBuiltin hargs hname⟩⟩
    | declared declared params body =>
      dsimp only
      split
      · exact ⟨rfl, Or.inl ⟨span, Or.inl rfl⟩⟩
      · obtain ⟨hlimit, hrun⟩ := (hev (.ofList (params.zip values)) body).inCall s
        refine ⟨hlimit, hrun.imp_right ?_⟩
        rintro ⟨q, hbody⟩ r ⟨p, hargs⟩
        exact ⟨_, .call hargs hname hbody⟩

theorem evalNode_explained (scope : Scope) (e : Expr) :
    Explained (evalNode ev scope e) (RunsTo scope e) := by
  cases e with
  | literal value span => exact .ofExcept (x := .ok _) fun r => ⟨_, .literal⟩
  | var name =>
    show Explained (evalVariable scope name) _
    unfold evalVariable
    cases hname : scope.get? name.val with
    | none => exact .ofExcept (x := .error _) fun r => ⟨_, .varError hname⟩
    | some v => exact .ofExcept (x := .ok v) fun r => ⟨_, .var hname⟩
  | unary op e span =>
    refine (hev scope e).bind (fun r x r' ⟨p, he⟩ => ⟨_, .unaryError he⟩) fun v => ?_
    rw [ofExcept_bind_pure _ fun _ => (op.value? v).getD .nothing]
    exact .ofExcept fun r' r ⟨p, he⟩ => ⟨_, .unary he⟩
  | binary d op e span =>
    refine (hev scope d).bind (fun r x r' ⟨p, hd⟩ => ⟨_, .binaryLeft hd⟩) fun v => ?_
    refine (hev scope e).bind (fun r' x r'' ⟨q, he⟩ r ⟨p, hd⟩ => ⟨_, .binaryRight hd he⟩)
      fun w => ?_
    rw [ofExcept_bind_pure _ fun _ => (op.value? v w).getD .nothing]
    exact .ofExcept fun r'' r' ⟨q, he⟩ r ⟨p, hd⟩ => ⟨_, .binary hd he⟩
  | group e span => exact (hev scope e).mono fun r o r' ⟨p, he⟩ => ⟨_, .group he⟩
  | conditional c d e span =>
    refine (hev scope c).bind (fun r x r' ⟨p, hc⟩ => ⟨_, .conditionalError hc⟩) fun v => ?_
    cases hv : v.asCondition c.span with
    | error x => exact .ofExcept (x := .error x) fun r' r ⟨p, hc⟩ => ⟨_, .conditionalType hc hv⟩
    | ok b =>
      have hbranch : Explained (ev scope (if b then d else e)) fun r' o r'' => ∀ r,
          RunsTo scope c r (.ok v) r' → RunsTo scope (.conditional c d e span) r o r'' :=
        (hev scope _).mono fun r' o r'' ⟨q, hbranch⟩ r ⟨p, hc⟩ => ⟨_, .conditional hc hv hbranch⟩
      cases b <;> exact hbranch
  | letIn bindings body span =>
    rw [evalNode, mapM_bindings, bind_assoc]
    refine (mapM_explained hev scope _).bind
      (fun r x r' ⟨p, hvalues⟩ => ⟨_, .letInError hvalues⟩) fun values => ?_
    rw [pure_bind]
    exact (hev _ body).mono fun r' o r'' ⟨q, hbody⟩ r ⟨p, hvalues⟩ => ⟨_, .letIn hvalues hbody⟩
  | declaration name params body span =>
    exact evalDeclaration_explained scope name params body span
  | call name args span =>
    exact (mapM_explained hev scope args).bind
      (fun r x r' ⟨p, hargs⟩ => ⟨_, .callError hargs⟩)
      fun values => evalCall_explained hev scope name args values span

end

/-- **Every evaluation that is not cut off is a run.** -/
theorem eval_explained (n : Nat) (scope : Scope) (e : Expr) :
    Explained (eval n scope e) (RunsTo scope e) := by
  induction n generalizing scope e with
  | zero => exact fun s => ⟨rfl, Or.inl ⟨e.span, Or.inr rfl⟩⟩
  | succ n ih => exact (evalNode_explained ih scope e).inExpr

/-! ### Which evaluations are cut off -/

/-- An evaluator at rest. -/
def Evaluator.fresh (registry : Registry) (maxDepth : Nat) : Evaluator := { registry, maxDepth }

theorem nestingLimit_mono {m m' : Nat} (h : m ≤ m') : nestingLimit m ≤ nestingLimit m' := by
  simp only [nestingLimit, saturate, nestingPerCall]
  omega

theorem fits_fresh {registry : Registry} {m : Nat} {p : Peak} :
    (Evaluator.fresh registry m).Fits (Evaluator.fresh registry m).levelsLeft p ↔
      p.calls ≤ m ∧ p.depth ≤ nestingLimit m := by
  show p.depth ≤ nestingLimit m - 0 ∧ 0 + p.calls ≤ m ↔ _
  rw [Nat.sub_zero, Nat.zero_add, and_comm]

section

variable {registry r : Registry} {scope : Scope} {e : Expr} {o : Except Error Value} {p : Peak}
  {m m' : Nat}

theorem eval_fresh_within (h : Runs registry scope e o r p)
    (hfits : p.calls ≤ m ∧ p.depth ≤ nestingLimit m) :
    (Evaluator.fresh registry m).eval scope e = (o, Evaluator.fresh r m) :=
  (h.agrees _).within (Evaluator.fresh registry m) rfl (fits_fresh.2 hfits)

theorem cutOff_eval_fresh (h : Runs registry scope e o r p)
    (hfits : ¬ (p.calls ≤ m ∧ p.depth ≤ nestingLimit m)) :
    CutOff m ((Evaluator.fresh registry m).eval scope e).1 :=
  (h.agrees _).beyond (Evaluator.fresh registry m) rfl (Nat.zero_le m) (mt fits_fresh.1 hfits)

/-- A higher limit on calls changes no evaluation but one that was cut off. -/
theorem eval_fresh_of_le (hm : m ≤ m')
    (hcut : ¬ CutOff m ((Evaluator.fresh registry m).eval scope e).1) :
    ((Evaluator.fresh registry m').eval scope e).1 =
        ((Evaluator.fresh registry m).eval scope e).1 ∧
      ((Evaluator.fresh registry m').eval scope e).2.registry =
        ((Evaluator.fresh registry m).eval scope e).2.registry := by
  obtain ⟨-, hcut' | ⟨p, h⟩⟩ := eval_explained (Evaluator.fresh registry m).levelsLeft scope e
    (Evaluator.fresh registry m)
  · exact absurd hcut' hcut
  · -- the same run is behind both evaluations, and what fits below `m` fits below `m'`
    have h : Runs registry scope e _ _ p := h
    by_cases hfits : p.calls ≤ m ∧ p.depth ≤ nestingLimit m
    · have hfits' : p.calls ≤ m' ∧ p.depth ≤ nestingLimit m' :=
        ⟨Nat.le_trans hfits.1 hm, Nat.le_trans hfits.2 (nestingLimit_mono hm)⟩
      rw [eval_fresh_within h hfits', eval_fresh_within h hfits]
      exact ⟨rfl, rfl⟩
    · exact absurd (cutOff_eval_fresh h hfits) hcut

end

/-- **The ceilings cut evaluations off and do nothing else.** A run without limits whose peak is
within the limits is the evaluation, and one whose peak is beyond them is cut off, as is one that
does not end. So raising the limit on calls changes no result but that of an evaluation that was cut
off. -/
theorem ceilings_cut_off (registry : Registry) (scope : Scope) (e : Expr) (m : Nat) :
    (∀ o r p, Runs registry scope e o r p →
      (p.calls ≤ m ∧ p.depth ≤ nestingLimit m →
        (Evaluator.fresh registry m).eval scope e = (o, Evaluator.fresh r m)) ∧
      (¬ (p.calls ≤ m ∧ p.depth ≤ nestingLimit m) →
        CutOff m ((Evaluator.fresh registry m).eval scope e).1)) ∧
    ((¬ ∃ o r p, Runs registry scope e o r p) →
      CutOff m ((Evaluator.fresh registry m).eval scope e).1) ∧
    ∀ m', m ≤ m' → ¬ CutOff m ((Evaluator.fresh registry m).eval scope e).1 →
      ((Evaluator.fresh registry m').eval scope e).1 =
          ((Evaluator.fresh registry m).eval scope e).1 ∧
        ((Evaluator.fresh registry m').eval scope e).2.registry =
          ((Evaluator.fresh registry m).eval scope e).2.registry := by
  refine ⟨fun o r p h => ⟨eval_fresh_within h, cutOff_eval_fresh h⟩, fun hnone => ?_,
    fun m' hm hcut => eval_fresh_of_le hm hcut⟩
  obtain ⟨-, hcut | ⟨p, h⟩⟩ := eval_explained (Evaluator.fresh registry m).levelsLeft scope e
    (Evaluator.fresh registry m)
  · exact hcut
  · exact absurd ⟨_, _, p, h⟩ hnone

end ExprLang

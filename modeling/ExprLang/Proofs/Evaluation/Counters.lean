import ExprLang.Proofs.Evaluation.Steps

/-!
# The counters of an evaluation

An evaluator counts the calls that are active and the expressions under evaluation. Whatever a step
of evaluation does, and however it ends, the counters are afterwards what they were before
(`eval_restores`).

On the way they stay within their limits. `evalWatched stuck` evaluates with machine words and looks
at the counters wherever they change: it goes on as `stuck` if a counter leaves its machine word or
its limit, and also if a given number of steps does not suffice. It finds the nesting too deep by
the counter alone. Yet it is the evaluation, whatever `stuck` does (`evalWatched_faithful`): none of
these things ever happens.
-/

namespace ExprLang

open Eval

/-! ### Limits -/

/-- Saturation does not change the limit, which is far below the greatest machine word. -/
theorem nestingLimit_eq (m : Nat) :
    nestingLimit m = min ((m + 1) * nestingPerCall) ((maxStack - baseStack) / levelStack) := by
  have hword : wordMax = 18446744073709551615 := rfl
  have hcap : (maxStack - baseStack) / levelStack = 261888 := rfl
  simp only [nestingLimit, saturate, nestingPerCall, hword, hcap]
  omega

theorem nestingLimit_le (m : Nat) : nestingLimit m ≤ (maxStack - baseStack) / levelStack := by
  rw [nestingLimit_eq]
  exact Nat.min_le_right _ _

theorem nestingLimit_lt_wordMax (m : Nat) : nestingLimit m < wordMax :=
  Nat.lt_of_le_of_lt (nestingLimit_le m) (by decide)

theorem stackSize_le (m : Nat) : stackSize m ≤ maxStack := by
  have hlimit := nestingLimit_le m
  have hcap : (maxStack - baseStack) / levelStack = 261888 := rfl
  rw [hcap] at hlimit
  simp only [stackSize, baseStack, levelStack, maxStack]
  omega

/-- The stack that is set aside is enough for every number of levels up to the limit. -/
theorem stack_le_stackSize {m depth : Nat} (h : depth ≤ nestingLimit m) :
    baseStack + depth * levelStack ≤ stackSize m :=
  Nat.add_le_add_left (Nat.mul_le_mul_right levelStack h) baseStack

/-! ### Steps that restore the counters -/

/-- Evaluators that count the same, with the same limit. -/
structure Evaluator.SameCounters (s t : Evaluator) : Prop where
  calls : t.calls = s.calls
  depth : t.depth = s.depth
  maxDepth : t.maxDepth = s.maxDepth

theorem Evaluator.SameCounters.refl (s : Evaluator) : s.SameCounters s := ⟨rfl, rfl, rfl⟩

theorem Evaluator.SameCounters.trans {s t u : Evaluator} (h : s.SameCounters t)
    (h' : t.SameCounters u) : s.SameCounters u where
  calls := h'.calls.trans h.calls
  depth := h'.depth.trans h.depth
  maxDepth := h'.maxDepth.trans h.maxDepth

/-- A step after which the counters are what they were before, whether it fails or not. -/
def Restores {α : Type} (step : Eval α) : Prop := ∀ s : Evaluator, s.SameCounters (step s).2

namespace Restores

variable {α β : Type} {step : Eval α} {f : α → Eval β}

theorem ofExcept (x : Except Error α) : Restores (MonadExcept.ofExcept x) := by
  intro s
  rw [ofExcept_apply]
  exact .refl s

theorem pure (a : α) : Restores (Pure.pure a) := ofExcept (.ok a)

theorem bind (hm : Restores step) (hf : ∀ a, Restores (f a)) : Restores (step >>= f) := by
  intro s
  have hs := hm s
  cases hstep : step s with
  | mk result t =>
    rw [hstep] at hs
    cases result with
    | ok a =>
      rw [bind_ok hstep]
      exact hs.trans (hf a t)
    | error x =>
      rw [bind_error hstep]
      exact hs

theorem compositional : Compositional @Restores := ⟨ofExcept, bind⟩

/-- What is counted on entry is counted off on exit, also behind a failure. -/
theorem inExpr (h : Restores step) :
    Restores (within Evaluator.enterExpr Evaluator.leaveExpr step) := by
  intro s
  have hs := h s.enterExpr
  constructor
  · exact hs.calls
  · show (step s.enterExpr).2.depth - 1 = s.depth
    rw [hs.depth]
    exact Nat.add_sub_cancel s.depth 1
  · exact hs.maxDepth

theorem inCall (h : Restores step) :
    Restores (within Evaluator.enterCall Evaluator.leaveCall step) := by
  intro s
  have hs := h s.enterCall
  constructor
  · show (step s.enterCall).2.calls - 1 = s.calls
    rw [hs.calls]
    exact Nat.add_sub_cancel s.calls 1
  · exact hs.depth
  · exact hs.maxDepth

end Restores

theorem evalDeclaration_restores (name : Name) (params : List Name) (body : Expr) :
    Restores (evalDeclaration name params body) := by
  intro s
  unfold evalDeclaration
  rw [get_bind]
  cases s.registry.declare (.declared name.val (params.map Located.val) body) name.span with
  | error x => exact .refl s
  | ok r => exact ⟨rfl, rfl, rfl⟩

section

variable {ev : Scope → Expr → Eval Value} (hev : ∀ scope e, Restores (ev scope e))

include hev

theorem mapM_restores (scope : Scope) (es : List Expr) : Restores (es.mapM (ev scope)) :=
  Restores.compositional.mapM fun e _ => hev scope e

theorem evalCall_restores (name : String) (args : List Value) (span : Span) :
    Restores (evalCall ev name args span) := by
  intro s
  unfold evalCall
  rw [get_bind]
  cases s.registry.get? ⟨name, args.length⟩ with
  | none => exact Restores.compositional.fail _ _ s
  | some f =>
    cases f with
    | builtin b => exact Restores.ofExcept _ s
    | declared declared params body =>
      dsimp only
      split
      · exact Restores.compositional.fail _ _ s
      · exact (hev _ body).inCall s

theorem evalNode_restores (scope : Scope) (e : Expr) : Restores (evalNode ev scope e) :=
  Restores.compositional.evalNode scope (fun d _ scope => hev scope d) (evalCall_restores hev)
    fun name params body _ _ => evalDeclaration_restores name params body

end

/-- **Every evaluation restores the counters.** -/
theorem eval_restores (n : Nat) (scope : Scope) (e : Expr) : Restores (eval n scope e) := by
  induction n generalizing scope e with
  | zero => exact fun s => .refl s
  | succ n ih => exact (evalNode_restores ih scope e).inExpr

/-! ### Evaluation under watch -/

namespace Evaluator

/-- The counters are within their limits, of which the one on calls is a machine word. -/
structure WithinLimits (s : Evaluator) : Prop where
  word : s.maxDepth ≤ wordMax
  calls : s.calls ≤ s.maxDepth
  depth : s.depth ≤ nestingLimit s.maxDepth

instance (s : Evaluator) : Decidable s.WithinLimits :=
  decidable_of_iff
    (s.maxDepth ≤ wordMax ∧ s.calls ≤ s.maxDepth ∧ s.depth ≤ nestingLimit s.maxDepth)
    ⟨fun ⟨hword, hcalls, hdepth⟩ => ⟨hword, hcalls, hdepth⟩, fun h => ⟨h.word, h.calls, h.depth⟩⟩

theorem WithinLimits.of_sameCounters {s t : Evaluator} (h : s.WithinLimits)
    (hst : s.SameCounters t) : t.WithinLimits where
  word := by
    rw [hst.maxDepth]
    exact h.word
  calls := by
    rw [hst.calls, hst.maxDepth]
    exact h.calls
  depth := by
    rw [hst.depth, hst.maxDepth]
    exact h.depth

end Evaluator

/-- One more, if a machine word can hold it. -/
def increment? (n : Nat) : Option Nat := if n < wordMax then some (n + 1) else none

/-- One less, if there is one. -/
def decrement? : Nat → Option Nat
  | 0 => none
  | n + 1 => some n

/-- The counters of an evaluator. -/
inductive Counter where
  | calls | depth

namespace Counter

/-- What the counter stands at. -/
def read : Counter → Evaluator → Nat
  | calls, s => s.calls
  | depth, s => s.depth

/-- The evaluator with the counter set. -/
def write : Counter → Nat → Evaluator → Evaluator
  | calls, n, s => { s with calls := n }
  | depth, n, s => { s with depth := n }

/-- A step with the counter one higher. It is stuck where the counter cannot be moved, and where a
counter is beyond its limit: behind the entry, before the exit and behind it. -/
def watch {α : Type} (c : Counter) (stuck step : Eval α) : Eval α := fun s =>
  match increment? (c.read s) with
  | none => stuck s
  | some n =>
    if (c.write n s).WithinLimits then
      let (result, t) := step (c.write n s)
      match decrement? (c.read t) with
      | none => stuck t
      | some k =>
        if t.WithinLimits ∧ (c.write k t).WithinLimits then (result, c.write k t) else stuck t
    else stuck s

section

variable {s t : Evaluator}

theorem read_write (c : Counter) (n : Nat) (s : Evaluator) : c.read (c.write n s) = n := by
  cases c <;> rfl

theorem read_eq (c : Counter) (h : s.SameCounters t) : c.read t = c.read s := by
  cases c with
  | calls => exact h.calls
  | depth => exact h.depth

/-- Setting a counter back undoes the entry. -/
theorem sameCounters_write (c : Counter) {n : Nat} (h : (c.write n s).SameCounters t) :
    s.SameCounters (c.write (c.read s) t) := by
  cases c with
  | calls => exact ⟨rfl, h.depth, h.maxDepth⟩
  | depth => exact ⟨h.calls, rfl, h.maxDepth⟩

/-- Where there is room for one more, and the step restores the counters, nothing gets stuck. -/
theorem watch_eq (c : Counter) {α : Type} {stuck watched step : Eval α} (hs : s.WithinLimits)
    (hroom : c.read s < wordMax) (henter : (c.write (c.read s + 1) s).WithinLimits)
    (hrestores : Restores step)
    (hstep : watched (c.write (c.read s + 1) s) = step (c.write (c.read s + 1) s)) :
    c.watch stuck watched s = ((step (c.write (c.read s + 1) s)).1,
      c.write (c.read s) (step (c.write (c.read s + 1) s)).2) := by
  have hcounters := hrestores (c.write (c.read s + 1) s)
  rw [← hstep] at hcounters ⊢
  unfold watch
  rw [increment?, if_pos hroom]
  dsimp only
  rw [if_pos henter]
  generalize watched (c.write (c.read s + 1) s) = outcome at *
  obtain ⟨result, t⟩ := outcome
  have hread : c.read t = c.read s + 1 := by
    rw [c.read_eq hcounters, read_write]
  have hback := hs.of_sameCounters (c.sameCounters_write hcounters)
  have hexit := henter.of_sameCounters hcounters
  dsimp only at hexit hback ⊢
  rw [hread, decrement?]
  exact if_pos ⟨hexit, hback⟩

end

end Counter

/-- Calls a function, with an eye on the calls that are active. -/
def watchedCall (stuck : Eval Value) (ev : Scope → Expr → Eval Value) (name : String)
    (args : List Value) (span : Span) : Eval Value := do
  let s ← get
  match s.registry.get? ⟨name, args.length⟩ with
  | none => fail (.unknownFunction name args.length) span
  | some (.builtin b) => ofExcept (b.apply args span)
  | some (.declared _ params body) =>
    if s.maxDepth ≤ s.calls then fail (.recursionLimitExceeded s.maxDepth) span
    else Counter.calls.watch stuck (ev (.ofList (params.zip args)) body)

/-- The value of an expression, with an eye on its calls. -/
def watchedNode (stuck : Eval Value) (ev : Scope → Expr → Eval Value) (scope : Scope) :
    Expr → Eval Value
  | .call name args span => do
    let values ← args.mapM (ev scope)
    watchedCall stuck ev name.val values span
  | e => evalNode ev scope e

/-- Evaluation in a number of steps, with an eye on the counters. -/
def evalWatched (stuck : Eval Value) : Nat → Scope → Expr → Eval Value
  | 0, _, _ => stuck
  | steps + 1, scope, e => do
    let s ← get
    if nestingLimit s.maxDepth ≤ s.depth then
      fail (.nestingTooDeep (nestingLimit s.maxDepth)) e.span
    else Counter.depth.watch stuck (watchedNode stuck (evalWatched stuck steps) scope e)

/-- A step under watch does what the step does, from evaluators within their limits that have `n`
levels of nesting left. -/
def Faithful {α : Type} (n : Nat) (watched step : Eval α) : Prop :=
  ∀ s : Evaluator, s.WithinLimits → s.depth + n = nestingLimit s.maxDepth → watched s = step s

namespace Faithful

variable {α β : Type} {n : Nat} {watched step : Eval α} {watched' f : α → Eval β}

theorem refl (n : Nat) (step : Eval α) : Faithful n step step := fun _ _ _ => rfl

/-- What follows a step that restores the counters begins within the limits again. -/
theorem bind (hrestores : Restores step) (hm : Faithful n watched step)
    (hf : ∀ a, Faithful n (watched' a) (f a)) : Faithful n (watched >>= watched') (step >>= f) := by
  intro s hs hn
  have hm := hm s hs hn
  have hcounters := hrestores s
  cases hstep : step s with
  | mk result t =>
    rw [hstep] at hm hcounters
    cases result with
    | ok a =>
      rw [bind_ok hm, bind_ok hstep]
      apply hf a t (hs.of_sameCounters hcounters)
      rw [hcounters.depth, hcounters.maxDepth]
      exact hn
    | error x => rw [bind_error hm, bind_error hstep]

/-- With a level left there is room for one more expression. -/
theorem inExpr (hrestores : Restores step) (h : Faithful n watched step) {stuck : Eval α}
    {s : Evaluator} (hs : s.WithinLimits) (hn : s.depth + (n + 1) = nestingLimit s.maxDepth) :
    Counter.depth.watch stuck watched s =
      within Evaluator.enterExpr Evaluator.leaveExpr step s := by
  have hlimit := nestingLimit_lt_wordMax s.maxDepth
  have hroom : s.depth < wordMax := by omega
  have henter : s.enterExpr.WithinLimits := by
    refine ⟨hs.word, hs.calls, ?_⟩
    show s.depth + 1 ≤ nestingLimit s.maxDepth
    omega
  have hstep : watched s.enterExpr = step s.enterExpr := by
    apply h s.enterExpr henter
    show s.depth + 1 + n = nestingLimit s.maxDepth
    omega
  have hdepth : (step s.enterExpr).2.depth - 1 = s.depth := by
    rw [(hrestores s.enterExpr).depth]
    exact Nat.add_sub_cancel s.depth 1
  have hwatch : Counter.depth.watch stuck watched s = _ :=
    Counter.depth.watch_eq hs hroom henter hrestores hstep
  show _ = ((step s.enterExpr).1,
    { (step s.enterExpr).2 with depth := (step s.enterExpr).2.depth - 1 })
  rw [hwatch, hdepth]
  rfl

/-- Below the limit there is room for one more call. -/
theorem inCall (hrestores : Restores step) (h : Faithful n watched step) {stuck : Eval α}
    {s : Evaluator} (hs : s.WithinLimits) (hn : s.depth + n = nestingLimit s.maxDepth)
    (hcalls : s.calls < s.maxDepth) :
    Counter.calls.watch stuck watched s =
      within Evaluator.enterCall Evaluator.leaveCall step s := by
  have hroom : s.calls < wordMax := Nat.lt_of_lt_of_le hcalls hs.word
  have henter : s.enterCall.WithinLimits := ⟨hs.word, hcalls, hs.depth⟩
  have hstep : watched s.enterCall = step s.enterCall := h s.enterCall henter hn
  have hback : (step s.enterCall).2.calls - 1 = s.calls := by
    rw [(hrestores s.enterCall).calls]
    exact Nat.add_sub_cancel s.calls 1
  have hwatch : Counter.calls.watch stuck watched s = _ :=
    Counter.calls.watch_eq hs hroom henter hrestores hstep
  show _ = ((step s.enterCall).1,
    { (step s.enterCall).2 with calls := (step s.enterCall).2.calls - 1 })
  rw [hwatch, hback]
  rfl

end Faithful

section

variable {n : Nat} {stuck : Eval Value} {watched ev : Scope → Expr → Eval Value}
  (hrestores : ∀ scope e, Restores (ev scope e))
  (hev : ∀ scope e, Faithful n (watched scope e) (ev scope e))

include hrestores hev

theorem mapM_faithful (scope : Scope) (es : List Expr) :
    Faithful n (es.mapM (watched scope)) (es.mapM (ev scope)) := by
  induction es with
  | nil => exact .refl n _
  | cons e es ih =>
    rw [List.mapM_cons, List.mapM_cons]
    refine .bind (hrestores scope e) (hev scope e) fun v => ?_
    exact .bind (mapM_restores hrestores scope es) ih fun vs => .refl n _

theorem watchedCall_faithful (name : String) (args : List Value) (span : Span) :
    Faithful n (watchedCall stuck watched name args span) (evalCall ev name args span) := by
  intro s hs hn
  unfold watchedCall evalCall
  rw [get_bind, get_bind]
  cases s.registry.get? ⟨name, args.length⟩ with
  | none => rfl
  | some f =>
    cases f with
    | builtin b => rfl
    | declared declared params body =>
      dsimp only
      split
      · rfl
      · next hcalls =>
        exact Faithful.inCall (hrestores _ body) (hev _ body) hs hn (Nat.lt_of_not_le hcalls)

theorem watchedNode_faithful (scope : Scope) (e : Expr) :
    Faithful n (watchedNode stuck watched scope e) (evalNode ev scope e) := by
  cases e with
  | literal value span => exact .refl n _
  | unary op e span => exact .bind (hrestores scope e) (hev scope e) fun v => .refl n _
  | binary d op e span =>
    refine .bind (hrestores scope d) (hev scope d) fun v => ?_
    exact .bind (hrestores scope e) (hev scope e) fun w => .refl n _
  | group e span => exact hev scope e
  | var name => exact .refl n _
  | conditional c d e span =>
    refine .bind (hrestores scope c) (hev scope c) fun v => ?_
    refine .bind (.ofExcept _) (.refl n _) fun b => ?_
    cases b with
    | true => exact hev scope d
    | false => exact hev scope e
  | letIn bindings body span =>
    rw [watchedNode, evalNode, evalNode, mapM_bindings, mapM_bindings]
    · refine .bind ?_ ?_ fun values => hev _ body
      · exact (mapM_restores hrestores scope _).bind fun values => .pure _
      · exact .bind (mapM_restores hrestores scope _) (mapM_faithful hrestores hev scope _)
          fun values => .refl n _
    · nofun
  | declaration name params body span => exact .refl n _
  | call name args span =>
    refine .bind (mapM_restores hrestores scope args) (mapM_faithful hrestores hev scope args) ?_
    intro values
    exact watchedCall_faithful hrestores hev name.val values span

end

/-- **Evaluation under watch is the evaluation**, given more steps than there are levels left. -/
theorem evalWatched_faithful (stuck : Eval Value) {n steps : Nat} (hsteps : n < steps)
    (scope : Scope) (e : Expr) : Faithful n (evalWatched stuck steps scope e) (eval n scope e) := by
  induction steps generalizing n scope e with
  | zero => exact absurd hsteps (Nat.not_lt_zero n)
  | succ steps ih =>
    intro s hs hn
    unfold evalWatched
    rw [get_bind]
    cases n with
    | zero =>
      have hfull : nestingLimit s.maxDepth ≤ s.depth := by omega
      rw [if_pos hfull]
      rfl
    | succ n =>
      have hroom : ¬ nestingLimit s.maxDepth ≤ s.depth := by omega
      have hev : ∀ scope e, Faithful n (evalWatched stuck steps scope e) (eval n scope e) :=
        fun scope e => ih (by omega) scope e
      rw [if_neg hroom]
      exact Faithful.inExpr (evalNode_restores (eval_restores n) scope e)
        (watchedNode_faithful (eval_restores n) hev scope e) hs hn

/-- **Evaluation is bounded and restores its counters.** From an evaluator within its limits it
takes no more steps than there are levels left, and one; no counter leaves its machine word or its
limit on the way; and in the end the counters are what they were. The stack that is set aside is
enough for every number of levels up to the limit, it is at most a gibibyte, and no machine word
overflows when its size is computed. -/
theorem eval_bounded (s : Evaluator) (hs : s.WithinLimits) (scope : Scope) (e : Expr) :
    (∀ (stuck : Eval Value) (steps : Nat), s.levelsLeft < steps →
      evalWatched stuck steps scope e s = s.eval scope e) ∧
    (s.eval scope e).2.calls = s.calls ∧ (s.eval scope e).2.depth = s.depth ∧
    (∀ depth ≤ nestingLimit s.maxDepth,
      1024 * 1024 + depth * (4 * 1024) ≤ stackSize s.maxDepth) ∧
    stackSize s.maxDepth ≤ 1024 * 1024 * 1024 ∧
    nestingLimit s.maxDepth =
      min ((s.maxDepth + 1) * 16) ((1024 * 1024 * 1024 - 1024 * 1024) / (4 * 1024)) ∧
    nestingLimit s.maxDepth * (4 * 1024) ≤ wordMax ∧
    1024 * 1024 + nestingLimit s.maxDepth * (4 * 1024) ≤ wordMax := by
  have hrestores := eval_restores s.levelsLeft scope e s
  have hstack : stackSize s.maxDepth ≤ 1024 * 1024 * 1024 := stackSize_le s.maxDepth
  have hword : 1024 * 1024 * 1024 ≤ wordMax := by decide
  refine ⟨?_, hrestores.calls, hrestores.depth, ?_, hstack, nestingLimit_eq s.maxDepth, ?_, ?_⟩
  · intro stuck steps hsteps
    apply evalWatched_faithful stuck hsteps scope e s hs
    exact Nat.add_sub_of_le hs.depth
  · intro depth hdepth
    exact stack_le_stackSize hdepth
  · exact Nat.le_trans (Nat.le_add_left _ baseStack) (Nat.le_trans hstack hword)
  · exact Nat.le_trans hstack hword

/-- A function that calls itself, with the greatest limit there is and five levels left. -/
theorem eval_bounded_loop :
    let loop : Expr := .call ⟨"f", ⟨16, 17⟩⟩ [] ⟨16, 19⟩
    let s : Evaluator :=
      { registry := Registry.empty.add (.declared "f" [] loop), maxDepth := wordMax, calls := 3,
        depth := 261883 }
    s.WithinLimits ∧ (∀ stuck : Eval Value, evalWatched stuck 6 .empty loop s =
      (.error ⟨.runtime (.nestingTooDeep (nestingLimit wordMax)), ⟨16, 19⟩⟩, s)) ∧
      nestingLimit wordMax = 261888 ∧ stackSize wordMax = 1024 * 1024 * 1024 := by
  intro loop s
  have hs : s.WithinLimits := ⟨by decide, by decide, by decide⟩
  have hlevels : s.levelsLeft = 5 := by decide
  refine ⟨hs, fun stuck => ?_, by decide, by decide⟩
  rw [(eval_bounded s hs .empty loop).1 stuck 6 (by rw [hlevels]; decide), Evaluator.eval, hlevels]
  rfl

end ExprLang

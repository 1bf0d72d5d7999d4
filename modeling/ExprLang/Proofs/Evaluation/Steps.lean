import ExprLang.Proofs.Evaluation.Agreement

/-!
# Properties that steps pass on

Every kind of expression is evaluated by values and checks, by the expressions one level below, and
by one step after another. A property of steps that values and checks have, and that one step after
another keeps (`Compositional`), is therefore passed on from the expressions below to the expression
(`Compositional.evalNode`). What is left for each such property are calls and declarations, which
alone look at the functions, and the entry to a level.
-/

namespace ExprLang

open Eval

/-- The expressions that are evaluated one level below an expression. -/
def Expr.operands : Expr → List Expr
  | .literal _ _ | .var _ | .declaration _ _ _ _ => []
  | .unary _ e _ | .group e _ => [e]
  | .binary d _ e _ => [d, e]
  | .conditional c d e _ => [c, d, e]
  | .letIn bindings body _ => body :: bindings.map Prod.snd
  | .call _ args _ => args

/-- A property of steps that is passed on from steps to what is put together from them. -/
structure Compositional (P : ∀ {α : Type}, Eval α → Prop) : Prop where
  ofExcept {α : Type} (x : Except Error α) : P (MonadExcept.ofExcept x : Eval α)
  bind {α β : Type} {step : Eval α} {f : α → Eval β} (hstep : P step) (hf : ∀ a, P (f a)) :
    P (step >>= f)

namespace Compositional

variable {P : ∀ {α : Type}, Eval α → Prop} (h : Compositional P)

include h

theorem pure {α : Type} (a : α) : P (Pure.pure a : Eval α) := h.ofExcept (.ok a)

theorem fail {α : Type} (e : RuntimeError) (span : Span) : P (Eval.fail e span : Eval α) :=
  h.ofExcept (.error ⟨.runtime e, span⟩)

theorem mapM {α β : Type} {f : α → Eval β} {as : List α} (has : ∀ a ∈ as, P (f a)) :
    P (as.mapM f) := by
  induction as with
  | nil => exact h.pure []
  | cons a as ih =>
    rw [List.forall_mem_cons] at has
    rw [List.mapM_cons]
    exact h.bind has.1 fun b => h.bind (ih has.2) fun bs => h.pure (b :: bs)

theorem evalVariable (scope : Scope) (name : Name) : P (evalVariable scope name) := by
  unfold ExprLang.evalVariable
  split
  · exact h.pure _
  · exact h.fail _ _

/-- **Expressions have what their operands have**, if calls have it, and declarations where there is
one. -/
theorem evalNode {ev : Scope → Expr → Eval Value} (scope : Scope) {e : Expr}
    (hev : ∀ d ∈ e.operands, ∀ scope, P (ev scope d))
    (hcall : ∀ name values span, P (evalCall ev name values span))
    (hdeclaration : ∀ name params body span, e = .declaration name params body span →
      P (evalDeclaration name params body)) : P (evalNode ev scope e) := by
  cases e with
  | literal value span => exact h.pure _
  | var name => exact h.evalVariable scope name
  | unary op e span =>
    have he := hev e List.mem_cons_self scope
    exact h.bind he fun v => h.bind (h.ofExcept _) fun _ => h.pure _
  | binary d op e span =>
    simp only [Expr.operands, List.forall_mem_cons] at hev
    obtain ⟨hd, he, -⟩ := hev
    exact h.bind (hd scope) fun v => h.bind (he scope) fun w => h.bind (h.ofExcept _) fun _ =>
      h.pure _
  | group e span => exact hev e List.mem_cons_self scope
  | conditional c d e span =>
    simp only [Expr.operands, List.forall_mem_cons] at hev
    obtain ⟨hc, hd, he, -⟩ := hev
    refine h.bind (hc scope) fun v => h.bind (h.ofExcept _) fun b => ?_
    cases b with
    | true => exact hd scope
    | false => exact he scope
  | letIn bindings body span =>
    simp only [Expr.operands, List.forall_mem_cons, List.forall_mem_map] at hev
    obtain ⟨hbody, hbindings⟩ := hev
    refine h.bind (h.mapM fun b hb => ?_) fun values => hbody _
    exact h.bind (hbindings b hb scope) fun v => h.pure _
  | declaration name params body span => exact hdeclaration name params body span rfl
  | call name args span =>
    exact h.bind (h.mapM fun e he => hev e he scope) fun values => hcall name.val values span

end Compositional

end ExprLang

import ExprLang.Proofs.Evaluation.Steps
import ExprLang.Proofs.Session.History

/-!
# More functions

A call looks its function up when it is evaluated, in the functions at hand at that time. With more
functions at hand it finds those that it found before, so whatever was evaluated without missing a
function is evaluated in the same way, with the same failures and the same limits.

* `Registry.Extends`: the functions of one registry are functions of another one. Adding functions
  extends a registry (`Registry.extends_foldl_add`).
* `Persists r r' step`: unless a step misses a function among `r`, it does with `r'` what it does
  with `r`. One step after the other keeps this, and so does every kind of expression.
-/

namespace ExprLang

open Eval

namespace Registry

/-- Whatever function a signature leads to, it leads to that one in the larger registry as well. -/
def Extends (r' r : Registry) : Prop := ∀ s f, r.get? s = some f → r'.get? s = some f

/-- Functions are added behind those at hand, where no search for a function at hand gets to. -/
theorem extends_foldl_add (r : Registry) (fs : List Function) : (fs.foldl add r).Extends r := by
  intro s f h
  rw [get?_eq_find?] at h
  rw [get?_eq_find?, functions_foldl_add, List.find?_append]
  exact Option.or_eq_some_iff.2 (Or.inl h)

end Registry

/-! ### Steps that persist -/

/-- The result of a step that missed a function. -/
def Missing {α : Type} (result : Except Error α) : Prop :=
  ∃ name arity span, result = .error ⟨.runtime (.unknownFunction name arity), span⟩

/-- A step that keeps the functions `r`. Unless it misses one of them, it does the same with the
functions `r'`. -/
def Persists {α : Type} (r r' : Registry) (step : Eval α) : Prop :=
  ∀ s : Evaluator, s.registry = r → (step s).2.registry = r ∧
    (Missing (step s).1 ∨
      step { s with registry := r' } = ((step s).1, { (step s).2 with registry := r' }))

namespace Persists

variable {α β : Type} {r r' : Registry} {step : Eval α} {f : α → Eval β}

theorem ofExcept (x : Except Error α) : Persists r r' (MonadExcept.ofExcept x) := by
  intro s hs
  rw [ofExcept_apply, ofExcept_apply]
  exact ⟨hs, Or.inr rfl⟩

theorem bind (hm : Persists r r' step) (hf : ∀ a, Persists r r' (f a)) :
    Persists r r' (step >>= f) := by
  intro s hs
  obtain ⟨ht, hstep'⟩ := hm s hs
  cases hstep : step s with
  | mk result t =>
    rw [hstep] at ht hstep'
    cases result with
    | ok a =>
      rw [bind_ok hstep]
      rcases hstep' with ⟨_, _, _, hmissing⟩ | hstep'
      · cases hmissing
      · rw [bind_ok hstep']
        exact hf a t ht
    | error x =>
      rw [bind_error hstep]
      refine ⟨ht, hstep'.imp ?_ fun h => bind_error h⟩
      rintro ⟨name, arity, span, hmissing⟩
      exact ⟨name, arity, span, congrArg _ (Except.error.inj hmissing)⟩

theorem compositional (r r' : Registry) : Compositional (Persists r r') := ⟨ofExcept, bind⟩

/-- What is counted has nothing to do with the functions. -/
theorem inExpr (h : Persists r r' step) :
    Persists r r' (within Evaluator.enterExpr Evaluator.leaveExpr step) := by
  intro s hs
  obtain ⟨ht, hstep⟩ := h s.enterExpr hs
  refine ⟨ht, hstep.imp_right fun hstep => ?_⟩
  unfold within
  exact congrArg (fun p : Except Error α × Evaluator => (p.1, p.2.leaveExpr)) hstep

theorem inCall (h : Persists r r' step) :
    Persists r r' (within Evaluator.enterCall Evaluator.leaveCall step) := by
  intro s hs
  obtain ⟨ht, hstep⟩ := h s.enterCall hs
  refine ⟨ht, hstep.imp_right fun hstep => ?_⟩
  unfold within
  exact congrArg (fun p : Except Error α × Evaluator => (p.1, p.2.leaveCall)) hstep

end Persists

/-! ### Evaluation -/

theorem Expr.isPlain_of_mem_operands {d e : Expr} (he : e.isPlain) (hd : d ∈ e.operands) :
    d.isPlain := by
  cases e with
  | literal | var | declaration => cases hd
  | unary op e span | group e span => rwa [List.mem_singleton.1 hd]
  | binary | conditional =>
    simp only [operands, isPlain, Bool.and_eq_true, List.mem_cons, List.not_mem_nil] at hd he
    grind
  | letIn bindings body span =>
    rw [isPlain, Bool.and_eq_true, isPlainBindings_iff] at he
    rcases List.mem_cons.1 hd with rfl | hd
    · exact he.2
    · exact he.1 d hd
  | call name args span => exact isPlainArgs_iff.1 he d hd

section

variable {r r' : Registry} {ev : Scope → Expr → Eval Value}
  (hev : ∀ scope e, e.isPlain → Persists r r' (ev scope e))

include hev

/-- The one place where functions are looked up. -/
theorem evalCall_persists (hr : r.Plain) (hr' : r'.Extends r) (name : String) (values : List Value)
    (span : Span) : Persists r r' (evalCall ev name values span) := by
  intro s hs
  unfold evalCall
  rw [get_bind, get_bind, hs]
  cases hget : r.get? ⟨name, values.length⟩ with
  | none => exact ⟨hs, Or.inl ⟨name, values.length, span, rfl⟩⟩
  | some f =>
    rw [hr' _ f hget]
    cases f with
    | builtin b => exact Persists.ofExcept (b.apply values span) s hs
    | declared declared params body =>
      have hbody : body.isPlain := hr declared params body (Registry.get?_eq_some hget).1
      dsimp only
      split
      · exact (Persists.compositional r r').fail _ span s hs
      · exact (hev (.ofList (params.zip values)) body hbody).inCall s hs

theorem evalNode_persists (hr : r.Plain) (hr' : r'.Extends r) (scope : Scope) {e : Expr}
    (he : e.isPlain) : Persists r r' (evalNode ev scope e) := by
  refine (Persists.compositional r r').evalNode scope
    (fun d hd scope => hev scope d (Expr.isPlain_of_mem_operands he hd))
    (evalCall_persists hev hr hr') ?_
  rintro name params body span rfl
  exact absurd he Bool.false_ne_true

end

/-- With any number of levels left, an expression is evaluated as before. -/
theorem eval_persists {r r' : Registry} (hr : r.Plain) (hr' : r'.Extends r) (n : Nat)
    (scope : Scope)
    {e : Expr} (he : e.isPlain) : Persists r r' (eval n scope e) := by
  induction n generalizing scope e with
  | zero => exact fun s hs => ⟨hs, Or.inr rfl⟩
  | succ n ih => exact (evalNode_persists (fun scope e he => ih scope he) hr hr' scope he).inExpr

/-- **More functions do not change what works.** An evaluation that misses no function has the same
value or the same error at the same place, and leaves the same counts, when there are more
functions: none of its calls, however deep, is led to another function. Bodies are plain, as is the
expression, so no function is declared on the way. -/
theorem eval_more_functions (s : Evaluator) {r' : Registry} (hr : s.registry.Plain)
    (hr' : r'.Extends s.registry) (scope : Scope) {e : Expr} (he : e.isPlain)
    (hknown : ¬ Missing (s.eval scope e).1) :
    Evaluator.eval { s with registry := r' } scope e =
      ((s.eval scope e).1, { (s.eval scope e).2 with registry := r' }) :=
  (eval_persists hr hr' s.levelsLeft scope he s rfl).2.resolve_left hknown

/-- With another `f`, of two parameters, and a new `g`, the call `f(true)` is what it was. -/
theorem eval_more_functions_overload :
    let not : Function := .declared "f" ["x"] (.unary .not (.var ⟨"x", ⟨18, 19⟩⟩) ⟨17, 19⟩)
    let more : List Function := [.declared "f" ["x", "y"] (.literal (.boolean true) ⟨0, 4⟩),
      .declared "g" ["x"] (.var ⟨"x", ⟨0, 1⟩⟩)]
    let s : Evaluator := { registry := Registry.builtins.add not }
    let e : Expr := .call ⟨"f", ⟨0, 1⟩⟩ [.literal (.boolean true) ⟨2, 6⟩] ⟨0, 7⟩
    ¬ Missing (s.eval .empty e).1 ∧
      (Evaluator.eval { s with registry := more.foldl .add s.registry } .empty e).1 =
        .ok (.boolean false) := by
  intro not more s e
  have hplain : s.registry.Plain := Registry.plain_builtins.add fun _ _ _ h => by
    obtain ⟨-, -, rfl⟩ := Function.declared.inj h
    rfl
  have hvalue : (s.eval .empty e).1 = .ok (.boolean false) := by decide +kernel
  have hknown : ¬ Missing (s.eval .empty e).1 := by
    rintro ⟨_, _, _, h⟩
    cases hvalue.symm.trans h
  have hextends := s.registry.extends_foldl_add more
  have hsame := eval_more_functions s hplain hextends .empty (e := e) rfl hknown
  exact ⟨hknown, by rw [hsame, hvalue]⟩

end ExprLang

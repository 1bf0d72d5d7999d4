import ExprLang.Proofs.Evaluation.Plain
import Mathlib.Data.List.Forall2

/-!
# Only the free variables count

Of the scope around it, an expression sees the values of its free variables and nothing else, and it
does not matter what the evaluation meets on its way: the bodies of the functions that are called, a
failure, a limit, a declaration.

* `Scope.Agree`: two scopes give the same values to some names; bindings keep it
  (`Scope.Agree.extend`);
* `eval_eq_of_agree`: in scopes that agree on its free variables an expression is evaluated alike;
* `Renamed`: bindings with other names, where the body does not mention the names. Since no binding
  is in the scope of another one, the body alone can tell the difference.

`lexical_scoping` puts these together.
-/

namespace ExprLang

/-! ### Scopes that agree -/

namespace Scope

/-- Two scopes give the same values to the given names, or none. -/
def Agree (names : List Name) (scope scope' : Scope) : Prop :=
  ∀ x ∈ names, scope.get? x.val = scope'.get? x.val

namespace Agree

variable {names more : List Name} {scope scope' : Scope}

theorem mono (h : Agree more scope scope') (hsub : names ⊆ more) : Agree names scope scope' :=
  fun x hx => h x (hsub hx)

/-- Names that are bound on both sides to the same values need not agree before. -/
theorem extend {bindings : List (String × Value)} {bound : List String}
    (h : Agree (names.filter fun x => !bound.contains x.val) scope scope')
    (hbound : bindings.map Prod.fst = bound) :
    Agree names (scope.extend bindings) (scope'.extend bindings) := by
  intro x hx
  rw [get?_extend, get?_extend]
  cases hlookup : bindings.reverse.lookup x.val with
  | some v => rfl
  | none =>
    -- a name without a binding is looked up outside
    have hnone : (empty.extend bindings).get? x.val = none := by rw [get?_extend, hlookup]; rfl
    have hfree : x.val ∉ bound := hbound ▸ (get?_extend_eq_none_iff.1 hnone).1
    exact h x (List.mem_filter.2 ⟨hx, by simpa using hfree⟩)

/-- A value for a name that is not looked up. -/
theorem bind_of_notMem {name name' : String} (h : Agree names scope scope') (v : Value)
    (hname : ∀ x ∈ names, x.val ≠ name ∧ x.val ≠ name') :
    Agree names (scope.bind name v) (scope'.bind name' v) := by
  intro x hx
  obtain ⟨hne, hne'⟩ := hname x hx
  rw [get?_bind, get?_bind, if_neg hne, if_neg hne']
  exact h x hx

theorem bind (h : Agree names scope scope') (name : String) (v : Value) :
    Agree names (scope.bind name v) (scope'.bind name v) := by
  intro x hx
  rw [get?_bind, get?_bind, h x hx]

end Agree

end Scope

open Scope

/-! ### Steps that do the same -/

namespace Eval

variable {α β : Type}

/-- What follows a step is compared at the values that the step can have. -/
theorem bind_congr_of_ok {m : Eval α} {f g : α → Eval β}
    (h : ∀ s a t, m s = (.ok a, t) → f a t = g a t) : m >>= f = m >>= g := by
  funext s
  cases hm : m s with
  | mk result t =>
    cases result with
    | ok a => rw [bind_ok hm, bind_ok hm, h s a t hm]
    | error x => rw [bind_error hm, bind_error hm]

/-- Steps that do the same where they begin are followed by the same. -/
theorem bind_congr_at {m m' : Eval α} {s : Evaluator} (h : m s = m' s) (f : α → Eval β) :
    (m >>= f) s = (m' >>= f) s := by
  show ExceptT.bindCont f (m s).1 (m s).2 = _
  rw [h]
  rfl

end Eval

/-- There are as many values as expressions. -/
theorem length_of_mapM {ev : Expr → Eval Value} {es : List Expr} {s t : Evaluator}
    {values : List Value} (h : es.mapM ev s = (.ok values, t)) : values.length = es.length := by
  induction es generalizing s t values with
  | nil =>
    cases h
    rfl
  | cons e es ih =>
    rw [List.mapM_cons] at h
    cases he : ev e s with
    | mk result s' =>
      cases result with
      | error x =>
        rw [Eval.bind_error he] at h
        cases h
      | ok v =>
        rw [Eval.bind_ok he] at h
        cases hes : es.mapM ev s' with
        | mk result s'' =>
          cases result with
          | error x =>
            rw [Eval.bind_error hes] at h
            cases h
          | ok vs =>
            rw [Eval.bind_ok hes] at h
            cases h
            exact congrArg (· + 1) (ih hes)

/-! ### Evaluation -/

section

variable {ev : Scope → Expr → Eval Value} {scope scope' : Scope}
  (hev : ∀ {scope scope' : Scope} {e : Expr}, Agree e.free scope scope' →
    ev scope e = ev scope' e)

include hev

theorem mapM_eq_of_agree {es : List Expr} (h : Agree (es.flatMap Expr.free) scope scope') :
    es.mapM (ev scope) = es.mapM (ev scope') := by
  induction es with
  | nil => rfl
  | cons e es ih =>
    rw [List.flatMap_cons] at h
    rw [List.mapM_cons, List.mapM_cons, hev (h.mono (List.subset_append_left ..)),
      ih (h.mono (List.subset_append_right ..))]

theorem evalNode_eq_of_agree {e : Expr} (h : Agree e.free scope scope') :
    evalNode ev scope e = evalNode ev scope' e := by
  cases e with
  | literal | declaration => rfl
  | var name =>
    show evalVariable scope name = evalVariable scope' name
    unfold evalVariable
    rw [h name (List.mem_singleton_self name)]
  | unary op e span =>
    have he : Agree e.free scope scope' := h
    rw [evalNode, evalNode, hev he]
  | binary d op e span =>
    rw [evalNode, evalNode, hev (h.mono (List.subset_append_left ..)),
      hev (h.mono (List.subset_append_right ..))]
  | group e span => exact hev h
  | conditional c d e span =>
    have hd : d.free ⊆ c.free ++ (d.free ++ e.free) :=
      fun x hx => List.mem_append_right _ (List.mem_append_left _ hx)
    have he : e.free ⊆ c.free ++ (d.free ++ e.free) :=
      fun x hx => List.mem_append_right _ (List.mem_append_right _ hx)
    rw [evalNode, evalNode, hev (h.mono (List.subset_append_left ..)), hev (h.mono hd),
      hev (h.mono he)]
  | letIn bindings body span =>
    rw [Expr.free, Expr.freeBindings_eq] at h
    rw [evalNode, evalNode, mapM_bindings, mapM_bindings, bind_assoc, bind_assoc,
      mapM_eq_of_agree hev (h.mono (List.subset_append_left ..))]
    refine Eval.bind_congr_of_ok fun s values t hvalues => ?_
    rw [pure_bind, pure_bind]
    -- every name has a value, so what the body sees of the scopes is what the bindings leave open
    have hlength : values.length = bindings.length := by
      rw [length_of_mapM hvalues, List.length_map]
    have hnames : ((bindings.map fun b => b.1.val).zip values).map Prod.fst =
        bindings.map fun b => b.1.val := List.map_fst_zip (by simp [hlength])
    rw [hev (Agree.extend (h.mono (List.subset_append_right ..)) hnames)]
  | call name args span =>
    rw [Expr.free, Expr.freeArgs_eq] at h
    rw [evalNode, evalNode, mapM_eq_of_agree hev h]

end

/-- **An expression is evaluated alike in scopes that agree on its free variables.** -/
theorem eval_eq_of_agree (n : Nat) {scope scope' : Scope} {e : Expr}
    (h : Agree e.free scope scope') : eval n scope e = eval n scope' e := by
  induction n generalizing scope scope' e with
  | zero => rfl
  | succ n ih => rw [eval, eval, evalNode_eq_of_agree ih h]

/-! ### Calls -/

/-- The values of expressions one after the other, and the evaluator afterwards. -/
def Evaluator.evalAll (s : Evaluator) (scope : Scope) (es : List Expr) :
    Except Error (List Value) × Evaluator :=
  es.mapM (ExprLang.eval s.levelsLeft scope) s

/-- With no levels left an evaluation is cut off, in any scope. -/
theorem Evaluator.eval_of_levelsLeft_zero {s : Evaluator} (h : s.levelsLeft = 0) (scope : Scope)
    (e : Expr) : s.eval scope e =
      (.error ⟨.runtime (.nestingTooDeep (nestingLimit s.maxDepth)), e.span⟩, s) := by
  rw [Evaluator.eval, h]
  rfl

theorem Evaluator.levelsLeft_enterExpr (s : Evaluator) :
    s.enterExpr.levelsLeft = s.levelsLeft - 1 :=
  Nat.sub_add_eq ..

/-- One level is spent on the expression, the others are left for its parts. -/
theorem Evaluator.eval_of_levelsLeft_succ {s : Evaluator} {n : Nat} (h : s.levelsLeft = n + 1)
    (scope : Scope) (e : Expr) : s.eval scope e =
      ((evalNode (ExprLang.eval n) scope e s.enterExpr).1,
        (evalNode (ExprLang.eval n) scope e s.enterExpr).2.leaveExpr) := by
  rw [Evaluator.eval, h]
  rfl

/-- **A call depends on the values of its arguments**, and on nothing else of the place where it
stands: not on the scope, and not on how the arguments are written. -/
theorem Evaluator.eval_call_congr {s : Evaluator} {scope scope' : Scope} {args args' : List Expr}
    (h : s.enterExpr.evalAll scope args = s.enterExpr.evalAll scope' args') (name : Name)
    (span : Span) :
    s.eval scope (.call name args span) = s.eval scope' (.call name args' span) := by
  rcases Nat.eq_zero_or_eq_succ_pred s.levelsLeft with hzero | hsucc
  · rw [eval_of_levelsLeft_zero hzero, eval_of_levelsLeft_zero hzero]
    rfl
  · have hlevels : s.enterExpr.levelsLeft = s.levelsLeft.pred := s.levelsLeft_enterExpr
    unfold evalAll at h
    rw [hlevels] at h
    have hcall : evalNode (ExprLang.eval s.levelsLeft.pred) scope (.call name args span)
          s.enterExpr =
        evalNode (ExprLang.eval s.levelsLeft.pred) scope' (.call name args' span) s.enterExpr :=
      Eval.bind_congr_at h fun values => evalCall _ name.val values span
    rw [eval_of_levelsLeft_succ hsucc, eval_of_levelsLeft_succ hsucc, hcall]

/-! ### Bindings -/

/-- Two bindings of one expression, of which the names differ only if the given names have neither
of them. -/
def Renamed (names : List Name) (b b' : Name × Expr) : Prop :=
  b.2 = b'.2 ∧ (b.1.val = b'.1.val ∨ ∀ x ∈ names, x.val ≠ b.1.val ∧ x.val ≠ b'.1.val)

section

variable {names : List Name} {bindings bindings' : List (Name × Expr)}

theorem map_snd_of_renamed (h : List.Forall₂ (Renamed names) bindings bindings') :
    bindings.map Prod.snd = bindings'.map Prod.snd := by
  induction h with
  | nil => rfl
  | cons hb _ ih => rw [List.map_cons, List.map_cons, hb.1, ih]

theorem Scope.Agree.extend_renamed (h : List.Forall₂ (Renamed names) bindings bindings')
    {scope scope' : Scope} (hscope : Agree names scope scope') (values : List Value) :
    Agree names (scope.extend ((bindings.map fun b => b.1.val).zip values))
      (scope'.extend ((bindings'.map fun b => b.1.val).zip values)) := by
  induction h generalizing scope scope' values with
  | nil => exact hscope
  | cons hb _ ih =>
    cases values with
    | nil => exact hscope
    | cons v values =>
      rcases hb.2 with heq | hne
      · rw [List.map_cons, List.map_cons, heq]
        exact ih (hscope.bind _ v) values
      · exact ih (hscope.bind_of_notMem v hne) values

/-- **Bindings do not see each other**: what a binding is called matters to the body alone. -/
theorem eval_letIn_renamed (n : Nat) (scope : Scope) {body : Expr}
    (h : List.Forall₂ (Renamed body.free) bindings bindings') (span : Span) :
    eval n scope (.letIn bindings body span) = eval n scope (.letIn bindings' body span) := by
  cases n with
  | zero => rfl
  | succ n =>
    have hagree : Agree body.free scope scope := fun _ _ => rfl
    have hnode : evalNode (eval n) scope (.letIn bindings body span) =
        evalNode (eval n) scope (.letIn bindings' body span) := by
      rw [evalNode, evalNode, mapM_bindings, mapM_bindings, map_snd_of_renamed h, bind_assoc,
        bind_assoc]
      refine bind_congr fun values => ?_
      rw [pure_bind, pure_bind]
      exact eval_eq_of_agree n (hagree.extend_renamed h values)
    rw [eval, eval, hnode]

end

/-! ### Lexical scoping -/

/-- **Scoping is lexical.** Scopes that agree on the free variables of an expression give it the
same value or the same error at the same place, and leave the same functions and counts behind. So
a call does the same in all scopes in which its arguments have the same values: the body of the
function does not see the scope of the call. And the names of bindings matter to the body of a
`let` alone: no binding sees another one. -/
theorem lexical_scoping (s : Evaluator) :
    (∀ (scope scope' : Scope) (e : Expr),
      (∀ x ∈ e.free, scope.get? x.val = scope'.get? x.val) →
        s.eval scope e = s.eval scope' e) ∧
    (∀ (scope scope' : Scope) (name : Name) (args args' : List Expr) (span : Span),
      s.enterExpr.evalAll scope args = s.enterExpr.evalAll scope' args' →
        s.eval scope (.call name args span) = s.eval scope' (.call name args' span)) ∧
    ∀ (scope : Scope) (bindings bindings' : List (Name × Expr)) (body : Expr) (span : Span),
      List.Forall₂ (Renamed body.free) bindings bindings' →
        s.eval scope (.letIn bindings body span) = s.eval scope (.letIn bindings' body span) := by
  refine ⟨?_, ?_, ?_⟩
  · intro scope scope' e h
    exact congrFun (eval_eq_of_agree s.levelsLeft h) s
  · intro scope scope' name args args' span h
    exact Evaluator.eval_call_congr h name span
  · intro scope bindings bindings' body span h
    exact congrFun (eval_letIn_renamed s.levelsLeft scope h span) s

/-- A function whose body is `x & y`. The call does not lend it a `y`; an argument may be written in
another way; and `z` does not see the `x` beside it, by whatever name. -/
theorem lexical_scoping_call :
    let s : Evaluator := { registry := Registry.builtins.add (.declared "f" ["x"]
      (.binary (.var ⟨"x", ⟨17, 18⟩⟩) .and (.var ⟨"y", ⟨21, 22⟩⟩) ⟨17, 22⟩)) }
    let call (arg : Expr) : Expr := .call ⟨"f", ⟨0, 1⟩⟩ [arg] ⟨0, 7⟩
    let letTwo (name : String) : Expr := .letIn [(⟨name, ⟨4, 5⟩⟩, .literal (.boolean true) ⟨8, 12⟩),
      (⟨"z", ⟨14, 15⟩⟩, .var ⟨"x", ⟨18, 19⟩⟩)] (.var ⟨"z", ⟨23, 24⟩⟩) ⟨0, 24⟩
    (s.eval (.ofList [("y", .boolean true)]) (call (.literal (.boolean true) ⟨2, 6⟩))).1 =
        .error ⟨.runtime (.undeclaredVariable "y"), ⟨21, 22⟩⟩ ∧
      (s.eval (.ofList [("w", .boolean true)]) (call (.var ⟨"w", ⟨2, 3⟩⟩))).1 =
        .error ⟨.runtime (.undeclaredVariable "y"), ⟨21, 22⟩⟩ ∧
      (s.eval .empty (letTwo "x")).1 = .error ⟨.runtime (.undeclaredVariable "x"), ⟨18, 19⟩⟩ := by
  intro s call letTwo
  obtain ⟨hagree, hcall, hlet⟩ := lexical_scoping s
  have hunbound : (s.eval .empty (call (.literal (.boolean true) ⟨2, 6⟩))).1 =
      .error ⟨.runtime (.undeclaredVariable "y"), ⟨21, 22⟩⟩ := by
    decide +kernel
  refine ⟨?_, ?_, ?_⟩
  · rw [hagree _ .empty _ fun x hx => absurd hx List.not_mem_nil]
    exact hunbound
  · obtain ⟨n, hlevels⟩ : ∃ n, s.enterExpr.levelsLeft = n + 1 := ⟨16014, by decide +kernel⟩
    have hvalues : s.enterExpr.evalAll (.ofList [("w", .boolean true)]) [.var ⟨"w", ⟨2, 3⟩⟩] =
        s.enterExpr.evalAll .empty [.literal (.boolean true) ⟨2, 6⟩] := by
      unfold Evaluator.evalAll
      rw [hlevels]
      rfl
    rw [hcall _ _ _ _ _ _ hvalues]
    exact hunbound
  · have hrenamed : s.eval .empty (letTwo "x") = s.eval .empty (letTwo "w") :=
      hlet .empty _ _ _ _ (.cons ⟨rfl, Or.inr (by decide)⟩ (.cons ⟨rfl, Or.inl rfl⟩ .nil))
    rw [hrenamed]
    decide +kernel

end ExprLang

import ExprLang.Proofs.Evaluation.Agreement
import ExprLang.Proofs.Evaluation.Scope
import ExprLang.Proofs.Grammar.Canonical

/-!
# Evaluation of plain expressions

An expression is *plain* if no declaration is part of it. When it is plain, as are the bodies of the
functions at hand, its evaluation leaves the functions as they are, whatever else happens. Moreover
(`eval_settles`):

* a value is never nothing;
* an error is one of evaluation, not of reading;
* a variable that is found undeclared is free in the expression and not in scope, or it is free in
  the body of a function and no parameter of it.
-/

namespace ExprLang

namespace Expr

mutual

/-- Whether no declaration is part of an expression. -/
def isPlain : Expr → Bool
  | literal .. | var _ => true
  | unary _ operand _ => operand.isPlain
  | binary left _ right _ => left.isPlain && right.isPlain
  | group inner _ => inner.isPlain
  | conditional c r a _ => c.isPlain && r.isPlain && a.isPlain
  | letIn bindings body _ => isPlainBindings bindings && body.isPlain
  | declaration .. => false
  | call _ args _ => isPlainArgs args

/-- Plain values in a list of bindings. -/
def isPlainBindings : List (Name × Expr) → Bool
  | [] => true
  | (_, value) :: rest => value.isPlain && isPlainBindings rest

/-- Plain expressions in a list of arguments. -/
def isPlainArgs : List Expr → Bool
  | [] => true
  | e :: rest => e.isPlain && isPlainArgs rest

end

mutual

/-- The variables of an expression that it does not bind itself, where they stand. A declaration is
not evaluated, so it has none. -/
def free : Expr → List Name
  | literal .. | declaration .. => []
  | var name => [name]
  | unary _ operand _ => operand.free
  | binary left _ right _ => left.free ++ right.free
  | group inner _ => inner.free
  | conditional c r a _ => c.free ++ (r.free ++ a.free)
  | letIn bindings body _ =>
    freeBindings bindings ++ body.free.filter fun x => !(bindings.map fun b => b.1.val).contains x.val
  | call _ args _ => freeArgs args

/-- The free variables of the values of bindings. -/
def freeBindings : List (Name × Expr) → List Name
  | [] => []
  | (_, value) :: rest => value.free ++ freeBindings rest

/-- The free variables of arguments. -/
def freeArgs : List Expr → List Name
  | [] => []
  | e :: rest => e.free ++ freeArgs rest

end

variable {bindings : List (Name × Expr)} {args : List Expr}

theorem isPlainBindings_iff :
    isPlainBindings bindings = true ↔ ∀ e ∈ bindings.map Prod.snd, e.isPlain := by
  induction bindings with
  | nil => simp [isPlainBindings]
  | cons b rest ih => simp [isPlainBindings, ih]

theorem isPlainArgs_iff : isPlainArgs args = true ↔ ∀ e ∈ args, e.isPlain := by
  induction args with
  | nil => simp [isPlainArgs]
  | cons e rest ih => simp [isPlainArgs, ih]

theorem freeBindings_eq (bindings : List (Name × Expr)) :
    freeBindings bindings = (bindings.map Prod.snd).flatMap free := by
  induction bindings with
  | nil => rfl
  | cons b rest ih => rw [freeBindings, ih, List.map_cons, List.flatMap_cons]

theorem freeArgs_eq (args : List Expr) : freeArgs args = args.flatMap free := by
  induction args with
  | nil => rfl
  | cons e rest ih => rw [freeArgs, ih, List.flatMap_cons]

mutual

/-- The grammar has declarations as statements only. -/
theorem isPlain_of_isCanonical : ∀ {e : Expr}, e.isCanonical → e.isPlain
  | literal .., _ | var _, _ => rfl
  | unary _ operand _, h => by
    rw [isCanonical, Bool.and_eq_true] at h
    exact isPlain_of_isCanonical (e := operand) h.2
  | binary left _ right _, h => by
    simp only [isCanonical, Bool.and_eq_true] at h
    simp [isPlain, isPlain_of_isCanonical h.1.1.1.1, isPlain_of_isCanonical h.1.1.1.2]
  | group inner _, h => isPlain_of_isCanonical (e := inner) h
  | conditional c r a _, h => by
    simp only [isCanonical, Bool.and_eq_true] at h
    simp [isPlain, isPlain_of_isCanonical h.1.1, isPlain_of_isCanonical h.1.2,
      isPlain_of_isCanonical h.2]
  | letIn bindings body _, h => by
    simp only [isCanonical, Bool.and_eq_true] at h
    simp [isPlain, isPlainBindings_of_isCanonical h.1.2, isPlain_of_isCanonical h.2]
  | declaration .., h => absurd h Bool.false_ne_true
  | call .., h => isPlainArgs_of_isCanonical h

theorem isPlainBindings_of_isCanonical : ∀ {bindings : List (Name × Expr)},
    isCanonicalBindings bindings → isPlainBindings bindings
  | [], _ => rfl
  | (_, value) :: rest, h => by
    rw [isCanonicalBindings, Bool.and_eq_true] at h
    simp [isPlainBindings, isPlain_of_isCanonical h.1, isPlainBindings_of_isCanonical h.2]

theorem isPlainArgs_of_isCanonical : ∀ {args : List Expr}, isCanonicalArgs args → isPlainArgs args
  | [], _ => rfl
  | e :: rest, h => by
    rw [isCanonicalArgs, Bool.and_eq_true] at h
    simp [isPlainArgs, isPlain_of_isCanonical h.1, isPlainArgs_of_isCanonical h.2]

end

end Expr

/-! ### Functions with plain bodies -/

namespace Registry

/-- No declaration is part of the body of a function. -/
def Plain (r : Registry) : Prop :=
  ∀ name params body, .declared name params body ∈ r.functions → body.isPlain

/-- A variable that is free in the body of a function and no parameter of it. -/
def Leaks (r : Registry) (x : Name) : Prop :=
  ∃ name params body, .declared name params body ∈ r.functions ∧ x ∈ body.free ∧ x.val ∉ params

/-- The signatures in front of the functions are those that the functions have. -/
theorem entries_eq (r : Registry) : r.entries = r.functions.map fun f => (f.signature, f) := by
  rw [functions, List.map_map]
  refine (List.map_id _).symm.trans (List.map_congr_left fun entry hentry => ?_)
  exact congrArg (·, entry.2) (r.keyed entry.1 entry.2 hentry)

/-- A search for a signature is one for a function of that signature. -/
theorem get?_eq_find? (r : Registry) (s : Signature) :
    r.get? s = r.functions.find? fun f => f.signature == s := by
  rw [get?, entries_eq, List.find?_map, Option.map_map]
  exact Option.map_id'

/-- A signature leads to a function of that signature. -/
theorem get?_eq_some {r : Registry} {s : Signature} {f : Function} (h : r.get? s = some f) :
    f ∈ r.functions ∧ f.signature = s := by
  rw [get?_eq_find?] at h
  exact ⟨List.mem_of_find?_eq_some h, beq_iff_eq.1 (List.find?_some h :)⟩

/-- A function that is added is the only new one. -/
theorem mem_functions_add {r : Registry} {f g : Function} (h : g ∈ (r.add f).functions) :
    g ∈ r.functions ∨ g = f := by
  unfold add at h
  split at h
  · exact Or.inl h
  · rw [functions, List.map_append, List.mem_append] at h
    exact h.imp_right List.mem_singleton.1

/-- A built-in function is found with one argument only. -/
theorem length_of_get?_builtin {r : Registry} {name : String} {n : Nat} {b : Builtin}
    (h : r.get? ⟨name, n⟩ = some (.builtin b)) : n = 1 :=
  (congrArg Signature.arity (get?_eq_some h).2).symm

/-- A declared function is found with as many arguments as it has parameters. -/
theorem length_of_get?_declared {r : Registry} {name declared : String} {n : Nat}
    {params : List String} {body : Expr}
    (h : r.get? ⟨name, n⟩ = some (.declared declared params body)) : params.length = n :=
  congrArg Signature.arity (get?_eq_some h).2

end Registry

/-! ### What a step comes to -/

/-- An error of evaluation. If it is about an undeclared variable, then about one with `P`. -/
def Raised (P : Name → Prop) (x : Error) : Prop :=
  match x.val with
  | .lexical _ | .syntactic _ => False
  | .runtime (.undeclaredVariable name) => P ⟨name, x.span⟩
  | .semantic _ | .runtime _ => True

theorem Raised.mono {P P' : Name → Prop} {x : Error} (h : Raised P x) (hP : ∀ n, P n → P' n) :
    Raised P' x := by
  unfold Raised at h ⊢
  split
  · next heq => simp [heq] at h
  · next heq => simp [heq] at h
  · next heq =>
    simp only [heq] at h
    exact hP _ h
  · trivial
  · trivial

/-- A value with `Q`, or an error of evaluation about a variable with `P`. -/
def Settled {α : Type} (P : Name → Prop) (Q : α → Prop) : Except Error α → Prop
  | .ok a => Q a
  | .error x => Raised P x

/-- A step that keeps the functions `r` as they are and comes to a settled result. -/
def Settles {α : Type} (r : Registry) (P : Name → Prop) (step : Eval α) (Q : α → Prop) : Prop :=
  ∀ s : Evaluator, s.registry = r → (step s).2.registry = r ∧ Settled P Q (step s).1

namespace Settles

open Eval

variable {α β : Type} {r : Registry} {P P' : Name → Prop} {step : Eval α} {f : α → Eval β}
  {Q : α → Prop} {Q' : β → Prop}

theorem of_raised (h : Settles r P step Q) (hP : ∀ n, P n → P' n) : Settles r P' step Q := by
  intro s hs
  obtain ⟨hr, hsettled⟩ := h s hs
  refine ⟨hr, ?_⟩
  cases hstep : (step s).1 with
  | ok a => rwa [hstep] at hsettled
  | error x =>
    rw [hstep] at hsettled
    exact Raised.mono hsettled hP

theorem ofExcept {x : Except Error α} (h : Settled P Q x) :
    Settles r P (MonadExcept.ofExcept x) Q := by
  intro s hs
  rw [ofExcept_apply]
  exact ⟨hs, h⟩

theorem pure {a : α} (h : Q a) : Settles r P (Pure.pure a) Q := ofExcept (x := .ok a) h

theorem bind (hm : Settles r P step Q) (hf : ∀ a, Q a → Settles r P (f a) Q') :
    Settles r P (step >>= f) Q' := by
  intro s hs
  obtain ⟨hr, hsettled⟩ := hm s hs
  cases hstep : step s with
  | mk result s' =>
    rw [hstep] at hr hsettled
    cases result with
    | ok a =>
      rw [bind_ok hstep]
      exact hf a hsettled s' hr
    | error x =>
      rw [bind_error hstep]
      exact ⟨hr, hsettled⟩

/-- Counting what is active does not touch the functions. -/
theorem inExpr (h : Settles r P step Q) :
    Settles r P (within Evaluator.enterExpr Evaluator.leaveExpr step) Q :=
  fun s hs => h s.enterExpr hs

theorem inCall (h : Settles r P step Q) :
    Settles r P (within Evaluator.enterCall Evaluator.leaveCall step) Q :=
  fun s hs => h s.enterCall hs

end Settles

/-! ### Operators and built-in functions -/

/-- An operator has a value wherever its check passes. -/
theorem UnaryOp.isSome_value? {op : UnaryOp} {v : Value} {span : Span}
    (h : op.check v span = .ok ()) : (op.value? v).isSome := by
  cases op <;> cases v <;> first | rfl | cases h

theorem BinaryOp.isSome_value? {op : BinaryOp} {v w : Value} {span : Span}
    (h : op.check v w span = .ok ()) : (op.value? v w).isSome := by
  cases op <;> cases v <;> cases w <;> first | rfl | cases h

theorem UnaryOp.value?_ne_nothing (op : UnaryOp) (v : Value) : op.value? v ≠ some .nothing := by
  cases op <;> cases v <;> nofun

theorem BinaryOp.value?_ne_nothing (op : BinaryOp) (v w : Value) :
    op.value? v w ≠ some .nothing := by
  cases op <;> cases v <;> cases w <;> nofun

section

variable {P : Name → Prop}

/-- What follows a check is the value that the check promises. -/
theorem settled_of_check {check : Except Error Unit} {value? : Option Value}
    (herror : ∀ x, check = .error x → Raised P x) (hsome : check = .ok () → value?.isSome)
    (hne : value? ≠ some .nothing) :
    Settled P (· ≠ .nothing) (check.map fun _ => value?.getD .nothing) := by
  cases check with
  | ok =>
    obtain ⟨v, rfl⟩ := Option.isSome_iff_exists.1 (hsome rfl)
    exact fun h => hne (congrArg some h)
  | error x => exact herror x rfl

theorem UnaryOp.settled (op : UnaryOp) (v : Value) (span : Span) :
    Settled P (· ≠ .nothing) (op.outcome v span) := by
  refine settled_of_check (fun x hx => ?_) isSome_value? (op.value?_ne_nothing v)
  unfold check at hx
  split at hx <;> cases hx
  trivial

theorem BinaryOp.settled (op : BinaryOp) (v w : Value) (span : Span) :
    Settled P (· ≠ .nothing) (op.outcome v w span) := by
  refine settled_of_check (fun x hx => ?_) isSome_value? (op.value?_ne_nothing v w)
  unfold check at hx
  split at hx <;> cases hx
  trivial

theorem Builtin.settled (b : Builtin) {v : Value} (hv : v ≠ .nothing) (span : Span) :
    Settled P (· ≠ .nothing) (b.applyTo v span) := by
  cases b <;> cases v <;> first | exact hv | trivial | exact nofun

end

/-! ### Evaluation -/

/-- A variable that an evaluation can find undeclared. -/
def Undeclared (r : Registry) (scope : Scope) (names : List Name) (x : Name) : Prop :=
  (x ∈ names ∧ scope.get? x.val = none) ∨ r.Leaks x

theorem Undeclared.mono {r : Registry} {scope : Scope} {names more : List Name} {x : Name}
    (h : Undeclared r scope names x) (hsub : names ⊆ more) : Undeclared r scope more x :=
  h.imp_left fun ⟨hx, hscope⟩ => ⟨hsub hx, hscope⟩

section

variable {r : Registry} {ev : Scope → Expr → Eval Value}
  (hev : ∀ scope e, e.isPlain → scope.Defined →
    Settles r (Undeclared r scope e.free) (ev scope e) (· ≠ .nothing))

include hev

/-- A part of an expression: its undeclared variables are those of the whole. -/
theorem settles_part {scope : Scope} {e : Expr} {names : List Name} (he : e.isPlain)
    (hscope : scope.Defined) (hsub : e.free ⊆ names) :
    Settles r (Undeclared r scope names) (ev scope e) (· ≠ .nothing) :=
  (hev scope e he hscope).of_raised fun _ hx => hx.mono hsub

theorem mapM_settles {scope : Scope} {es : List Expr} {names : List Name}
    (hes : ∀ e ∈ es, e.isPlain) (hscope : scope.Defined) (hsub : es.flatMap Expr.free ⊆ names) :
    Settles r (Undeclared r scope names) (es.mapM (ev scope)) fun vs =>
      vs.length = es.length ∧ ∀ v ∈ vs, v ≠ .nothing := by
  induction es with
  | nil => exact .pure ⟨rfl, nofun⟩
  | cons e es ih =>
    rw [List.flatMap_cons, List.append_subset] at hsub
    rw [List.mapM_cons]
    refine (settles_part hev (hes e List.mem_cons_self) hscope hsub.1).bind fun v hv => ?_
    refine (ih (fun d hd => hes d (List.mem_cons_of_mem e hd)) hsub.2).bind fun vs hvs => ?_
    exact .pure ⟨congrArg (· + 1) hvs.1, List.forall_mem_cons.2 ⟨hv, hvs.2⟩⟩

/-- A call binds a value to every parameter, so a variable that is undeclared in the body is none of
them. -/
theorem evalCall_settles (hr : r.Plain) {P : Name → Prop} (hP : ∀ x, r.Leaks x → P x)
    (name : String)
    {values : List Value} (hvalues : ∀ v ∈ values, v ≠ .nothing) (span : Span) :
    Settles r P (evalCall ev name values span) (· ≠ .nothing) := by
  intro s hs
  unfold evalCall
  rw [Eval.get_bind, hs]
  cases hget : r.get? ⟨name, values.length⟩ with
  | none => exact ⟨hs, trivial⟩
  | some f =>
    cases f with
    | builtin b =>
      obtain ⟨v, rfl⟩ := List.length_eq_one_iff.1 (Registry.length_of_get?_builtin hget)
      exact Settles.ofExcept (b.settled (hvalues v List.mem_cons_self) span) s hs
    | declared declared params body =>
      have hmem := (Registry.get?_eq_some hget).1
      have hlength := Registry.length_of_get?_declared hget
      dsimp only
      split
      · exact ⟨hs, trivial⟩
      · have hscope : (Scope.ofList (params.zip values)).Defined :=
          .ofList fun b hb => hvalues b.2 (List.of_mem_zip hb).2
        refine (Settles.inCall ((hev _ body (hr _ _ _ hmem) hscope).of_raised
          fun x hx => hP x ?_)) s hs
        rcases hx with ⟨hx, hnone⟩ | hleaks
        · have hnot := (Scope.get?_extend_eq_none_iff.1 hnone).1
          rw [List.map_fst_zip (Nat.le_of_eq hlength)] at hnot
          exact ⟨_, _, _, hmem, hx, hnot⟩
        · exact hleaks

theorem evalNode_settles (hr : r.Plain) {scope : Scope} {e : Expr} (he : e.isPlain)
    (hscope : scope.Defined) :
    Settles r (Undeclared r scope e.free) (evalNode ev scope e) (· ≠ .nothing) := by
  cases e with
  | literal value span => exact .pure (by cases value <;> nofun)
  | var name =>
    show Settles r _ (evalVariable scope name) _
    unfold evalVariable
    cases hname : scope.get? name.val with
    | some v => exact .pure fun h => hscope name.val (hname.trans (congrArg some h))
    | none => exact .ofExcept (x := .error _) (Or.inl ⟨List.mem_singleton_self name, hname⟩)
  | unary op e span =>
    refine (hev scope e he hscope).bind fun v _ => ?_
    rw [Eval.ofExcept_bind_pure _ fun _ => (op.value? v).getD .nothing]
    exact .ofExcept (op.settled v span)
  | binary d op e span =>
    rw [Expr.isPlain, Bool.and_eq_true] at he
    refine (settles_part hev he.1 hscope (List.subset_append_left ..)).bind fun v _ => ?_
    refine (settles_part hev he.2 hscope (List.subset_append_right ..)).bind fun w _ => ?_
    rw [Eval.ofExcept_bind_pure _ fun _ => (op.value? v w).getD .nothing]
    exact .ofExcept (op.settled v w span)
  | group e span => exact hev scope e he hscope
  | conditional c d e span =>
    simp only [Expr.isPlain, Bool.and_eq_true] at he
    have hd : d.free ⊆ c.free ++ (d.free ++ e.free) :=
      fun x hx => List.mem_append_right _ (List.mem_append_left _ hx)
    have hfree : e.free ⊆ c.free ++ (d.free ++ e.free) :=
      fun x hx => List.mem_append_right _ (List.mem_append_right _ hx)
    refine (settles_part hev he.1.1 hscope (List.subset_append_left ..)).bind fun v _ => ?_
    have hcondition : Settled (Undeclared r scope (c.free ++ (d.free ++ e.free))) (fun _ => True)
        (v.asCondition c.span) := by
      cases v <;> trivial
    refine (Settles.ofExcept hcondition).bind fun b _ => ?_
    cases b with
    | true => exact settles_part hev he.1.2 hscope hd
    | false => exact settles_part hev he.2 hscope hfree
  | letIn bindings body span =>
    rw [Expr.isPlain, Bool.and_eq_true, Expr.isPlainBindings_iff] at he
    rw [evalNode, mapM_bindings, bind_assoc, Expr.free, Expr.freeBindings_eq]
    refine (mapM_settles hev he.1 hscope (List.subset_append_left ..)).bind fun values hvalues => ?_
    rw [pure_bind]
    have hinner : (scope.extend ((bindings.map fun b => b.1.val).zip values)).Defined :=
      hscope.extend fun b hb => hvalues.2 b.2 (List.of_mem_zip hb).2
    refine (hev _ body he.2 hinner).of_raised fun x hx => hx.imp_left fun ⟨hfree, hnone⟩ => ?_
    obtain ⟨hnot, hscope⟩ := Scope.get?_extend_eq_none_iff.1 hnone
    rw [List.map_fst_zip (by simp [hvalues.1])] at hnot
    refine ⟨List.mem_append_right _ (List.mem_filter.2 ⟨hfree, ?_⟩), hscope⟩
    simpa using hnot
  | declaration => exact absurd he Bool.false_ne_true
  | call name args span =>
    rw [Expr.free, Expr.freeArgs_eq]
    refine (mapM_settles hev (Expr.isPlainArgs_iff.1 he) hscope (List.Subset.refl _)).bind
      fun values hvalues => ?_
    exact evalCall_settles hev hr (fun x hx => Or.inr hx) name.val hvalues.2 span

end

/-- **What the evaluation of a plain expression comes to**, when the bodies of the functions are
plain too. -/
theorem eval_settles {r : Registry} (hr : r.Plain) (n : Nat) (scope : Scope) (e : Expr)
    (he : e.isPlain) (hscope : scope.Defined) :
    Settles r (Undeclared r scope e.free) (eval n scope e) (· ≠ .nothing) := by
  induction n generalizing scope e with
  | zero => exact fun s hs => ⟨hs, trivial⟩
  | succ n ih =>
    exact (evalNode_settles ih hr he hscope).inExpr

end ExprLang

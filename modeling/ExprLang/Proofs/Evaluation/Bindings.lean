import ExprLang.Proofs.Evaluation.Counters
import ExprLang.Proofs.Evaluation.Extension
import ExprLang.Proofs.Evaluation.FreeVariables
import Mathlib.Data.List.Perm.Basic

/-!
# The order of bindings

Where no function is declared, an evaluation leaves the evaluator as it is (`eval_leaves`). So the
bindings of a `let` are evaluated from one and the same evaluator, and each has the value that it
would have on its own (`evalNode_letIn_eq_ok_iff`). Names that are bound once each have the same
value in whatever order they are bound (`Scope.get?_extend_perm`). Both together: the order of the
bindings does not matter to the value of the `let` (`binding_order_irrelevant`).
-/

namespace ExprLang

open Eval

/-! ### Names that are bound once -/

namespace Scope

variable {bindings bindings' : List (String × Value)} {name : String} {v : Value}

theorem get?_extend_eq_some_iff (s : Scope) (h : (bindings.map Prod.fst).Nodup) :
    (s.extend bindings).get? name = some v ↔
      (name, v) ∈ bindings ∨ name ∉ bindings.map Prod.fst ∧ s.get? name = some v := by
  induction bindings generalizing s with
  | nil => simp [extend]
  | cons b bindings ih =>
    obtain ⟨key, w⟩ := b
    rw [List.map_cons, List.nodup_cons] at h
    show ((s.bind key w).extend bindings).get? name = some v ↔ _
    rw [ih _ h.2, get?_bind, List.map_cons, List.mem_cons, List.mem_cons, Prod.mk.injEq]
    by_cases hname : name = key
    · subst hname
      have hmem : (name, v) ∉ bindings := fun hmem =>
        h.1 (List.mem_map.2 ⟨(name, v), hmem, rfl⟩)
      simp [hmem, h.1, eq_comm]
    · simp [hname]

/-- Bindings of different names can be made in any order. -/
theorem get?_extend_perm (s : Scope) (h : (bindings.map Prod.fst).Nodup)
    (hperm : bindings.Perm bindings') (name : String) :
    (s.extend bindings).get? name = (s.extend bindings').get? name := by
  have hnames := hperm.map Prod.fst
  refine Option.ext fun v => ?_
  rw [get?_extend_eq_some_iff s h, get?_extend_eq_some_iff s (hnames.nodup_iff.1 h),
    hperm.mem_iff, hnames.mem_iff]

end Scope

/-! ### Steps that leave the evaluator as it is -/

theorem Registry.Plain.add_declared {r : Registry} {name : String} {params : List String}
    {body : Expr} (h : r.Plain) (hbody : body.isPlain) :
    (r.add (.declared name params body)).Plain := by
  refine h.add fun _ _ _ hdeclared => ?_
  obtain ⟨-, -, rfl⟩ := Function.declared.inj hdeclared
  exact hbody

theorem Evaluator.SameCounters.eq {s t : Evaluator} (h : s.SameCounters t)
    (hregistry : t.registry = s.registry) : t = s := by
  obtain ⟨hcalls, hdepth, hmaxDepth⟩ := h
  cases s
  cases t
  cases hcalls
  cases hdepth
  cases hmaxDepth
  cases hregistry
  rfl

/-- **Evaluation leaves the evaluator as it is**, where no function is declared. -/
theorem eval_leaves {s : Evaluator} (hr : s.registry.Plain) (n : Nat) (scope : Scope) {e : Expr}
    (he : e.isPlain) : (eval n scope e s).2 = s :=
  (eval_restores n scope e s).eq (eval_persists hr (fun _ _ h => h) n scope he s rfl).1

namespace Eval

variable {α β : Type} {m : Eval α} {f : α → Eval β} {s : Evaluator}

theorem bind_leaves (hm : (m s).2 = s) (hf : ∀ a, (f a s).2 = s) : ((m >>= f) s).2 = s := by
  cases hstep : m s with
  | mk result t =>
    obtain rfl : t = s := by rwa [hstep] at hm
    cases result with
    | ok a => rw [bind_ok hstep, hf a]
    | error x => rw [bind_error hstep]

theorem bind_eq_ok_iff (hm : (m s).2 = s) {b : β} : ((m >>= f) s).1 = .ok b ↔
    ∃ a, (m s).1 = .ok a ∧ (f a s).1 = .ok b := by
  cases hstep : m s with
  | mk result t =>
    obtain rfl : t = s := by rwa [hstep] at hm
    cases result with
    | ok a => simp [bind_ok hstep]
    | error x => simp [bind_error hstep]

theorem compositional_leaves (s : Evaluator) : Compositional fun step => (step s).2 = s where
  ofExcept x := by rw [ofExcept_apply]
  bind := bind_leaves

/-- Steps that leave the evaluator as it is have values one after the other if each has its value
from the start. -/
theorem mapM_eq_ok_iff {as : List α} {f : α → Eval β} {r : α → β → Prop}
    (h : ∀ a ∈ as, (f a s).2 = s) (hr : ∀ a ∈ as, ∀ b, (f a s).1 = .ok b ↔ r a b) {bs : List β} :
    (as.mapM f s).1 = .ok bs ↔ List.Forall₂ r as bs := by
  induction as generalizing bs with
  | nil =>
    have hnil : ([].mapM f s).1 = .ok [] := rfl
    rw [hnil, List.forall₂_nil_left_iff, Except.ok.injEq, eq_comm]
  | cons a as ih =>
    rw [List.forall_mem_cons] at h hr
    have hleaves : (as.mapM f s).2 = s := (compositional_leaves s).mapM h.2
    rw [List.mapM_cons, bind_eq_ok_iff h.1, List.forall₂_cons_left_iff]
    constructor
    · rintro ⟨b, hb, hrest⟩
      obtain ⟨bs', hbs, hpure⟩ := (bind_eq_ok_iff hleaves).1 hrest
      cases hpure
      exact ⟨b, bs', (hr.1 b).1 hb, (ih h.2 hr.2).1 hbs, rfl⟩
    · rintro ⟨b, bs', hb, hbs, rfl⟩
      exact ⟨b, (hr.1 b).2 hb, (bind_eq_ok_iff hleaves).2 ⟨bs', (ih h.2 hr.2).2 hbs, rfl⟩⟩

end Eval

/-! ### The values of bindings -/

/-- The name of a binding, with the value that its expression has from an evaluator. -/
def Binds (ev : Scope → Expr → Eval Value) (scope : Scope) (s : Evaluator) (b : Name × Expr)
    (entry : String × Value) : Prop :=
  entry.1 = b.1.val ∧ (ev scope b.2 s).1 = .ok entry.2

section

variable {ev : Scope → Expr → Eval Value} {scope : Scope} {s : Evaluator}
  {bindings : List (Name × Expr)}

theorem map_fst_of_binds {entries : List (String × Value)}
    (h : List.Forall₂ (Binds ev scope s) bindings entries) :
    entries.map Prod.fst = bindings.map fun b => b.1.val := by
  induction h with
  | nil => rfl
  | cons hb _ ih => rw [List.map_cons, List.map_cons, hb.1, ih]

theorem evalBinding_eq_ok_iff {b : Name × Expr} (h : (ev scope b.2 s).2 = s)
    {entry : String × Value} :
    ((do return (b.1.val, ← ev scope b.2) : Eval (String × Value)) s).1 = .ok entry ↔
      Binds ev scope s b entry := by
  rw [bind_eq_ok_iff h]
  constructor
  · rintro ⟨v, hv, hpure⟩
    cases hpure
    exact ⟨rfl, hv⟩
  · obtain ⟨name, v⟩ := entry
    rintro ⟨rfl, hv⟩
    exact ⟨v, hv, rfl⟩

/-- Where no binding changes the evaluator, each one has the value that it has on its own, and the
body is evaluated in sight of all of them. -/
theorem evalNode_letIn_eq_ok_iff (h : ∀ b ∈ bindings, (ev scope b.2 s).2 = s) {body : Expr}
    {span : Span} {v : Value} :
    (evalNode ev scope (.letIn bindings body span) s).1 = .ok v ↔
      ∃ entries, List.Forall₂ (Binds ev scope s) bindings entries ∧
        (ev (scope.extend entries) body s).1 = .ok v := by
  have hleaves : ∀ b ∈ bindings,
      ((do return (b.1.val, ← ev scope b.2) : Eval (String × Value)) s).2 = s :=
    fun b hb => (compositional_leaves s).bind (h b hb) fun v => rfl
  rw [evalNode, bind_eq_ok_iff ((compositional_leaves s).mapM hleaves)]
  refine exists_congr fun entries => and_congr_left fun _ => ?_
  exact mapM_eq_ok_iff hleaves fun b hb entry => evalBinding_eq_ok_iff (h b hb)

end

/-! ### The order -/

section

variable {s : Evaluator} {bindings bindings' : List (Name × Expr)} {body : Expr} {span : Span}

theorem Expr.isPlain_letIn_of_perm (h : (Expr.letIn bindings body span).isPlain)
    (hperm : bindings.Perm bindings') : (Expr.letIn bindings' body span).isPlain := by
  rw [isPlain, Bool.and_eq_true, isPlainBindings_iff] at h ⊢
  exact ⟨fun e he => h.1 e ((hperm.map Prod.snd).mem_iff.2 he), h.2⟩

theorem eval_succ_fst (n : Nat) (scope : Scope) (e : Expr) (s : Evaluator) :
    (eval (n + 1) scope e s).1 = (evalNode (eval n) scope e s.enterExpr).1 := rfl

theorem eval_letIn_of_perm (hr : s.registry.Plain)
    (hplain : (Expr.letIn bindings body span).isPlain)
    (hnodup : (bindings.map fun b => b.1.val).Nodup) (hperm : bindings.Perm bindings') (n : Nat)
    (scope : Scope) {v : Value} (h : (eval n scope (.letIn bindings body span) s).1 = .ok v) :
    (eval n scope (.letIn bindings' body span) s).1 = .ok v := by
  rw [Expr.isPlain, Bool.and_eq_true, Expr.isPlainBindings_iff] at hplain
  cases n with
  | zero => cases h
  | succ n =>
    have hleaves : ∀ b ∈ bindings, (eval n scope b.2 s.enterExpr).2 = s.enterExpr :=
      fun b hb => eval_leaves (s := s.enterExpr) hr n scope (hplain.1 b.2 (List.mem_map_of_mem hb))
    have hleaves' : ∀ b ∈ bindings', (eval n scope b.2 s.enterExpr).2 = s.enterExpr :=
      fun b hb => hleaves b (hperm.mem_iff.2 hb)
    rw [eval_succ_fst, evalNode_letIn_eq_ok_iff hleaves] at h
    rw [eval_succ_fst, evalNode_letIn_eq_ok_iff hleaves']
    obtain ⟨entries, hentries, hbody⟩ := h
    obtain ⟨entries', hentries', hpermuted⟩ := List.perm_comp_forall₂ hperm.symm hentries
    -- the body finds the same values under the same names
    have hagree : Scope.Agree body.free (scope.extend entries) (scope.extend entries') := by
      rw [← map_fst_of_binds hentries] at hnodup
      exact fun x _ => scope.get?_extend_perm hnodup hpermuted.symm x.val
    exact ⟨entries', hentries', eval_eq_of_agree n hagree ▸ hbody⟩

end

/-- **The order of bindings does not matter.** A `let` of different names has a value exactly if it
has that value with its bindings in any other order, from every evaluator and in every scope. And
the evaluator, with its functions and counts, is afterwards what it was, also behind a failure. -/
theorem binding_order_irrelevant (s : Evaluator) (hr : s.registry.Plain) (scope : Scope)
    {bindings bindings' : List (Name × Expr)} {body : Expr} {span : Span}
    (hplain : (Expr.letIn bindings body span).isPlain)
    (hnodup : (bindings.map fun b => b.1.val).Nodup) (hperm : bindings.Perm bindings') :
    (∀ v, (s.eval scope (.letIn bindings body span)).1 = .ok v ↔
      (s.eval scope (.letIn bindings' body span)).1 = .ok v) ∧
    (s.eval scope (.letIn bindings body span)).2 = s ∧
    (s.eval scope (.letIn bindings' body span)).2 = s := by
  have hplain' := Expr.isPlain_letIn_of_perm hplain hperm
  have hnodup' : (bindings'.map fun b => b.1.val).Nodup := (hperm.map _).nodup_iff.1 hnodup
  refine ⟨fun v => ⟨?_, ?_⟩, eval_leaves hr _ scope hplain, eval_leaves hr _ scope hplain'⟩
  · exact eval_letIn_of_perm hr hplain hnodup hperm s.levelsLeft scope
  · exact eval_letIn_of_perm hr hplain' hnodup' hperm.symm s.levelsLeft scope

/-- In `let x = f(y), y = x in x & y` the bindings mention names that are bound outside, and `f`
calls itself. The `y` of the body is the `x` outside, wherever its binding stands. -/
theorem binding_order_irrelevant_swap :
    let var (name : String) : Expr := .var ⟨name, ⟨0, 1⟩⟩
    let call (arg : Expr) : Expr := .call ⟨"f", ⟨0, 1⟩⟩ [arg] ⟨0, 4⟩
    let again : Function := .declared "f" ["x"] (.conditional (var "x")
      (call (.literal (.boolean false) ⟨2, 7⟩)) (.literal (.boolean true) ⟨2, 6⟩) ⟨0, 9⟩)
    let s : Evaluator := { registry := Registry.builtins.add again }
    let scope : Scope := .ofList [("x", .boolean false), ("y", .boolean true)]
    let first : Name × Expr := (⟨"x", ⟨4, 5⟩⟩, call (var "y"))
    let second : Name × Expr := (⟨"y", ⟨14, 15⟩⟩, var "x")
    let body : Expr := .binary (var "x") .and (var "y") ⟨0, 5⟩
    (s.eval scope (.letIn [first, second] body ⟨0, 29⟩)).1 = .ok (.boolean false) ∧
      (s.eval scope (.letIn [second, first] body ⟨0, 29⟩)).1 = .ok (.boolean false) ∧
      (s.eval scope (.letIn [second, first] body ⟨0, 29⟩)).2 = s := by
  intro var call again s scope first second body
  have hr : s.registry.Plain := Registry.plain_builtins.add_declared rfl
  have hvalue : (s.eval scope (.letIn [first, second] body ⟨0, 29⟩)).1 = .ok (.boolean false) := by
    decide +kernel
  have hplain : (Expr.letIn [first, second] body ⟨0, 29⟩).isPlain := rfl
  have hnodup : ([first, second].map fun b => b.1.val).Nodup := by decide
  have hswap : [first, second].Perm [second, first] := .swap second first []
  obtain ⟨hvalues, -, hleaves⟩ := binding_order_irrelevant s hr scope hplain hnodup hswap
  exact ⟨hvalue, (hvalues _).1 hvalue, hleaves⟩

end ExprLang

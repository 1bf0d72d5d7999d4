import ExprLang.Proofs.Evaluation.Ceilings
import ExprLang.Proofs.Session.Results

/-!
# The host of a line

Where a line is evaluated decides how many calls may be active at once, and nothing else. A host has
no part in which functions a session has (`Session.registry_interpretAll`), and a statement that is
not cut off on the stack of the caller has the outcome that it has on a thread
(`outcomes_caller`). So two runs of a line may end in different ways only if their hosts differ
and one of its statements meets the lower limit.
-/

namespace ExprLang

theorem Host.ceiling_caller_le (maxDepth : Nat) :
    Host.caller.ceiling maxDepth ≤ Host.thread.ceiling maxDepth :=
  Nat.min_le_left maxDepth inlineMaxDepth

section

variable {m m' : Nat} {r : Registry}

/-- A statement that is not cut off below a limit on calls does the same below a higher one. -/
theorem evalStatement_of_le (hm : m ≤ m') {entry : Option Expr}
    (hcut : ¬ CutOff m (evalStatement m r entry).1) :
    evalStatement m' r entry = evalStatement m r entry := by
  cases entry with
  | none => rfl
  | some e =>
    obtain ⟨hresult, hregistry⟩ := eval_fresh_of_le hm hcut
    exact Prod.ext hresult hregistry

/-- The limit on calls has no part in which functions statements leave. -/
theorem evalStatements_registry_eq (m m' : Nat) (hr : r.Plain) {program : Program}
    (hprogram : ∀ entry ∈ program, IsEntry entry) :
    (evalStatements m r program).2 = (evalStatements m' r program).2 := by
  rw [(evalStatements_registry m hr hprogram).1, (evalStatements_registry m' hr hprogram).1]

end

namespace Session

/-- Sessions that interpreted the same lines have the same functions. -/
theorem registry_interpretAll (maxDepth : Nat) (lines : List String) (hosts hosts' : Nat → Host) :
    ((new maxDepth).interpretAll lines hosts).2.registry =
      ((new maxDepth).interpretAll lines hosts').2.registry := by
  have hplain : (new maxDepth).registry.Plain := Registry.plain_builtins
  rw [(interpretAll_registry hplain lines hosts).1, (interpretAll_registry hplain lines hosts').1]

end Session

/-- **What the host of a line decides.** A statement has the same outcome on both hosts unless it is
cut off on the stack of the caller, where at most eight calls may be active. The functions
afterwards are the same in any case. -/
theorem outcomes_caller (maxDepth : Nat) (lines : List String) (hosts : Nat → Host)
    (line : String) :
    let s := ((Session.new maxDepth).interpretAll lines hosts).2
    (s.interpret line .caller).2.registry = (s.interpret line .thread).2.registry ∧
      ∀ (i : Nat) (o : Outcome), (s.outcomes line .caller)[i]? = some o →
        ¬ CutOff (min s.maxDepth 8) o → (s.outcomes line .thread)[i]? = some o := by
  intro s
  have hplain : s.registry.Plain := Session.plain_interpretAll maxDepth lines hosts
  refine ⟨evalStatements_registry_eq _ _ hplain isEntry_of_mem_statements, fun i o ho hcut => ?_⟩
  obtain ⟨hi, -⟩ := List.getElem?_eq_some_iff.1 ho
  rw [Session.outcomes, length_evalStatements] at hi
  have hentry := List.getElem?_eq_getElem hi
  have hbefore := evalStatements_registry_eq (Host.thread.ceiling s.maxDepth)
    (Host.caller.ceiling s.maxDepth) hplain
    fun e (he : e ∈ (parseProgram line).statements.take i) =>
      isEntry_of_mem_statements e (List.mem_of_mem_take he)
  have hcaller : (s.outcomes line .caller)[i]? = _ := getElem?_evalStatements hentry
  have hthread : (s.outcomes line .thread)[i]? = _ := getElem?_evalStatements hentry
  obtain rfl := Option.some.inj (hcaller.symm.trans ho)
  rw [hthread, hbefore, evalStatement_of_le (Host.ceiling_caller_le s.maxDepth) hcut]

/-- A function that only calls itself, in a session that allows for a thousand calls. -/
example :
    let i := (Session.new.interpret "function f(x) => f(x); f(true)" .caller).1
    i.errors.map Located.val = [.runtime (.recursionLimitExceeded 8)] := by decide +kernel

end ExprLang

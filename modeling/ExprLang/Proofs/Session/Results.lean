import ExprLang.Proofs.Evaluation.Strict
import ExprLang.Proofs.Session.History

/-!
# No silent nothing

A statement has nothing to show only if it was given up by the reader, if its evaluation ended with
an error, or if it is a declaration (`evalStatement_nothing_iff`). This is so in every session,
since the bodies of its functions are plain.
-/

namespace ExprLang

section

variable {maxDepth : Nat} {r : Registry} {program : Program} {entry : Option Expr}

/-- A statement of a program is evaluated with the functions that the statements before it left. -/
theorem getElem?_evalStatements {i : Nat} (h : program[i]? = some entry) :
    (evalStatements maxDepth r program).1[i]? = some
      (evalStatement maxDepth (evalStatements maxDepth r (program.take i)).2 entry).1 := by
  induction program generalizing r i with
  | nil => cases h
  | cons e program ih =>
    cases i with
    | zero =>
      obtain rfl := Option.some.inj h
      rfl
    | succ i => exact ih h

theorem length_evalStatements (maxDepth : Nat) (r : Registry) (program : Program) :
    (evalStatements maxDepth r program).1.length = program.length := by
  induction program generalizing r with
  | nil => rfl
  | cons e program ih => exact congrArg (· + 1) (ih _)

theorem Outcome.result_of_settled {P : Name → Prop} {o : Outcome}
    (h : Settled P (· ≠ .nothing) o) : o.result = .nothing ↔ ∃ x, o = .error x := by
  cases o with
  | ok v => exact ⟨fun hv => absurd hv h, nofun⟩
  | error x => exact ⟨fun _ => ⟨x, rfl⟩, fun _ => rfl⟩

/-- **When a statement has nothing to show.** -/
theorem evalStatement_nothing_iff (hr : r.Plain) (hentry : IsEntry entry) :
    (evalStatement maxDepth r entry).1.result = .nothing ↔
      entry = none ∨ (∃ x, (evalStatement maxDepth r entry).1 = .error x) ∨
        (declared? entry).isSome := by
  cases entry with
  | none => exact ⟨fun _ => Or.inl rfl, fun _ => rfl⟩
  | some e =>
    cases hdeclared : declared? (some e) with
    | none =>
      have hsettled := (evalStatement_settled maxDepth hr (hentry e rfl) hdeclared).2
      rw [Outcome.result_of_settled hsettled]
      simp
    | some f =>
      refine ⟨fun _ => Or.inr (Or.inr rfl), fun _ => ?_⟩
      obtain ⟨hold, hnew⟩ := evalStatement_declaration maxDepth r hdeclared
      by_cases hf : f.signature ∈ r.signatures
      · obtain ⟨span, hspan⟩ := hold hf
        rw [hspan]
        rfl
      · rw [hnew hf]
        rfl

end

/-! ### Errors -/

/-- Whether reading finds the cause; evaluation finds the others. -/
def Cause.isOfReading : Cause → Bool
  | .lexical _ | .syntactic _ => true
  | .semantic _ | .runtime _ => false

theorem isOfReading_of_mem_allErrors {p : Parsed} {x : Error} (hx : x ∈ p.allErrors) :
    x.val.isOfReading := by
  rw [Parsed.allErrors, List.mem_mergeSort, List.mem_append, List.mem_map, List.mem_map] at hx
  rcases hx with ⟨e, -, rfl⟩ | ⟨e, -, rfl⟩ <;> rfl

theorem Raised.not_isOfReading {P : Name → Prop} {x : Error} (h : Raised P x) :
    x.val.isOfReading = false := by
  obtain ⟨c, span⟩ := x
  cases c with
  | lexical | syntactic => exact h.elim
  | semantic | runtime => rfl

/-- The error of a statement is one of evaluation. A variable that it finds undeclared is free in
the statement, or in the body of a function and no parameter there. -/
theorem evalStatement_raised {maxDepth : Nat} {r : Registry} {entry : Option Expr} {x : Error}
    (hr : r.Plain) (hentry : IsEntry entry) (hx : (evalStatement maxDepth r entry).1 = .error x) :
    Raised (fun name => (∃ e, entry = some e ∧ name ∈ e.free) ∨ r.Leaks name) x := by
  cases hdeclared : declared? entry with
  | some f =>
    obtain ⟨hold, hnew⟩ := evalStatement_declaration maxDepth r hdeclared
    by_cases hf : f.signature ∈ r.signatures
    · obtain ⟨span, hspan⟩ := hold hf
      rw [hspan] at hx
      cases hx
      trivial
    · rw [hnew hf] at hx
      cases hx
  | none =>
    cases entry with
    | none => cases hx
    | some e =>
      have hsettled := (evalStatement_settled maxDepth hr (hentry e rfl) hdeclared).2
      rw [hx] at hsettled
      exact Raised.mono hsettled fun name hname => hname.imp_left fun h => ⟨e, rfl, h.1⟩

theorem isSome_declared?_iff {entry : Option Expr} : (declared? entry).isSome ↔
    ∃ name params body span, entry = some (.declaration name params body span) := by
  unfold declared?
  split
  · next name params body span => simp
  · next h => simpa using fun name params body span => h name params body span

/-- What came of the statements of a line, on a host. -/
def Session.outcomes (s : Session) (line : String) (host : Host) : List Outcome :=
  (evalStatements (host.ceiling s.maxDepth) s.registry (parseProgram line).statements).1

/-- An error of evaluation is that of a statement, with the functions that the statements before it
left. -/
theorem Session.exists_of_mem_outcomes {s : Session} (hs : s.registry.Plain) {line : String}
    {host : Host} {x : Error} (hx : x ∈ (s.outcomes line host).filterMap Outcome.error?) :
    ∃ before entry after, (parseProgram line).statements = before ++ entry :: after ∧
      IsEntry entry ∧ (evalStatements (host.ceiling s.maxDepth) s.registry before).2 =
        (before.filterMap declared?).foldl Registry.add s.registry ∧
      (evalStatements (host.ceiling s.maxDepth) s.registry before).2.Plain ∧
      (evalStatement (host.ceiling s.maxDepth)
        (evalStatements (host.ceiling s.maxDepth) s.registry before).2 entry).1 = .error x := by
  obtain ⟨o, ho, hx⟩ := List.mem_filterMap.1 hx
  obtain ⟨before, entry, after, hline, ho⟩ := exists_of_mem_evalStatements _ ho
  obtain ⟨hentry, hregistry, hplain⟩ := evalStatements_before (host.ceiling s.maxDepth) hs hline
  refine ⟨before, entry, after, hline, hentry, hregistry, hplain, ?_⟩
  cases o with
  | ok => cases hx
  | error => rw [ho, Option.some.inj hx]

/-- **No silent nothing.** Every statement of a line has one result, and it is nothing if and only
if the statement was given up by the reader, its evaluation reported an error, or it is a
declaration. And no evaluation ever uses a fallback: an operator whose check passed has a value, a
built-in function has one argument, and a declared function has as many arguments as parameters. -/
theorem results_nothing_iff (maxDepth : Nat) (lines : List String) (hosts : Nat → Host)
    (line : String) (host : Host) :
    let s := ((Session.new maxDepth).interpretAll lines hosts).2
    (s.interpret line host).1.results = (s.outcomes line host).map Outcome.result ∧
      (s.interpret line host).1.errors =
        (parseProgram line).allErrors ++ (s.outcomes line host).filterMap Outcome.error? ∧
      (s.outcomes line host).length = (parseProgram line).statements.length ∧
      (∀ (i : Nat) (entry : Option Expr), (parseProgram line).statements[i]? = some entry →
        ∃ o : Outcome, (s.outcomes line host)[i]? = some o ∧
          (o.result = .nothing ↔ entry = none ∨ (∃ x, o.error? = some x) ∨
            ∃ name params body span, entry = some (.declaration name params body span))) ∧
      ∀ stuck : Eval Value, evalStrict stuck = eval := by
  intro s
  refine ⟨rfl, rfl, length_evalStatements _ _ _, fun i entry hentry => ?_, evalStrict_eq⟩
  refine ⟨_, getElem?_evalStatements hentry, ?_⟩
  have hplain : s.registry.Plain := Session.plain_interpretAll maxDepth lines hosts
  have hbefore := (evalStatements_registry (host.ceiling s.maxDepth) hplain
    fun e (he : e ∈ (parseProgram line).statements.take i) =>
      isEntry_of_mem_statements e (List.mem_of_mem_take he)).2
  have hstatement := isEntry_of_mem_statements entry (List.mem_of_getElem? hentry)
  rw [evalStatement_nothing_iff hbefore hstatement, isSome_declared?_iff]
  generalize (evalStatement _ _ entry).1 = o
  cases o <;> simp [Outcome.error?]

end ExprLang

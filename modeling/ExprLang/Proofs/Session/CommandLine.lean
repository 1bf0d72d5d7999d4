import ExprLang.CommandLine
import ExprLang.Proofs.Session.Joined

/-!
# The command line and the session

There are three ways to the errors of a line: the list of its tokens, the list of its statements,
and its interpretation in a session.

* The errors of reading are those with which an interpretation begins, and the lexical ones among
  them are those of the tokens, in the same order (`filter_isLexical_allErrors`).
* An interpretation of several lines is that of each line in the session that the lines before it
  left (`Session.getElem?_interpretAll`). What `Transcript` says of a number of errors is about all
  of them (`Command.errorCount_run_eval`).

`front_ends_agree` says what the commands answer in these terms.
-/

namespace ExprLang

/-! ### Errors of reading -/

/-- Whether a cause is a flaw of a token. -/
def Cause.isLexical : Cause → Bool
  | .lexical _ => true
  | .syntactic _ | .semantic _ | .runtime _ => false

theorem mem_allErrors {line : String} {x : Error} : x ∈ (parseProgram line).allErrors ↔
    x ∈ (tokenize line).2.map Error.ofLexical ∨
      x ∈ (parseProgram line).errors.map Error.ofSyntactic := by
  rw [allErrors_eq, mem_sortedBy, List.mem_append]

/-- **The lexical errors among the errors of reading** are those of the tokens, in the same order:
both are in the strict order of their places. -/
theorem filter_isLexical_allErrors (line : String) :
    (parseProgram line).allErrors.filter (·.val.isLexical) =
      (tokenize line).2.map Error.ofLexical := by
  let before (x y : Error) : Prop := x.span.start < y.span.start
  have hirrefl : Std.Irrefl before := ⟨fun x => Nat.lt_irrefl _⟩
  have hfilter : ((parseProgram line).allErrors.filter (·.val.isLexical)).Pairwise before :=
    (allErrors_pairwise line).filter _
  have htokens : ((tokenize line).2.map Error.ofLexical).Pairwise before :=
    List.pairwise_map.2 (lexErrors_pairwise line)
  refine hfilter.eq_of_mem_iff htokens fun x => ?_
  rw [List.mem_filter, mem_allErrors]
  constructor
  · rintro ⟨hx | hx, hlexical⟩
    · exact hx
    · obtain ⟨e, -, rfl⟩ := List.mem_map.1 hx
      cases hlexical
  · intro hx
    obtain ⟨e, -, rfl⟩ := List.mem_map.1 hx
    exact ⟨Or.inl hx, rfl⟩

/-! ### Several lines -/

namespace Session

theorem length_interpretAll (s : Session) (lines : List String) (hosts : Nat → Host) :
    (s.interpretAll lines hosts).1.length = lines.length := by
  induction lines generalizing s hosts with
  | nil => rfl
  | cons line lines ih => exact congrArg (· + 1) (ih _ _)

/-- A line is interpreted in the session that the lines before it left. -/
theorem getElem?_interpretAll (s : Session) (lines : List String) (hosts : Nat → Host) (k : Nat) :
    (s.interpretAll lines hosts).1[k]? = lines[k]?.map fun line =>
      ((s.interpretAll (lines.take k) hosts).2.interpret line (hosts k)).1 := by
  induction lines generalizing s hosts k with
  | nil => rfl
  | cons line lines ih =>
    cases k with
    | zero => rfl
    | succ k => exact ih (s.interpret line (hosts 0)).2 (fun n => hosts (n + 1)) k

end Session

namespace Transcript

variable (t : Transcript)

theorem exitCode_eq_zero_iff (written : Bool) : t.exitCode written = 0 ↔ t.errorCount = 0 := by
  unfold exitCode
  split
  · next h => simp [h]
  · next h => cases written <;> simp [h]

/-- Without colours, the line that counts the errors is this text. -/
theorem writeAll_failedLine (count : Nat) : Piece.writeAll false (failedLine count) =
    "     Failed " ++ toString count ++ " diagnostic(s) reported\n" := by
  have hpieces : Piece.writeAll false (failedLine count) =
      "     Failed" ++ (" " ++ toString count ++ " diagnostic(s) reported\n") := by
    simp [Piece.writeAll, failedLine, Piece.write, String.join]
  have hword : "     Failed " = "     Failed" ++ " " := by decide
  rw [hpieces, hword, String.append_assoc, String.append_assoc, String.append_assoc]

theorem exitCode_eq_zero_or_one : t.exitCode = 0 ∨ t.exitCode = 1 := by
  unfold exitCode
  split
  · exact Or.inl rfl
  · exact Or.inr rfl

end Transcript

namespace Command

variable (lines : List String) (maxDepth : Nat) (hosts : Nat → Host)

/-- Lines and interpretations go together. -/
theorem reports_run_eval : ((eval lines maxDepth).run hosts).reports =
    (lines.zip ((Session.new maxDepth).interpretAll lines hosts).1).map fun p =>
      (p.1, p.2.errors) := by
  rw [run, List.zip_map_right]
  rfl

/-- The errors that are counted are those of all lines. -/
theorem errorCount_run_eval : ((eval lines maxDepth).run hosts).errorCount =
    ((((Session.new maxDepth).interpretAll lines hosts).1).map (·.errors.length)).sum := by
  have hlength := Session.length_interpretAll (Session.new maxDepth) lines hosts
  have hzip : ((eval lines maxDepth).run hosts).reports.map Prod.snd =
      ((Session.new maxDepth).interpretAll lines hosts).1.map (·.errors) :=
    List.map_snd_zip (by simp [hlength])
  rw [Transcript.errorCount, List.flatMap_def, hzip, List.length_flatten, List.map_map]
  rfl

theorem stdout_run_eval : ((eval lines maxDepth).run hosts).stdout =
    String.join (((Session.new maxDepth).interpretAll lines hosts).1.flatMap fun i =>
      (i.results.filter fun v => !v.isNothing).map fun v => v.text ++ "\n") := by
  rw [Transcript.stdout, run, List.map_flatMap]
  simp only [shownResults, List.map_map]
  rfl

theorem stderr_run_eval (colour : Bool) : ((eval lines maxDepth).run hosts).stderr colour =
    String.join ((lines.zip ((Session.new maxDepth).interpretAll lines hosts).1).flatMap fun p =>
      p.2.errors.map fun x => Diagnostic.pretty x p.1 colour) ++
    if ((eval lines maxDepth).run hosts).exitCode = 0 then "" else
      Piece.writeAll colour
        (Transcript.failedLine ((eval lines maxDepth).run hosts).errorCount) := by
  rw [Transcript.stderr]
  simp only [Transcript.exitCode_eq_zero_iff, reports_run_eval, List.flatMap_map]

end Command

/-- **What the commands answer.** The errors of `parse` are those of reading with which every
interpretation of the line begins, in any session, and the errors of `lex` are the lexical ones
among them. And `eval` interprets its lines one after the other in one session: it writes the values
that are not nothing, shows every error against its own line, and exits with zero if and only if
there is none; otherwise it ends with the number of all errors and exits with one, as far as they
can be written. -/
theorem front_ends_agree (maxDepth : Nat) (lines : List String) (hosts : Nat → Host) :
    let s := ((Session.new maxDepth).interpretAll lines hosts).2
    (∀ (line : String) (host : Host), ∃ early late : List Error,
      (s.interpret line host).1.errors = early ++ late ∧
        (∀ x ∈ early, x.val.isOfReading = true) ∧ (∀ x ∈ late, x.val.isOfReading = false) ∧
        (∀ outlines, (Command.parse line outlines).run.reports = [(line, early)]) ∧
        (Command.lex line).run.reports = [(line, early.filter (·.val.isLexical))]) ∧
    ∃ is : List Interpretation, is.length = lines.length ∧
      (∀ (k : Nat) (line : String), lines[k]? = some line → is[k]? = some
        (((Session.new maxDepth).interpretAll (lines.take k) hosts).2.interpret line
          (hosts k)).1) ∧
      let t := (Command.eval lines maxDepth).run hosts
      let count := (is.map (·.errors.length)).sum
      t.stdout = String.join (is.flatMap fun i =>
          (i.results.filter fun v => !v.isNothing).map fun v => v.text ++ "\n") ∧
        (∀ written, t.exitCode written = 0 ↔ ∀ i ∈ is, i.errors = []) ∧
        (t.exitCode = 0 ∨ t.exitCode = 1) ∧
        (∀ colour, t.stderr colour =
          String.join ((lines.zip is).flatMap fun p =>
            p.2.errors.map fun x => Diagnostic.pretty x p.1 colour) ++
          if t.exitCode = 0 then "" else Piece.writeAll colour (Transcript.failedLine count)) ∧
        Piece.writeAll false (Transcript.failedLine count) =
          "     Failed " ++ toString count ++ " diagnostic(s) reported\n" := by
  refine ⟨fun line host => ?_, ((Session.new maxDepth).interpretAll lines hosts).1,
    Session.length_interpretAll _ _ _, fun k line hline => ?_, ?_⟩
  · have hplain := Session.plain_interpretAll maxDepth lines hosts
    refine ⟨(parseProgram line).allErrors, _, Session.errors_interpret _ line host,
      fun x hx => isOfReading_of_mem_allErrors hx,
      fun x hx => Session.isOfReading_of_mem_outcomes hplain hx, fun outlines => rfl, ?_⟩
    rw [filter_isLexical_allErrors]
    rfl
  · rw [Session.getElem?_interpretAll, hline]
    rfl
  · intro t count
    have hcount : t.errorCount = count := Command.errorCount_run_eval lines maxDepth hosts
    refine ⟨Command.stdout_run_eval lines maxDepth hosts, fun written => ?_,
      t.exitCode_eq_zero_or_one, fun colour => ?_, Transcript.writeAll_failedLine count⟩
    · rw [t.exitCode_eq_zero_iff, hcount, List.sum_eq_zero_iff, List.forall_mem_map]
      simp only [List.length_eq_zero_iff]
    · rw [← hcount]
      exact Command.stderr_run_eval lines maxDepth hosts colour

/-- A value, an undeclared variable, and on the next line a string without an end. -/
example : let t := (Command.eval ["true; x", "\"a"] 1000).run
    t.stdout = "true\n" ∧ t.exitCode = 1 ∧
      Piece.writeAll false (Transcript.failedLine t.errorCount) =
        "     Failed 2 diagnostic(s) reported\n" := by decide +kernel

end ExprLang

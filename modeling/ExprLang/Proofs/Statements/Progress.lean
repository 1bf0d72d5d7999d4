import ExprLang.Proofs.Statements.Unbounded

/-!
# Reading gets on

What reading an expression does to a parser, whatever the tokens are (`Progress`): it goes forward
within the statement, records at most one error, and either an error is known behind it or it read a
token. So every round of a loop begins further on than the one before it, and reading ends even if
nothing bounds it (`reading_progresses`). This is said of all parsers that the single steps of
reading make of the start of a line (`Reachable`).
-/

namespace ExprLang.Parser

variable {line : String} {p q : Parser}

/-! ### Parsers of a line -/

/-- The parsers that single steps of reading make of the start of a line. -/
inductive Reachable (line : String) : Parser → Prop
  | start : Reachable line (ofLine line)
  | tail {p : Parser} (hp : Reachable line p) : Reachable line p.tail
  | report {p : Parser} (hp : Reachable line p) (e : SyntaxError) (span : Span) :
      Reachable line (report e span p).2
  | atStatementEnd {p : Parser} (hp : Reachable line p) : Reachable line p.atStatementEnd
  | calm {p : Parser} (hp : Reachable line p) : Reachable line { p with recovering := false }
  | nextStatement {p : Parser} (hp : Reachable line p) (start : Nat) :
      Reachable line { p with statementStart := start }

namespace Reachable

theorem closed (h : Reachable line p) : p.Closed := by
  induction h with
  | start => exact closed_ofLine line
  | tail _ ih => exact ⟨ih.last, fun t ht => ih.ahead t (List.mem_of_mem_tail ht)⟩
  | report _ e span ih =>
    rw [report_apply]
    split <;> exact ⟨ih.last, ih.ahead⟩
  | atStatementEnd _ ih =>
    exact ⟨ih.last, fun t ht => ih.ahead t ((List.dropWhile_suffix _).subset ht)⟩
  | calm _ ih => exact ⟨ih.last, ih.ahead⟩
  | nextStatement _ start ih => exact ⟨ih.last, ih.ahead⟩

theorem skip (h : Reachable line p) (count : Nat) : Reachable line (p.skip count) := by
  induction count generalizing p with
  | zero => exact h
  | succ count ih =>
    have htail : p.skip (count + 1) = p.tail.skip count := by
      simp [Parser.skip, Parser.tail]
    rw [htail]
    exact ih h.tail

/-- Whatever goes forward within a statement is made of single steps. -/
theorem leads (h : Reachable line p) (hleads : Leads p q) : Reachable line q := by
  obtain ⟨hlast, hlex, hsize, hstart, ⟨ts, hts, -⟩, herrors⟩ := hleads
  have hskip := h.skip ts.length
  have hahead : p.ahead.drop ts.length = q.ahead := by simp [hts]
  rcases herrors with ⟨herr, hrec⟩ | ⟨hcalm, hrec, t, -, e, herr⟩
  · have hq : q = p.skip ts.length := by
      cases q
      simp_all [Parser.skip]
    exact hq ▸ hskip
  · have hq : q = (Parser.report e t.span (p.skip ts.length)).2 := by
      have hlex' : (p.skip ts.length).lexErrorUpTo t.span.start = p.lexErrorUpTo t.span.start := rfl
      have hcalm' : (p.skip ts.length).recovering = false := hcalm
      rw [report_apply, hcalm', hlex', Bool.false_or]
      cases q
      split <;> simp_all [Parser.skip]
    exact hq ▸ hskip.report e t.span

theorem passSemicolon (h : Reachable line p) : Reachable line (passSemicolon p).2 := by
  rw [passSemicolon_apply]
  split
  · exact h.tail.nextStatement _
  · exact h

theorem resume (h : Reachable line p) : Reachable line p.resume := by
  unfold Parser.resume
  split
  · exact h.atStatementEnd
  · exact h

theorem expression (h : Reachable line p) (n : Nat) (parent : Precedence) :
    Reachable line (expression n parent p).2 :=
  h.leads (yields_expression n parent p h.closed.last).1

theorem statement (h : Reachable line p) : Reachable line (statement p).2 := by
  rw [statement_apply]
  have hleads := (yields_wholeStatement { p with recovering := false } h.closed.last).1
  exact (h.calm.leads hleads).resume.passSemicolon

end Reachable

/-! ### One expression -/

/-- What reading an expression does to a parser. -/
structure Progress (p q : Parser) : Prop where
  /-- The tokens that were read belong to the statement. -/
  ahead : ∃ ts, p.ahead = ts ++ q.ahead ∧
    ∀ t ∈ ts, t.kind ≠ .symbol .semicolon ∧ t.kind ≠ .endOfInput
  frame : q.last = p.last ∧ q.lexErrors = p.lexErrors ∧ q.size = p.size ∧
    q.statementStart = p.statementStart
  recovering : p.recovering = true → q.recovering = true
  errors : q.errors = p.errors ∨ ∃ e, q.errors = p.errors.push e
  /-- After an error nothing is read. -/
  still : p.recovering = true → q = p
  /-- Without an error there is one now, or a token was read. -/
  advances : p.recovering = false → q.recovering = true ∨ q.ahead.length < p.ahead.length

theorem expression_of_recovering (n : Nat) (parent : Precedence) (h : p.recovering = true) :
    (expression n parent p).2 = p := by
  cases n <;>
  · unfold expression
    rw [get_bind_apply, if_pos h]
    rfl

/-- **Reading an expression** gets on. -/
theorem progress_expression (n : Nat) (parent : Precedence) (hlast : p.last.kind = .endOfInput) :
    Progress p (expression n parent p).2 := by
  obtain ⟨hleads, hread⟩ := yields_expression n parent p hlast
  refine ⟨?_, ⟨hleads.last, hleads.lexErrors, hleads.size, hleads.statementStart⟩,
    hleads.recovering_of, ?_, expression_of_recovering n parent, fun _ => ?_⟩
  · obtain ⟨ts, hts, hin⟩ := hleads.ahead
    exact ⟨ts, hts, fun t ht => inStatement_iff.1 (hin t ht)⟩
  · rcases hleads.errors with ⟨herr, -⟩ | ⟨-, -, t, -, e, herr⟩
    · exact Or.inl herr
    · rw [herr]
      split
      · exact Or.inl rfl
      · exact Or.inr ⟨_, rfl⟩
  · cases hrec : (expression n parent p).2.recovering with
    | true => exact Or.inl rfl
    | false =>
      obtain ⟨ts, hmoves, he⟩ := hread hrec
      have hlength := congrArg List.length hmoves.ahead
      have hpos := List.length_pos_iff.2 he.written.ne_nil
      rw [List.length_append] at hlength
      exact Or.inr (by omega)

/-! ### Rounds -/

/-- A round of a loop over items with commas between them: an item, and behind it the end of the
loop or the next round, which begins further on. -/
def CommaRound {α : Type} (item : Routines → Unbounded α) (loop : Routines → Unbounded (List α))
    (p : Parser) (depth : Nat) : Prop :=
  ∃ a q, Ends item ⟨p, depth⟩ a ⟨q, depth⟩ ∧
    if q.recovering || q.current.kind != .symbol .comma then Ends loop ⟨p, depth⟩ [a] ⟨q, depth⟩
    else
      q.tail.ahead.length < p.ahead.length ∧
        ∀ more s, Ends loop ⟨q.tail, depth⟩ more s → Ends loop ⟨p, depth⟩ (a :: more) s

/-- A round of the loop over operators: if an operator is next that binds tighter than `parent`, its
right operand is read, and the next round begins behind it, further on. -/
def OperatorRound (parent : Precedence) (p : Parser) (depth : Nat) : Prop :=
  ∀ left op, p.recovering = false → p.current.kind.binaryOp? = some op → parent < op.precedence →
    ∃ right q, Ends (·.expression op.precedence) ⟨p.tail, depth⟩ right ⟨q, depth⟩ ∧
      q.ahead.length < p.ahead.length ∧
      ∀ e s, Ends (·.operators parent (.binary left op right (left.span.union right.span)))
          ⟨q, depth⟩ e s → Ends (·.operators parent left) ⟨p, depth⟩ e s

theorem CommaRound.of_follows {α : Type} {u : Routines → Unbounded α}
    {loop : Routines → Unbounded (List α)} {item : Parse α} [MovesOn item] {depth : Nat}
    (hitem : ∀ p, Follows u item p depth) (hloop : CommaLoop u loop)
    (hlast : p.last.kind = .endOfInput) : CommaRound u loop p depth := by
  refine ⟨(item p).1, (item p).2, hitem p hlast, ?_⟩
  split
  · next hstop => exact ends_comma_stop hitem hloop hlast hstop
  · next hcomma =>
    exact ⟨length_tail_lt_of_comma hlast hcomma,
      fun more s => ends_comma_more hitem hloop hlast hcomma⟩

theorem OperatorRound.of_last (parent : Precedence) (hlast : p.last.kind = .endOfInput)
    (depth : Nat) :
    OperatorRound parent p depth := by
  intro left op hclean hop habove
  have hnot : ¬ op.precedence ≤ parent := Nat.not_le_of_lt habove
  have hright := follows_expression (maxNesting - depth) depth rfl op.precedence p.tail hlast
  refine ⟨_, _, hright, length_lt_of_op hlast hop, fun e s hrest => ?_⟩
  refine (Ends.of_get (Ends.of_neg (by simp [hclean]) ?_)).of_round
  dsimp only
  rw [hop]
  exact Ends.of_neg hnot ((ends_once advance).bind (hright.bind hrest))

/-- **Reading gets on and ends.** Wherever the reader is in a line, and however deeply nested: an
expression is read to its end, with what `Progress` says, and every round of a loop over bindings,
arguments or operators that follows another one begins further on. Every statement ends further on
than it begins, so the statements of a line are read in at most as many rounds as there are
tokens. -/
theorem reading_progresses (line : String) :
    (∀ p, Reachable line p → ∀ depth,
      (∀ parent, ∃ e q, Ends (·.expression parent) ⟨p, depth⟩ e ⟨q, depth⟩ ∧
        expression (maxNesting - depth) parent p = (e, q) ∧ Progress p q ∧ Reachable line q) ∧
      CommaRound Routines.binding Routines.bindings p depth ∧
      CommaRound (Routines.expression · .lowest) Routines.args p depth ∧
      ∀ parent, OperatorRound parent p depth) ∧
    (∀ p, Reachable line p → p.ahead ≠ [] → ∃ entry q,
      Ends Routines.statement ⟨p, 0⟩ entry ⟨q, 0⟩ ∧ Reachable line q ∧
        q.ahead.length < p.ahead.length ∧
        ∀ program s, Ends (·.statements) ⟨q, 0⟩ program s →
          Ends (·.statements) ⟨p, 0⟩ (entry :: program) s) ∧
    ∃ q, Ends (·.statements) ⟨ofLine line, 0⟩ (parseProgram line).statements ⟨q, 0⟩ ∧
      q.ahead = [] ∧ (parseProgram line).errors = q.errors.toList ∧
      (parseProgram line).statements.length ≤ (ofLine line).ahead.length := by
  refine ⟨fun p hp depth => ?_, fun p hp hne => ?_, ?_⟩
  · have hlast := hp.closed.last
    have hsub := follows_expression (maxNesting - depth) depth rfl
    refine ⟨fun parent => ?_, ?_, ?_, fun parent => OperatorRound.of_last parent hlast depth⟩
    · exact ⟨_, _, hsub parent p hlast, rfl, progress_expression _ parent hlast,
        hp.expression _ parent⟩
    · exact CommaRound.of_follows (follows_binding hsub) (fun _ => rfl) hlast
    · exact CommaRound.of_follows (hsub .lowest) (fun _ => rfl) hlast
  · obtain ⟨-, hlt, -⟩ := statement_rest hp.closed hne
    exact ⟨_, _, follows_statement p hp.closed.last, hp.statement, hlt,
      fun program s => ends_statements_cons hp.closed hne⟩
  · obtain ⟨hends, hnil, hlength⟩ := statements_ends (ofLine line).size (closed_ofLine line)
      (ofLine line).ahead_le
    exact ⟨_, hends, hnil, rfl, hlength⟩

end ExprLang.Parser

import ExprLang.Proofs.Parsing.Unbounded
import ExprLang.Proofs.Statements.Account

/-!
# Reading statements without bounds

The routines of statements end as well, and answer what the bounded ones answer: skipping to the end
of a statement reads a token in every round, and so does the loop over the statements of a line
(`statements_ends`).
-/

namespace ExprLang.Parser

instance : MovesOn skipStatement :=
  ⟨fun _ => ⟨rfl, (List.dropWhile_suffix _).length_le, fun h => ⟨h, rfl⟩⟩⟩

instance : MovesOn passSemicolon := by
  have hstart (start : Nat) : MovesOn (modify fun p => { p with statementStart := start }) :=
    ⟨fun _ => ⟨rfl, Nat.le_refl _, fun h => ⟨h, rfl⟩⟩⟩
  unfold passSemicolon
  infer_instance

instance : MovesOn declaration := by
  unfold declaration
  infer_instance

instance : MovesOn statementExpr := by
  unfold statementExpr
  infer_instance

variable {p : Parser} {depth : Nat}

/-! ### One statement -/

theorem follows_params (p : Parser) : Follows Routines.params params p depth :=
  follows_get_bind (follows_ite
    (fun _ => follows_commaSeparated (fun _ => follows_once) (fun _ => rfl) p)
    fun _ => follows_pure [])

theorem follows_declaration (p : Parser) : Follows Routines.declaration declaration p 0 := by
  refine follows_once_bind fun _ q _ => ?_
  refine follows_once_bind fun _ q _ => ?_
  refine follows_once_bind fun _ q _ => ?_
  refine (follows_params q).bind fun _ q _ => ?_
  refine follows_once_bind fun _ q _ => ?_
  refine follows_once_bind fun _ q _ => ?_
  exact (follows_expression maxNesting 0 rfl .lowest q).bind fun _ q _ => follows_pure _

theorem follows_statementExpr (p : Parser) : Follows Routines.statementExpr statementExpr p 0 :=
  follows_get_bind (follows_ite (fun _ => follows_declaration p)
    fun _ => follows_expression maxNesting 0 rfl .lowest p)

theorem atStatementEnd_of_ends (h : endsStatement p.current.kind) : p.atStatementEnd = p := by
  have hahead : p.ahead.dropWhile (fun t => !endsStatement t.kind) = p.ahead :=
    (pending_of_endsStatement h).2
  cases p
  simp only [atStatementEnd, mk.injEq, and_true]
  exact hahead

theorem atStatementEnd_tail (hlast : p.last.kind = .endOfInput)
    (h : ¬ endsStatement p.current.kind) : p.tail.atStatementEnd = p.atStatementEnd := by
  have hin : inStatement p.current := by simpa [inStatement] using h
  have hahead : p.ahead.tail.dropWhile inStatement = p.ahead.dropWhile inStatement := by
    rw [ahead_eq_cons hlast hin, List.dropWhile_cons_of_pos hin]
    rfl
  simp only [atStatementEnd, tail, mk.injEq, and_true]
  exact hahead

/-- Skipping to the end of a statement, token by token. -/
theorem skipStatement_apply (hlast : p.last.kind = .endOfInput) :
    skipStatement p = (get >>= fun p : Parser =>
      if endsStatement p.current.kind then pure () else advance >>= fun _ => skipStatement) p := by
  rw [get_bind_apply]
  split
  · next hends => exact congrArg (Prod.mk ()) (atStatementEnd_of_ends hends)
  · next hends => exact congrArg (Prod.mk ()) (atStatementEnd_tail hlast hends).symm

theorem follows_skipStatement (p : Parser) : Follows (·.skipStatement) skipStatement p depth := by
  induction hlength : p.ahead.length using Nat.strong_induction_on generalizing p with
  | _ k ih =>
    intro hlast
    refine Follows.of_round (Follows.congr ?_ skipStatement_apply) hlast
    refine follows_get_bind (follows_ite (fun _ => follows_pure ()) fun hends => ?_)
    refine follows_once_bind fun _ q hq => ?_
    cases hq
    have hlt : p.tail.ahead.length < p.ahead.length :=
      length_tail_lt hlast fun hkind => hends (by rw [hkind]; rfl)
    exact ih _ (hlength ▸ hlt) p.tail rfl

/-- **A statement** is read as if the levels of nesting were known. -/
theorem follows_statement (p : Parser) : Follows Routines.statement statement p 0 := by
  unfold statement
  dsimp only
  rw [statementExpr_bind]
  -- this step clears the mark of an error, which no step that only goes on does
  refine follows_once.bind_of_last rfl fun _ q _ => ?_
  refine (follows_statementExpr q).bind fun e q _ => ?_
  refine follows_once_bind fun _ q _ => follows_get_bind (follows_ite (fun _ => ?_) fun _ => ?_)
  · refine (follows_skipStatement q).bind fun _ q _ => follows_get_bind ?_
    exact follows_once_bind fun _ q _ => follows_pure _
  · exact follows_get_bind (follows_once_bind fun _ q _ => follows_pure _)

/-! ### The statements of a line -/

theorem ends_statements_nil (hp : p.Closed) (hnil : p.ahead = []) :
    Ends (·.statements) ⟨p, 0⟩ [] ⟨p, 0⟩ := by
  have hcurrent : p.current.kind = .endOfInput := by simpa [current, hnil] using hp.last
  exact (Ends.of_get (Ends.of_pos hcurrent ends_pure)).of_round

/-- One more round of the loop over statements. -/
theorem ends_statements_cons {program : Program} {s : Descent} (hp : p.Closed) (hne : p.ahead ≠ [])
    (hrest : Ends (·.statements) ⟨(statement p).2, 0⟩ program s) :
    Ends (·.statements) ⟨p, 0⟩ ((statement p).1 :: program) s := by
  have hcurrent : p.current.kind ≠ .endOfInput := by
    obtain ⟨t, ts, hahead⟩ := List.exists_cons_of_ne_nil hne
    have ht : t ∈ p.ahead := by simp [hahead]
    simpa [current, hahead] using hp.ahead t ht
  refine (Ends.of_get (Ends.of_neg hcurrent ?_)).of_round
  exact (follows_statement p hp.last).bind (hrest.bind ends_pure)

/-- **The loop over statements** ends with the tokens, after at most as many rounds. -/
theorem statements_ends (rounds : Nat) (hp : p.Closed) (hrounds : p.ahead.length ≤ rounds) :
    Ends (·.statements) ⟨p, 0⟩ (statements rounds p).1 ⟨(statements rounds p).2, 0⟩ ∧
      (statements rounds p).2.ahead = [] ∧ (statements rounds p).1.length ≤ p.ahead.length := by
  induction rounds generalizing p with
  | zero =>
    have hnil := List.length_eq_zero_iff.1 (Nat.le_zero.1 hrounds)
    exact ⟨ends_statements_nil hp hnil, hnil, Nat.zero_le _⟩
  | succ rounds ih =>
    by_cases hnil : p.ahead = []
    · rw [statements_nil _ hnil]
      exact ⟨ends_statements_nil hp hnil, hnil, Nat.zero_le _⟩
    · obtain ⟨hclosed, hlt, -⟩ := statement_rest hp hnil
      obtain ⟨hrest, hend, hlength⟩ := ih hclosed (by omega)
      rw [statements_succ rounds hnil, List.length_cons]
      exact ⟨ends_statements_cons hp hnil hrest, hend, by omega⟩

end ExprLang.Parser

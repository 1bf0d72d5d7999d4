import ExprLang.Proofs.Grammar.Completeness
import ExprLang.Proofs.Statements.Slots

/-!
# One statement for each slot

`statement` reads one slot, whatever is in it: it stops behind the terminator of the slot, it keeps
the expression only if the slot is a statement of the grammar, and it records at most one error,
which stands in the slot. `Account` puts the slots of a line side by side with what is read of them,
and the statements of the whole line are such an account.
-/

namespace ExprLang

/-- The tokens of a slot do not end it. -/
theorem inStatement_of_mem_slotsFrom {start : Nat} {held ts : List Token} {s : Slot}
    (hheld : ∀ t ∈ held, Parser.inStatement t) (hs : s ∈ slotsFrom start held ts) :
    ∀ t ∈ s.tokens, Parser.inStatement t := by
  induction ts generalizing start held with
  | nil => cases hs
  | cons t ts ih =>
    unfold slotsFrom at hs
    split_ifs at hs with hsemicolon hend hempty
    · rcases List.mem_cons.1 hs with rfl | hs
      · exact hheld
      · exact ih (fun t ht => by cases ht) hs
    · cases hs
    · rw [List.mem_singleton.1 hs]
      exact hheld
    · refine ih (fun u hu => ?_) hs
      rcases List.mem_append.1 hu with hu | hu
      · exact hheld u hu
      · rw [List.mem_singleton.1 hu]
        exact Parser.inStatement_iff.2 ⟨hsemicolon, hend⟩

theorem inStatement_of_mem_slots {line : String} {s : Slot} (hs : s ∈ slots line) :
    ∀ t ∈ s.tokens, Parser.inStatement t :=
  inStatement_of_mem_slotsFrom (fun t ht => by cases ht) hs

namespace Parser

variable {p q : Parser}

/-! ### The tokens of a line -/

/-- The end of input stands behind the tokens, and nowhere else. -/
structure Closed (p : Parser) : Prop where
  last : p.last.kind = .endOfInput
  ahead : ∀ t ∈ p.ahead, t.kind ≠ .endOfInput

theorem significantTokens_eq (line : String) : significantTokens line =
    (tokensAt 0 (lexemes line.toList)).filter (fun t => !t.kind.isTrivia) ++
      [.placeholder .endOfInput line.utf8ByteSize] := by
  rw [significantTokens, tokenize_eq, List.filter_append]
  rfl

theorem ofLine_ahead (line : String) : (ofLine line).ahead =
    (tokensAt 0 (lexemes line.toList)).filter fun t => !t.kind.isTrivia := by
  show (significantTokens line).dropLast = _
  rw [significantTokens_eq, List.dropLast_concat]

theorem ofLine_last (line : String) :
    (ofLine line).last = .placeholder .endOfInput line.utf8ByteSize := by
  show (significantTokens line).getLastD _ = _
  rw [significantTokens_eq, List.getLastD_concat]

theorem closed_ofLine (line : String) : (ofLine line).Closed where
  last := by rw [ofLine_last]; rfl
  ahead := by
    intro t ht
    rw [ofLine_ahead] at ht
    exact kind_ne_endOfInput_of_mem_lexemes (toLexeme_mem_of_mem_tokensAt (List.mem_filter.1 ht).1)

theorem slots_eq (line : String) :
    slots line = slotsFrom 0 [] ((ofLine line).ahead ++ [(ofLine line).last]) := by
  rw [slots, significantTokens_eq, ofLine_ahead, ofLine_last]

/-- The first slot of tokens reaches to the first one that ends a statement. -/
theorem slotsFrom_append {last : Token} (hlast : last.kind = .endOfInput) {ts : List Token}
    (hts : ∀ t ∈ ts, t.kind ≠ .endOfInput) (start : Nat) (held : List Token)
    (hne : held ++ ts ≠ []) :
    slotsFrom start held (ts ++ [last]) =
      ⟨start, held ++ ts.takeWhile inStatement, (ts.dropWhile inStatement).headD last⟩ ::
        slotsFrom ((ts.dropWhile inStatement).headD last).span.stop []
          ((ts.dropWhile inStatement).tail ++ [last]) := by
  induction ts generalizing held with
  | nil =>
    rw [List.append_nil] at hne
    simp [slotsFrom, hlast, hne]
  | cons t ts ih =>
    have ht := hts t List.mem_cons_self
    by_cases hsemicolon : t.kind = .symbol .semicolon
    · simp [slotsFrom, hsemicolon, inStatement, endsStatement]
    · have hin : inStatement t = true := inStatement_iff.2 ⟨hsemicolon, ht⟩
      have hrest := ih (fun s hs => hts s (List.mem_cons_of_mem t hs)) (held ++ [t]) (by simp)
      simp [slotsFrom, hsemicolon, ht, hin, hrest]

theorem slotsFrom_ahead (hp : p.Closed) (hne : p.ahead ≠ []) (start : Nat) :
    slotsFrom start [] (p.ahead ++ [p.last]) = ⟨start, p.pending, p.endToken⟩ ::
      slotsFrom p.endToken.span.stop [] ((p.ahead.dropWhile inStatement).tail ++ [p.last]) :=
  slotsFrom_append hp.last hp.ahead start [] hne

/-! ### One statement -/

/-- A statement up to its terminator. -/
def wholeStatement : Parse Expr := do
  let e ← statementExpr
  terminator
  return e

/-- The parser at the token that ends the statement, if there was an error. -/
def resume (p : Parser) : Parser := if p.recovering then p.atStatementEnd else p

theorem statementExpr_bind {α : Type} (f : Expr → Parse α) :
    (get >>= fun p => if p.current.kind = .keyword .functionWord then declaration >>= f
      else expression maxNesting .lowest >>= f) = statementExpr >>= f := by
  funext p
  unfold statementExpr
  rw [bind_apply _ f, get_bind_apply, get_bind_apply]
  split <;> rfl

theorem resume_bind {α : Type} (m : Parse α) :
    (get >>= fun p => if p.recovering then skipStatement >>= fun _ => m else m) =
      fun p => m p.resume := by
  funext p
  unfold resume
  rw [get_bind_apply]
  split <;> rfl

theorem statement_apply (p : Parser) :
    statement p =
      (let e := (wholeStatement { p with recovering := false }).1
      let q := (wholeStatement { p with recovering := false }).2.resume
      (if q.recovering || q.lexErrorBefore q.current.span.start then none else some e,
        (passSemicolon q).2)) := by
  unfold statement
  dsimp only
  rw [statementExpr_bind]
  simp only [resume_bind]
  rfl

theorem passSemicolon_apply (p : Parser) : (passSemicolon p).2 =
    if p.current.kind = .symbol .semicolon then
      { p.tail with statementStart := p.current.span.stop } else p := by
  unfold passSemicolon
  rw [get_bind_apply]
  split <;> rfl

theorem resume_frame (p : Parser) : p.resume.errors = p.errors ∧
    p.resume.recovering = p.recovering ∧ p.resume.statementStart = p.statementStart ∧
    p.resume.last = p.last ∧ p.resume.lexErrors = p.lexErrors := by
  unfold resume
  split <;> exact ⟨rfl, rfl, rfl, rfl, rfl⟩

theorem passSemicolon_frame (p : Parser) : (passSemicolon p).2.errors = p.errors ∧
    (passSemicolon p).2.last = p.last ∧ (passSemicolon p).2.lexErrors = p.lexErrors := by
  rw [passSemicolon_apply]
  split <;> exact ⟨rfl, rfl, rfl⟩

theorem yields_wholeStatement (p : Parser) : Yields wholeStatement p fun ts e q =>
    StatementOf e ts ∧ endsStatement q.current.kind := by
  refine (yields_statementExpr p).bind fun e q _ _ => ?_
  have hterminator : Yields terminator q fun ts _ r =>
      ts = [] ∧ r = q ∧ endsStatement q.current.kind := by
    unfold terminator
    refine yields_get_bind ?_
    dsimp only
    split
    · next hends => exact yields_pure ⟨rfl, rfl, hends⟩
    · exact yields_report _ q.current_mem_places
  refine hterminator.bind fun _ r _ _ => yields_pure ?_
  rintro _ - ⟨rfl, rfl, hends⟩ ts - he
  simpa using ⟨he, hends⟩

theorem terminator_of_ends (h : endsStatement p.current.kind) : terminator p = ((), p) := by
  unfold terminator
  rw [get_bind_apply, if_pos h]
  rfl

theorem wholeStatement_eq {e : Expr} {ts : List Token} (h : StatementOf e ts)
    (hmoves : Moves p ts q) (hrec : q.recovering = false) (hends : endsStatement q.current.kind) :
    wholeStatement p = (e, q) := by
  unfold wholeStatement
  rw [bind_of_eq (statementExpr_eq h hmoves hrec hends), bind_of_eq (terminator_of_ends hends)]
  rfl

/-! ### The end of a statement -/

theorem headD_dropWhile_ends (hp : p.last.kind = .endOfInput) : endsStatement p.endToken.kind := by
  unfold endToken
  cases hrest : p.ahead.dropWhile inStatement with
  | nil => simp [hp, endsStatement]
  | cons t ts =>
    have hnot := List.head?_dropWhile_not inStatement p.ahead
    rw [hrest] at hnot
    simpa [inStatement] using hnot

theorem pending_of_endsStatement (h : endsStatement p.current.kind) :
    p.pending = [] ∧ p.ahead.dropWhile inStatement = p.ahead := by
  unfold pending
  unfold current at h
  cases hahead : p.ahead with
  | nil => exact ⟨rfl, rfl⟩
  | cons t ts =>
    rw [hahead] at h
    have hin : inStatement t = false := by
      rw [inStatement, show endsStatement t.kind = true from h]
      rfl
    simp [hin]

/-- The parser behind its statement, before the semicolon. -/
theorem resume_ahead (hleads : Leads p q)
    (hends : q.recovering = false → endsStatement q.current.kind) :
    q.resume.ahead = p.ahead.dropWhile inStatement := by
  rw [← hleads.dropWhile_eq]
  unfold resume
  cases hrec : q.recovering with
  | true => rfl
  | false => exact (pending_of_endsStatement (hends hrec)).2.symm

theorem passSemicolon_ahead (hp : p.Closed) (hq : q.ahead = p.ahead.dropWhile inStatement)
    (hlast : q.last = p.last) : (passSemicolon q).2.ahead = q.ahead.tail ∧
      ((passSemicolon q).2.ahead ≠ [] →
        (passSemicolon q).2.statementStart = p.endToken.span.stop) := by
  have hcurrent : q.current = p.endToken := by
    rw [current, endToken, hq, hlast]
  rw [passSemicolon_apply]
  split
  · exact ⟨rfl, fun _ => congrArg (fun t => t.span.stop) hcurrent⟩
  · next hkind =>
    have hnil : q.ahead = [] := by
      cases hahead : q.ahead with
      | nil => rfl
      | cons t ts =>
        have hmem : t ∈ p.ahead := by
          refine (List.dropWhile_sublist inStatement).subset ?_
          rw [← hq, hahead]
          exact List.mem_cons_self
        have hends := headD_dropWhile_ends hp.last
        rw [← hcurrent] at hends
        unfold current at hends hkind
        rw [hahead] at hends hkind
        unfold endsStatement at hends
        split at hends
        · next h => exact absurd h hkind
        · next h => exact absurd h (hp.ahead t hmem)
        · cases hends
    rw [hnil]
    exact ⟨rfl, fun h => absurd rfl h⟩

end Parser

/-! ### What is read of a slot -/

/-- What is read of a slot: the expression that is kept and the errors that are recorded. A slot
that is a statement is kept unless a lexical error begins in it. Any other slot has an error at one
of its places, which is recorded unless a lexical error of the slot begins at that place or before
it. -/
inductive Slot.Reads (lexErrors : List (Located LexicalError)) (s : Slot) :
    Option Expr → List (Located SyntaxError) → Prop
  | kept {e : Expr} (he : Parser.StatementOf e s.tokens)
      (hlex : ¬ ∃ x ∈ lexErrors, s.Covers x.span.start) : Reads lexErrors s (some e) []
  | dropped {e : Expr} (he : Parser.StatementOf e s.tokens)
      (hlex : ∃ x ∈ lexErrors, s.Covers x.span.start) : Reads lexErrors s none []
  | silenced {t : Token} (hno : ∀ e, ¬ Parser.StatementOf e s.tokens) (ht : t ∈ s.places)
      (hlex : ∃ x ∈ lexErrors, s.start ≤ x.span.start ∧ x.span.start ≤ t.span.start) :
      Reads lexErrors s none []
  | reported {t : Token} (e : SyntaxError) (hno : ∀ e, ¬ Parser.StatementOf e s.tokens)
      (ht : t ∈ s.places)
      (hlex : ¬ ∃ x ∈ lexErrors, s.start ≤ x.span.start ∧ x.span.start ≤ t.span.start) :
      Reads lexErrors s none [⟨e, t.span⟩]

namespace Parser

variable {p q : Parser}

/-- The slot that is read next. -/
def slot (p : Parser) : Slot := ⟨p.statementStart, p.pending, p.endToken⟩

theorem lexErrorUpTo_iff {offset : Nat} : p.lexErrorUpTo offset = true ↔
    ∃ x ∈ p.lexErrors, p.statementStart ≤ x.span.start ∧ x.span.start ≤ offset := by
  simp [lexErrorUpTo]

theorem lexErrorBefore_iff {offset : Nat} : p.lexErrorBefore offset = true ↔
    ∃ x ∈ p.lexErrors, p.statementStart ≤ x.span.start ∧ x.span.start < offset := by
  simp [lexErrorBefore]

/-- Without an error the tokens that were passed are those of the slot. -/
theorem pending_eq_of_moves {ts : List Token} (hleads : Leads p q) (hmoves : Moves p ts q)
    (hends : endsStatement q.current.kind) : p.pending = ts := by
  obtain ⟨us, hus, hin⟩ := hleads.ahead
  obtain rfl := List.append_cancel_right (hus.symm.trans hmoves.ahead)
  have hpending := (pending_of_endsStatement hends).1
  unfold pending at hpending ⊢
  rw [hus, List.takeWhile_append_of_pos hin, hpending, List.append_nil]

/-- An error is known only if the slot is no statement. -/
theorem not_statementOf_of_recovering (hp : p.last.kind = .endOfInput)
    (hrec : p.recovering = false) (h : (wholeStatement p).2.recovering = true) (e : Expr) :
    ¬ StatementOf e p.pending := by
  intro he
  have hahead : p.ahead = p.pending ++ p.ahead.dropWhile inStatement :=
    List.takeWhile_append_dropWhile.symm
  have hmoves := Moves.of_ahead hahead
  have hcurrent : (p.skip p.pending.length).current = p.endToken := by
    rw [current, endToken, ← List.append_cancel_left (hahead.symm.trans hmoves.ahead)]
    rfl
  have hends := headD_dropWhile_ends hp
  rw [← hcurrent] at hends
  rw [wholeStatement_eq he hmoves hrec hends] at h
  exact Bool.false_ne_true (hrec.symm.trans h)

/-- What reading the statement, up to its terminator, makes of the slot. -/
theorem wholeStatement_reads (hp : p.last.kind = .endOfInput) (hrec : p.recovering = false) :
    ∃ errs, p.slot.Reads p.lexErrors
        (if (wholeStatement p).2.recovering || p.lexErrorBefore p.endToken.span.start then none
          else some (wholeStatement p).1) errs ∧
      (wholeStatement p).2.errors.toList = p.errors.toList ++ errs := by
  obtain ⟨hleads, hclean⟩ := yields_wholeStatement p hp
  cases hq : (wholeStatement p).2.recovering with
  | false =>
    obtain ⟨ts, hmoves, he, hends⟩ := hclean hq
    rw [← pending_eq_of_moves hleads hmoves hends] at he
    have herrors : (wholeStatement p).2.errors = p.errors := by
      rcases hleads.errors with ⟨herr, -⟩ | ⟨-, hrec', -⟩
      · exact herr
      · rw [hq] at hrec'
        cases hrec'
    refine ⟨[], ?_, by rw [herrors, List.append_nil]⟩
    rw [Bool.false_or]
    by_cases hlex : p.lexErrorBefore p.endToken.span.start
    · rw [if_pos hlex]
      exact .dropped he (lexErrorBefore_iff.1 hlex)
    · rw [if_neg hlex]
      exact .kept he fun h => hlex (lexErrorBefore_iff.2 h)
  | true =>
    have hno := not_statementOf_of_recovering hp hrec hq
    rw [Bool.true_or, if_pos rfl]
    rcases hleads.errors with ⟨-, hrec'⟩ | ⟨-, -, t, ht, e, herr⟩
    · rw [hq, hrec] at hrec'
      cases hrec'
    · rw [herr]
      by_cases hlex : p.lexErrorUpTo t.span.start
      · refine ⟨[], .silenced hno ht (lexErrorUpTo_iff.1 hlex), ?_⟩
        rw [if_pos hlex, List.append_nil]
      · refine ⟨[⟨e, t.span⟩], .reported e hno ht (fun h => hlex (lexErrorUpTo_iff.2 h)), ?_⟩
        rw [if_neg hlex, Array.toList_push]

/-- What one statement comes to, and the parser behind it. -/
theorem statement_eq (hp : p.Closed) :
    (statement p).1 =
        (if (wholeStatement { p with recovering := false }).2.recovering ||
            p.lexErrorBefore p.endToken.span.start then none
          else some (wholeStatement { p with recovering := false }).1) ∧
      (statement p).2.errors = (wholeStatement { p with recovering := false }).2.errors ∧
      (statement p).2.ahead = (p.ahead.dropWhile inStatement).tail ∧
      ((statement p).2.ahead ≠ [] → (statement p).2.statementStart = p.endToken.span.stop) ∧
      (statement p).2.last = p.last ∧ (statement p).2.lexErrors = p.lexErrors := by
  obtain ⟨hleads, hclean⟩ := yields_wholeStatement { p with recovering := false } hp.last
  rw [statement_apply]
  generalize wholeStatement { p with recovering := false } = r at *
  obtain ⟨e, q⟩ := r
  dsimp only at hleads hclean ⊢
  have hends : q.recovering = false → endsStatement q.current.kind := fun hrec => by
    obtain ⟨ts, -, -, hends⟩ := hclean hrec
    exact hends
  have hahead := resume_ahead hleads hends
  obtain ⟨herrors, hrec, hstart, hlast, hlex⟩ := resume_frame q
  obtain ⟨hpasserrors, hpasslast, hpasslex⟩ := passSemicolon_frame q.resume
  obtain ⟨hpassahead, hpassstart⟩ := passSemicolon_ahead hp hahead (hlast.trans hleads.last)
  have hcurrent : q.resume.current = p.endToken := by
    rw [current, endToken, hahead, hlast, hleads.last]
  have hbefore : q.resume.lexErrorBefore q.resume.current.span.start =
      p.lexErrorBefore p.endToken.span.start := by
    rw [hcurrent, lexErrorBefore, lexErrorBefore, hlex, hstart, hleads.lexErrors,
      hleads.statementStart]
  rw [hpassahead, hahead] at hpassstart
  rw [hpasserrors, hpassahead, hahead, hpasslast, hpasslex, herrors, hlast, hlex, hrec, hbefore]
  exact ⟨rfl, rfl, rfl, hpassstart, hleads.last, hleads.lexErrors⟩

/-- **Reading one statement**: its slot is used up, and nothing else. -/
theorem statement_reads (hp : p.Closed) :
    ∃ errs, p.slot.Reads p.lexErrors (statement p).1 errs ∧
      (statement p).2.errors.toList = p.errors.toList ++ errs := by
  obtain ⟨hentry, herrors, -⟩ := statement_eq hp
  rw [hentry, herrors]
  exact wholeStatement_reads (p := { p with recovering := false }) hp.last rfl

end Parser

/-! ### All statements -/

/-- What is read of slots, one after the other. -/
inductive Account (lexErrors : List (Located LexicalError)) :
    List Slot → Program → List (Located SyntaxError) → Prop
  | nil : Account lexErrors [] [] []
  | cons {s : Slot} {slots : List Slot} {entry : Option Expr} {program : Program}
      {errs more : List (Located SyntaxError)} (hs : s.Reads lexErrors entry errs)
      (hslots : Account lexErrors slots program more) :
      Account lexErrors (s :: slots) (entry :: program) (errs ++ more)

namespace Parser

variable {p : Parser}

theorem slotsFrom_last {last : Token} (hlast : last.kind = .endOfInput) (start : Nat) :
    slotsFrom start [] [last] = [] := by
  simp [slotsFrom, hlast]

theorem statements_nil (rounds : Nat) (h : p.ahead = []) : statements rounds p = ([], p) := by
  cases rounds with
  | zero => rfl
  | succ rounds =>
    unfold statements
    rw [get_bind_apply, if_pos (List.isEmpty_iff.2 h)]
    rfl

theorem statements_succ (rounds : Nat) (h : p.ahead ≠ []) : statements (rounds + 1) p =
    ((statement p).1 :: (statements rounds (statement p).2).1,
      (statements rounds (statement p).2).2) := by
  rw [statements, get_bind_apply, if_neg (mt List.isEmpty_iff.1 h)]
  rfl

/-- Behind a statement there are the other slots. -/
theorem statement_rest (hp : p.Closed) (hne : p.ahead ≠ []) :
    (statement p).2.Closed ∧ (statement p).2.ahead.length < p.ahead.length ∧
      slotsFrom p.statementStart [] (p.ahead ++ [p.last]) = p.slot ::
        slotsFrom (statement p).2.statementStart []
          ((statement p).2.ahead ++ [(statement p).2.last]) := by
  obtain ⟨-, -, hahead, hstart, hlast, -⟩ := statement_eq hp
  generalize (statement p).2 = q at *
  have hsub : q.ahead.Sublist p.ahead := by
    rw [hahead]
    exact (List.tail_sublist _).trans (List.dropWhile_sublist _)
  refine ⟨⟨hlast ▸ hp.last, fun t ht => hp.ahead t (hsub.subset ht)⟩, ?_, ?_⟩
  · have hle := (List.dropWhile_sublist inStatement (l := p.ahead)).length_le
    have hpos := List.length_pos_iff.2 hne
    rw [hahead, List.length_tail]
    omega
  · rw [slotsFrom_ahead hp hne, ← hahead, hlast]
    -- the beginning of the next slot is known only if there is one
    by_cases hq : q.ahead = []
    · rw [hq, List.nil_append, slotsFrom_last hp.last, slotsFrom_last hp.last]
      rfl
    · rw [hstart hq]
      rfl

/-- **Reading the statements that are left** accounts for the slots that are left. -/
theorem statements_account (rounds : Nat) (hp : p.Closed) (hrounds : p.ahead.length ≤ rounds) :
    ∃ errs, Account p.lexErrors (slotsFrom p.statementStart [] (p.ahead ++ [p.last]))
        (statements rounds p).1 errs ∧
      (statements rounds p).2.errors.toList = p.errors.toList ++ errs ∧
      (statements rounds p).2.lexErrors = p.lexErrors := by
  induction rounds generalizing p with
  | zero =>
    have hnil := List.length_eq_zero_iff.1 (Nat.le_zero.1 hrounds)
    rw [hnil, List.nil_append, slotsFrom_last hp.last]
    exact ⟨[], .nil, (List.append_nil _).symm, rfl⟩
  | succ rounds ih =>
    by_cases hnil : p.ahead = []
    · rw [statements_nil _ hnil, hnil, List.nil_append, slotsFrom_last hp.last]
      exact ⟨[], .nil, (List.append_nil _).symm, rfl⟩
    · obtain ⟨errs, hreads, herrs⟩ := statement_reads hp
      obtain ⟨-, -, -, -, -, hlex⟩ := statement_eq hp
      obtain ⟨hclosed, hlength, hslots⟩ := statement_rest hp hnil
      obtain ⟨more, haccount, hmore, hmorelex⟩ := ih hclosed (by omega)
      rw [statements_succ _ hnil, hslots]
      rw [hlex] at haccount hmorelex
      refine ⟨errs ++ more, .cons hreads haccount, ?_, hmorelex⟩
      rw [← List.append_assoc, ← herrs]
      exact hmore

end Parser

/-- **A line is read slot by slot.** -/
theorem account_parseProgram (line : String) :
    Account (tokenize line).2 (slots line) (parseProgram line).statements
        (parseProgram line).errors ∧
      (parseProgram line).lexErrors = (tokenize line).2 := by
  obtain ⟨errs, haccount, herrs, hlex⟩ := Parser.statements_account (p := .ofLine line)
    (Parser.ofLine line).size (Parser.closed_ofLine line) (Parser.ofLine line).ahead_le
  rw [show errs = (parseProgram line).errors from herrs.symm] at haccount
  rw [Parser.slots_eq]
  exact ⟨haccount, hlex⟩

end ExprLang

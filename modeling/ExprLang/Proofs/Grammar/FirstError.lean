import ExprLang.Proofs.Grammar.Completeness
import ExprLang.Proofs.Grammar.Prompt

/-!
# The first error of a statement

Every routine of the reader, from operands to a whole statement, stops at the first impossible token
of its phrase. The routines of expressions rely on the one for expressions one level deeper
(`hsub`), as they are given it.
-/

namespace ExprLang.Parser

/-- What a specification says of the tokens that were passed. -/
theorem Yields.of_moves {α : Type} {m : Parse α} {Q : List Token → α → Parser → Prop} {a : α}
    {p q : Parser} {ts : List Token} (h : Yields m p Q) (hlast : p.last.kind = .endOfInput)
    (hm : m p = (a, q)) (hmoves : Moves p ts q) (hclean : q.recovering = false) : Q ts a q := by
  obtain ⟨us, hmoves', hQ⟩ := (h hlast).2 (by rwa [hm])
  rw [hm] at hmoves' hQ
  obtain rfl := List.append_cancel_right (hmoves'.ahead.symm.trans hmoves.ahead)
  exact hQ

/-! ### Terms -/

/-- The arguments of a call. -/
def callArgs (sub : Precedence → Parse Expr) : Parse (List Expr) := do
  if (← get).current.kind = .symbol .rightParen then pure []
  else commaSeparated (sub .lowest)

/-- What follows the name of a call. -/
def callRest (sub : Precedence → Parse Expr) (name : Token) : Parse Expr := do
  let _ ← advance
  let args ← callArgs sub
  let close ← expectClosing .call
  return .call name.toName args (name.span.union close.span)

theorem call_apply (sub : Precedence → Parse Expr) (p : Parser) :
    call sub p = (advance >>= callRest sub) p := by
  unfold call callRest callArgs
  simp only [bind_apply, advance_apply, bind_assoc]
  split <;> rfl

/-- The terms without a name at their beginning, by the kind of the first token. -/
def termOf (kind : TokenKind) (sub : Precedence → Parse Expr) : Parse Expr :=
  match kind with
  | .symbol .leftParen => group sub
  | .keyword .ifWord => conditional sub
  | .keyword .letWord => letIn sub
  | .keyword .trueWord | .keyword .falseWord | .constant => do return valueExpr (← advance)
  | _ => do return valueExpr (← expect .literal)

theorem term_apply (sub : Precedence → Parse Expr) {p : Parser}
    (h : p.current.kind ≠ .identifier) : term sub p = termOf p.current.kind sub p := by
  unfold term
  rw [get_bind_apply]
  cases hkind : p.current.kind with
  | identifier => exact absurd hkind h
  | symbol s => cases s <;> rfl
  | keyword k => cases k <;> rfl
  | _ => rfl

theorem prompt_value {kind : TokenKind} {p : Parser} (hp : p.current.kind = kind)
    (hvalue : kind.isValue) (hkind : endsStatement kind = false) :
    Prompt (advance >>= fun t => pure (valueExpr t))
      (fun _ => advance >>= fun t => pure (valueExpr t)) p Phrase.operand := by
  refine ((prompt_advance hp hkind).seq fun t q _ => prompt_pure _).mono fun ts hts => ?_
  exact Phrase.operand_of_value hvalue (Phrase.of_sequence_singleton hts)

theorem prompt_literal (p : Parser) : Prompt (expect .literal >>= fun t => pure (valueExpr t))
    (fun _ => expect .literal >>= fun t => pure (valueExpr t)) p Phrase.operand := by
  refine ((prompt_expect .literal rfl p).seq fun t q _ => prompt_pure _).mono fun ts hts => ?_
  exact Phrase.operand_of_value rfl (Phrase.of_sequence_singleton hts)

/-! ### Operands -/

section

variable {sub : Precedence → Parse Expr} {sub' : Nat → Precedence → Parse Expr} {p : Parser}
  [∀ parent, MovesOn (sub parent)] [∀ k parent, MovesOn (sub' k parent)]
  (hsub : ∀ parent q, Prompt (sub parent) (fun k => sub' k parent) q (Phrase.expr parent))

include hsub

theorem prompt_group (hp : p.current.kind = .symbol .leftParen) :
    Prompt (group sub) (fun k => group (sub' k)) p Phrase.operand := by
  refine Prompt.mono ?_ fun _ => Phrase.operand_of_group
  refine (prompt_advance hp rfl).seq fun l q _ => ?_
  refine (hsub .lowest q).seq fun e q _ => ?_
  exact (prompt_expectClosing .grouping q).seq fun r q _ => prompt_pure _

theorem prompt_conditional (hp : p.current.kind = .keyword .ifWord) :
    Prompt (conditional sub) (fun k => conditional (sub' k)) p Phrase.operand := by
  refine Prompt.mono ?_ fun _ => Phrase.operand_of_conditional
  refine (prompt_advance hp rfl).seq fun i q _ => ?_
  refine (prompt_expect (.symbol .leftParen) rfl q).seq fun l q _ => ?_
  refine (hsub .lowest q).seq fun c q _ => ?_
  refine (prompt_expectClosing .condition q).seq fun r q _ => ?_
  refine (hsub .lowest q).seq fun d q _ => ?_
  refine (prompt_expect (.keyword .elseWord) rfl q).seq fun o q _ => ?_
  exact (hsub .lowest q).seq fun e q _ => prompt_pure _

theorem prompt_binding (p : Parser) :
    Prompt (binding sub) (fun k => binding (sub' k)) p fun ts => ∃ b n, ReadBinding n b ts := by
  refine Prompt.mono ?_ fun _ => Phrase.binding_of_sequence
  refine (prompt_expect .identifier rfl p).seq fun t q _ => ?_
  refine (prompt_expect (.symbol .equal) rfl q).seq fun o q _ => ?_
  exact (hsub .lowest q).seq fun e q _ => prompt_pure _

theorem prompt_letIn (hp : p.current.kind = .keyword .letWord) :
    Prompt (letIn sub) (fun k => letIn (sub' k)) p Phrase.operand := by
  refine Prompt.mono ?_ fun _ => Phrase.operand_of_letIn
  refine (prompt_advance hp rfl).seq fun t q _ => ?_
  refine (prompt_commaSeparated (prompt_binding hsub) q).seq fun bs q _ => ?_
  refine (prompt_bodyMarker q).seq fun _ q _ => ?_
  exact (hsub .lowest q).seq fun e q _ => prompt_pure _

instance : MovesOn (callArgs sub) := by
  unfold callArgs
  infer_instance

theorem prompt_callArgs (p : Parser) :
    Prompt (callArgs sub) (fun k => callArgs (sub' k)) p Phrase.args := by
  have harg : ∀ q, Prompt (sub .lowest) (fun k => sub' k .lowest) q fun ts =>
      ∃ e n, ReadArg n e ts := fun q => (hsub .lowest q).mono fun _ => Phrase.arg_of_expr
  exact prompt_ite (fun _ => (prompt_pure []).mono fun ts => Or.inl)
    fun _ => (prompt_commaSeparated harg p).mono fun ts => Or.inr

theorem prompt_callRest (name : Token) (hp : p.current.kind = .symbol .leftParen) :
    Prompt (callRest sub name) (fun k => callRest (sub' k) name) p
      (Phrase.sequence [Phrase.token (.symbol .leftParen), Phrase.args,
        Phrase.token (.symbol .rightParen)]) := by
  refine (prompt_advance hp rfl).seq fun l q _ => ?_
  refine (prompt_callArgs hsub q).seq fun as q _ => ?_
  exact (prompt_expectClosing .call q).seq fun r q _ => prompt_pure _

/-- A name is a call if there is a parenthesis behind it. -/
theorem prompt_name (hp : p.current.kind = .identifier) :
    Prompt (term sub) (fun k => term (sub' k)) p Phrase.operand := by
  have hin : inStatement p.current := inStatement_of_kind hp rfl
  by_cases hnext : p.tail.current.kind = .symbol .leftParen
  · have hcall : ∀ (sub : Precedence → Parse Expr) (p' : Parser), p'.current = p.current →
        p'.tail.current = p.tail.current → term sub p' = (advance >>= callRest sub) p' := by
      intro sub p' hcurrent htail
      unfold term
      rw [get_bind_apply, hcurrent, hp, ← tail_current, htail]
      dsimp only
      rw [if_pos hnext, call_apply]
    refine prompt_advance_bind hin (fun _ _ => hcall sub p rfl rfl)
      (fun k p' h htail _ _ => hcall (sub' k) p' h htail) ((prompt_callRest hsub _ hnext).mono ?_)
    intro vs hvs
    exact Phrase.operand_of_call ⟨_, vs, rfl, ⟨p.current, rfl, hp⟩, hvs⟩
  · have hvar : ∀ (sub : Precedence → Parse Expr) (p' : Parser), p'.current = p.current →
        p'.tail.current = p.tail.current →
        term sub p' = (advance >>= fun t => pure (.var t.toName)) p' := by
      intro sub p' hcurrent htail
      unfold term
      rw [get_bind_apply, hcurrent, hp, ← tail_current, htail]
      dsimp only
      rw [if_neg hnext]
    refine prompt_advance_bind hin (fun _ _ => hvar sub p rfl rfl)
      (fun k p' h htail _ _ => hvar (sub' k) p' h htail) ((prompt_pure _).mono ?_)
    rintro _ rfl
    exact Phrase.operand_of_name ⟨p.current, rfl, hp⟩

theorem prompt_term (p : Parser) :
    Prompt (term sub) (fun k => term (sub' k)) p Phrase.operand := by
  by_cases hname : p.current.kind = .identifier
  · exact prompt_name hsub hname
  · have hkind : Prompt (termOf p.current.kind sub) (fun k => termOf p.current.kind (sub' k)) p
        Phrase.operand := by
      unfold termOf
      split
      · next hp => exact prompt_group hsub hp
      · next hp => exact prompt_conditional hsub hp
      · next hp => exact prompt_letIn hsub hp
      · next hp => exact prompt_value hp rfl rfl
      · next hp => exact prompt_value hp rfl rfl
      · next hp => exact prompt_value hp rfl rfl
      · exact prompt_literal p
    refine hkind.congr (fun _ _ => term_apply sub hname) fun k p' hcurrent _ _ => ?_
    rw [← hcurrent] at hname ⊢
    exact term_apply (sub' k) hname

theorem prompt_operand (p : Parser) :
    Prompt (operand sub) (fun k => operand (sub' k)) p Phrase.operand := by
  cases hop : p.current.kind.unaryOp? with
  | none =>
    have hterm : ∀ (sub : Precedence → Parse Expr) (p' : Parser), p'.current = p.current →
        operand sub p' = term sub p' := by
      intro sub p' hcurrent
      unfold operand
      rw [get_bind_apply, hcurrent, hop]
    exact (prompt_term hsub p).congr (fun _ _ => hterm sub p rfl)
      fun k p' h _ _ => hterm (sub' k) p' h
  | some op =>
    have hunary : ∀ (sub : Precedence → Parse Expr) (p' : Parser), p'.current = p.current →
        operand sub p' = (advance >>= fun start => sub .unary >>= fun inner =>
          pure (.unary op inner (start.span.union inner.span))) p' := by
      intro sub p' hcurrent
      unfold operand
      rw [get_bind_apply, hcurrent, hop]
    have hkind := TokenKind.eq_of_unaryOp? hop
    refine Prompt.mono ?_ fun _ => Phrase.operand_of_unary op
    refine Prompt.congr ?_ (fun _ _ => hunary sub p rfl) fun k p' h _ _ => hunary (sub' k) p' h
    refine (prompt_advance hkind (by cases op <;> rfl)).seq fun t q _ => ?_
    exact (hsub .unary q).seq fun e q _ => prompt_pure _

/-! ### Operators -/

/-- The operators behind a left operand and their right operands. -/
theorem prompt_chain {n : Nat} {parent : Precedence}
    (hyields : ∀ parent q, Yields (sub parent) q (ReadExpr n parent)) {left : Expr}
    {ts : List Token} (hleft : ReadOperand n parent ts left p) :
    Prompt (chain sub parent left) (fun k => chain (sub' k) parent left) p fun vs =>
      Phrase.expr parent (ts ++ vs) := by
  -- an operator leaves fewer tokens ahead
  induction hlength : p.ahead.length using Nat.strong_induction_on generalizing p left ts with
  | _ length ih =>
    by_cases hgo : ∃ op, p.current.kind.binaryOp? = some op ∧ parent < op.precedence
    · obtain ⟨op, hop, habove⟩ := hgo
      have hkind := TokenKind.eq_of_binaryOp? hop
      obtain ⟨hopen, hroot⟩ := hleft.continues op hop
      refine Prompt.of_clean fun hlast _ => ?_
      have hlt := length_tail_lt hlast (kind_ne_of_binaryOp? hop)
      refine prompt_advance_bind (inStatement_of_kind hkind (by cases op <;> rfl))
        (fun hlast hclean => chain_of_op sub hlast hclean hop habove)
        (fun k p' hcurrent _ hlast hclean =>
          chain_of_op (sub' k) hlast hclean (hcurrent ▸ hop) habove)
        ((hsub op.precedence p.tail).bind (fun us hus => ?_) fun right r us hr hmoves _ => ?_)
      · exact Phrase.begins_of_mem (Phrase.expr_of_binary hleft.written hleft.canonical hopen hroot
          hkind habove hus)
      · refine Prompt.of_clean fun _ hclean => ?_
        have hright := (hyields op.precedence p.tail).of_moves hlast hr hmoves hclean
        have hle := congrArg List.length hmoves.ahead
        rw [List.length_append] at hle
        have hrest := ih r.ahead.length (by omega) (hleft.binary hop habove hkind hright) rfl
        refine hrest.mono fun vs hvs => ?_
        rwa [List.append_assoc, List.cons_append] at hvs
    · have hstop : ∀ op ∈ p.current.kind.binaryOp?, op.precedence ≤ parent := fun op hop =>
        Nat.le_of_not_lt fun h => hgo ⟨op, hop, h⟩
      refine ((prompt_pure left).congr (fun hlast _ => chain_of_stop sub hlast hstop)
        fun k p' hcurrent hlast _ => chain_of_stop (sub' k) hlast (hcurrent ▸ hstop)).mono ?_
      rintro _ rfl
      rw [List.append_nil]
      exact ⟨left, hleft.written, hleft.canonical, hleft.above⟩

end

/-! ### Expressions -/

/-- **An expression** is read up to its first impossible token. -/
theorem prompt_expression (n : Nat) (parent : Precedence) (p : Parser) :
    Prompt (expression n parent) (fun k => expression (k + n) parent) p (Phrase.expr parent) := by
  induction n generalizing parent p with
  | zero =>
    intro hlast hclean
    refine Or.inr ⟨[], p.current, .nestingTooDeep maxNesting, fails_report hlast hclean ?_
      (Or.inl ⟨maxNesting, rfl⟩)⟩
    unfold expression
    rw [get_bind_apply, hclean, if_neg Bool.false_ne_true]
    rfl
  | succ n ih =>
    have hchain : ∀ (n : Nat) (p' : Parser), p'.recovering = false →
        expression (n + 1) parent p' =
          (operand (expression n) >>= chain (expression n) parent) p' := by
      intro n p' hclean
      unfold expression
      rw [get_bind_apply, hclean, if_neg Bool.false_ne_true]
      rfl
    refine Prompt.congr ?_ (fun _ hclean => hchain n p hclean)
      fun k p' _ _ hclean => hchain (k + n) p' hclean
    refine (prompt_operand ih p).bind (fun ts hts => ?_) fun left q ts hq hmoves _ => ?_
    · exact Phrase.begins_of_mem (Phrase.expr_of_operand hts)
    · refine Prompt.of_clean fun hlast hclean => ?_
      have hyields : Yields (operand (expression n)) p (ReadOperand n parent) :=
        yields_operand (yields_expression n) p
      exact prompt_chain ih (yields_expression n)
        (hyields.of_moves (hmoves.last ▸ hlast) hq hmoves hclean)

/-! ### Statements -/

theorem prompt_params (p : Parser) : Prompt params (fun _ => params) p Phrase.params := by
  have hname : ∀ q, Prompt (expect .identifier >>= fun t => pure t.toName)
      (fun _ => expect .identifier >>= fun t => pure t.toName) q fun ts =>
        ∃ name, WrittenName name ts := by
    intro q
    refine ((prompt_expect .identifier rfl q).seq fun t q _ => prompt_pure _).mono fun ts hts => ?_
    obtain ⟨t, rfl, ht⟩ := Phrase.of_sequence_singleton hts
    exact ⟨t.toName, t, rfl, ht, rfl⟩
  refine prompt_ite (fun _ => ?_) fun _ => ?_
  · refine (prompt_commaSeparated hname p).mono ?_
    rintro ts ⟨names, hnames⟩
    exact ⟨names, Or.inr hnames⟩
  · refine (prompt_pure []).mono ?_
    rintro _ rfl
    exact ⟨[], Or.inl ⟨rfl, rfl⟩⟩

instance (n : Nat) : MovesOn (declarationWithin n) := by
  unfold declarationWithin
  infer_instance

theorem prompt_declarationWithin (n : Nat) {p : Parser}
    (hp : p.current.kind = .keyword .functionWord) :
    Prompt (declarationWithin n) (fun k => declarationWithin (k + n)) p Phrase.statement := by
  refine Prompt.mono ?_ fun _ => Phrase.statement_of_declaration
  refine (prompt_advance hp rfl).seq fun f q _ => ?_
  refine (prompt_expect .identifier rfl q).seq fun name q _ => ?_
  refine (prompt_expect (.symbol .leftParen) rfl q).seq fun l q _ => ?_
  refine (prompt_params q).seq fun names q _ => ?_
  refine (prompt_expectClosing .declaration q).seq fun r q _ => ?_
  refine (prompt_expect (.symbol .arrow) rfl q).seq fun a q _ => ?_
  exact (prompt_expression n .lowest q).seq fun e q _ => prompt_pure _

instance (n : Nat) : MovesOn (statementWithin n) := by
  unfold statementWithin
  apply movesOn_get_bind
  intro p
  split <;> infer_instance

theorem prompt_statementWithin (n : Nat) (p : Parser) :
    Prompt (statementWithin n) (fun k => statementWithin (k + n)) p Phrase.statement :=
  prompt_ite (prompt_declarationWithin n)
    fun _ => (prompt_expression n .lowest p).mono fun _ => Phrase.statement_of_expr

theorem prompt_terminator (p : Parser) :
    Prompt terminator (fun _ => terminator) p (Phrase.sequence []) := by
  by_cases hp : endsStatement p.current.kind
  · have hdone : ∀ p' : Parser, p'.current = p.current →
        terminator p' = (pure () : Parse Unit) p' := by
      intro p' hcurrent
      unfold terminator
      rw [get_bind_apply, hcurrent, if_pos hp]
    exact (prompt_pure ()).congr (fun _ _ => hdone p rfl) fun k p' h _ _ => hdone p' h
  · have hfits : (SyntaxError.missingTerminator p.current.kind).Fits p.current := by
      refine ⟨?_, nofun⟩
      rintro _ ⟨⟩
      rfl
    refine prompt_report hfits fun p' hcurrent => ?_
    unfold terminator
    rw [get_bind_apply, hcurrent, if_neg hp]

end ExprLang.Parser

import ExprLang.Proofs.Parsing.Parallel

/-!
# The routines of the reader side by side

Every routine of the reader, from lists with commas to a whole statement, keeps parallel parsers
parallel. The routines of expressions rely on the one for expressions one level deeper (`hsub`), as
they are given it.
-/

namespace ExprLang.Parser

variable {α β : Type}

/-! ### Rounds -/

/-- What follows an item of a list. -/
def commaRest (item : Parse α) (rounds : Nat) (x : α) : Parse (List α) := do
  let p ← get
  if p.recovering || p.current.kind != .symbol .comma then return [x]
  else
    let _ ← advance
    return x :: (← commaList item (rounds - 1))

/-- It does not matter that the rounds end, if no comma follows then. -/
theorem commaList_apply (item : Parse α) (rounds : Nat) (p : Parser)
    (h : rounds = 0 → (item p).2.current.kind ≠ .symbol .comma) :
    commaList item rounds p = (item >>= commaRest item rounds) p := by
  cases rounds with
  | zero =>
    have hstop : ((item p).2.recovering || (item p).2.current.kind != .symbol .comma) = true := by
      rw [Bool.or_eq_true, bne_iff_ne]
      exact Or.inr (h rfl)
    rw [bind_apply, commaRest, get_bind_apply, if_pos hstop]
    rfl
  | succ rounds => rfl

/-- A round of `operators`. -/
def operatorRound (sub : Precedence → Parse Expr) (parent : Precedence) (rounds : Nat)
    (left : Expr) : Parse Expr := do
  let p ← get
  if p.recovering then return left
  else
    match p.current.kind.binaryOp? with
    | none => return left
    | some op =>
      if op.precedence ≤ parent then return left
      else
        let _ ← advance
        let right ← sub op.precedence
        operators sub parent (rounds - 1) (.binary left op right (left.span.union right.span))

theorem operators_apply (sub : Precedence → Parse Expr) (parent : Precedence) (rounds : Nat)
    (left : Expr) (p : Parser) (h : rounds = 0 → p.current.kind.binaryOp? = none) :
    operators sub parent rounds left p = operatorRound sub parent rounds left p := by
  cases rounds with
  | zero =>
    unfold operatorRound
    rw [get_bind_apply, h rfl]
    split <;> rfl
  | succ rounds => rfl

/-! ### Lists with commas -/

namespace Pairing

variable {K : Pairing} {B B' : List (Located SyntaxError)} {p q : Parser}

/-- What the parsers do at hand is all that matters. -/
theorem Together.congr {m m' l l' : Parse α} {Q : α → α → Prop} (h : K.Together B B' l l' p q Q)
    (hm : m p = l p) (hm' : m' q = l' q) : K.Together B B' m m' p q Q := by
  obtain ⟨hparallel, hlater, hresult⟩ := h
  rw [← hm, ← hm'] at hparallel
  rw [← hm] at hlater
  rw [← hm, ← hm'] at hresult
  exact ⟨hparallel, hlater, hresult⟩

/-- A statement with no token left ends where it is. -/
theorem Parallel.inStatement_current (h : K.Parallel B B' p q) (hnil : p.pending.length = 0) :
    inStatement p.current = false := by
  rw [← Bool.not_eq_true]
  intro hin
  have hlength := (h.tail hin).2
  omega

theorem Parallel.symm_inStatement (h : K.Parallel B B' p q) :
    inStatement q.current = inStatement p.current := K.ends h.current

theorem kind_ne_of_not_inStatement {t : Token} (h : inStatement t = false) {kind : TokenKind}
    (hkind : endsStatement kind = false) : t.kind ≠ kind := by
  rintro rfl
  rw [inStatement, hkind] at h
  cases h

theorem together_commaList {item : Parse α} {Q : α → α → Prop}
    (hitem : ∀ p q, K.Parallel B B' p q → K.Together B B' item item p q Q) (n n' : Nat)
    (h : K.Parallel B B' p q) (hn : p.pending.length ≤ n) (hn' : q.pending.length ≤ n') :
    K.Together B B' (commaList item n) (commaList item n') p q (List.Forall₂ Q) := by
  induction n using Nat.strong_induction_on generalizing n' p q with
  | _ n ih =>
    have hafter := hitem p q h
    have hlength := h.pending_length
    have hstop : n = 0 ∨ n' = 0 → inStatement (item p).2.current = false := fun hzero => by
      refine hafter.parallel.inStatement_current ?_
      have hle := hafter.later.pending
      omega
    have hrounds : K.Together B B' (item >>= commaRest item n) (item >>= commaRest item n') p q
        (List.Forall₂ Q) := by
      refine hafter.bind fun x x' r r' hr hlater hx => ?_
      refine together_get_bind ?_
      rw [hr.recovering, kind_congr hr.current (· != .symbol .comma) rfl]
      split
      · exact together_pure hr fun hrec => .cons (hx hrec) .nil
      · next hcomma =>
        rw [Bool.or_eq_true, bne_iff_ne, not_or, not_not] at hcomma
        have hin : inStatement r.current := by rw [inStatement, hcomma.2]; rfl
        refine together_advance_bind hr hin fun htail hlength _ => ?_
        have hlater := hlater.pending
        have hpending := htail.pending_length
        have hrest := ih (n - 1) (by omega) (n' - 1) htail (by omega) (by omega)
        refine hrest.bind fun xs xs' s s' hs hlater' hxs => together_pure hs fun hrec => ?_
        exact .cons (hx (hlater'.back hrec)) (hxs hrec)
    refine hrounds.congr (commaList_apply item n p fun hzero => ?_)
      (commaList_apply item n' q fun hzero => ?_)
    · exact kind_ne_of_not_inStatement (hstop (Or.inl hzero)) rfl
    · exact kind_ne_of_not_inStatement
        (hafter.parallel.symm_inStatement.trans (hstop (Or.inr hzero))) rfl

theorem pending_length_le_size (p : Parser) : p.pending.length ≤ p.size :=
  (List.takeWhile_sublist _).length_le.trans p.ahead_le

theorem together_commaSeparated {item : Parse α} {Q : α → α → Prop}
    (hitem : ∀ p q, K.Parallel B B' p q → K.Together B B' item item p q Q)
    (h : K.Parallel B B' p q) :
    K.Together B B' (commaSeparated item) (commaSeparated item) p q (List.Forall₂ Q) := by
  exact together_get_bind (together_commaList hitem p.size q.size h (pending_length_le_size p)
    (pending_length_le_size q))

/-! ### Corresponding expressions -/

namespace Exprs

variable {c c' d d' e e' : Expr} {s s' : Span}

theorem unary (op : UnaryOp) (he : K.Exprs e e') (hs : K.left s = K.right s') :
    K.Exprs (.unary op e s) (.unary op e' s') := congrArg₂ (Expr.unary op) he hs

theorem binary (op : BinaryOp) (hd : K.Exprs d d') (he : K.Exprs e e')
    (hs : K.left s = K.right s') : K.Exprs (.binary d op e s) (.binary d' op e' s') := by
  unfold Exprs at *
  rw [Expr.mapSpans, hd, he, hs, Expr.mapSpans]

theorem group (he : K.Exprs e e') (hs : K.left s = K.right s') :
    K.Exprs (.group e s) (.group e' s') := congrArg₂ Expr.group he hs

theorem conditional (hc : K.Exprs c c') (hd : K.Exprs d d') (he : K.Exprs e e')
    (hs : K.left s = K.right s') : K.Exprs (.conditional c d e s) (.conditional c' d' e' s') := by
  unfold Exprs at *
  rw [Expr.mapSpans, hc, hd, he, hs, Expr.mapSpans]

theorem letIn {bindings bindings' : List (Name × Expr)}
    (hbindings : List.Forall₂ (fun b b' => K.Names b.1 b'.1 ∧ K.Exprs b.2 b'.2) bindings bindings')
    (he : K.Exprs e e') (hs : K.left s = K.right s') :
    K.Exprs (.letIn bindings e s) (.letIn bindings' e' s') := by
  have hmap : Expr.mapSpansBindings K.left bindings = Expr.mapSpansBindings K.right bindings' := by
    induction hbindings with
    | nil => rfl
    | cons hb _ ih =>
      rw [Expr.mapSpansBindings, Expr.mapSpansBindings, ih, hb.1, hb.2]
  unfold Exprs at *
  rw [Expr.mapSpans, hmap, he, hs, Expr.mapSpans]

theorem call {name name' : Name} {args args' : List Expr} (hname : K.Names name name')
    (hargs : List.Forall₂ K.Exprs args args') (hs : K.left s = K.right s') :
    K.Exprs (.call name args s) (.call name' args' s') := by
  have hmap : Expr.mapSpansArgs K.left args = Expr.mapSpansArgs K.right args' := by
    induction hargs with
    | nil => rfl
    | cons he _ ih => rw [Expr.mapSpansArgs, Expr.mapSpansArgs, ih, he]
  unfold Exprs Names at *
  rw [Expr.mapSpans, hname, hmap, hs, Expr.mapSpans]

theorem declaration {name name' : Name} {params params' : List Name} (hname : K.Names name name')
    (hparams : List.Forall₂ K.Names params params') (he : K.Exprs e e')
    (hs : K.left s = K.right s') :
    K.Exprs (.declaration name params e s) (.declaration name' params' e' s') := by
  have hmap : params.map (·.mapSpan K.left) = params'.map (·.mapSpan K.right) := by
    induction hparams with
    | nil => rfl
    | cons hn _ ih => rw [List.map_cons, List.map_cons, ih, hn]
  unfold Exprs Names at *
  rw [Expr.mapSpans, hname, hmap, he, hs, Expr.mapSpans]

end Exprs

/-! ### Terms -/

/-- A token that is a term of its own. -/
theorem together_single {make : Token → Expr}
    (hmake : ∀ {t t'}, K.Tokens t t' → K.Exprs (make t) (make t')) (h : K.Parallel B B' p q)
    (hin : inStatement p.current) :
    K.Together B B' (advance >>= fun t => pure (make t)) (advance >>= fun t => pure (make t)) p q
      K.Exprs :=
  together_advance_bind h hin fun h _ ht => together_pure h fun _ => hmake ht

theorem together_value (h : K.Parallel B B' p q) :
    K.Together B B' (expect .literal >>= fun t => pure (valueExpr t))
      (expect .literal >>= fun t => pure (valueExpr t)) p q K.Exprs :=
  (together_expect h rfl).bind fun _ _ _ _ h _ ht => together_pure h fun hrec => (ht hrec).exprs

/-- Where a statement ends there is no term. -/
theorem term_of_ends {sub : Precedence → Parse Expr} (h : inStatement p.current = false) :
    term sub p = (expect .literal >>= fun t => pure (valueExpr t)) p := by
  unfold term
  rw [get_bind_apply]
  rcases kind_of_not_inStatement h with hkind | hkind <;> rw [hkind]

section

variable {sub : Precedence → Parse Expr}
  (hsub : ∀ parent p q, K.Parallel B B' p q →
    K.Together B B' (sub parent) (sub parent) p q K.Exprs)

include hsub

theorem together_group (h : K.Parallel B B' p q) (hin : inStatement p.current) :
    K.Together B B' (group sub) (group sub) p q K.Exprs := by
  refine together_advance_bind h hin fun h _ hl => ?_
  refine (hsub .lowest _ _ h).bind fun e e' p q h _ he => ?_
  refine (together_expectClosing h .grouping).bind fun r r' p q h hclose hr => ?_
  exact together_pure h fun hrec => (he (hclose.back hrec)).group (K.union hl.2 (hr hrec).2)

theorem together_conditional (h : K.Parallel B B' p q) (hin : inStatement p.current) :
    K.Together B B' (conditional sub) (conditional sub) p q K.Exprs := by
  refine together_advance_bind h hin fun h _ hi => ?_
  refine (together_expect h rfl).bind fun _ _ p q h _ _ => ?_
  refine (hsub .lowest p q h).bind fun c c' p q h _ hc => ?_
  refine (together_expectClosing h .condition).bind fun _ _ p q h hclose _ => ?_
  refine (hsub .lowest p q h).bind fun d d' p q h hd' hd => ?_
  refine (together_expect h rfl).bind fun _ _ p q h helse _ => ?_
  refine (hsub .lowest p q h).bind fun e e' p q h he' he => together_pure h fun hrec => ?_
  have hrec' := helse.back (he'.back hrec)
  exact (hc (hclose.back (hd'.back hrec'))).conditional (hd hrec') (he hrec)
    (K.union hi.2 (he hrec).span)

theorem together_binding (p q : Parser) (h : K.Parallel B B' p q) :
    K.Together B B' (binding sub) (binding sub) p q fun b b' =>
      K.Names b.1 b'.1 ∧ K.Exprs b.2 b'.2 := by
  refine (together_expect h rfl).bind fun n n' p q h _ hn => ?_
  refine (together_expect h rfl).bind fun _ _ p q h hequal _ => ?_
  refine (hsub .lowest p q h).bind fun e e' p q h he' he => together_pure h fun hrec => ?_
  exact ⟨(hn (hequal.back (he'.back hrec))).names, he hrec⟩

omit hsub in
theorem together_bodyMarker (h : K.Parallel B B' p q) :
    K.Together B B' bodyMarker bodyMarker p q fun _ _ => True := by
  unfold bodyMarker
  refine together_get_bind ?_
  dsimp only
  by_cases hp : p.current.kind = .keyword .inWord
  · rw [if_pos hp, if_pos ((kind_iff h.current rfl).2 hp)]
    refine together_advance_bind h (by rw [inStatement, hp]; rfl) fun h _ _ => ?_
    exact together_pure h fun _ => trivial
  · rw [if_neg hp, if_neg (mt (kind_iff h.current rfl).1 hp)]
    exact together_report h rfl rfl

theorem together_letIn (h : K.Parallel B B' p q) (hin : inStatement p.current) :
    K.Together B B' (letIn sub) (letIn sub) p q K.Exprs := by
  refine together_advance_bind h hin fun h _ ht => ?_
  refine (together_commaSeparated (together_binding hsub) h).bind fun bs bs' p q h _ hbs => ?_
  refine (together_bodyMarker h).bind fun _ _ p q h hmarker _ => ?_
  refine (hsub .lowest p q h).bind fun e e' p q h he' he => together_pure h fun hrec => ?_
  exact .letIn (hbs (hmarker.back (he'.back hrec))) (he hrec) (K.union ht.2 (he hrec).span)

theorem together_call (h : K.Parallel B B' p q) (hin : inStatement p.current)
    (hnext : inStatement p.tail.current) :
    K.Together B B' (call sub) (call sub) p q K.Exprs := by
  refine together_advance_bind h hin fun h _ hname => ?_
  refine together_advance_bind h hnext fun h _ _ => together_get_bind ?_
  dsimp only
  by_cases hr : p.tail.tail.current.kind = .symbol .rightParen
  · rw [if_pos hr, if_pos ((kind_iff h.current rfl).2 hr), pure_bind, pure_bind]
    refine (together_expectClosing h .call).bind fun r r' p q h _ hr => together_pure h fun hrec => ?_
    exact .call hname.names .nil (K.union hname.2 (hr hrec).2)
  · rw [if_neg hr, if_neg (mt (kind_iff h.current rfl).1 hr)]
    refine (together_commaSeparated (hsub .lowest) h).bind fun as as' p q h _ has => ?_
    refine (together_expectClosing h .call).bind fun r r' p q h hclose hr => ?_
    refine together_pure h fun hrec => ?_
    exact .call hname.names (has (hclose.back hrec)) (K.union hname.2 (hr hrec).2)

theorem together_term (h : K.Parallel B B' p q) :
    K.Together B B' (term sub) (term sub) p q K.Exprs := by
  cases hin : inStatement p.current with
  | false =>
    exact (together_value h).congr (term_of_ends hin)
      (term_of_ends (h.symm_inStatement.trans hin))
  | true =>
    have hkind : q.current.kind = p.current.kind :=
      congrArg Lexeme.kind (K.lexeme h.current hin)
    unfold term
    refine together_get_bind ?_
    rw [hkind]
    split
    · exact together_group hsub h hin
    · exact together_conditional hsub h hin
    · exact together_letIn hsub h hin
    · have htail := (h.tail hin).1
      rw [← tail_current, ← tail_current]
      by_cases hnext : p.tail.current.kind = .symbol .leftParen
      · rw [if_pos hnext, if_pos ((kind_iff htail.current rfl).2 hnext)]
        exact together_call hsub h hin (by rw [inStatement, hnext]; rfl)
      · rw [if_neg hnext, if_neg (mt (kind_iff htail.current rfl).1 hnext)]
        exact together_single (fun ht => congrArg Expr.var ht.names) h hin
    · exact together_single (·.exprs) h hin
    · exact together_single (·.exprs) h hin
    · exact together_single (·.exprs) h hin
    · exact together_value h

theorem together_operand (h : K.Parallel B B' p q) :
    K.Together B B' (operand sub) (operand sub) p q K.Exprs := by
  unfold operand
  refine together_get_bind ?_
  rw [kind_congr h.current TokenKind.unaryOp? rfl]
  split
  · next op hop =>
    have hin : inStatement p.current := by
      rw [inStatement, TokenKind.eq_of_unaryOp? hop]
      cases op <;> rfl
    refine together_advance_bind h hin fun h _ ht => ?_
    refine (hsub .unary _ _ h).bind fun e e' p q h _ he => together_pure h fun hrec => ?_
    exact (he hrec).unary op (K.union ht.2 (he hrec).span)
  · exact together_term hsub h

theorem together_operators (parent : Precedence) (n n' : Nat) {left left' : Expr}
    (h : K.Parallel B B' p q) (hn : p.pending.length ≤ n) (hn' : q.pending.length ≤ n')
    (hleft : p.recovering = false → K.Exprs left left') :
    K.Together B B' (operators sub parent n left) (operators sub parent n' left') p q K.Exprs := by
  induction n using Nat.strong_induction_on generalizing n' left left' p q with
  | _ n ih =>
    have hlength := h.pending_length
    have hnone : n = 0 ∨ n' = 0 → p.current.kind.binaryOp? = none := fun hzero => by
      have hends := h.inStatement_current (by omega)
      rcases kind_of_not_inStatement hends with hkind | hkind <;> rw [hkind] <;> rfl
    have hops := kind_congr h.current TokenKind.binaryOp? rfl
    have hround : K.Together B B' (operatorRound sub parent n left)
        (operatorRound sub parent n' left') p q K.Exprs := by
      unfold operatorRound
      refine together_get_bind ?_
      rw [h.recovering, hops]
      split
      · exact together_pure h hleft
      · split
        · exact together_pure h hleft
        · next op hop =>
          split
          · exact together_pure h hleft
          · have hin : inStatement p.current := by
              rw [inStatement, TokenKind.eq_of_binaryOp? hop]
              cases op <;> rfl
            refine together_advance_bind h hin fun htail htailLength _ => ?_
            refine (hsub op.precedence _ _ htail).bind fun e e' r r' hr hlater he => ?_
            have hpending := hlater.pending
            have hrLength := hr.pending_length
            refine ih (n - 1) (by omega) (n' - 1) hr (by omega) (by omega) fun hrec => ?_
            have hleft := hleft (hlater.back hrec)
            exact hleft.binary op (he hrec) (K.union hleft.span (he hrec).span)
    exact hround.congr (operators_apply sub parent n left p fun hzero => hnone (Or.inl hzero))
      (operators_apply sub parent n' left' q fun hzero => hops.trans (hnone (Or.inr hzero)))

end

/-! ### Expressions and statements -/

theorem together_expression (n : Nat) (parent : Precedence) (p q : Parser)
    (h : K.Parallel B B' p q) :
    K.Together B B' (expression n parent) (expression n parent) p q K.Exprs := by
  induction n generalizing parent p q with
  | zero =>
    unfold expression
    refine together_get_bind ?_
    rw [h.recovering]
    split
    · next hrec => exact together_pure h fun hfalse => by rw [hrec] at hfalse; cases hfalse
    · exact together_report_bind h rfl rfl
  | succ n ih =>
    unfold expression
    refine together_get_bind ?_
    rw [h.recovering]
    split
    · next hrec => exact together_pure h fun hfalse => by rw [hrec] at hfalse; cases hfalse
    · refine (together_operand ih h).bind fun left left' r r' hr _ hleft => together_get_bind ?_
      exact together_operators ih parent _ _ hr (pending_length_le_size r)
        (pending_length_le_size r') hleft

theorem together_params (h : K.Parallel B B' p q) :
    K.Together B B' params params p q (List.Forall₂ K.Names) := by
  unfold params
  refine together_get_bind ?_
  by_cases hp : p.current.kind = .identifier
  · rw [if_pos hp, if_pos ((kind_iff h.current rfl).2 hp)]
    refine together_commaSeparated (fun p q h => ?_) h
    exact (together_expect h rfl).bind fun t t' _ _ h _ ht =>
      together_pure h fun hrec => (ht hrec).names
  · rw [if_neg hp, if_neg (mt (kind_iff h.current rfl).1 hp)]
    exact together_pure h fun _ => .nil

theorem together_declaration (h : K.Parallel B B' p q) (hin : inStatement p.current) :
    K.Together B B' declaration declaration p q K.Exprs := by
  refine together_advance_bind h hin fun h _ ht => ?_
  refine (together_expect h rfl).bind fun n n' p q h _ hn => ?_
  refine (together_expect h rfl).bind fun _ _ p q h hopen _ => ?_
  refine (together_params h).bind fun ps ps' p q h hps' hps => ?_
  refine (together_expectClosing h .declaration).bind fun _ _ p q h hclose _ => ?_
  refine (together_expect h rfl).bind fun _ _ p q h harrow _ => ?_
  refine (together_expression maxNesting .lowest p q h).bind fun e e' p q h he' he => ?_
  refine together_pure h fun hrec => ?_
  have hrec' := hclose.back (harrow.back (he'.back hrec))
  exact .declaration (hn (hopen.back (hps'.back hrec'))).names (hps hrec') (he hrec)
    (K.union ht.2 (he hrec).span)

theorem together_statementExpr (h : K.Parallel B B' p q) :
    K.Together B B' statementExpr statementExpr p q K.Exprs := by
  unfold statementExpr
  refine together_get_bind ?_
  by_cases hp : p.current.kind = .keyword .functionWord
  · rw [if_pos hp, if_pos ((kind_iff h.current rfl).2 hp)]
    exact together_declaration h (by rw [inStatement, hp]; rfl)
  · rw [if_neg hp, if_neg (mt (kind_iff h.current rfl).1 hp)]
    exact together_expression maxNesting .lowest p q h

theorem together_terminator (h : K.Parallel B B' p q) :
    K.Together B B' terminator terminator p q fun _ _ => True := by
  unfold terminator
  refine together_get_bind ?_
  dsimp only
  rw [kind_congr h.current endsStatement rfl]
  split
  · exact together_pure h fun _ => trivial
  · exact together_report h rfl rfl

/-- **Two statements of the same lexemes are read side by side.** -/
theorem together_wholeStatement (h : K.Parallel B B' p q) :
    K.Together B B' wholeStatement wholeStatement p q K.Exprs := by
  refine (together_statementExpr h).bind fun e e' p q h _ he => ?_
  refine (together_terminator h).bind fun _ _ p q h hlater _ => together_pure h fun hrec => ?_
  exact he (hlater.back hrec)

end Pairing

end ExprLang.Parser

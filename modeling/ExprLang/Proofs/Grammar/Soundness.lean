import ExprLang.Parser.Statement
import ExprLang.Proofs.Parsing.Step

/-!
# What is read is what is written

If the reader of expressions finds no error, the expression it answers is canonical, stands where
its tokens stand, needs no more levels of nesting than there were, and the reader stopped where the
precedence asks for it. `ReadExpr` collects these facts for an expression and `ReadOperand` for an
operand to which operators may still be added; every routine of the reader has one specification
here, of the form `Yields`.
-/

namespace ExprLang

theorem BinaryOp.lowest_lt_precedence (op : BinaryOp) : Precedence.lowest < op.precedence := by
  cases op <;> decide

theorem BinaryOp.not_unary_lt_precedence (op : BinaryOp) : ¬ Precedence.unary < op.precedence := by
  cases op <;> decide

theorem TokenKind.eq_of_unaryOp? {kind : TokenKind} {op : UnaryOp} (h : kind.unaryOp? = some op) :
    kind = .symbol op.symbol := by
  cases kind with
  | symbol s => cases s <;> cases h <;> rfl
  | _ => cases h

theorem TokenKind.eq_of_binaryOp? {kind : TokenKind} {op : BinaryOp}
    (h : kind.binaryOp? = some op) : kind = .symbol op.symbol := by
  cases kind with
  | symbol s => cases s <;> cases h <;> rfl
  | _ => cases h

namespace Parser

/-- Whether reading an expression above `parent` ends at a token: an operator there binds no tighter
than `parent`, and the expression does not take it in. -/
def Stops (parent : Precedence) (e : Expr) (next : Token) : Prop :=
  ∀ op ∈ next.kind.binaryOp?, op.precedence ≤ parent ∧ e.rightOpen = false

/-- Whether an operator at a token can have the expression as its left operand. -/
def Continues (e : Expr) (next : Token) : Prop :=
  ∀ op ∈ next.kind.binaryOp?,
    e.rightOpen = false ∧ ∀ o ∈ e.rootOp?, op.precedence ≤ o.precedence

/-- An operand above `parent`, with the operators that were added to it so far. -/
structure ReadOperand (n : Nat) (parent : Precedence) (ts : List Token) (e : Expr) (q : Parser) :
    Prop where
  written : Written e ts
  canonical : e.isCanonical
  levels : e.levelsBelow ≤ n
  above : ∀ op ∈ e.rootOp?, parent < op.precedence
  continues : Continues e q.current

/-- An expression above `parent`. -/
structure ReadExpr (n : Nat) (parent : Precedence) (ts : List Token) (e : Expr) (q : Parser) :
    Prop where
  written : Written e ts
  canonical : e.isCanonical
  nest : e.nest ≤ n
  above : ∀ op ∈ e.rootOp?, parent < op.precedence
  stops : Stops parent e q.current

/-- Behind an expression above the lowest precedence there is no operator. -/
theorem ReadExpr.binaryOp?_eq_none {n : Nat} {ts : List Token} {e : Expr} {q : Parser}
    (h : ReadExpr n .lowest ts e q) : q.current.kind.binaryOp? = none := by
  rw [Option.eq_none_iff_forall_not_mem]
  intro op hop
  have hle := (h.stops op hop).1
  have hlt := op.lowest_lt_precedence
  rw [Precedence.le_iff] at hle
  rw [Precedence.lt_iff] at hlt
  omega

section

variable {n : Nat} {parent : Precedence} {sub : Precedence → Parse Expr} {p : Parser}

theorem inStatement_of_kind {t : Token} {kind : TokenKind} (h : t.kind = kind)
    (hkind : endsStatement kind = false) : inStatement t := by
  rw [inStatement, h, hkind]
  rfl

/-- Reading a token of a known kind. -/
theorem yields_advance_kind {kind : TokenKind} (h : p.current.kind = kind)
    (hkind : endsStatement kind = false) :
    Yields advance p fun ts t _ => ts = [t] ∧ t.kind = kind := by
  refine (yields_advance (inStatement_of_kind h hkind)).mono ?_
  rintro ts t q ⟨hts, rfl⟩
  exact ⟨hts, h⟩

theorem yields_group (hsub : ∀ parent q, Yields (sub parent) q (ReadExpr n parent))
    (hp : p.current.kind = .symbol .leftParen) : Yields (group sub) p (ReadOperand n parent) := by
  refine (yields_advance_kind hp rfl).bind fun l q _ _ => ?_
  refine (hsub .lowest q).bind fun e q _ _ => ?_
  refine (yields_expectClosing .grouping q).bind fun r q _ _ => yields_pure ?_
  rintro _ - ⟨rfl, hr⟩ ts - he _ - ⟨rfl, hl⟩
  have hnest := he.nest
  exact ⟨.group hl he.written hr, he.canonical, hnest, nofun, fun _ _ => ⟨rfl, nofun⟩⟩

theorem yields_conditional (hsub : ∀ parent q, Yields (sub parent) q (ReadExpr n parent))
    (hp : p.current.kind = .keyword .ifWord) :
    Yields (conditional sub) p (ReadOperand n parent) := by
  refine (yields_advance_kind hp rfl).bind fun i q _ _ => ?_
  refine (yields_expect rfl q).bind fun l q _ _ => ?_
  refine (hsub .lowest q).bind fun c q _ _ => ?_
  refine (yields_expectClosing .condition q).bind fun r q _ _ => ?_
  refine (hsub .lowest q).bind fun d q _ _ => ?_
  refine (yields_expect rfl q).bind fun o q _ _ => ?_
  refine (hsub .lowest q).bind fun e q _ _ => yields_pure ?_
  rintro vs - he _ - ⟨rfl, ho⟩ us - hd _ - ⟨rfl, hr⟩ ts - hc _ - ⟨rfl, hl⟩ _ - ⟨rfl, hi⟩
  refine ⟨?_, ?_, ?_, nofun, ?_⟩
  · have hwritten := Written.conditional hi hl hc.written hr hd.written ho he.written
    simpa using hwritten
  · simp [Expr.isCanonical, hc.canonical, hd.canonical, he.canonical]
  · have hnest := And.intro hc.nest (And.intro hd.nest he.nest)
    simp only [Expr.nest] at hnest
    simp only [Expr.levelsBelow]
    omega
  · intro op hop
    rw [he.binaryOp?_eq_none] at hop
    cases hop

/-! ### Bindings -/

/-- A binding and its tokens. -/
structure ReadBinding (n : Nat) (binding : Name × Expr) (ts : List Token) : Prop where
  written : ∃ t q us, ts = t :: q :: us ∧ t.kind = .identifier ∧ q.kind = .symbol .equal ∧
    binding.1 = t.toName ∧ Written binding.2 us
  canonical : binding.2.isCanonical
  nest : binding.2.nest ≤ n

/-- Bindings that were read one by one are the bindings of a `let`. -/
theorem bindings_of_separated {bindings : List (Name × Expr)} {ts : List Token}
    (h : Separated (ReadBinding n) bindings ts) :
    WrittenBindings bindings ts ∧ Expr.isCanonicalBindings bindings ∧
      Expr.levelsBelowBindings bindings ≤ n ∧ bindings ≠ [] := by
  induction h with
  | @one binding ts ha =>
    obtain ⟨name, e⟩ := binding
    obtain ⟨t, q, us, rfl, ht, hq, rfl, he⟩ := ha.written
    have hnest : e.levelsBelow + 1 ≤ n := ha.nest
    have hcanonical : e.isCanonical := ha.canonical
    refine ⟨.one ht hq he, ?_, ?_, List.cons_ne_nil _ _⟩
    · simp [Expr.isCanonicalBindings, hcanonical]
    · simp only [Expr.levelsBelowBindings]
      omega
  | @cons binding more comma ts us ha hcomma has ih =>
    obtain ⟨name, e⟩ := binding
    obtain ⟨t, q, us, rfl, ht, hq, rfl, he⟩ := ha.written
    obtain ⟨hmore, hcanonicals, hlevels, -⟩ := ih
    have hnest : e.levelsBelow + 1 ≤ n := ha.nest
    have hcanonical : e.isCanonical := ha.canonical
    refine ⟨.cons ht hq he hcomma hmore, ?_, ?_, List.cons_ne_nil _ _⟩
    · simp [Expr.isCanonicalBindings, hcanonical, hcanonicals]
    · simp only [Expr.levelsBelowBindings]
      omega

theorem yields_binding (hsub : ∀ parent q, Yields (sub parent) q (ReadExpr n parent)) (p : Parser) :
    Yields (binding sub) p fun ts b _ => ReadBinding n b ts := by
  refine (yields_expect rfl p).bind fun t q _ _ => ?_
  refine (yields_expect rfl q).bind fun o q _ _ => ?_
  refine (hsub .lowest q).bind fun e q _ _ => yields_pure ?_
  rintro us - he _ - ⟨rfl, ho⟩ _ - ⟨rfl, ht⟩
  rw [List.append_nil]
  exact ⟨⟨t, o, us, rfl, ht, ho, rfl, he.written⟩, he.canonical, he.nest⟩

theorem yields_bodyMarker (p : Parser) :
    Yields bodyMarker p fun ts _ _ => ∃ t, ts = [t] ∧ t.kind = .keyword .inWord := by
  unfold bodyMarker
  refine yields_get_bind ?_
  dsimp only
  split
  · next hin =>
    refine (yields_advance_kind hin rfl).bind fun t q _ _ => yields_pure ?_
    rintro _ - ⟨rfl, ht⟩
    exact ⟨t, rfl, ht⟩
  · exact yields_report _ p.current_mem_places

theorem yields_letIn (hsub : ∀ parent q, Yields (sub parent) q (ReadExpr n parent))
    (hp : p.current.kind = .keyword .letWord) : Yields (letIn sub) p (ReadOperand n parent) := by
  refine (yields_advance_kind hp rfl).bind fun t q _ _ => ?_
  refine (yields_commaSeparated (yields_binding hsub) q).bind fun bindings q _ _ => ?_
  refine (yields_bodyMarker q).bind fun _ q _ _ => ?_
  refine (hsub .lowest q).bind fun e q _ _ => yields_pure ?_
  rintro us - he _ - ⟨i, rfl, hi⟩ ts - hbindings _ - ⟨rfl, ht⟩
  obtain ⟨hwritten, hcanonical, hlevels, hne⟩ := bindings_of_separated hbindings
  refine ⟨?_, ?_, ?_, nofun, ?_⟩
  · have hlet := Written.letIn ht hwritten hi he.written
    simpa using hlet
  · simp [Expr.isCanonical, hne, hcanonical, he.canonical]
  · have hnest : e.levelsBelow + 1 ≤ n := he.nest
    simp only [Expr.levelsBelow]
    omega
  · intro op hop
    rw [he.binaryOp?_eq_none] at hop
    cases hop

/-! ### Calls -/

/-- An argument and its tokens. -/
structure ReadArg (n : Nat) (e : Expr) (ts : List Token) : Prop where
  written : Written e ts
  canonical : e.isCanonical
  nest : e.nest ≤ n

/-- Arguments that were read one by one are the arguments of a call. -/
theorem args_of_separated {args : List Expr} {ts : List Token}
    (h : Separated (ReadArg n) args ts) :
    WrittenArgs args ts ∧ Expr.isCanonicalArgs args ∧ Expr.levelsBelowArgs args ≤ n := by
  induction h with
  | @one e ts ha =>
    have hnest : e.levelsBelow + 1 ≤ n := ha.nest
    refine ⟨.one ha.written, ?_, ?_⟩
    · simp [Expr.isCanonicalArgs, ha.canonical]
    · simp only [Expr.levelsBelowArgs]
      omega
  | @cons e more comma ts us ha hcomma has ih =>
    obtain ⟨hmore, hcanonicals, hlevels⟩ := ih
    have hnest : e.levelsBelow + 1 ≤ n := ha.nest
    refine ⟨.cons ha.written hcomma hmore, ?_, ?_⟩
    · simp [Expr.isCanonicalArgs, ha.canonical, hcanonicals]
    · simp only [Expr.levelsBelowArgs]
      omega

theorem tail_current (p : Parser) : p.tail.current = p.peek 1 := by
  cases h : p.ahead with
  | nil => simp [tail, current, peek, h]
  | cons t ts => cases ts <;> simp [tail, current, peek, h]

theorem yields_call (hsub : ∀ parent q, Yields (sub parent) q (ReadExpr n parent))
    (hp : p.current.kind = .identifier) (hnext : (p.peek 1).kind = .symbol .leftParen) :
    Yields (call sub) p (ReadOperand n parent) := by
  have hargs : ∀ q, Yields (sub .lowest) q fun ts e _ => ReadArg n e ts := fun q =>
    (hsub .lowest q).mono fun ts e r he => ⟨he.written, he.canonical, he.nest⟩
  refine (yields_advance_kind hp rfl).bind fun name q hq _ => ?_
  rw [advance_apply, Prod.mk.injEq] at hq
  obtain ⟨-, rfl⟩ := hq
  rw [← tail_current] at hnext
  refine (yields_advance_kind hnext rfl).bind fun l q _ _ => yields_get_bind ?_
  dsimp only
  split
  · refine (yields_pure (Q := fun ts args _ => ts = [] ∧ args = []) ⟨rfl, rfl⟩).bind
      fun args q _ _ => ?_
    refine (yields_expectClosing .call q).bind fun r q _ _ => yields_pure ?_
    rintro _ - ⟨rfl, hr⟩ _ - ⟨rfl, rfl⟩ _ - ⟨rfl, hl⟩ _ - ⟨rfl, hname⟩
    exact ⟨.callNone hname hl hr, rfl, Nat.zero_le n, nofun, fun _ _ => ⟨rfl, nofun⟩⟩
  · refine (yields_commaSeparated hargs q).bind fun args q _ _ => ?_
    refine (yields_expectClosing .call q).bind fun r q _ _ => yields_pure ?_
    rintro _ - ⟨rfl, hr⟩ ts - has _ - ⟨rfl, hl⟩ _ - ⟨rfl, hname⟩
    obtain ⟨hwritten, hcanonical, hlevels⟩ := args_of_separated has
    exact ⟨.call hname hl hwritten hr, hcanonical, hlevels, nofun, fun _ _ => ⟨rfl, nofun⟩⟩

/-! ### Operands and operators -/

theorem yields_value {kind : TokenKind} (hp : p.current.kind = kind) (hvalue : kind.isValue)
    (hkind : endsStatement kind = false) :
    Yields (advance >>= fun t => pure (valueExpr t)) p (ReadOperand n parent) := by
  refine (yields_advance_kind hp hkind).bind fun t q _ _ => yields_pure ?_
  rintro _ - ⟨rfl, ht⟩
  exact ⟨.literal (ht ▸ hvalue), rfl, Nat.zero_le n, nofun, fun _ _ => ⟨rfl, nofun⟩⟩

theorem yields_term (hsub : ∀ parent q, Yields (sub parent) q (ReadExpr n parent)) (p : Parser) :
    Yields (term sub) p (ReadOperand n parent) := by
  unfold term
  refine yields_get_bind ?_
  split
  · next hp => exact yields_group hsub hp
  · next hp => exact yields_conditional hsub hp
  · next hp => exact yields_letIn hsub hp
  · next hp =>
    split
    · next hnext => exact yields_call hsub hp hnext
    · refine (yields_advance_kind hp rfl).bind fun t q _ _ => yields_pure ?_
      rintro _ - ⟨rfl, ht⟩
      exact ⟨.var ht, rfl, Nat.zero_le n, nofun, fun _ _ => ⟨rfl, nofun⟩⟩
  · next hp => exact yields_value hp rfl rfl
  · next hp => exact yields_value hp rfl rfl
  · next hp => exact yields_value hp rfl rfl
  · refine (yields_expect rfl p).bind fun t q _ _ => yields_pure ?_
    rintro _ - ⟨rfl, ht⟩
    exact ⟨.literal (by rw [ht]; rfl), rfl, Nat.zero_le n, nofun, fun _ _ => ⟨rfl, nofun⟩⟩

theorem yields_operand (hsub : ∀ parent q, Yields (sub parent) q (ReadExpr n parent)) (p : Parser) :
    Yields (operand sub) p (ReadOperand n parent) := by
  unfold operand
  refine yields_get_bind ?_
  split
  · next op hop =>
    have hkind := TokenKind.eq_of_unaryOp? hop
    refine (yields_advance_kind hkind (by cases op <;> rfl)).bind fun t q _ _ => ?_
    refine (hsub .unary q).bind fun e r _ _ => yields_pure ?_
    rintro ts - he _ - ⟨rfl, ht⟩
    -- an operator at the root would have to bind tighter than a unary one
    have hroot : e.rootOp? = none := by
      rw [Option.eq_none_iff_forall_not_mem]
      exact fun o ho => o.not_unary_lt_precedence (he.above o ho)
    rw [List.append_nil]
    refine ⟨.unary ht he.written, ?_, he.nest, nofun, fun o ho => ⟨(he.stops o ho).2, nofun⟩⟩
    simp [Expr.isCanonical, hroot, he.canonical]
  · exact yields_term hsub p

/-- Nothing is claimed of a reader that goes on after an error. -/
theorem yields_of_recovering {α : Type} {a : α} {Q : List Token → α → Parser → Prop}
    (h : p.recovering = true) : Yields (pure a) p Q := by
  refine fun _ => ⟨Leads.refl p, fun hrec => ?_⟩
  rw [pure_apply, h] at hrec
  cases hrec

/-- An operand, an operator behind it that binds tighter than `parent` and a right operand are again
an operand. -/
theorem ReadOperand.binary {us vs : List Token} {left right : Expr} {op : BinaryOp} {t : Token}
    {q r : Parser} (hleft : ReadOperand n parent us left q)
    (hq : q.current.kind.binaryOp? = some op) (hop : parent < op.precedence)
    (ht : t.kind = .symbol op.symbol) (hright : ReadExpr n op.precedence vs right r) :
    ReadOperand n parent (us ++ t :: vs) (.binary left op right (left.span.union right.span)) r
      where
  written := .binary hleft.written ht hright.written
  canonical := by
    obtain ⟨hopen, hroot⟩ := hleft.continues op hq
    simp only [Expr.isCanonical, hleft.canonical, hright.canonical, hopen, Bool.and_eq_true,
      Option.all_eq_true, decide_eq_true_eq, Bool.not_false, true_and]
    exact ⟨fun o ho => hroot o ho, fun o ho => hright.above o ho⟩
  levels := by
    have hnest : right.levelsBelow + 1 ≤ n := hright.nest
    have hlevels := hleft.levels
    simp only [Expr.levelsBelow]
    omega
  above := fun o ho => by
    cases ho
    exact hop
  continues := fun o ho => by
    obtain ⟨hle, hopen⟩ := hright.stops o ho
    refine ⟨hopen, fun o' ho' => ?_⟩
    cases ho'
    exact hle

/-- An operand behind which reading stops is an expression. -/
theorem ReadOperand.readExpr {ts : List Token} {e : Expr} {q : Parser}
    (h : ReadOperand n parent ts e q)
    (hstops : ∀ op ∈ q.current.kind.binaryOp?, op.precedence ≤ parent) :
    ReadExpr (n + 1) parent ts e q where
  written := h.written
  canonical := h.canonical
  nest := Nat.succ_le_succ h.levels
  above := h.above
  stops := fun op hop => ⟨hstops op hop, (h.continues op hop).1⟩

/-- Operators are added as long as they bind tighter than `parent`. The rounds suffice, since every
round reads a token. -/
theorem yields_operators (hsub : ∀ parent q, Yields (sub parent) q (ReadExpr n parent))
    (rounds : Nat) (left : Expr) (p : Parser) (hrounds : p.ahead.length ≤ rounds) :
    Yields (operators sub parent rounds left) p fun ts e q => ∀ us,
      ReadOperand n parent us left p → ReadExpr (n + 1) parent (us ++ ts) e q := by
  induction rounds generalizing left p with
  | zero =>
    refine Yields.of_last fun hlast => yields_pure fun us hleft => ?_
    rw [List.append_nil]
    refine hleft.readExpr fun op hop => ?_
    have hnil := List.length_eq_zero_iff.1 (Nat.le_zero.1 hrounds)
    simp [current, hnil, hlast, TokenKind.binaryOp?] at hop
  | succ rounds ih =>
    unfold operators
    refine yields_get_bind ?_
    split
    · next hrec => exact yields_of_recovering hrec
    · split
      · next hnone =>
        refine yields_pure fun us hleft => ?_
        rw [List.append_nil]
        exact hleft.readExpr fun op hop => by rw [hnone] at hop; cases hop
      · next op hop =>
        split
        · next hle =>
          refine yields_pure fun us hleft => ?_
          rw [List.append_nil]
          exact hleft.readExpr fun o ho => by rw [hop] at ho; cases ho; exact hle
        · next hlt =>
          have hkind := TokenKind.eq_of_binaryOp? hop
          refine (yields_advance_kind hkind (by cases op <;> rfl)).bind fun t q hq _ => ?_
          refine (hsub op.precedence q).bind fun right r _ hr => ?_
          have hlength : r.ahead.length ≤ rounds := by
            obtain ⟨ts, hts, -⟩ := hr.ahead
            rw [advance_apply, Prod.mk.injEq] at hq
            have hq' := congrArg (List.length ∘ Parser.ahead) hq.2
            simp only [Function.comp, tail, List.length_tail, hts, List.length_append] at hq'
            omega
          refine (ih _ r hlength).mono ?_
          rintro ts e q' h vs - hright _ - ⟨rfl, ht⟩ us hleft
          have hread := h _ (hleft.binary hop (Nat.lt_of_not_le hlt) ht hright)
          simpa using hread

end

/-- **An expression that is read without an error** is the canonical expression of the tokens that
were passed. -/
theorem yields_expression (n : Nat) (parent : Precedence) (p : Parser) :
    Yields (expression n parent) p (ReadExpr n parent) := by
  induction n generalizing parent p with
  | zero =>
    unfold expression
    refine yields_get_bind ?_
    split
    · next hrec => exact yields_of_recovering hrec
    · refine (yields_report (Q := fun _ _ _ => False) _ p.current_mem_places).bind fun _ q _ _ => ?_
      exact yields_pure fun _ _ hfalse => hfalse.elim
  | succ n ih =>
    unfold expression
    refine yields_get_bind ?_
    split
    · next hrec => exact yields_of_recovering hrec
    · have hoperand : Yields (operand (expression n)) p (ReadOperand n parent) :=
        yields_operand ih p
      refine hoperand.bind fun left q _ _ => yields_get_bind ?_
      refine (yields_operators ih q.size left q q.ahead_le).mono ?_
      exact fun ts e r h us _ hleft => h us hleft

/-! ### Statements -/

theorem yields_params (p : Parser) :
    Yields params p fun ts names _ => names = [] ∧ ts = [] ∨ Separated WrittenName names ts := by
  unfold params
  refine yields_get_bind ?_
  split
  · refine (yields_commaSeparated (fun q => ?_) p).mono fun ts names q h => Or.inr h
    refine (yields_expect rfl q).bind fun t q _ _ => yields_pure ?_
    rintro _ - ⟨rfl, ht⟩
    exact ⟨t, rfl, ht, rfl⟩
  · exact yields_pure (Or.inl ⟨rfl, rfl⟩)

/-- The tokens of a statement that has no more levels of nesting than there are. -/
structure StatementOf (e : Expr) (ts : List Token) : Prop where
  written : Written e ts
  statement : e.isStatement
  nest : e.nest ≤ maxNesting

theorem yields_declaration {p : Parser} (hp : p.current.kind = .keyword .functionWord) :
    Yields declaration p fun ts e _ => StatementOf e ts := by
  refine (yields_advance_kind hp rfl).bind fun f q _ _ => ?_
  refine (yields_expect rfl q).bind fun n q _ _ => ?_
  refine (yields_expect rfl q).bind fun l q _ _ => ?_
  refine (yields_params q).bind fun names q _ _ => ?_
  refine (yields_expectClosing .declaration q).bind fun r q _ _ => ?_
  refine (yields_expect rfl q).bind fun a q _ _ => ?_
  refine (yields_expression maxNesting .lowest q).bind fun e q _ _ => yields_pure ?_
  rintro us - he _ - ⟨rfl, ha⟩ _ - ⟨rfl, hr⟩ ts - hnames _ - ⟨rfl, hl⟩ _ - ⟨rfl, hn⟩ _ - ⟨rfl, hf⟩
  refine ⟨?_, he.canonical, he.nest⟩
  have hdeclaration := Written.declaration hf hn hl hnames hr ha he.written
  simpa using hdeclaration

end Parser

theorem Expr.isStatement_of_isCanonical {e : Expr} (h : e.isCanonical) : e.isStatement := by
  cases e with
  | declaration => exact absurd h Bool.false_ne_true
  | _ => exact h

namespace Parser

/-- The expression of a statement. -/
def statementExpr : Parse Expr := do
  if (← get).current.kind = .keyword .functionWord then declaration
  else expression maxNesting .lowest

/-- **A statement that is read without an error** is the statement of the tokens that were
passed. -/
theorem yields_statementExpr (p : Parser) :
    Yields statementExpr p fun ts e _ => StatementOf e ts := by
  unfold statementExpr
  refine yields_get_bind ?_
  split
  · next hp => exact yields_declaration hp
  · refine (yields_expression maxNesting .lowest p).mono fun ts e q he => ?_
    exact ⟨he.written, Expr.isStatement_of_isCanonical he.canonical, he.nest⟩

end Parser

end ExprLang

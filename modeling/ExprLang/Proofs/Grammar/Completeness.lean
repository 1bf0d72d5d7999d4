import ExprLang.Proofs.Grammar.Soundness

/-!
# What is written is read

The tokens of a canonical expression are read as that expression, if there are enough levels of
nesting and what follows does not go on with it. An operand is read together with the operators
behind it: `ReadsBack e ts` says that reading the tokens `ts` comes, after the operators inside `e`,
to the point where `e` is the left operand of whatever follows.
-/

namespace ExprLang

/-- The kinds of tokens that an expression begins with. -/
def TokenKind.startsExpr : TokenKind → Bool
  | .symbol .leftParen | .keyword .ifWord | .keyword .letWord | .identifier => true
  | kind => kind.isValue || kind.unaryOp?.isSome

theorem Written.head : ∀ {e : Expr} {ts : List Token}, Written e ts → e.isCanonical →
    ∃ t us, ts = t :: us ∧ t.kind.startsExpr
  | _, _, .literal (t := t) ht, _ => by
    refine ⟨_, _, rfl, ?_⟩
    unfold TokenKind.startsExpr
    split
    all_goals simp [ht]
  | _, _, .var ht, _ => ⟨_, _, rfl, by rw [ht]; rfl⟩
  | .unary op _ _, _, .unary ht _, _ => ⟨_, _, rfl, by rw [ht]; cases op <;> rfl⟩
  | _, _, .binary he _ _, hc => by
    simp only [Expr.isCanonical, Bool.and_eq_true] at hc
    obtain ⟨t, us, rfl, ht⟩ := he.head hc.1.1.1.1
    exact ⟨t, _, rfl, ht⟩
  | _, _, .group hl _ _, _ => ⟨_, _, rfl, by rw [hl]; rfl⟩
  | _, _, .conditional hi _ _ _ _ _ _, _ => ⟨_, _, rfl, by rw [hi]; rfl⟩
  | _, _, .letIn ht _ _ _, _ => ⟨_, _, rfl, by rw [ht]; rfl⟩
  | _, _, .declaration .., hc => absurd hc Bool.false_ne_true
  | _, _, .callNone hn _ _, _ => ⟨_, _, rfl, by rw [hn]; rfl⟩
  | _, _, .call hn _ _ _, _ => ⟨_, _, rfl, by rw [hn]; rfl⟩

theorem WrittenArgs.head {args : List Expr} {ts : List Token} (h : WrittenArgs args ts)
    (hc : Expr.isCanonicalArgs args) : ∃ t us, ts = t :: us ∧ t.kind.startsExpr := by
  cases h with
  | one he =>
    rw [Expr.isCanonicalArgs, Bool.and_eq_true] at hc
    exact he.head hc.1
  | cons he _ _ =>
    rw [Expr.isCanonicalArgs, Bool.and_eq_true] at hc
    obtain ⟨t, us, rfl, ht⟩ := he.head hc.1
    exact ⟨t, _, rfl, ht⟩

namespace Parser

variable {n : Nat} {parent : Precedence} {p q r : Parser} {e : Expr} {ts us : List Token}

/-- With no operator that binds tighter than `parent`, the operand is all there is. -/
theorem operators_of_stops {sub : Precedence → Parse Expr} (hrec : q.recovering = false)
    (hstops : Stops parent e q.current) (rounds : Nat) :
    operators sub parent rounds e q = (e, q) := by
  cases rounds with
  | zero => rfl
  | succ rounds =>
    unfold operators
    rw [get_bind_apply, hrec, if_neg Bool.false_ne_true]
    cases hop : q.current.kind.binaryOp? with
    | none => rfl
    | some op =>
      dsimp only
      rw [if_pos (hstops op hop).1]
      rfl

/-- Reading the tokens of an operand comes to the point where all of it is read and operators
follow. -/
def ReadsBack (e : Expr) (ts : List Token) : Prop :=
  ∀ ⦃n : Nat⦄ ⦃parent : Precedence⦄ ⦃p r : Parser⦄, e.levelsBelow ≤ n →
    (∀ op ∈ e.rootOp?, parent < op.precedence) → Moves p ts r → r.recovering = false →
    Continues e r.current → r.current.kind ≠ .symbol .leftParen →
    ∃ d q us, operand (expression n) p = (d, q) ∧ Moves p us q ∧ ∃ rounds ≤ ts.length, ∀ more,
      operators (expression n) parent (more + rounds) d q =
        operators (expression n) parent more e r

/-- An operand without operators is read at once. -/
theorem readsBack_of_operand (h : ∀ {n : Nat} {p r : Parser}, e.levelsBelow ≤ n → Moves p ts r →
    r.recovering = false → Continues e r.current → r.current.kind ≠ .symbol .leftParen →
    operand (expression n) p = (e, r)) : ReadsBack e ts := by
  intro n parent p r hlevels _ hmoves hrec hcontinues hnext
  have hoperand := h hlevels hmoves hrec hcontinues hnext
  exact ⟨e, r, ts, hoperand, hmoves, 0, Nat.zero_le _, fun _ => rfl⟩

theorem ReadsBack.expression_eq (h : ReadsBack e ts) (hnest : e.nest ≤ n)
    (habove : ∀ op ∈ e.rootOp?, parent < op.precedence) (hmoves : Moves p ts r)
    (hrec : r.recovering = false) (hstops : Stops parent e r.current)
    (hnext : r.current.kind ≠ .symbol .leftParen) : expression n parent p = (e, r) := by
  obtain ⟨n, rfl⟩ : ∃ k, n = k + 1 := ⟨n - 1, by unfold Expr.nest at hnest; omega⟩
  have hcontinues : Continues e r.current := fun op hop => by
    obtain ⟨hle, hopen⟩ := hstops op hop
    refine ⟨hopen, fun o ho => ?_⟩
    have hlt := habove o ho
    rw [Precedence.le_iff] at hle ⊢
    rw [Precedence.lt_iff] at hlt
    omega
  obtain ⟨d, q, us, hoperand, hus, rounds, hrounds, hread⟩ :=
    h (Nat.le_of_succ_le_succ hnest) habove hmoves hrec hcontinues hnext
  -- the rounds that are left are as good as any other number of them
  have hsize : rounds ≤ q.size := by
    have hle := p.ahead_le
    rw [hmoves.ahead, List.length_append] at hle
    rw [hus.size]
    omega
  unfold expression
  rw [get_bind_apply, ← hmoves.recovering, hrec, if_neg Bool.false_ne_true, bind_of_eq hoperand,
    get_bind_apply, ← Nat.sub_add_cancel hsize, hread]
  exact operators_of_stops hrec hstops _

/-- The kinds of tokens that end an expression wherever they stand. -/
def endsExpr (kind : TokenKind) : Prop := kind.binaryOp? = none ∧ kind ≠ .symbol .leftParen

/-- An expression at the end of an expression or of a statement. -/
theorem ReadsBack.last (h : ReadsBack e ts) (hnest : e.nest ≤ n) (hmoves : Moves p ts r)
    (hrec : r.recovering = false) (hends : endsExpr r.current.kind) :
    expression n .lowest p = (e, r) := by
  refine h.expression_eq hnest (fun op _ => op.lowest_lt_precedence) hmoves hrec ?_ hends.2
  intro op ho
  rw [hends.1] at ho
  cases ho

/-- An expression before a token that ends it. -/
theorem ReadsBack.before {c : Token} {kind : TokenKind} (h : ReadsBack e ts) (hnest : e.nest ≤ n)
    (hmoves : Moves p (ts ++ c :: us) r) (hrec : r.recovering = false) (hc : c.kind = kind)
    (hends : endsExpr kind) : ∃ q, expression n .lowest p = (e, q) ∧ Moves q (c :: us) r := by
  obtain ⟨q, hts, hq⟩ := hmoves.split
  refine ⟨q, h.last hnest hts (hq.recovering.symm.trans hrec) ?_, hq⟩
  rw [hq.current_of_cons, hc]
  exact hends

/-! ### Operands -/

theorem operand_eq_term {sub : Precedence → Parse Expr} {kind : TokenKind}
    (h : p.current.kind = kind) (hkind : kind.unaryOp? = none) : operand sub p = term sub p := by
  unfold operand
  rw [get_bind_apply, h, hkind]

theorem readsBack_literal {t : Token} (ht : t.kind.isValue) :
    ReadsBack (.literal t.value t.span) [t] := by
  refine readsBack_of_operand fun {n p r} _ hmoves _ _ _ => ?_
  have hcurrent := hmoves.current_of_cons
  obtain ⟨q, hadvance, hq⟩ := hmoves.advance_eq
  obtain rfl := hq.eq_of_nil
  have hvalue : (advance >>= fun t => pure (valueExpr t)) p = (.literal t.value t.span, q) := by
    rw [bind_of_eq hadvance]
    rfl
  have hunary : t.kind.unaryOp? = none := by
    cases hkind : t.kind with
    | symbol => rw [hkind] at ht; exact absurd ht Bool.false_ne_true
    | _ => rfl
  rw [operand_eq_term rfl (hcurrent ▸ hunary)]
  unfold term
  rw [get_bind_apply, hcurrent]
  cases hkind : t.kind with
  | constant => exact hvalue
  | literal =>
    obtain ⟨q', hexpect, hq'⟩ := hmoves.expect_eq hkind
    obtain rfl := hq'.eq_of_nil
    exact bind_of_eq hexpect _
  | keyword k =>
    cases k with
    | trueWord | falseWord => exact hvalue
    | _ => rw [hkind] at ht; exact absurd ht Bool.false_ne_true
  | _ => rw [hkind] at ht; exact absurd ht Bool.false_ne_true

theorem readsBack_var {t : Token} (ht : t.kind = .identifier) : ReadsBack (.var t.toName) [t] := by
  refine readsBack_of_operand fun {n p r} _ hmoves _ _ hnext => ?_
  have hkind : p.current.kind = .identifier := by rw [hmoves.current_of_cons, ht]
  obtain ⟨q, hadvance, hq⟩ := hmoves.advance_eq
  obtain rfl := hq.eq_of_nil
  have hcall : (p.peek 1).kind ≠ .symbol .leftParen := by
    have htail : q = p.tail := (congrArg Prod.snd hadvance).symm
    rwa [← tail_current, ← htail]
  rw [operand_eq_term hkind rfl]
  unfold term
  rw [get_bind_apply, hkind]
  dsimp only
  rw [if_neg hcall, bind_of_eq hadvance]
  rfl

theorem readsBack_unary {op : UnaryOp} {t : Token} (ht : t.kind = .symbol op.symbol)
    (he : ReadsBack e ts) (hroot : e.rootOp? = none) :
    ReadsBack (.unary op e (t.span.union e.span)) (t :: ts) := by
  refine readsBack_of_operand fun {n p r} hlevels hmoves hrec hcontinues hnext => ?_
  have hunary : p.current.kind.unaryOp? = some op := by
    rw [hmoves.current_of_cons, ht]
    exact UnaryOp.ofSymbol?_symbol op
  obtain ⟨q, hadvance, hq⟩ := hmoves.advance_eq
  have hsub : expression n .unary q = (e, r) := by
    refine he.expression_eq hlevels (fun o ho => ?_) hq hrec (fun o ho => ?_) hnext
    · rw [hroot] at ho
      cases ho
    · exact ⟨Nat.le_of_not_lt o.not_unary_lt_precedence, (hcontinues o ho).1⟩
  unfold operand
  rw [get_bind_apply, hunary]
  dsimp only
  rw [bind_of_eq hadvance, bind_of_eq hsub]
  rfl

/-- An operator and its right operand, with the operators that bind tighter, are one step on from
the left operand. -/
theorem readsBack_binary {op : BinaryOp} {t : Token} {d : Expr} (he : ReadsBack e ts)
    (ht : t.kind = .symbol op.symbol) (hd : ReadsBack d us) (hopen : e.rightOpen = false)
    (hleft : ∀ o ∈ e.rootOp?, op.precedence ≤ o.precedence)
    (hright : ∀ o ∈ d.rootOp?, op.precedence < o.precedence) :
    ReadsBack (.binary e op d (e.span.union d.span)) (ts ++ t :: us) := by
  intro n parent p r hlevels habove hmoves hrec hcontinues hnext
  simp only [Expr.levelsBelow, Nat.max_le] at hlevels
  have hop : parent < op.precedence := habove op rfl
  have hnot : ¬ op.precedence ≤ parent := Nat.not_le_of_lt hop
  obtain ⟨q₁, hts, h₁⟩ := hmoves.split
  obtain ⟨q₂, hadvance, hus⟩ := h₁.advance_eq
  have hcurrent : q₁.current.kind.binaryOp? = some op := by
    rw [h₁.current_of_cons, ht]
    exact BinaryOp.ofSymbol?_symbol op
  have hrec₁ : q₁.recovering = false := h₁.recovering.symm.trans hrec
  have hsub : expression n op.precedence q₂ = (d, r) := by
    refine hd.expression_eq hlevels.2 hright hus hrec (fun o ho => ?_) hnext
    obtain ⟨hopen, hroot⟩ := hcontinues o ho
    exact ⟨hroot op rfl, hopen⟩
  -- the loop comes to the left operand after `rounds` rounds, and this operator is one more
  obtain ⟨c, q, vs, hoperand, hvs, rounds, hrounds, hread⟩ := he hlevels.1
    (fun o ho => Nat.lt_of_lt_of_le hop (hleft o ho)) hts hrec₁
    (fun o ho => by rw [hcurrent] at ho; cases ho; exact ⟨hopen, hleft⟩)
    (by rw [h₁.current_of_cons, ht]; cases op <;> nofun)
  refine ⟨c, q, vs, hoperand, hvs, rounds + 1, ?_, fun more => ?_⟩
  · rw [List.length_append, List.length_cons]
    omega
  · rw [← Nat.add_assoc, Nat.add_right_comm, hread, operators, get_bind_apply, hrec₁,
      if_neg Bool.false_ne_true, hcurrent]
    dsimp only
    rw [if_neg hnot, bind_of_eq hadvance, bind_of_eq hsub]

theorem readsBack_group {l c : Token} (hl : l.kind = .symbol .leftParen) (he : ReadsBack e ts)
    (hc : c.kind = .symbol .rightParen) :
    ReadsBack (.group e (l.span.union c.span)) (l :: (ts ++ [c])) := by
  refine readsBack_of_operand fun {n p r} hlevels hmoves hrec _ _ => ?_
  have hkind : p.current.kind = .symbol .leftParen := by rw [hmoves.current_of_cons, hl]
  obtain ⟨q, hadvance, h⟩ := hmoves.advance_eq
  obtain ⟨q, hsub, h⟩ := he.before hlevels h hrec hc ⟨rfl, nofun⟩
  obtain ⟨q, hclosing, h⟩ := h.expectClosing_eq hc
  obtain rfl := h.eq_of_nil
  rw [operand_eq_term hkind rfl]
  unfold term
  rw [get_bind_apply, hkind]
  show group (expression n) p = _
  unfold group
  rw [bind_of_eq hadvance, bind_of_eq hsub, bind_of_eq hclosing]
  rfl

/-- What follows an expression with an open end is no operator. -/
theorem endsExpr_of_rightOpen {t : Token} (hopen : e.rightOpen) (hcontinues : Continues e t)
    (hnext : t.kind ≠ .symbol .leftParen) : endsExpr t.kind := by
  refine ⟨Option.eq_none_iff_forall_not_mem.2 fun op hop => ?_, hnext⟩
  rw [(hcontinues op hop).1] at hopen
  cases hopen

theorem readsBack_conditional {i l c o : Token} {a b d : Expr} {vs : List Token}
    (hi : i.kind = .keyword .ifWord) (hl : l.kind = .symbol .leftParen) (ha : ReadsBack a ts)
    (hc : c.kind = .symbol .rightParen) (hb : ReadsBack b us) (ho : o.kind = .keyword .elseWord)
    (hd : ReadsBack d vs) : ReadsBack (.conditional a b d (i.span.union d.span))
      (i :: l :: (ts ++ c :: (us ++ o :: vs))) := by
  refine readsBack_of_operand fun {n p r} hlevels hmoves hrec hcontinues hnext => ?_
  simp only [Expr.levelsBelow, Nat.max_le] at hlevels
  obtain ⟨hna, hnb, hnd⟩ := hlevels
  have hkind : p.current.kind = .keyword .ifWord := by rw [hmoves.current_of_cons, hi]
  obtain ⟨q, hadvance, h⟩ := hmoves.advance_eq
  obtain ⟨q, hopening, h⟩ := h.expect_eq hl
  obtain ⟨q, hcondition, h⟩ := ha.before hna h hrec hc ⟨rfl, nofun⟩
  obtain ⟨q, hclosing, h⟩ := h.expectClosing_eq hc
  obtain ⟨q, hresolution, h⟩ := hb.before hnb h hrec ho ⟨rfl, nofun⟩
  obtain ⟨q, helse, h⟩ := h.expect_eq ho
  have halternative := hd.last hnd h hrec (endsExpr_of_rightOpen rfl hcontinues hnext)
  rw [operand_eq_term hkind rfl]
  unfold term
  rw [get_bind_apply, hkind]
  show conditional (expression n) p = _
  unfold conditional
  rw [bind_of_eq hadvance, bind_of_eq hopening, bind_of_eq hcondition, bind_of_eq hclosing,
    bind_of_eq hresolution, bind_of_eq helse, bind_of_eq halternative]
  rfl

/-! ### Lists with commas -/

/-- Items are read one after the other, up to the token that closes the list. -/
theorem commaList_eq {α : Type} {item : Parse α} {R : α → List Token → Prop} {c : Token}
    {closing : TokenKind} (hc : c.kind = closing) (hclosing : closing ≠ .symbol .comma)
    (hrec : r.recovering = false)
    (hitem : ∀ {a ts p c vs}, R a ts → Moves p (ts ++ c :: vs) r →
      c.kind = .symbol .comma ∨ c.kind = closing → ∃ q, item p = (a, q) ∧ Moves q (c :: vs) r)
    {as : List α} (h : Separated R as ts) {rounds : Nat}
    (hrounds : ts.length ≤ rounds) (hmoves : Moves p (ts ++ c :: us) r) :
    ∃ q, commaList item rounds p = (as, q) ∧ Moves q (c :: us) r := by
  induction h generalizing p rounds with
  | @one a ts ha =>
    obtain ⟨q, hq, hmoves'⟩ := hitem ha hmoves (Or.inr hc)
    refine ⟨q, ?_, hmoves'⟩
    have hstop : (q.recovering || q.current.kind != .symbol .comma) = true := by
      rw [hmoves'.current_of_cons, hc, Bool.or_eq_true]
      exact Or.inr (bne_iff_ne.2 hclosing)
    cases rounds with
    | zero => exact bind_of_eq hq _
    | succ rounds =>
      unfold commaList
      rw [bind_of_eq hq, get_bind_apply, if_pos hstop]
      rfl
  | @cons a as comma ts vs ha hcomma has ih =>
    rw [List.length_append, List.length_cons] at hrounds
    obtain ⟨rounds, rfl⟩ : ∃ k, rounds = k + 1 := ⟨rounds - 1, by omega⟩
    rw [List.append_assoc, List.cons_append] at hmoves
    obtain ⟨q, hq, h₁⟩ := hitem ha hmoves (Or.inl hcomma)
    obtain ⟨q', hadvance, h₂⟩ := h₁.advance_eq
    have hle : vs.length ≤ rounds := by omega
    obtain ⟨q'', hmore, h₃⟩ := ih hle h₂
    refine ⟨q'', ?_, h₃⟩
    have hgo : ¬ (q.recovering || q.current.kind != .symbol .comma) = true := by
      rw [h₁.current_of_cons, hcomma, ← h₁.recovering, hrec]
      simp
    unfold commaList
    rw [bind_of_eq hq, get_bind_apply, if_neg hgo, bind_of_eq hadvance, bind_of_eq hmore]
    rfl

theorem commaSeparated_eq {α : Type} {item : Parse α} {R : α → List Token → Prop} {c : Token}
    {closing : TokenKind} (hc : c.kind = closing) (hclosing : closing ≠ .symbol .comma)
    (hrec : r.recovering = false)
    (hitem : ∀ {a ts p c vs}, R a ts → Moves p (ts ++ c :: vs) r →
      c.kind = .symbol .comma ∨ c.kind = closing → ∃ q, item p = (a, q) ∧ Moves q (c :: vs) r)
    {as : List α} (h : Separated R as ts)
    (hmoves : Moves p (ts ++ c :: us) r) :
    ∃ q, commaSeparated item p = (as, q) ∧ Moves q (c :: us) r := by
  have hsize := p.ahead_le
  rw [hmoves.ahead, List.length_append, List.length_append] at hsize
  exact commaList_eq hc hclosing hrec hitem h (by omega) hmoves

/-- A binding whose value is read. -/
structure BindingReadsBack (n : Nat) (binding : Name × Expr) (ts : List Token) : Prop where
  written : ∃ t q us, ts = t :: q :: us ∧ t.kind = .identifier ∧ q.kind = .symbol .equal ∧
    binding.1 = t.toName ∧ ReadsBack binding.2 us
  nest : binding.2.nest ≤ n

theorem ReadsBack.binding {t o : Token} (h : ReadsBack e ts) (ht : t.kind = .identifier)
    (ho : o.kind = .symbol .equal) (hnest : e.nest ≤ n) :
    BindingReadsBack n (t.toName, e) (t :: o :: ts) :=
  ⟨⟨t, o, ts, rfl, ht, ho, rfl, h⟩, hnest⟩

theorem BindingReadsBack.before {b : Name × Expr} {c : Token} (h : BindingReadsBack n b ts)
    (hmoves : Moves p (ts ++ c :: us) r) (hrec : r.recovering = false)
    (hc : c.kind = .symbol .comma ∨ c.kind = .keyword .inWord) :
    ∃ q, binding (expression n) p = (b, q) ∧ Moves q (c :: us) r := by
  obtain ⟨name, e⟩ := b
  obtain ⟨t, o, vs, rfl, ht, ho, rfl, he⟩ := h.written
  have hends : endsExpr c.kind := by
    rcases hc with hc | hc <;> rw [hc] <;> exact ⟨rfl, nofun⟩
  obtain ⟨q, hname, h₁⟩ := hmoves.expect_eq ht
  obtain ⟨q', hequal, h₂⟩ := h₁.expect_eq ho
  obtain ⟨q'', hvalue, h₃⟩ := he.before h.nest h₂ hrec rfl hends
  refine ⟨q'', ?_, h₃⟩
  unfold binding
  rw [bind_of_eq hname, bind_of_eq hequal, bind_of_eq hvalue]
  rfl

theorem readsBack_letIn {t i : Token} {bindings : List (Name × Expr)}
    (ht : t.kind = .keyword .letWord)
    (hbindings : ∀ {n}, Expr.levelsBelowBindings bindings ≤ n →
      Separated (BindingReadsBack n) bindings ts)
    (hi : i.kind = .keyword .inWord) (he : ReadsBack e us) :
    ReadsBack (.letIn bindings e (t.span.union e.span)) (t :: (ts ++ i :: us)) := by
  refine readsBack_of_operand fun {n p r} hlevels hmoves hrec hcontinues hnext => ?_
  simp only [Expr.levelsBelow, Nat.max_le] at hlevels
  have hkind : p.current.kind = .keyword .letWord := by rw [hmoves.current_of_cons, ht]
  obtain ⟨q₁, hadvance, h₁⟩ := hmoves.advance_eq
  obtain ⟨q₂, hlist, h₂⟩ := commaSeparated_eq hi nofun hrec
    (fun hb hm hc => hb.before hm hrec hc) (hbindings hlevels.1) h₁
  obtain ⟨q₃, hin, h₃⟩ := h₂.advance_eq
  have hmarker : bodyMarker q₂ = ((), q₃) := by
    have hinWord : q₂.current.kind = .keyword .inWord := by rw [h₂.current_of_cons, hi]
    unfold bodyMarker
    rw [get_bind_apply, if_pos hinWord, bind_of_eq hin]
    rfl
  have hbody := he.last hlevels.2 h₃ hrec (endsExpr_of_rightOpen rfl hcontinues hnext)
  rw [operand_eq_term hkind rfl]
  unfold term
  rw [get_bind_apply, hkind]
  show letIn (expression n) p = _
  unfold letIn
  rw [bind_of_eq hadvance, bind_of_eq hlist, bind_of_eq hmarker, bind_of_eq hbody]
  rfl

/-- An argument that is read. -/
structure ArgReadsBack (n : Nat) (e : Expr) (ts : List Token) : Prop where
  readsBack : ReadsBack e ts
  nest : e.nest ≤ n

theorem ArgReadsBack.before {c : Token} (h : ArgReadsBack n e ts)
    (hmoves : Moves p (ts ++ c :: us) r) (hrec : r.recovering = false)
    (hc : c.kind = .symbol .comma ∨ c.kind = .symbol .rightParen) :
    ∃ q, expression n .lowest p = (e, q) ∧ Moves q (c :: us) r := by
  have hends : endsExpr c.kind := by
    rcases hc with hc | hc <;> rw [hc] <;> exact ⟨rfl, nofun⟩
  exact h.readsBack.before h.nest hmoves hrec rfl hends

/-- An opening parenthesis behind a name begins a call. -/
theorem operand_eq_call {sub : Precedence → Parse Expr} {name l : Token}
    (hname : name.kind = .identifier) (hl : l.kind = .symbol .leftParen)
    (hmoves : Moves p (name :: l :: ts) r) : operand sub p = call sub p := by
  have hkind : p.current.kind = .identifier := by rw [hmoves.current_of_cons, hname]
  have hnext : (p.peek 1).kind = .symbol .leftParen := by
    rw [← tail_current, hmoves.uncons.current_of_cons, hl]
  rw [operand_eq_term hkind rfl]
  unfold term
  rw [get_bind_apply, hkind]
  dsimp only
  rw [if_pos hnext]

theorem readsBack_callNone {name l c : Token} (hname : name.kind = .identifier)
    (hl : l.kind = .symbol .leftParen) (hc : c.kind = .symbol .rightParen) :
    ReadsBack (.call name.toName [] (name.span.union c.span)) [name, l, c] := by
  refine readsBack_of_operand fun {n p r} _ hmoves _ _ _ => ?_
  rw [operand_eq_call hname hl hmoves]
  obtain ⟨q₁, hadvance, h₁⟩ := hmoves.advance_eq
  obtain ⟨q₂, hopening, h₂⟩ := h₁.advance_eq
  obtain ⟨q₃, hclosing, h₃⟩ := h₂.expectClosing_eq hc
  obtain rfl := h₃.eq_of_nil
  have hempty : q₂.current.kind = .symbol .rightParen := by rw [h₂.current_of_cons, hc]
  unfold call
  rw [bind_of_eq hadvance, bind_of_eq hopening, get_bind_apply]
  dsimp only
  rw [if_pos hempty]
  rw [pure_bind, bind_of_eq hclosing]
  rfl

theorem readsBack_call {name l c : Token} {args : List Expr} (hname : name.kind = .identifier)
    (hl : l.kind = .symbol .leftParen)
    (hargs : ∀ {n}, Expr.levelsBelowArgs args ≤ n → Separated (ArgReadsBack n) args ts)
    (hhead : ∃ t us, ts = t :: us ∧ t.kind.startsExpr) (hc : c.kind = .symbol .rightParen) :
    ReadsBack (.call name.toName args (name.span.union c.span)) (name :: l :: (ts ++ [c])) := by
  refine readsBack_of_operand fun {n p r} hlevels hmoves hrec _ _ => ?_
  rw [operand_eq_call hname hl hmoves]
  obtain ⟨q₁, hadvance, h₁⟩ := hmoves.advance_eq
  obtain ⟨q₂, hopening, h₂⟩ := h₁.advance_eq
  -- no argument begins with a closing parenthesis
  have hnonempty : ¬ q₂.current.kind = .symbol .rightParen := fun hkind => by
    obtain ⟨t, us, rfl, ht⟩ := hhead
    rw [List.cons_append] at h₂
    rw [h₂.current_of_cons] at hkind
    rw [hkind] at ht
    exact Bool.false_ne_true ht
  obtain ⟨q₃, hlist, h₃⟩ := commaSeparated_eq hc nofun hrec
    (fun ha hm hkind => ha.before hm hrec hkind) (hargs hlevels) h₂
  obtain ⟨q₄, hclosing, h₄⟩ := h₃.expectClosing_eq hc
  obtain rfl := h₄.eq_of_nil
  unfold call
  rw [bind_of_eq hadvance, bind_of_eq hopening, get_bind_apply]
  dsimp only
  rw [if_neg hnonempty, bind_of_eq hlist, bind_of_eq hclosing]
  rfl

/-! ### Expressions and statements -/

mutual

/-- **The tokens of a canonical expression are read as that expression.** -/
theorem readsBack_of_written : ∀ {e : Expr} {ts : List Token}, Written e ts → e.isCanonical →
    ReadsBack e ts
  | _, _, .literal ht, _ => readsBack_literal ht
  | _, _, .var ht, _ => readsBack_var ht
  | _, _, .unary ht he, hcanonical => by
    rw [Expr.isCanonical, Bool.and_eq_true, Option.isNone_iff_eq_none] at hcanonical
    exact readsBack_unary ht (readsBack_of_written he hcanonical.2) hcanonical.1
  | _, _, .binary he ht hd, hcanonical => by
    simp only [Expr.isCanonical, Bool.and_eq_true, Bool.not_eq_true', Option.all_eq_true,
      decide_eq_true_eq] at hcanonical
    obtain ⟨⟨⟨⟨hleft, hright⟩, hopen⟩, hloose⟩, htight⟩ := hcanonical
    exact readsBack_binary (readsBack_of_written he hleft) ht (readsBack_of_written hd hright) hopen
      hloose htight
  | _, _, .group hl he hc, hcanonical => readsBack_group hl (readsBack_of_written he hcanonical) hc
  | _, _, .conditional hi hl ha hc hb ho hd, hcanonical => by
    simp only [Expr.isCanonical, Bool.and_eq_true] at hcanonical
    obtain ⟨⟨hca, hcb⟩, hcd⟩ := hcanonical
    exact readsBack_conditional hi hl (readsBack_of_written ha hca) hc
      (readsBack_of_written hb hcb) ho (readsBack_of_written hd hcd)
  | _, _, .letIn ht hbindings hi he, hcanonical => by
    simp only [Expr.isCanonical, Bool.and_eq_true] at hcanonical
    exact readsBack_letIn ht (bindingsReadBack hbindings hcanonical.1.2) hi
      (readsBack_of_written he hcanonical.2)
  | _, _, .declaration .., hcanonical => absurd hcanonical Bool.false_ne_true
  | _, _, .callNone hname hl hc, _ => readsBack_callNone hname hl hc
  | _, _, .call hname hl hargs hc, hcanonical =>
    readsBack_call hname hl (argsReadBack hargs hcanonical) (hargs.head hcanonical) hc

theorem bindingsReadBack : ∀ {bindings : List (Name × Expr)} {ts : List Token},
    WrittenBindings bindings ts → Expr.isCanonicalBindings bindings → ∀ {n : Nat},
    Expr.levelsBelowBindings bindings ≤ n → Separated (BindingReadsBack n) bindings ts
  | _, _, .one hname hequal he, hcanonical, n, hlevels => by
    rw [Expr.isCanonicalBindings, Bool.and_eq_true] at hcanonical
    rw [Expr.levelsBelowBindings, Nat.max_le] at hlevels
    exact .one ((readsBack_of_written he hcanonical.1).binding hname hequal hlevels.1)
  | _, _, .cons hname hequal he hcomma hmore, hcanonical, n, hlevels => by
    rw [Expr.isCanonicalBindings, Bool.and_eq_true] at hcanonical
    rw [Expr.levelsBelowBindings, Nat.max_le] at hlevels
    have hread := (readsBack_of_written he hcanonical.1).binding hname hequal hlevels.1
    have hcons := Separated.cons hread hcomma (bindingsReadBack hmore hcanonical.2 hlevels.2)
    exact hcons

theorem argsReadBack : ∀ {args : List Expr} {ts : List Token}, WrittenArgs args ts →
    Expr.isCanonicalArgs args → ∀ {n : Nat}, Expr.levelsBelowArgs args ≤ n →
    Separated (ArgReadsBack n) args ts
  | _, _, .one he, hcanonical, n, hlevels => by
    rw [Expr.isCanonicalArgs, Bool.and_eq_true] at hcanonical
    rw [Expr.levelsBelowArgs, Nat.max_le] at hlevels
    exact .one ⟨readsBack_of_written he hcanonical.1, hlevels.1⟩
  | _, _, .cons he hcomma hmore, hcanonical, n, hlevels => by
    rw [Expr.isCanonicalArgs, Bool.and_eq_true] at hcanonical
    rw [Expr.levelsBelowArgs, Nat.max_le] at hlevels
    exact .cons ⟨readsBack_of_written he hcanonical.1, hlevels.1⟩ hcomma
      (argsReadBack hmore hcanonical.2 hlevels.2)

end

theorem params_eq {params : List Name} {c : Token}
    (h : params = [] ∧ ts = [] ∨ Separated WrittenName params ts)
    (hc : c.kind = .symbol .rightParen) (hmoves : Moves p (ts ++ c :: us) r)
    (hrec : r.recovering = false) : ∃ q, Parser.params p = (params, q) ∧ Moves q (c :: us) r := by
  unfold Parser.params
  rw [get_bind_apply]
  rcases h with ⟨rfl, rfl⟩ | h
  · have hkind : ¬ p.current.kind = .identifier := by
      rw [hmoves.current_of_cons, hc]
      nofun
    rw [if_neg hkind]
    exact ⟨p, rfl, hmoves⟩
  · have hkind : p.current.kind = .identifier := by
      cases h with
      | one ha | cons ha _ _ =>
        obtain ⟨t, rfl, ht, -⟩ := ha
        rw [hmoves.current_of_cons, ht]
    rw [if_pos hkind]
    refine commaSeparated_eq hc nofun hrec (fun ha hm _ => ?_) h hmoves
    obtain ⟨t, rfl, ht, rfl⟩ := ha
    obtain ⟨q, hname, h⟩ := hm.expect_eq ht
    exact ⟨q, bind_of_eq hname _, h⟩

theorem endsExpr_of_endsStatement {kind : TokenKind} (h : endsStatement kind) : endsExpr kind := by
  unfold endsStatement at h
  split at h
  · exact ⟨rfl, nofun⟩
  · exact ⟨rfl, nofun⟩
  · cases h

/-- A declaration whose body has `n` levels of nesting left. -/
def declarationWithin (n : Nat) : Parse Expr := do
  let start ← advance
  let name ← expect .identifier
  let _ ← expect (.symbol .leftParen)
  let params ← params
  let _ ← expectClosing .declaration
  let _ ← expect (.symbol .arrow)
  let body ← expression n .lowest
  return .declaration name.toName params body (start.span.union body.span)

/-- The expression of a statement with `n` levels of nesting left. -/
def statementWithin (n : Nat) : Parse Expr := do
  if (← get).current.kind = .keyword .functionWord then declarationWithin n
  else expression n .lowest

theorem statementExpr_eq_within : statementExpr = statementWithin maxNesting := rfl

/-- The tokens of a statement are read as that statement, with enough levels of nesting. -/
theorem statementWithin_eq (h : Written e ts) (hs : e.isStatement) (hnest : e.nest ≤ n)
    (hmoves : Moves p ts r) (hrec : r.recovering = false)
    (hends : endsStatement r.current.kind) : statementWithin n p = (e, r) := by
  have hends := endsExpr_of_endsStatement hends
  unfold statementWithin
  rw [get_bind_apply]
  by_cases hcanonical : e.isCanonical
  · -- no expression begins with the word of a declaration
    have hkind : ¬ p.current.kind = .keyword .functionWord := by
      obtain ⟨t, us, rfl, ht⟩ := h.head hcanonical
      rw [hmoves.current_of_cons]
      intro hkind
      rw [hkind] at ht
      exact Bool.false_ne_true ht
    rw [if_neg hkind]
    exact (readsBack_of_written h hcanonical).last hnest hmoves hrec hends
  · cases h with
    | declaration hf hname hl hparams hc ha he =>
      have hkind : p.current.kind = .keyword .functionWord := by rw [hmoves.current_of_cons, hf]
      obtain ⟨q, hadvance, h⟩ := hmoves.advance_eq
      obtain ⟨q, hident, h⟩ := h.expect_eq hname
      obtain ⟨q, hopening, h⟩ := h.expect_eq hl
      obtain ⟨q, hlist, h⟩ := params_eq hparams hc h hrec
      obtain ⟨q, hclosing, h⟩ := h.expectClosing_eq hc
      obtain ⟨q, harrow, h⟩ := h.expect_eq ha
      have hbody := (readsBack_of_written he hs).last hnest h hrec hends
      rw [if_pos hkind]
      unfold declarationWithin
      rw [bind_of_eq hadvance, bind_of_eq hident, bind_of_eq hopening, bind_of_eq hlist,
        bind_of_eq hclosing, bind_of_eq harrow, bind_of_eq hbody]
      rfl
    | _ => exact absurd hs hcanonical

/-- **The tokens of a statement are read as that statement.** -/
theorem statementExpr_eq (h : StatementOf e ts) (hmoves : Moves p ts r)
    (hrec : r.recovering = false) (hends : endsStatement r.current.kind) :
    statementExpr p = (e, r) := by
  rw [statementExpr_eq_within]
  exact statementWithin_eq h.written h.statement h.nest hmoves hrec hends

end Parser

end ExprLang

import ExprLang.Proofs.Grammar.Soundness
import ExprLang.Proofs.Lexing.Spelling

/-!
# The grammar as sets of token lists

A `Phrase` is a set of token lists: the expressions above a precedence, the operands, the lists of
parameters and so on. A construct of the grammar is a `sequence` of phrases; for each one there is a
lemma that takes the sequence to the phrase that it makes.

`P.Begins us` says that the tokens `us` can be completed to a member of `P`, by tokens that can be
written. That every phrase has a member that can be written is what carries this from a part of a
construct to the construct: what follows the part is filled in (`Writable`).
-/

namespace ExprLang

/-- A set of token lists. -/
abbrev Phrase := List Token → Prop

namespace Phrase

/-- Tokens with which a member begins. What is missing can be written. -/
def Begins (P : Phrase) (us : List Token) : Prop :=
  ∃ vs, (∀ v ∈ vs, v.word.Legible) ∧ P (us ++ vs)

/-- A member is complete. -/
theorem begins_of_mem {P : Phrase} {ts : List Token} (h : P ts) : P.Begins ts := by
  refine ⟨[], List.forall_mem_nil _, ?_⟩
  rwa [List.append_nil]

/-- A phrase with a member that can be written. -/
class Writable (P : Phrase) : Prop where
  begins : P.Begins []

/-- A token of a kind. -/
def token (kind : TokenKind) : Phrase := fun ts => ∃ t, ts = [t] ∧ t.kind = kind

/-- One phrase after the other. -/
def sequence : List Phrase → Phrase
  | [] => fun ts => ts = []
  | P :: Ps => fun ts => ∃ us vs, ts = us ++ vs ∧ P us ∧ sequence Ps vs

/-- One or more items with commas between them. -/
def items {α : Type} (R : α → Phrase) : Phrase := fun ts => ∃ as, Separated R as ts

/-- The expressions above a precedence. -/
def expr (parent : Precedence) : Phrase := fun ts =>
  ∃ e, Written e ts ∧ e.isCanonical ∧ ∀ op ∈ e.rootOp?, parent < op.precedence

/-- The expressions without an operator at their root. -/
def operand : Phrase := fun ts => ∃ e, Written e ts ∧ e.isCanonical ∧ e.rootOp? = none

/-- The bindings of a `let`. -/
def bindings : Phrase := items fun b ts => ∃ n, Parser.ReadBinding n b ts

/-- The arguments of a call. -/
def args : Phrase := fun ts => ts = [] ∨ items (fun e ts => ∃ n, Parser.ReadArg n e ts) ts

/-- The parameters of a declaration. -/
def params : Phrase := fun ts => ∃ names : List Name,
  names = [] ∧ ts = [] ∨ Separated WrittenName names ts

/-- The statements. -/
def statement : Phrase := fun ts => ∃ e, Written e ts ∧ e.isStatement

/-! ### Members that can be written -/

/-- A literal that can be written anywhere. -/
def trueToken : Token := ⟨⟨.keyword .trueWord, "true", some (.boolean true)⟩, .point 0⟩

/-- A name that can be written anywhere. -/
def nameToken : Token := ⟨⟨.identifier, "x", none⟩, .point 0⟩

theorem isName_x : IsName "x" :=
  ⟨⟨'x', [], rfl, by decide +kernel, nofun⟩, rfl⟩

theorem legible_placeholder {kind : TokenKind} (hvalue : kind.isValue = false)
    (hname : kind ≠ .identifier) : (Token.placeholder kind 0).word.Legible := by
  rw [Token.word_of_plain rfl hvalue hname]
  trivial

theorem writable_token {kind : TokenKind} (hvalue : kind.isValue = false)
    (hname : kind ≠ .identifier) : Writable (token kind) := by
  refine ⟨[.placeholder kind 0], ?_, _, rfl, rfl⟩
  rw [List.forall_mem_singleton]
  exact legible_placeholder hvalue hname

instance (s : Symbol) : Writable (token (.symbol s)) := writable_token rfl nofun

instance : Writable (token (.keyword .elseWord)) := writable_token rfl nofun

instance : Writable (token (.keyword .inWord)) := writable_token rfl nofun

instance : Writable (token .literal) := by
  refine ⟨[⟨⟨.literal, "\"\"", some (.string "")⟩, .point 0⟩], ?_, _, rfl, rfl⟩
  rw [List.forall_mem_singleton]
  exact List.not_mem_nil

instance : Writable (token .identifier) := by
  refine ⟨[nameToken], ?_, _, rfl, rfl⟩
  rw [List.forall_mem_singleton]
  exact isName_x

instance (parent : Precedence) : Writable (expr parent) := by
  refine ⟨[trueToken], ?_, _, .literal rfl, rfl, nofun⟩
  rw [List.forall_mem_singleton]
  trivial

instance : Writable params := ⟨begins_of_mem ⟨[], Or.inl ⟨rfl, rfl⟩⟩⟩

instance : Writable args := ⟨begins_of_mem (Or.inl rfl)⟩

instance : Writable (sequence []) := ⟨begins_of_mem rfl⟩

instance (P : Phrase) (Ps : List Phrase) [Writable P] [Writable (sequence Ps)] :
    Writable (sequence (P :: Ps)) := by
  obtain ⟨us, hus, hP⟩ := Writable.begins (P := P)
  obtain ⟨vs, hvs, hPs⟩ := Writable.begins (P := sequence Ps)
  refine ⟨us ++ vs, ?_, us, vs, rfl, hP, hPs⟩
  rw [List.forall_mem_append]
  exact ⟨hus, hvs⟩

/-! ### Expressions -/

section

variable {ts : List Token}

theorem of_sequence_singleton {P : Phrase} (h : sequence [P] ts) : P ts := by
  obtain ⟨us, _, rfl, hP, rfl⟩ := h
  rwa [List.append_nil]

theorem expr_of_operand {parent : Precedence} (h : operand ts) : expr parent ts := by
  obtain ⟨e, he, hcanonical, hroot⟩ := h
  refine ⟨e, he, hcanonical, ?_⟩
  rw [hroot]
  nofun

theorem operand_of_value {kind : TokenKind} (hvalue : kind.isValue) (h : token kind ts) :
    operand ts := by
  obtain ⟨t, rfl, ht⟩ := h
  exact ⟨_, .literal (ht ▸ hvalue), rfl, rfl⟩

theorem operand_of_name (h : token .identifier ts) : operand ts := by
  obtain ⟨t, rfl, ht⟩ := h
  exact ⟨_, .var ht, rfl, rfl⟩

theorem operand_of_unary (op : UnaryOp)
    (h : sequence [token (.symbol op.symbol), expr .unary] ts) : operand ts := by
  obtain ⟨_, _, rfl, ⟨t, rfl, ht⟩, _, _, rfl, ⟨e, he, hcanonical, habove⟩, rfl⟩ := h
  -- an operator at the root would have to bind tighter than a unary one
  have hroot : e.rootOp? = none := by
    rw [Option.eq_none_iff_forall_not_mem]
    exact fun o ho => o.not_unary_lt_precedence (habove o ho)
  simp only [List.append_nil, List.singleton_append]
  refine ⟨_, .unary ht he, ?_, rfl⟩
  simp [Expr.isCanonical, hroot, hcanonical]

theorem operand_of_group
    (h : sequence [token (.symbol .leftParen), expr .lowest, token (.symbol .rightParen)] ts) :
    operand ts := by
  obtain ⟨_, _, rfl, ⟨l, rfl, hl⟩, _, _, rfl, ⟨e, he, hcanonical, -⟩, _, _, rfl, ⟨r, rfl, hr⟩,
    rfl⟩ := h
  simp only [List.append_nil, List.singleton_append]
  exact ⟨_, .group hl he hr, hcanonical, rfl⟩

theorem operand_of_conditional
    (h : sequence [token (.keyword .ifWord), token (.symbol .leftParen), expr .lowest,
      token (.symbol .rightParen), expr .lowest, token (.keyword .elseWord), expr .lowest] ts) :
    operand ts := by
  obtain ⟨_, _, rfl, ⟨i, rfl, hi⟩, _, _, rfl, ⟨l, rfl, hl⟩, _, _, rfl, ⟨c, hc, hcc, -⟩, _, _, rfl,
    ⟨r, rfl, hr⟩, _, _, rfl, ⟨d, hd, hdc, -⟩, _, _, rfl, ⟨o, rfl, ho⟩, _, _, rfl, ⟨e, he, hec, -⟩,
    rfl⟩ := h
  simp only [List.append_nil, List.singleton_append]
  refine ⟨_, .conditional hi hl hc hr hd ho he, ?_, rfl⟩
  simp [Expr.isCanonical, hcc, hdc, hec]

/-- A left operand, an operator that does not take the operand apart, and an expression above the
operator. -/
theorem expr_of_binary {parent : Precedence} {us vs : List Token} {left : Expr} {op : BinaryOp}
    {t : Token} (hwritten : Written left us) (hcanonical : left.isCanonical)
    (hopen : left.rightOpen = false) (hroot : ∀ o ∈ left.rootOp?, op.precedence ≤ o.precedence)
    (ht : t.kind = .symbol op.symbol) (hop : parent < op.precedence)
    (hright : expr op.precedence vs) : expr parent (us ++ t :: vs) := by
  obtain ⟨right, hright, hrightCanonical, habove⟩ := hright
  refine ⟨_, .binary hwritten ht hright, ?_, ?_⟩
  · simp only [Expr.isCanonical, hcanonical, hrightCanonical, hopen, Bool.and_eq_true,
      Option.all_eq_true, decide_eq_true_eq, Bool.not_false, true_and]
    exact ⟨hroot, habove⟩
  · intro o ho
    cases ho
    exact hop

end

/-! ### Bindings and arguments -/

/-- One bound for the levels of all items. -/
theorem exists_separated {α : Type} {R : Nat → α → Phrase}
    (hmono : ∀ {n n' : Nat} {a : α} {ts : List Token}, n ≤ n' → R n a ts → R n' a ts)
    {as : List α} {ts : List Token} (h : Separated (fun a ts => ∃ n, R n a ts) as ts) :
    ∃ n, ∀ n', n ≤ n' → Separated (R n') as ts := by
  induction h with
  | one ha =>
    obtain ⟨n, ha⟩ := ha
    exact ⟨n, fun n' hn => .one (hmono hn ha)⟩
  | cons ha hcomma has ih =>
    obtain ⟨n, ha⟩ := ha
    obtain ⟨m, ih⟩ := ih
    refine ⟨max n m, fun n' hn => ?_⟩
    rw [Nat.max_le] at hn
    exact .cons (hmono hn.1 ha) hcomma (ih n' hn.2)

section

variable {ts : List Token}

theorem binding_of_sequence
    (h : sequence [token .identifier, token (.symbol .equal), expr .lowest] ts) :
    ∃ b n, Parser.ReadBinding n b ts := by
  obtain ⟨_, _, rfl, ⟨t, rfl, ht⟩, _, _, rfl, ⟨q, rfl, hq⟩, us, _, rfl, ⟨e, he, hcanonical, -⟩,
    rfl⟩ := h
  simp only [List.append_nil, List.singleton_append]
  exact ⟨(t.toName, e), e.nest, ⟨t, q, us, rfl, ht, hq, rfl, he⟩, hcanonical, Nat.le_refl _⟩

theorem arg_of_expr (h : expr .lowest ts) : ∃ e n, Parser.ReadArg n e ts := by
  obtain ⟨e, he, hcanonical, -⟩ := h
  exact ⟨e, e.nest, he, hcanonical, Nat.le_refl _⟩

theorem written_of_bindings (h : bindings ts) : ∃ bs, WrittenBindings bs ts ∧
    Expr.isCanonicalBindings bs ∧ bs ≠ [] := by
  obtain ⟨bs, h⟩ := h
  obtain ⟨n, h⟩ := exists_separated (R := Parser.ReadBinding)
    (fun hn hb => ⟨hb.written, hb.canonical, Nat.le_trans hb.nest hn⟩) h
  obtain ⟨hwritten, hcanonical, -, hne⟩ := Parser.bindings_of_separated (h n (Nat.le_refl n))
  exact ⟨bs, hwritten, hcanonical, hne⟩

theorem operand_of_letIn
    (h : sequence [token (.keyword .letWord), bindings, token (.keyword .inWord), expr .lowest]
      ts) : operand ts := by
  obtain ⟨_, _, rfl, ⟨t, rfl, ht⟩, _, _, rfl, hbindings, _, _, rfl, ⟨i, rfl, hi⟩, _, _, rfl,
    ⟨e, he, hcanonical, -⟩, rfl⟩ := h
  obtain ⟨bs, hbs, hbsCanonical, hne⟩ := written_of_bindings hbindings
  simp only [List.append_nil, List.singleton_append]
  refine ⟨_, .letIn ht hbs hi he, ?_, rfl⟩
  simp [Expr.isCanonical, hne, hbsCanonical, hcanonical]

theorem operand_of_call
    (h : sequence [token .identifier, token (.symbol .leftParen), args,
      token (.symbol .rightParen)] ts) : operand ts := by
  obtain ⟨_, _, rfl, ⟨n, rfl, hn⟩, _, _, rfl, ⟨l, rfl, hl⟩, us, _, rfl, hargs, _, _, rfl,
    ⟨r, rfl, hr⟩, rfl⟩ := h
  simp only [List.append_nil, List.singleton_append]
  rcases hargs with rfl | ⟨as, h⟩
  · exact ⟨_, .callNone hn hl hr, rfl, rfl⟩
  · obtain ⟨m, h⟩ := exists_separated (R := Parser.ReadArg)
      (fun hm ha => ⟨ha.written, ha.canonical, Nat.le_trans ha.nest hm⟩) h
    obtain ⟨hwritten, hcanonical, -⟩ := Parser.args_of_separated (h m (Nat.le_refl m))
    exact ⟨_, .call hn hl hwritten hr, hcanonical, rfl⟩

/-! ### Statements -/

theorem statement_of_expr {parent : Precedence} (h : expr parent ts) : statement ts := by
  obtain ⟨e, he, hcanonical, -⟩ := h
  exact ⟨e, he, Expr.isStatement_of_isCanonical hcanonical⟩

theorem statement_of_declaration
    (h : sequence [token (.keyword .functionWord), token .identifier, token (.symbol .leftParen),
      params, token (.symbol .rightParen), token (.symbol .arrow), expr .lowest] ts) :
    statement ts := by
  obtain ⟨_, _, rfl, ⟨t, rfl, ht⟩, _, _, rfl, ⟨n, rfl, hn⟩, _, _, rfl, ⟨l, rfl, hl⟩, _, _, rfl,
    ⟨names, hnames⟩, _, _, rfl, ⟨r, rfl, hr⟩, _, _, rfl, ⟨a, rfl, ha⟩, _, _, rfl,
    ⟨e, he, hcanonical, -⟩, rfl⟩ := h
  simp only [List.append_nil, List.singleton_append]
  exact ⟨_, .declaration ht hn hl hnames hr ha he, hcanonical⟩

end

instance : Writable bindings := by
  have hsequence : Writable (sequence [token .identifier, token (.symbol .equal), expr .lowest]) :=
    inferInstance
  obtain ⟨vs, hlegible, h⟩ := hsequence.begins
  obtain ⟨b, hb⟩ := binding_of_sequence h
  exact ⟨vs, hlegible, [b], .one hb⟩

end Phrase

end ExprLang

import ExprLang.Parser.Statement
import ExprLang.Proofs.Parsing.Rounds

/-!
# Reading without bounds

`Parser.expression` is told how many levels of nesting are left, and its repetitions how many rounds
they have at most, so it ends whatever it does. Here are the same routines without these numbers:
they count in the state how deeply the expression is nested, and repeat for as long as there is
something to repeat, so they might go on for ever.

`reader k` is the reader that gives up where calls and rounds are nested deeper than `k`. Reading
ends (`Ends`) if it does not depend on `k` any more, from some `k` on. It does end: from a parser
whose last token is the end of input the routines answer what the bounded ones answer, and the count
is what it was before (`Follows`).
-/

namespace ExprLang.Parser

/-- A parser, and how deeply the expression that it reads is nested. -/
structure Descent where
  parser : Parser
  depth : Nat

/-- Reading that may be given up, in which case nothing is answered. -/
abbrev Unbounded := StateT Descent Option

/-- A step that ends and has nothing to do with nesting. -/
def once {α : Type} (m : Parse α) : Unbounded α :=
  fun s => some ((m s.parser).1, ⟨(m s.parser).2, s.depth⟩)

/-- The routines that call themselves or repeat themselves. -/
structure Routines where
  /-- An expression, up to the first operator that does not bind tighter. -/
  expression : Precedence → Unbounded Expr
  /-- Operators behind a left operand, as long as they bind tighter. -/
  operators : Precedence → Expr → Unbounded Expr
  /-- One or more bindings with commas between them. -/
  bindings : Unbounded (List (Name × Expr))
  /-- One or more arguments with commas between them. -/
  args : Unbounded (List Expr)
  /-- One or more parameters with commas between them. -/
  names : Unbounded (List Name)
  /-- Skips to the token that ends the statement. -/
  skipStatement : Unbounded Unit
  /-- The statements that are left. -/
  statements : Unbounded Program

namespace Routines

variable (r : Routines)

/-- An expression in parentheses. -/
def group : Unbounded Expr := do
  let start ← once advance
  let inner ← r.expression .lowest
  let close ← once (expectClosing .grouping)
  return .group inner (start.span.union close.span)

/-- A conditional, from its `if` on. -/
def conditional : Unbounded Expr := do
  let start ← once advance
  let _ ← once (expect (.symbol .leftParen))
  let condition ← r.expression .lowest
  let _ ← once (expectClosing .condition)
  let resolution ← r.expression .lowest
  let _ ← once (expect (.keyword .elseWord))
  let alternative ← r.expression .lowest
  return .conditional condition resolution alternative (start.span.union alternative.span)

/-- A name, an equals sign and an expression. -/
def binding : Unbounded (Name × Expr) := do
  let name ← once (expect .identifier)
  let _ ← once (expect (.symbol .equal))
  let value ← r.expression .lowest
  return (name.toName, value)

/-- Bindings and their body, from the `let` on. -/
def letIn : Unbounded Expr := do
  let start ← once advance
  let bindings ← r.bindings
  once bodyMarker
  let body ← r.expression .lowest
  return .letIn bindings body (start.span.union body.span)

/-- A call, from the name of the function on. -/
def call : Unbounded Expr := do
  let name ← once advance
  let _ ← once advance
  let args ←
    if (← get).parser.current.kind = .symbol .rightParen then pure []
    else r.args
  let close ← once (expectClosing .call)
  return .call name.toName args (name.span.union close.span)

/-- An operand without operators of its own. -/
def term : Unbounded Expr := do
  let s ← get
  match s.parser.current.kind with
  | .symbol .leftParen => r.group
  | .keyword .ifWord => r.conditional
  | .keyword .letWord => r.letIn
  | .identifier =>
    if (s.parser.peek 1).kind = .symbol .leftParen then r.call
    else return .var (← once advance).toName
  | .keyword .trueWord | .keyword .falseWord | .constant => return valueExpr (← once advance)
  | _ => return valueExpr (← once (expect .literal))

/-- An operand: a term, or a unary operator with its operand. -/
def operand : Unbounded Expr := do
  match (← get).parser.current.kind.unaryOp? with
  | some op =>
    let start ← once advance
    let inner ← r.expression .unary
    return .unary op inner (start.span.union inner.span)
  | none => r.term

/-- The parameters of a declaration, up to its closing parenthesis. -/
def params : Unbounded (List Name) := do
  if (← get).parser.current.kind = .identifier then r.names
  else return []

/-- A declaration, from its first keyword on. -/
def declaration : Unbounded Expr := do
  let start ← once advance
  let name ← once (expect .identifier)
  let _ ← once (expect (.symbol .leftParen))
  let params ← r.params
  let _ ← once (expectClosing .declaration)
  let _ ← once (expect (.symbol .arrow))
  let body ← r.expression .lowest
  return .declaration name.toName params body (start.span.union body.span)

/-- A declaration or an expression. -/
def statementExpr : Unbounded Expr := do
  if (← get).parser.current.kind = .keyword .functionWord then r.declaration
  else r.expression .lowest

/-- One statement and the semicolon behind it. -/
def statement : Unbounded (Option Expr) := do
  once (modify fun p => { p with recovering := false })
  let e ← r.statementExpr
  once terminator
  if (← get).parser.recovering then r.skipStatement
  let s ← get
  once passSemicolon
  return if s.parser.recovering || s.parser.lexErrorBefore s.parser.current.span.start then none
    else some e

/-- The routines, with `r` for the calls and for the rounds that follow. -/
def round : Routines where
  expression parent := do
    let s ← get
    if s.parser.recovering then return standIn s.parser.current.span
    else if maxNesting ≤ s.depth then
      once (report (.nestingTooDeep maxNesting) s.parser.current.span)
      return standIn s.parser.current.span
    else
      modify fun s => { s with depth := s.depth + 1 }
      let left ← r.operand
      let e ← r.operators parent left
      modify fun s => { s with depth := s.depth - 1 }
      return e
  operators parent left := do
    let s ← get
    if s.parser.recovering then return left
    else
      match s.parser.current.kind.binaryOp? with
      | none => return left
      | some op =>
        if op.precedence ≤ parent then return left
        else
          let _ ← once advance
          let right ← r.expression op.precedence
          r.operators parent (.binary left op right (left.span.union right.span))
  bindings := do
    let b ← r.binding
    let s ← get
    if s.parser.recovering || s.parser.current.kind != .symbol .comma then return [b]
    else
      let _ ← once advance
      return b :: (← r.bindings)
  args := do
    let e ← r.expression .lowest
    let s ← get
    if s.parser.recovering || s.parser.current.kind != .symbol .comma then return [e]
    else
      let _ ← once advance
      return e :: (← r.args)
  names := do
    let name ← once (return (← expect .identifier).toName)
    let s ← get
    if s.parser.recovering || s.parser.current.kind != .symbol .comma then return [name]
    else
      let _ ← once advance
      return name :: (← r.names)
  skipStatement := do
    if endsStatement (← get).parser.current.kind then return ()
    else
      let _ ← once advance
      r.skipStatement
  statements := do
    if (← get).parser.current.kind = .endOfInput then return []
    else
      let entry ← r.statement
      return entry :: (← r.statements)

end Routines

/-- The reader that gives up where calls and rounds are nested deeper than a number. -/
def reader : Nat → Routines
  | 0 => ⟨fun _ => failure, fun _ _ => failure, failure, failure, failure, failure, failure⟩
  | k + 1 => (reader k).round

/-! ### Reading that ends -/

section

variable {α β : Type} {u : Routines → Unbounded α} {f : α → Routines → Unbounded β}
  {s s' s'' : Descent} {a a' : α} {b : β}

/-- Reading ends with an answer: every reader that goes deep enough has it. -/
def Ends (u : Routines → Unbounded α) (s : Descent) (a : α) (s' : Descent) : Prop :=
  ∃ K, ∀ k ≥ K, u (reader k) s = some (a, s')

theorem ends_pure : Ends (fun _ => pure a) s a s := ⟨0, fun _ _ => rfl⟩

theorem ends_once (m : Parse α) :
    Ends (fun _ => once m) s (m s.parser).1 ⟨(m s.parser).2, s.depth⟩ := ⟨0, fun _ _ => rfl⟩

theorem ends_modify (f : Descent → Descent) : Ends (fun _ => modify f) s () (f s) :=
  ⟨0, fun _ _ => rfl⟩

theorem Ends.of_get {f : Descent → Routines → Unbounded β} (h : Ends (f s) s b s') :
    Ends (fun r => get >>= fun s => f s r) s b s' := h

theorem Ends.bind (hu : Ends u s a s') (hf : Ends (f a) s' b s'') :
    Ends (fun r => u r >>= fun a => f a r) s b s'' := by
  obtain ⟨K, hK⟩ := hu
  obtain ⟨L, hL⟩ := hf
  refine ⟨max K L, fun k hk => ?_⟩
  show (u (reader k) s).bind (fun x => f x.1 (reader k) x.2) = _
  rw [hK k (by omega)]
  exact hL k (by omega)

theorem Ends.of_pos {c : Prop} [Decidable c] {u' : Routines → Unbounded α} (hc : c)
    (h : Ends u s a s') : Ends (fun r => if c then u r else u' r) s a s' := by
  simpa only [if_pos hc] using h

theorem Ends.of_neg {c : Prop} [Decidable c] {u' : Routines → Unbounded α} (hc : ¬ c)
    (h : Ends u s a s') : Ends (fun r => if c then u' r else u r) s a s' := by
  simpa only [if_neg hc] using h

/-- A call, or one more round, takes a reader that goes one deeper. -/
theorem Ends.of_round (h : Ends (fun r => u r.round) s a s') : Ends u s a s' := by
  obtain ⟨K, hK⟩ := h
  refine ⟨K + 1, fun k hk => ?_⟩
  obtain ⟨j, rfl⟩ := Nat.exists_eq_add_of_le' (show 1 ≤ k by omega)
  exact hK j (by omega)

/-- There is one answer. -/
theorem Ends.unique (h : Ends u s a s') (h' : Ends u s a' s'') : a = a' ∧ s' = s'' := by
  obtain ⟨K, hK⟩ := h
  obtain ⟨L, hL⟩ := h'
  have hanswers := (hK (max K L) (by omega)).symm.trans (hL (max K L) (by omega))
  simpa using hanswers

end

/-! ### Following the bounded routines -/

section

variable {α β : Type} {u u' : Routines → Unbounded α} {m m' : Parse α} {p : Parser} {depth : Nat}
  {f : α → Routines → Unbounded β} {g : α → Parse β}

/-- From a parser, `u` ends and does what `m` does; nesting is what it was before. -/
def Follows (u : Routines → Unbounded α) (m : Parse α) (p : Parser) (depth : Nat) : Prop :=
  p.last.kind = .endOfInput → Ends u ⟨p, depth⟩ (m p).1 ⟨(m p).2, depth⟩

theorem follows_once : Follows (fun _ => once m) m p depth := fun _ => ends_once m

theorem follows_pure (a : α) : Follows (fun _ => pure a) (pure a) p depth := fun _ => ends_pure

theorem follows_get_bind {f : Descent → Routines → Unbounded β} {g : Parser → Parse β}
    (h : Follows (f ⟨p, depth⟩) (g p) p depth) :
    Follows (fun r => get >>= fun s => f s r) (get >>= g) p depth := fun hlast => (h hlast).of_get

theorem follows_ite {c : Prop} [Decidable c] (h : c → Follows u m p depth)
    (h' : ¬ c → Follows u' m' p depth) :
    Follows (fun r => if c then u r else u' r) (if c then m else m') p depth := by
  intro hlast
  by_cases hc : c
  · rw [if_pos hc]
    exact Ends.of_pos hc (h hc hlast)
  · rw [if_neg hc]
    exact Ends.of_neg hc (h' hc hlast)

/-- What the bounded routine does at hand is all that matters. -/
theorem Follows.congr (h : Follows u m' p depth) (hm : p.last.kind = .endOfInput → m p = m' p) :
    Follows u m p depth := by
  intro hlast
  rw [hm hlast]
  exact h hlast

theorem Follows.bind_of_last (h : (m p).2.last = p.last) (hu : Follows u m p depth)
    (hf : ∀ a q, m p = (a, q) → Follows (f a) (g a) q depth) :
    Follows (fun r => u r >>= fun a => f a r) (m >>= g) p depth := by
  intro hlast
  exact (hu hlast).bind (hf (m p).1 (m p).2 rfl (by rw [h, hlast]))

theorem Follows.bind [MovesOn m] (hu : Follows u m p depth)
    (hf : ∀ a q, m p = (a, q) → Follows (f a) (g a) q depth) :
    Follows (fun r => u r >>= fun a => f a r) (m >>= g) p depth :=
  hu.bind_of_last (MovesOn.onward p).last hf

theorem follows_once_bind [MovesOn m] (hf : ∀ a q, m p = (a, q) → Follows (f a) (g a) q depth) :
    Follows (fun r => once m >>= fun a => f a r) (m >>= g) p depth := follows_once.bind hf

theorem Follows.of_round (h : Follows (fun r => u r.round) m p depth) : Follows u m p depth :=
  fun hlast => (h hlast).of_round

end

/-! ### Loops over items with commas between them -/

section

variable {α : Type} {u : Routines → Unbounded α} {loop : Routines → Unbounded (List α)}
  {item : Parse α} [MovesOn item] {p : Parser} {depth : Nat}

/-- A loop that reads an item in every round, and has another round behind a comma. -/
def CommaLoop (u : Routines → Unbounded α) (loop : Routines → Unbounded (List α)) : Prop :=
  ∀ r : Routines, loop r.round = u r >>= fun x => get >>= fun s =>
    if s.parser.recovering || s.parser.current.kind != .symbol .comma then pure [x]
    else once advance >>= fun _ => loop r >>= fun xs => pure (x :: xs)

/-- A comma behind an item is further on than the item. -/
theorem length_tail_lt_of_comma (hlast : p.last.kind = .endOfInput)
    (hcomma : ¬ ((item p).2.recovering || (item p).2.current.kind != .symbol .comma)) :
    (item p).2.tail.ahead.length < p.ahead.length := by
  simp only [Bool.or_eq_true, bne_iff_ne, not_or, not_not] at hcomma
  have honward := MovesOn.onward (m := item) p
  have hlt : (item p).2.tail.ahead.length < (item p).2.ahead.length :=
    length_tail_lt (by rw [honward.last, hlast]) (by simp [hcomma.2])
  have hle := honward.length
  omega

variable (hitem : ∀ p, Follows u item p depth) (hloop : CommaLoop u loop)

include hitem hloop

omit [MovesOn item] in
/-- The last round of the loop. -/
theorem ends_comma_stop (hlast : p.last.kind = .endOfInput)
    (hstop : (item p).2.recovering || (item p).2.current.kind != .symbol .comma) :
    Ends loop ⟨p, depth⟩ [(item p).1] ⟨(item p).2, depth⟩ := by
  refine Ends.of_round ?_
  simp only [hloop _]
  exact (hitem p hlast).bind (Ends.of_get (Ends.of_pos hstop ends_pure))

omit [MovesOn item] in
/-- A round of the loop that another one follows. -/
theorem ends_comma_more {more : List α} {s : Descent} (hlast : p.last.kind = .endOfInput)
    (hcomma : ¬ ((item p).2.recovering || (item p).2.current.kind != .symbol .comma))
    (hmore : Ends loop ⟨(item p).2.tail, depth⟩ more s) :
    Ends loop ⟨p, depth⟩ ((item p).1 :: more) s := by
  refine Ends.of_round ?_
  simp only [hloop _]
  refine (hitem p hlast).bind (Ends.of_get (Ends.of_neg hcomma ?_))
  exact (ends_once advance).bind (hmore.bind ends_pure)

/-- The loop ends, since every round that follows another one is behind a comma. -/
theorem follows_commaSeparated (p : Parser) : Follows loop (commaSeparated item) p depth := by
  induction hlength : p.ahead.length using Nat.strong_induction_on generalizing p with
  | _ k ih =>
    intro hlast
    rw [commaSeparated_apply item hlast, bind_apply]
    unfold commaTail
    rw [get_bind_apply]
    split
    · next hstop => exact ends_comma_stop hitem hloop hlast hstop
    · next hcomma =>
      have hlt := length_tail_lt_of_comma hlast hcomma
      have hlast' : (item p).2.tail.last.kind = .endOfInput := by
        rw [tail, (MovesOn.onward p).last, hlast]
      exact ends_comma_more hitem hloop hlast hcomma (ih _ (hlength ▸ hlt) _ rfl hlast')

end

/-! ### One level of nesting -/

section

variable {p : Parser} {n depth : Nat}

/-- The right operand of an operator ends further on than the operator. -/
theorem length_lt_of_op {op : BinaryOp} (hlast : p.last.kind = .endOfInput)
    (hop : p.current.kind.binaryOp? = some op) :
    (expression n op.precedence p.tail).2.ahead.length < p.ahead.length := by
  have hlt := length_tail_lt hlast (kind_ne_of_binaryOp? hop)
  have hle := (MovesOn.onward (m := expression n op.precedence) p.tail).length
  omega

variable (hsub : ∀ parent p, Follows (·.expression parent) (expression n parent) p depth)

include hsub

theorem follows_group (p : Parser) : Follows Routines.group (group (expression n)) p depth := by
  refine follows_once_bind fun _ q _ => ?_
  refine (hsub .lowest q).bind fun _ q _ => ?_
  exact follows_once_bind fun _ q _ => follows_pure _

theorem follows_conditional (p : Parser) :
    Follows Routines.conditional (conditional (expression n)) p depth := by
  refine follows_once_bind fun _ q _ => ?_
  refine follows_once_bind fun _ q _ => ?_
  refine (hsub .lowest q).bind fun _ q _ => ?_
  refine follows_once_bind fun _ q _ => ?_
  refine (hsub .lowest q).bind fun _ q _ => ?_
  refine follows_once_bind fun _ q _ => ?_
  exact (hsub .lowest q).bind fun _ q _ => follows_pure _

theorem follows_binding (p : Parser) :
    Follows Routines.binding (binding (expression n)) p depth := by
  refine follows_once_bind fun _ q _ => ?_
  refine follows_once_bind fun _ q _ => ?_
  exact (hsub .lowest q).bind fun _ q _ => follows_pure _

theorem follows_bindings (p : Parser) :
    Follows (·.bindings) (commaSeparated (binding (expression n))) p depth :=
  follows_commaSeparated (follows_binding hsub) (fun _ => rfl) p

theorem follows_letIn (p : Parser) : Follows Routines.letIn (letIn (expression n)) p depth := by
  refine follows_once_bind fun _ q _ => ?_
  refine (follows_bindings hsub q).bind fun _ q _ => ?_
  refine follows_once_bind fun _ q _ => ?_
  exact (hsub .lowest q).bind fun _ q _ => follows_pure _

theorem follows_args (p : Parser) :
    Follows (·.args) (commaSeparated (expression n .lowest)) p depth :=
  follows_commaSeparated (hsub .lowest) (fun _ => rfl) p

theorem follows_call (p : Parser) : Follows Routines.call (call (expression n)) p depth := by
  refine follows_once_bind fun _ q _ => ?_
  refine follows_once_bind fun _ q _ => follows_get_bind (follows_ite (fun _ => ?_) fun _ => ?_)
  · exact (follows_pure []).bind fun _ q _ => follows_once_bind fun _ q _ => follows_pure _
  · refine (follows_args hsub q).bind fun _ q _ => ?_
    exact follows_once_bind fun _ q _ => follows_pure _

theorem follows_term (p : Parser) : Follows Routines.term (term (expression n)) p depth := by
  refine follows_get_bind ?_
  dsimp only
  cases p.current.kind with
  | symbol s =>
    cases s with
    | leftParen => exact follows_group hsub p
    | _ => exact follows_once_bind fun _ q _ => follows_pure _
  | keyword word =>
    cases word with
    | ifWord => exact follows_conditional hsub p
    | letWord => exact follows_letIn hsub p
    | _ => exact follows_once_bind fun _ q _ => follows_pure _
  | identifier =>
    refine follows_ite (fun _ => follows_call hsub p) fun _ => ?_
    exact follows_once_bind fun _ q _ => follows_pure _
  | _ => exact follows_once_bind fun _ q _ => follows_pure _

theorem follows_operand (p : Parser) :
    Follows Routines.operand (operand (expression n)) p depth := by
  refine follows_get_bind ?_
  dsimp only
  cases p.current.kind.unaryOp? with
  | some op =>
    refine follows_once_bind fun _ q _ => ?_
    exact (hsub .unary q).bind fun _ q _ => follows_pure _
  | none => exact follows_term hsub p

/-- The loop over operators ends, since every round reads an operator. -/
theorem follows_operators (parent : Precedence) (left : Expr) (p : Parser) :
    Follows (·.operators parent left) (chain (expression n) parent left) p depth := by
  induction hlength : p.ahead.length using Nat.strong_induction_on generalizing left p with
  | _ k ih =>
    intro hlast
    refine Follows.of_round (Follows.congr ?_ (chain_apply _ parent left)) hlast
    refine follows_get_bind (follows_ite (fun _ => follows_pure left) fun _ => ?_)
    dsimp only
    cases hop : p.current.kind.binaryOp? with
    | none => exact follows_pure left
    | some op =>
      refine follows_ite (fun _ => follows_pure left) fun _ => follows_once_bind fun _ q hq => ?_
      cases hq
      refine (hsub op.precedence p.tail).bind fun right r hr => ?_
      have hlt := length_lt_of_op (n := n) hlast hop
      rw [hr] at hlt
      exact ih _ (hlength ▸ hlt) _ _ rfl

end

/-- **An expression** is read as if the levels of nesting that are left were known. -/
theorem follows_expression (n depth : Nat) (hn : n = maxNesting - depth) (parent : Precedence)
    (p : Parser) : Follows (·.expression parent) (expression n parent) p depth := by
  refine Follows.of_round ?_
  induction n generalizing depth parent p with
  | zero =>
    have hdeep : maxNesting ≤ depth := by omega
    unfold expression
    refine follows_get_bind (follows_ite (fun _ => follows_pure _) fun _ => ?_)
    simp only [hdeep, ↓reduceIte]
    exact follows_once_bind fun _ q _ => follows_pure _
  | succ n ih =>
    have hdeep : ¬ maxNesting ≤ depth := by omega
    have hsub (parent : Precedence) (p : Parser) :
        Follows (·.expression parent) (expression n parent) p (depth + 1) :=
      (ih (depth + 1) (by omega) parent p).of_round
    unfold expression
    refine follows_get_bind (follows_ite (fun _ => follows_pure _) fun _ => ?_)
    simp only [hdeep, ↓reduceIte]
    intro hlast
    have hlast' : (operand (expression n) p).2.last.kind = .endOfInput := by
      rw [(MovesOn.onward p).last, hlast]
    refine (ends_modify fun s => { s with depth := s.depth + 1 }).bind ?_
    refine (follows_operand hsub p hlast).bind ?_
    refine (follows_operators hsub parent _ _ hlast').bind ?_
    exact (ends_modify fun s => { s with depth := s.depth - 1 }).bind ends_pure

end ExprLang.Parser

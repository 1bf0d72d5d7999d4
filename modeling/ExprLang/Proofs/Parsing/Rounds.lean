import ExprLang.Proofs.Parsing.SideBySide

/-!
# Steps that only go on

No routine of the reader goes back: it leaves at most as many tokens ahead as there were, and once
an error is known it records nothing more (`MovesOn`). This holds of every parser, in or behind a
statement, so it is a class, and the instance of a routine is put together from those of its steps.

From it follows that the number of rounds of a repetition does not matter, as long as there are as
many as tokens. `commaSeparated_apply` and `chain_apply` are the repetitions without their rounds.
-/

namespace ExprLang.Parser

variable {α β : Type} {p q r : Parser}

/-- A parser and what a step can make of it. -/
structure Onward (p q : Parser) : Prop where
  last : q.last = p.last
  length : q.ahead.length ≤ p.ahead.length
  recovering : p.recovering = true → q.recovering = true ∧ q.errors = p.errors

theorem Onward.refl (p : Parser) : Onward p p := ⟨rfl, Nat.le_refl _, fun h => ⟨h, rfl⟩⟩

theorem Onward.trans (h : Onward p q) (h' : Onward q r) : Onward p r where
  last := h'.last.trans h.last
  length := Nat.le_trans h'.length h.length
  recovering := by
    intro hp
    obtain ⟨hq, herrors⟩ := h.recovering hp
    obtain ⟨hr, herrors'⟩ := h'.recovering hq
    exact ⟨hr, herrors'.trans herrors⟩

/-- A step that goes on, whatever parser it begins with. -/
class MovesOn (m : Parse α) : Prop where
  onward : ∀ p, Onward p (m p).2

/-! ### Single steps -/

instance (a : α) : MovesOn (pure a : Parse α) := ⟨Onward.refl⟩

instance : MovesOn (get : Parse Parser) := ⟨Onward.refl⟩

instance (m : Parse α) (f : α → Parse β) [MovesOn m] [∀ a, MovesOn (f a)] : MovesOn (m >>= f) :=
  ⟨fun p => (MovesOn.onward p).trans (MovesOn.onward (m p).2)⟩

theorem movesOn_get_bind {f : Parser → Parse β} (h : ∀ p, MovesOn (f p)) : MovesOn (get >>= f) :=
  ⟨fun p => (h p).onward p⟩

instance (c : Prop) [Decidable c] (m m' : Parse α) [MovesOn m] [MovesOn m'] :
    MovesOn (if c then m else m') := by
  split <;> infer_instance

instance : MovesOn advance := by
  refine ⟨fun p => ⟨rfl, ?_, fun h => ⟨h, rfl⟩⟩⟩
  show p.ahead.tail.length ≤ p.ahead.length
  rw [List.length_tail]
  omega

instance (e : SyntaxError) (span : Span) : MovesOn (report e span) := by
  constructor
  intro p
  rw [report_apply]
  split
  · exact ⟨rfl, Nat.le_refl _, fun _ => ⟨rfl, rfl⟩⟩
  · next h =>
    rw [Bool.or_eq_true, not_or] at h
    exact ⟨rfl, Nat.le_refl _, fun hrec => absurd hrec h.1⟩

instance (kind : TokenKind) : MovesOn (expect kind) := by
  unfold expect
  infer_instance

instance (context : ParenContext) : MovesOn (expectClosing context) := by
  unfold expectClosing
  infer_instance

instance : MovesOn bodyMarker := by
  unfold bodyMarker
  infer_instance

instance : MovesOn terminator := by
  unfold terminator
  infer_instance

/-! ### Lists with commas -/

section

variable {item : Parse α} [MovesOn item]

instance (rounds : Nat) : MovesOn (commaList item rounds) := by
  induction rounds with
  | zero =>
    unfold commaList
    infer_instance
  | succ rounds ih =>
    unfold commaList
    infer_instance

instance : MovesOn (commaSeparated item) := by
  unfold commaSeparated
  infer_instance

theorem length_tail_lt (hlast : p.last.kind = .endOfInput)
    (hcurrent : p.current.kind ≠ .endOfInput) : p.tail.ahead.length < p.ahead.length := by
  cases hahead : p.ahead with
  | nil =>
    rw [current, hahead] at hcurrent
    exact absurd hlast hcurrent
  | cons t ts => simp [tail, hahead]

/-- With no token ahead there is no comma behind an item. -/
theorem current_of_length_eq_zero {m : Parse α} [MovesOn m] (hlast : p.last.kind = .endOfInput)
    (h : p.ahead.length = 0) : (m p).2.current.kind = .endOfInput := by
  have honward := MovesOn.onward (m := m) p
  have hnil : (m p).2.ahead = [] := by
    have hlength := honward.length
    apply List.length_eq_zero_iff.1
    omega
  rw [current, hnil, honward.last]
  exact hlast

theorem commaList_rounds {n n' : Nat} (hlast : p.last.kind = .endOfInput)
    (hn : p.ahead.length ≤ n) (hn' : p.ahead.length ≤ n') :
    commaList item n p = commaList item n' p := by
  induction n using Nat.strong_induction_on generalizing n' p with
  | _ n ih =>
    have hstop : p.ahead.length = 0 → (item p).2.current.kind ≠ .symbol .comma := by
      intro hzero
      rw [current_of_length_eq_zero hlast hzero]
      nofun
    have honward := MovesOn.onward (m := item) p
    rw [commaList_apply item n p fun h => hstop (by omega),
      commaList_apply item n' p fun h => hstop (by omega), bind_apply, bind_apply]
    generalize (item p).2 = q at *
    unfold commaRest
    rw [get_bind_apply, get_bind_apply]
    split
    · rfl
    · next hcomma =>
      rw [Bool.or_eq_true, bne_iff_ne, not_or, not_not] at hcomma
      have hlastq : q.last.kind = .endOfInput := by rw [honward.last, hlast]
      have hlt := length_tail_lt hlastq (by rw [hcomma.2]; nofun)
      have hlength := honward.length
      have hmore : commaList item (n - 1) q.tail = commaList item (n' - 1) q.tail :=
        ih (n - 1) (by omega) hlastq (by omega) (by omega)
      rw [bind_of_eq q.advance_apply, bind_of_eq q.advance_apply, bind_apply, bind_apply, hmore]

/-- What follows an item of a list, with as many rounds as it takes. -/
def commaTail (item : Parse α) (x : α) : Parse (List α) := do
  let p ← get
  if p.recovering || p.current.kind != .symbol .comma then return [x]
  else
    let _ ← advance
    return x :: (← commaSeparated item)

instance (x : α) : MovesOn (commaTail item x) := by
  unfold commaTail
  infer_instance

/-- **A list with commas** is an item and what follows it. -/
theorem commaSeparated_apply (item : Parse α) [MovesOn item] (hlast : p.last.kind = .endOfInput) :
    commaSeparated item p = (item >>= commaTail item) p := by
  have honward := MovesOn.onward (m := item) p
  have hle := p.ahead_le
  have hstop : p.size = 0 → (item p).2.current.kind ≠ .symbol .comma := by
    intro hzero
    rw [current_of_length_eq_zero hlast (by omega)]
    nofun
  unfold commaSeparated
  rw [get_bind_apply, commaList_apply item p.size p hstop, bind_apply, bind_apply]
  generalize (item p).2 = q at *
  unfold commaRest commaTail
  rw [get_bind_apply, get_bind_apply]
  split
  · rfl
  · next hcomma =>
    rw [Bool.or_eq_true, bne_iff_ne, not_or, not_not] at hcomma
    have hlastq : q.last.kind = .endOfInput := by rw [honward.last, hlast]
    have hlt := length_tail_lt hlastq (by rw [hcomma.2]; nofun)
    have hlength := honward.length
    have hmore : commaList item (p.size - 1) q.tail = commaSeparated item q.tail :=
      commaList_rounds hlastq (by omega) q.tail.ahead_le
    rw [bind_of_eq q.advance_apply, bind_of_eq q.advance_apply, bind_apply, bind_apply, hmore]

end

/-! ### Operators -/

section

variable {sub : Precedence → Parse Expr} [∀ parent, MovesOn (sub parent)]

instance (parent : Precedence) (rounds : Nat) (left : Expr) :
    MovesOn (operators sub parent rounds left) := by
  induction rounds generalizing left with
  | zero =>
    unfold operators
    infer_instance
  | succ rounds ih =>
    unfold operators
    apply movesOn_get_bind
    intro p
    split
    · infer_instance
    · split <;> infer_instance

/-- The operators behind a left operand, with as many rounds as it takes. -/
def chain (sub : Precedence → Parse Expr) (parent : Precedence) (left : Expr) : Parse Expr := do
  operators sub parent (← get).size left

instance (parent : Precedence) (left : Expr) : MovesOn (chain sub parent left) := by
  unfold chain
  infer_instance

theorem kind_ne_of_binaryOp? {kind : TokenKind} {op : BinaryOp} (h : kind.binaryOp? = some op) :
    kind ≠ .endOfInput := by
  rintro rfl
  cases h

/-- With no token ahead there is no operator. -/
theorem binaryOp?_of_length_eq_zero (hlast : p.last.kind = .endOfInput) (h : p.ahead.length = 0) :
    p.current.kind.binaryOp? = none := by
  have hend : p.current.kind = .endOfInput := current_of_length_eq_zero (m := pure ()) hlast h
  rw [hend]
  rfl

theorem operators_rounds {parent : Precedence} {n n' : Nat} {left : Expr}
    (hlast : p.last.kind = .endOfInput) (hn : p.ahead.length ≤ n) (hn' : p.ahead.length ≤ n') :
    operators sub parent n left p = operators sub parent n' left p := by
  induction n using Nat.strong_induction_on generalizing n' left p with
  | _ n ih =>
    have hstop : p.ahead.length = 0 → p.current.kind.binaryOp? = none :=
      binaryOp?_of_length_eq_zero hlast
    rw [operators_apply sub parent n left p fun h => hstop (by omega),
      operators_apply sub parent n' left p fun h => hstop (by omega)]
    unfold operatorRound
    rw [get_bind_apply, get_bind_apply]
    split
    · rfl
    · cases hop : p.current.kind.binaryOp? with
      | none => rfl
      | some op =>
        dsimp only
        split
        · rfl
        · have hlt := length_tail_lt hlast (kind_ne_of_binaryOp? hop)
          have honward := MovesOn.onward (m := sub op.precedence) p.tail
          have hlength := honward.length
          rw [bind_of_eq p.advance_apply, bind_of_eq p.advance_apply, bind_apply, bind_apply]
          exact ih (n - 1) (by omega) (by rw [honward.last]; exact hlast) (by omega) (by omega)

/-- An operator and its right operand, and the operators behind them. -/
def chainRound (sub : Precedence → Parse Expr) (parent : Precedence) (left : Expr) :
    Parse Expr := do
  let p ← get
  if p.recovering then return left
  else
    match p.current.kind.binaryOp? with
    | none => return left
    | some op =>
      if op.precedence ≤ parent then return left
      else
        let _ ← advance
        let right ← sub op.precedence
        chain sub parent (.binary left op right (left.span.union right.span))

/-- **The operators behind a left operand**: one of them, and those behind it. -/
theorem chain_apply (sub : Precedence → Parse Expr) [∀ parent, MovesOn (sub parent)]
    (parent : Precedence) (left : Expr) (hlast : p.last.kind = .endOfInput) :
    chain sub parent left p = chainRound sub parent left p := by
  have hle := p.ahead_le
  unfold chain
  rw [get_bind_apply, operators_apply sub parent p.size left p fun h =>
    binaryOp?_of_length_eq_zero hlast (by omega)]
  unfold operatorRound chainRound
  rw [get_bind_apply, get_bind_apply]
  split
  · rfl
  · cases hop : p.current.kind.binaryOp? with
    | none => rfl
    | some op =>
      dsimp only
      split
      · rfl
      · have hlt := length_tail_lt hlast (kind_ne_of_binaryOp? hop)
        have honward := MovesOn.onward (m := sub op.precedence) p.tail
        have hlength := honward.length
        rw [bind_of_eq p.advance_apply, bind_of_eq p.advance_apply, bind_apply, bind_apply]
        exact operators_rounds (by rw [honward.last]; exact hlast) (by omega) (Parser.ahead_le _)

section

variable {parent : Precedence} {left : Expr} {op : BinaryOp}

/-- An operator that binds tighter is read, and those behind it. -/
theorem chain_of_op (sub : Precedence → Parse Expr) [∀ parent, MovesOn (sub parent)]
    (hlast : p.last.kind = .endOfInput) (hclean : p.recovering = false)
    (hop : p.current.kind.binaryOp? = some op) (habove : parent < op.precedence) :
    chain sub parent left p = (advance >>= fun _ => sub op.precedence >>= fun right =>
      chain sub parent (.binary left op right (left.span.union right.span))) p := by
  have hnot : ¬ op.precedence ≤ parent := Nat.not_le_of_lt habove
  rw [chain_apply sub parent left hlast]
  unfold chainRound
  rw [get_bind_apply, hclean, hop, if_neg Bool.false_ne_true]
  dsimp only
  rw [if_neg hnot]

/-- Any other token ends the expression. -/
theorem chain_of_stop (sub : Precedence → Parse Expr) [∀ parent, MovesOn (sub parent)]
    (hlast : p.last.kind = .endOfInput)
    (hstop : ∀ op ∈ p.current.kind.binaryOp?, op.precedence ≤ parent) :
    chain sub parent left p = (left, p) := by
  rw [chain_apply sub parent left hlast]
  unfold chainRound
  rw [get_bind_apply]
  split
  · rfl
  · cases hop : p.current.kind.binaryOp? with
    | none => rfl
    | some op =>
      dsimp only
      rw [if_pos (hstop op hop)]
      rfl

end

/-! ### Expressions and statements -/

instance : MovesOn (group sub) := by
  unfold group
  infer_instance

instance : MovesOn (conditional sub) := by
  unfold conditional
  infer_instance

instance : MovesOn (binding sub) := by
  unfold binding
  infer_instance

instance : MovesOn (letIn sub) := by
  unfold letIn
  infer_instance

instance : MovesOn (call sub) := by
  unfold call
  infer_instance

instance : MovesOn (term sub) := by
  unfold term
  apply movesOn_get_bind
  intro p
  split <;> infer_instance

instance : MovesOn (operand sub) := by
  unfold operand
  apply movesOn_get_bind
  intro p
  split <;> infer_instance

end

instance (n : Nat) (parent : Precedence) : MovesOn (expression n parent) := by
  induction n generalizing parent with
  | zero =>
    unfold expression
    infer_instance
  | succ n ih =>
    unfold expression
    infer_instance

instance : MovesOn params := by
  unfold params
  infer_instance

end ExprLang.Parser

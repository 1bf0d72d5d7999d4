import ExprLang.Proofs.Grammar.FirstError
import ExprLang.Proofs.Statements.Acceptance
import ExprLang.Proofs.Statements.Reading

/-!
# Syntax errors stand at the first impossible token

An error of the reader, unless it is about the nesting, stands at the first token of its slot with
which the slot cannot go on: what stands before it can be completed to a statement, and together
with it not, not even to a statement that is nested more deeply than the reader allows.
-/

namespace ExprLang

/-! ### Words and tokens -/

/-- The words that a token can be. -/
def Word.Real : Word → Prop
  | .plain kind => kind.isValue = false ∧ kind ≠ .identifier
  | .name _ | .value _ => True

theorem Word.Real.exists_token {w : Word} (h : w.Real) : ∃ t : Token, t.word = w := by
  cases w with
  | plain kind => exact ⟨.placeholder kind 0, Token.word_of_plain rfl h.1 h.2⟩
  | name text => exact ⟨⟨⟨.identifier, text, none⟩, .point 0⟩, rfl⟩
  | value l => exact ⟨⟨⟨.literal, "", l⟩, .point 0⟩, rfl⟩

theorem exists_tokens {ws : List Word} (h : ∀ w ∈ ws, w.Real) :
    ∃ ts : List Token, ts.map Token.word = ws := by
  induction ws with
  | nil => exact ⟨[], rfl⟩
  | cons w ws ih =>
    rw [List.forall_mem_cons] at h
    obtain ⟨t, rfl⟩ := h.1.exists_token
    obtain ⟨ts, rfl⟩ := ih h.2
    exact ⟨t :: ts, rfl⟩

theorem real_symbol (s : Symbol) : (Word.plain (.symbol s)).Real := ⟨rfl, by rintro ⟨⟩⟩

theorem real_endsStatement {kind : TokenKind} (h : Parser.endsStatement kind) :
    (Word.plain kind).Real := by
  unfold Parser.endsStatement at h
  split at h
  · exact ⟨rfl, nofun⟩
  · exact ⟨rfl, nofun⟩
  · cases h

namespace Expr

theorem real_nameWords : ∀ names : List Name, ∀ w ∈ nameWords names, w.Real
  | [] => nofun
  | [name] => List.forall_mem_singleton.2 trivial
  | _ :: next :: names => by
    simp only [nameWords, List.forall_mem_cons]
    exact ⟨trivial, real_symbol _, real_nameWords (next :: names)⟩

mutual

theorem real_words : ∀ e : Expr, ∀ w ∈ e.words, w.Real
  | literal .. | var _ => List.forall_mem_singleton.2 trivial
  | unary _ operand _ => List.forall_mem_cons.2 ⟨real_symbol _, operand.real_words⟩
  | binary left _ right _ => by
    rw [words, List.forall_mem_append, List.forall_mem_cons]
    exact ⟨left.real_words, real_symbol _, right.real_words⟩
  | group inner _ => by
    rw [words, List.forall_mem_cons, List.forall_mem_append, List.forall_mem_singleton]
    exact ⟨real_symbol _, inner.real_words, real_symbol _⟩
  | conditional c r a _ => by
    simp only [words, List.forall_mem_cons, List.forall_mem_append]
    exact ⟨⟨rfl, nofun⟩, real_symbol _, c.real_words, real_symbol _, r.real_words, ⟨rfl, nofun⟩,
      a.real_words⟩
  | letIn bindings body _ => by
    simp only [words, List.forall_mem_cons, List.forall_mem_append]
    exact ⟨⟨rfl, nofun⟩, real_bindingWords bindings, ⟨rfl, nofun⟩, body.real_words⟩
  | declaration _ params body _ => by
    simp only [words, List.forall_mem_cons, List.forall_mem_append]
    exact ⟨⟨rfl, nofun⟩, trivial, real_symbol _, real_nameWords params, real_symbol _,
      real_symbol _, body.real_words⟩
  | call _ args _ => by
    rw [words, List.forall_mem_cons, List.forall_mem_cons, List.forall_mem_append,
      List.forall_mem_singleton]
    exact ⟨trivial, real_symbol _, real_argWords args, real_symbol _⟩

theorem real_bindingWords : ∀ bindings : List (Name × Expr), ∀ w ∈ bindingWords bindings, w.Real
  | [] => nofun
  | [(_, value)] => by
    simp only [bindingWords, List.forall_mem_cons]
    exact ⟨trivial, real_symbol _, value.real_words⟩
  | (_, value) :: next :: more => by
    rw [bindingWords, List.forall_mem_cons, List.forall_mem_cons, List.forall_mem_append,
      List.forall_mem_cons]
    · exact ⟨trivial, real_symbol _, value.real_words, real_symbol _,
        real_bindingWords (next :: more)⟩
    · nofun

theorem real_argWords : ∀ args : List Expr, ∀ w ∈ argWords args, w.Real
  | [] => nofun
  | [e] => e.real_words
  | e :: next :: more => by
    rw [argWords, List.forall_mem_append, List.forall_mem_cons]
    · exact ⟨e.real_words, real_symbol _, real_argWords (next :: more)⟩
    · nofun

end

end Expr

/-! ### A slot and the end of input behind it -/

namespace Slot

variable {s : Slot}

/-- A parser in front of a slot, with the end of input behind it or as its terminator. -/
def reader (lexErrors : List (Located LexicalError)) (s : Slot) : Parser :=
  if s.terminator.kind = .endOfInput then s.parser lexErrors
  else
    { ahead := s.places
      last := .placeholder .endOfInput 0
      lexErrors := lexErrors
      size := s.places.length
      statementStart := s.start
      ahead_le := Nat.le_refl _ }

theorem reader_frame (lexErrors : List (Located LexicalError)) (s : Slot) :
    (s.reader lexErrors).lexErrors = lexErrors ∧ (s.reader lexErrors).statementStart = s.start ∧
      (s.reader lexErrors).errors = #[] ∧ (s.reader lexErrors).recovering = false := by
  unfold reader
  split <;> exact ⟨rfl, rfl, rfl, rfl⟩

theorem facing_reader (lexErrors : List (Located LexicalError)) (s : Slot) :
    Parser.Facing (s.reader lexErrors) s.places := by
  unfold reader
  split
  · next hend => exact ⟨rfl, hend, List.prefix_refl _⟩
  · exact ⟨rfl, rfl, List.prefix_append _ _⟩

theorem exists_moves_reader (lexErrors : List (Located LexicalError)) (s : Slot) :
    ∃ q, Parser.Moves (s.reader lexErrors) s.tokens q := by
  unfold reader
  split
  · exact ⟨_, Parser.Moves.of_ahead (List.append_nil _).symm⟩
  · exact ⟨_, Parser.Moves.of_ahead rfl⟩

theorem Whole.closed_reader (h : s.Whole) (lexErrors : List (Located LexicalError)) :
    (s.reader lexErrors).Closed := by
  have htokens : ∀ t ∈ s.tokens, t.kind ≠ .endOfInput := fun t ht =>
    (Parser.inStatement_iff.1 (h.tokens t ht)).2
  refine ⟨(facing_reader lexErrors s).last, ?_⟩
  unfold reader
  split
  · exact htokens
  · next hend =>
    show ∀ t ∈ s.tokens ++ [s.terminator], t.kind ≠ .endOfInput
    rw [List.forall_mem_append, List.forall_mem_singleton]
    exact ⟨htokens, hend⟩

theorem Whole.slot_reader (h : s.Whole) (lexErrors : List (Located LexicalError)) :
    (s.reader lexErrors).slot = s := by
  unfold reader Parser.slot Parser.pending Parser.endToken
  split
  · show Slot.mk s.start (s.tokens.takeWhile Parser.inStatement)
      ((s.tokens.dropWhile Parser.inStatement).headD s.terminator) = s
    rw [List.takeWhile_eq_self_iff.2 h.tokens, List.dropWhile_eq_nil_iff.2 h.tokens]
    rfl
  · show Slot.mk s.start ((s.tokens ++ [s.terminator]).takeWhile Parser.inStatement)
      (((s.tokens ++ [s.terminator]).dropWhile Parser.inStatement).headD _) = s
    rw [List.takeWhile_append_of_pos h.tokens, List.dropWhile_append_of_pos h.tokens,
      List.takeWhile_cons_of_neg (by rw [h.terminator]; exact Bool.false_ne_true),
      List.dropWhile_cons_of_neg (by rw [h.terminator]; exact Bool.false_ne_true), List.append_nil]
    rfl

end Slot

/-! ### The first error of a slot -/

namespace Parser

/-- A statement up to its terminator, with `n` levels of nesting left. -/
def wholeStatementWithin (n : Nat) : Parse Expr := do
  let e ← statementWithin n
  terminator
  return e

theorem prompt_wholeStatementWithin (n : Nat) (p : Parser) :
    Prompt (wholeStatementWithin n) (fun k => wholeStatementWithin (k + n)) p
      Phrase.statement := by
  refine Prompt.mono (P := Phrase.sequence [Phrase.statement, Phrase.sequence []]) ?_ ?_
  · refine (prompt_statementWithin n p).seq fun e q _ => ?_
    exact (prompt_terminator q).seq fun _ q _ => prompt_pure e
  · rintro _ ⟨ts, _, rfl, hts, _, _, rfl, rfl, rfl⟩
    rwa [List.append_nil, List.append_nil]

theorem wholeStatement_eq_within : wholeStatement = wholeStatementWithin maxNesting := rfl

/-- A statement in front of its terminator is read without an error, with enough levels. -/
theorem wholeStatementWithin_eq {e : Expr} {ts : List Token} {n : Nat} {p q : Parser}
    (h : Written e ts) (hs : e.isStatement) (hnest : e.nest ≤ n) (hmoves : Moves p ts q)
    (hrec : q.recovering = false) (hends : endsStatement q.current.kind) :
    wholeStatementWithin n p = (e, q) := by
  unfold wholeStatementWithin
  rw [bind_of_eq (statementWithin_eq h hs hnest hmoves hrec hends),
    bind_of_eq (terminator_of_ends hends)]
  rfl

/-- Tokens of a statement and the one behind them are places of it. -/
theorem Facing.prefix_places {p : Parser} {us : List Token} {t : Token}
    (h : Facing p (us ++ [t])) (hin : ∀ u ∈ us, inStatement u) : us ++ [t] <+: p.places := by
  induction us generalizing p with
  | nil =>
    obtain ⟨ts, hts⟩ := p.places_eq_cons
    rw [hts, h.current]
    exact List.prefix_append [t] ts
  | cons u us ih =>
    rw [List.forall_mem_cons] at hin
    have hcurrent : p.current = u := h.current
    have htail : Facing p.tail (us ++ [t]) := by
      have hmoves : Moves p [u] p.tail := by
        cases us <;> exact h.tail
      exact Facing.behind h hmoves
    have hends : inStatement p.endToken = false := congrArg not (headD_dropWhile_ends h.last)
    rw [(places_tail hends (hcurrent ▸ hin.1)).1, hcurrent, List.cons_append,
      List.prefix_cons_inj]
    exact ih htail hin.2

end Parser

/-- An error of a slot, unless it is about the nesting, stands at a token that is impossible behind
those before it. -/
structure Slot.Stops (lexErrors : List (Located LexicalError)) (s : Slot)
    (x : Located SyntaxError) (before : List Token) (t : Token) : Prop where
  places : before ++ [t] <+: s.places
  inside : ∀ u ∈ before, Parser.inStatement u
  span : x.span = t.span
  unmasked : ¬ ∃ y ∈ lexErrors, s.start ≤ y.span.start ∧ y.span.start ≤ t.span.start
  cause : (∃ limit, x.val = .nestingTooDeep limit) ∨
    Parser.Impossible (fun k => Parser.wholeStatementWithin (k + Parser.maxNesting))
      Phrase.statement before t x.val

namespace Slot

variable {lexErrors : List (Located LexicalError)} {s : Slot} {x : Located SyntaxError}
  {before : List Token} {t : Token}

/-- What is recorded when the tokens of a slot are read. -/
theorem Whole.errors_reader (h : s.Whole) :
    (Parser.wholeStatement (s.reader lexErrors)).2.errors.toList = s.errors lexErrors := by
  obtain ⟨hlex, -, hnone, hclean⟩ := reader_frame lexErrors s
  have hclosed := h.closed_reader lexErrors
  have hslot := h.slot_reader lexErrors
  generalize s.reader lexErrors = p at *
  obtain ⟨-, herrors⟩ := Parser.statement_slot hclosed
  have hsame : { p with recovering := false } = p := by rw [← hclean]
  rw [(Parser.statement_eq hclosed).2.1, hsame] at herrors
  rw [herrors, hnone, hslot, hlex]
  rfl

/-- Every error of a slot stands where reading stops. -/
theorem Whole.exists_stops (h : s.Whole) (hx : x ∈ s.errors lexErrors) :
    ∃ before t, s.Stops lexErrors x before t := by
  rw [← h.errors_reader] at hx
  obtain ⟨hlex, hstart, hnone, hclean⟩ := reader_frame lexErrors s
  have hslot := h.slot_reader lexErrors
  have hlast := (facing_reader lexErrors s).last
  generalize s.reader lexErrors = p at *
  rw [Parser.wholeStatement_eq_within] at hx
  rcases Parser.prompt_wholeStatementWithin Parser.maxNesting p hlast hclean with
    ⟨ts, hpasses⟩ | ⟨us, t, e, hfails⟩
  · rw [hpasses.moves.errors, hnone] at hx
    cases hx
  · rw [hfails.errors, hnone] at hx
    by_cases hmasked : p.lexErrorUpTo t.span.start
    · rw [if_pos hmasked] at hx
      cases hx
    · rw [if_neg hmasked] at hx
      obtain rfl : x = ⟨e, t.span⟩ := List.mem_singleton.1 hx
      refine ⟨us, t, ?_, hfails.inside, rfl, ?_, hfails.cause⟩
      · rw [← hslot]
        exact hfails.facing.prefix_places hfails.inside
      · rwa [Parser.lexErrorUpTo_iff, hlex, hstart] at hmasked

/-- The tokens before a recorded error have a text. -/
theorem Stops.legible {line : String} (h : s.Stops (tokenize line).2 x before t)
    (hs : s ∈ slots line) : ∀ u ∈ before, u.word.Legible := by
  intro u hu
  have hplace : u ∈ s.places := h.places.subset (List.mem_append_left _ hu)
  have htoken : u ∈ s.tokens := by
    refine (List.mem_append.1 hplace).resolve_right fun hlast => ?_
    have hin := h.inside u hu
    rw [List.mem_singleton.1 hlast, (whole_of_mem_slots hs).terminator] at hin
    cases hin
  have hlt : u.span.start < t.span.start := by
    have hpairwise := (List.pairwise_flatMap.1 (places_pairwise line)).1 s hs
    have hsplit := List.pairwise_append.1 (hpairwise.sublist h.places.sublist)
    exact hsplit.2.2 u hu t (List.mem_singleton_self t)
  have hmem := mem_tokenize_of_mem_places hs hplace
  have hstart := start_le_of_mem_tokens hs htoken
  refine legible_of_mem_tokenize hmem (flaw?_eq_none hmem fun y hy hyu => ?_)
  exact h.unmasked ⟨y, hy, by omega, by omega⟩

end Slot

/-- Tokens that begin a statement, as words. -/
theorem exists_statement_of_begins {us : List Token} (h : Phrase.statement.Begins us)
    (hlegible : ∀ u ∈ us, u.word.Legible) :
    ∃ e : Expr, e.isStatement ∧ (∀ w ∈ e.words, w.Legible) ∧ us.map Token.word <+: e.words := by
  obtain ⟨vs, hvs, e, hwritten, hstatement⟩ := h
  have hall : ∀ t ∈ us ++ vs, t.word.Legible := List.forall_mem_append.2 ⟨hlegible, hvs⟩
  have hwords := hwritten.words (valued_of_legible hall)
  refine ⟨e, hstatement, ?_, ?_⟩
  · rw [← hwords]
    exact List.forall_mem_map.2 hall
  · rw [← hwords, List.map_append]
    exact List.prefix_append _ _

/-- No statement, with the token that ends it, begins with tokens and an impossible one. -/
theorem Parser.Impossible.not_prefix {n : Nat} {P : Phrase} {us : List Token} {t : Token}
    {x : SyntaxError}
    (h : Parser.Impossible (fun k => Parser.wholeStatementWithin (k + n)) P us t x) {e : Expr}
    (hs : e.isStatement) {kind : TokenKind} (hkind : Parser.endsStatement kind) :
    ¬ (us ++ [t]).map Token.word <+: e.words ++ [.plain kind] := by
  rintro ⟨ws, hws⟩
  -- the words that follow are tokens, too
  have hreal : ∀ w ∈ (us ++ [t]).map Token.word ++ ws, w.Real := by
    rw [hws, List.forall_mem_append, List.forall_mem_singleton]
    exact ⟨e.real_words, real_endsStatement hkind⟩
  obtain ⟨vs, rfl⟩ := exists_tokens (List.forall_mem_append.1 hreal).2
  rw [← List.map_append] at hws
  obtain ⟨ts, cs, htokens, hts, hcs⟩ := List.map_eq_append_iff.1 hws
  obtain ⟨c, rfl, hc⟩ := List.map_eq_singleton_iff.1 hcs
  obtain ⟨d, hd, hform⟩ := exists_written_statement e hs hts
  rw [← Expr.isStatement_eq_of_form hform] at hs
  -- with its nesting to spare, the statement is read without an error
  have hfacing := Slot.facing_reader [] ⟨0, ts, c⟩
  obtain ⟨q, hmoves⟩ := Slot.exists_moves_reader [] ⟨0, ts, c⟩
  have hq : Parser.Facing q [c] := hfacing.moves hmoves
  have hread := Parser.wholeStatementWithin_eq hd hs (Nat.le_add_right d.nest n) hmoves hq.clean
    (by rwa [hq.current, Token.kind_of_word_plain hc])
  have hfront : Parser.Facing (Slot.reader [] ⟨0, ts, c⟩) (us ++ [t] ++ vs) := by
    rw [htokens]
    exact hfacing
  have hagain := h.again d.nest _ hfront.of_append
  rw [hread, hq.clean] at hagain
  cases hagain

/-- **Syntax errors are reported at the first impossible token.** An error, unless it is about the
nesting, stands at a token or at the terminator of a slot. The tokens before it in the slot are the
beginning of a statement; together with it they are not the beginning of any statement and its
terminator. What the error says was found is found there, and is not what was expected. -/
theorem parseProgram_first_impossible (line : String) (x : Located SyntaxError)
    (hx : x ∈ (parseProgram line).errors) (hnest : ∀ limit, x.val ≠ .nestingTooDeep limit) :
    ∃ s ∈ slots line, ∃ before t after, s.places = before ++ t :: after ∧ x.span = t.span ∧
      (∃ e : Expr, e.isStatement ∧ (∀ w ∈ e.words, w.Legible) ∧
        before.map Token.word <+: e.words) ∧
      (∀ (e : Expr) (kind : TokenKind), e.isStatement → Parser.endsStatement kind →
        ¬ (before ++ [t]).map Token.word <+: e.words ++ [.plain kind]) ∧
      (∀ kind ∈ x.val.found?, kind = t.kind) ∧
      ∀ found expected, x.val = .unexpected found expected → found ≠ expected := by
  rw [parseProgram_errors] at hx
  obtain ⟨s, hs, hx⟩ := List.mem_flatMap.1 hx
  obtain ⟨before, t, hstops⟩ := (whole_of_mem_slots hs).exists_stops hx
  obtain ⟨after, hplaces⟩ := hstops.places
  rw [List.append_assoc, List.singleton_append] at hplaces
  rcases hstops.cause with ⟨limit, hlimit⟩ | himpossible
  · exact absurd hlimit (hnest limit)
  · exact ⟨s, hs, before, t, after, hplaces.symm, hstops.span,
      exists_statement_of_begins himpossible.begins (hstops.legible hs),
      fun e kind he hkind => himpossible.not_prefix he hkind, himpossible.fits.found,
      himpossible.fits.expected⟩

set_option maxRecDepth 2000 in
/-- The arguments of a call without a comma between them. -/
theorem parseProgram_first_impossible_argument :
    let x : Located SyntaxError := ⟨.unexpected .identifier (.symbol .rightParen), ⟨7, 8⟩⟩
    (parseProgram "x; f(y z").errors = [x] ∧
    ∃ s ∈ slots "x; f(y z", ∃ before t after, s.places = before ++ t :: after ∧ x.span = t.span ∧
      (∃ e : Expr, e.isStatement ∧ (∀ w ∈ e.words, w.Legible) ∧
        before.map Token.word <+: e.words) ∧
      ∀ (e : Expr) (kind : TokenKind), e.isStatement → Parser.endsStatement kind →
        ¬ (before ++ [t]).map Token.word <+: e.words ++ [.plain kind] := by
  intro x
  have herrors : (parseProgram "x; f(y z").errors = [x] := rfl
  have hx : x ∈ (parseProgram "x; f(y z").errors := by
    rw [herrors]
    exact List.mem_singleton_self x
  obtain ⟨s, hs, before, t, after, hplaces, hspan, hbegins, hnot, -⟩ :=
    parseProgram_first_impossible "x; f(y z" x hx nofun
  exact ⟨herrors, s, hs, before, t, after, hplaces, hspan, hbegins, hnot⟩

end ExprLang

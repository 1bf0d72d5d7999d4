import ExprLang.Proofs.Grammar.Forms
import ExprLang.Proofs.Lexing.Spelling
import ExprLang.Proofs.Statements.Recovery

/-!
# The reader accepts the grammar

A slot without lexical errors is kept exactly when its tokens are a statement that is not nested too
deeply, and what is kept is that statement: the grammar is unambiguous.
-/

namespace ExprLang

/-! ### Words without lexical errors -/

/-- Nothing is wrong with a token of a slot in which no lexical error begins. -/
theorem flaw?_eq_none_of_not_covers {line : String} {s : Slot} {t : Token}
    (hlex : ∀ x ∈ (tokenize line).2, ¬ s.Covers x.span.start) (ht : t ∈ (tokenize line).1)
    (hcovers : s.Covers t.span.start) : t.flaw? = none := by
  refine flaw?_eq_none ht fun x hx hstart => hlex x hx ?_
  rwa [hstart]

/-- Without a lexical error in a slot its words have a text. -/
theorem legible_of_not_covers {line : String} {s : Slot} (hs : s ∈ slots line)
    (hlex : ∀ x ∈ (tokenize line).2, ¬ s.Covers x.span.start) : ∀ t ∈ s.tokens, t.word.Legible := by
  intro t ht
  have hmem := mem_tokenize_of_mem_places hs (List.mem_append_left _ ht)
  have hcovers : s.Covers t.span.start := ⟨start_le_of_mem_tokens hs ht, lt_terminator hs ht⟩
  exact legible_of_mem_tokenize hmem (flaw?_eq_none_of_not_covers hlex hmem hcovers)

theorem valued_of_legible {ts : List Token} (h : ∀ t ∈ ts, t.word.Legible) : Valued ts := by
  intro t ht hvalue
  have hlegible := h t ht
  rw [Token.word_of_value hvalue] at hlegible
  cases hliteral : t.literal? with
  | none =>
    rw [hliteral] at hlegible
    exact hlegible.elim
  | some => rfl

/-! ### Acceptance -/

namespace Parser

/-- **The grammar is unambiguous**: tokens are at most one statement. -/
theorem StatementOf.unique {d e : Expr} {ts : List Token} (hd : StatementOf d ts)
    (he : StatementOf e ts) : d = e := by
  let p : Parser :=
    { ahead := ts, last := .placeholder .endOfInput 0, lexErrors := [], size := ts.length,
      ahead_le := Nat.le_refl _ }
  have hahead : p.ahead = ts ++ [] := (List.append_nil ts).symm
  have hmoves := Moves.of_ahead hahead
  have hends : endsStatement (p.skip ts.length).current.kind := by
    simp [p, skip, current, Token.placeholder, endsStatement]
  have h := (statementExpr_eq hd hmoves rfl hends).symm.trans (statementExpr_eq he hmoves rfl hends)
  exact congrArg Prod.fst h

end Parser

/-- In a slot without lexical errors the entry is the statement of the tokens, if there is one. -/
theorem Slot.Reads.eq_some_iff {lexErrors : List (Located LexicalError)} {s : Slot}
    {entry : Option Expr} {errs : List (Located SyntaxError)} (h : s.Reads lexErrors entry errs)
    (hlex : ∀ x ∈ lexErrors, ¬ s.Covers x.span.start) {e : Expr} :
    entry = some e ↔ Parser.StatementOf e s.tokens := by
  cases h with
  | kept hd _ =>
    constructor
    · intro heq
      obtain rfl := Option.some.inj heq
      exact hd
    · intro he
      rw [hd.unique he]
  | dropped _ hlex' =>
    obtain ⟨x, hx, hcovers⟩ := hlex'
    exact absurd hcovers (hlex x hx)
  | silenced hno | reported _ hno => exact ⟨nofun, fun he => absurd he (hno e)⟩

/-- **The reader accepts exactly its grammar.** In a slot in which no lexical error begins, what is
read is `e` if and only if `e` is a statement, not nested too deeply, whose tokens are those of the
slot, places included; and up to places, if and only if the words of `e` are the words of the
slot. -/
theorem parseProgram_accepts (line : String) (i : Nat) (s : Slot) (hs : (slots line)[i]? = some s)
    (hlex : ∀ x ∈ (parseProgram line).lexErrors, ¬ s.Covers x.span.start) (e : Expr) :
    ((parseProgram line).statements[i]? = some (some e) ↔
      e.isStatement ∧ e.nest ≤ 128 ∧ Written e s.tokens) ∧
    ((∃ d, (parseProgram line).statements[i]? = some (some d) ∧ d.form = e.form) ↔
      e.isStatement ∧ e.nest ≤ 128 ∧ s.tokens.map Token.word = e.words) := by
  obtain ⟨entry, hentry, hreads⟩ := reads_parseProgram hs
  have haccepts : ∀ e, (parseProgram line).statements[i]? = some (some e) ↔
      e.isStatement ∧ e.nest ≤ 128 ∧ Written e s.tokens := by
    intro e
    rw [hentry, Option.some_inj, hreads.eq_some_iff hlex]
    exact ⟨fun h => ⟨h.statement, h.nest, h.written⟩, fun h => ⟨h.2.2, h.1, h.2.1⟩⟩
  have hvalued : Valued s.tokens := by
    refine valued_of_legible (legible_of_not_covers (List.mem_of_getElem? hs) fun x hx => hlex x ?_)
    rwa [(account_parseProgram line).2]
  refine ⟨haccepts e, ?_, ?_⟩
  · rintro ⟨d, hd, hform⟩
    obtain ⟨hstatement, hnest, hwritten⟩ := (haccepts d).1 hd
    rw [← Expr.isStatement_eq_of_form hform, ← Expr.nest_eq_of_form hform,
      ← Expr.words_eq_of_form hform]
    exact ⟨hstatement, hnest, hwritten.words hvalued⟩
  · rintro ⟨hstatement, hnest, hwords⟩
    obtain ⟨d, hd, hform⟩ := exists_written_statement e hstatement hwords
    rw [← Expr.isStatement_eq_of_form hform] at hstatement
    rw [← Expr.nest_eq_of_form hform] at hnest
    exact ⟨d, (haccepts d).2 ⟨hstatement, hnest, hd⟩, hform⟩

set_option maxRecDepth 2000 in
/-- The second statement of a line. -/
theorem parseProgram_accepts_call : ∃ d, (parseProgram "x; f(-y)").statements[1]? = some (some d) ∧
    d.form = .call ⟨"f", ⟨0, 0⟩⟩ [.unary .minus (.var ⟨"y", ⟨0, 0⟩⟩) ⟨0, 0⟩] ⟨0, 0⟩ := by
  have hs : (slots "x; f(-y)")[1]? = some
      { start := 2
        tokens := [⟨⟨.identifier, "f", none⟩, ⟨3, 4⟩⟩, ⟨⟨.symbol .leftParen, "(", none⟩, ⟨4, 5⟩⟩,
          ⟨⟨.symbol .minus, "-", none⟩, ⟨5, 6⟩⟩, ⟨⟨.identifier, "y", none⟩, ⟨6, 7⟩⟩,
          ⟨⟨.symbol .rightParen, ")", none⟩, ⟨7, 8⟩⟩]
        terminator := .placeholder .endOfInput 8 } := rfl
  have hlex : (parseProgram "x; f(-y)").lexErrors = [] := rfl
  exact (parseProgram_accepts "x; f(-y)" 1 _ hs (by rw [hlex]; nofun)
    (.call ⟨"f", ⟨0, 0⟩⟩ [.unary .minus (.var ⟨"y", ⟨0, 0⟩⟩) ⟨0, 0⟩] ⟨0, 0⟩)).2.2
    ⟨rfl, by decide, rfl⟩

end ExprLang

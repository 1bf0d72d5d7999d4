import ExprLang.Proofs.Grammar.Printing
import ExprLang.Proofs.Statements.Acceptance

/-!
# Parsing undoes printing

A line without errors is its slots, each of them a statement (`Account.clean`). The text of the
statements is cut into their words again, so its slots have the words of the statements
(`slotsFrom_words`), and a slot with the words of a statement is read as that statement up to places
(`Account.restated`).
-/

namespace ExprLang

/-! ### The tokens of a text -/

theorem words_of_spells {line : String} {ws : List Word} (h : Spells line.toList ws) :
    (tokenize line).2 = [] ∧ (Parser.ofLine line).ahead.map Token.word = ws := by
  constructor
  · rw [tokenize_eq]
    refine List.filterMap_eq_nil_iff.2 fun t ht => ?_
    rw [Token.flaw?, h.flawless _ (toLexeme_mem_of_mem_tokensAt ht)]
    rfl
  · rw [Parser.ofLine_ahead, ← h.words]
    have hmap := tokensAt_toLexeme 0 (lexemes line.toList)
    conv_rhs => rw [← hmap]
    rw [List.filter_map, List.map_map]
    rfl

/-- Words that do not end a statement. -/
def Inside (ws : List Word) : Prop :=
  ws ≠ [] ∧ ∀ w ∈ ws, w ≠ .plain (.symbol .semicolon) ∧ w ≠ .plain .endOfInput

theorem inStatement_iff_word {t : Token} : Parser.inStatement t ↔
    t.word ≠ .plain (.symbol .semicolon) ∧ t.word ≠ .plain .endOfInput := by
  rw [Parser.inStatement_iff]
  exact and_congr
    (not_congr ⟨fun h => Token.word_of_symbol h, fun h => Token.kind_of_word_plain h⟩)
    (not_congr ⟨fun h => Token.word_of_plain h rfl nofun, fun h => Token.kind_of_word_plain h⟩)

/-- The first statement of a program is the first slot of its tokens. -/
theorem slotsFrom_first {last : Token} (hlast : last.kind = .endOfInput) {us vs : List Token}
    (start : Nat) (hus : Inside (us.map Token.word)) (hvs : ∀ t ∈ vs.head?, ¬Parser.inStatement t)
    (hts : ∀ t ∈ us ++ vs, t.kind ≠ .endOfInput) :
    slotsFrom start [] (us ++ vs ++ [last]) = ⟨start, us, vs.headD last⟩ ::
      slotsFrom (vs.headD last).span.stop [] (vs.tail ++ [last]) := by
  have hin : ∀ t ∈ us, Parser.inStatement t := fun t ht =>
    inStatement_iff_word.2 (hus.2 _ (List.mem_map_of_mem ht))
  have hne : us ≠ [] := fun h => hus.1 (by rw [h, List.map_nil])
  obtain ⟨htake, hdrop⟩ := takeWhile_append_of_head hin fun t ht => Bool.eq_false_iff.2 (hvs t ht)
  have h := Parser.slotsFrom_append hlast hts start []
    (List.append_ne_nil_of_left_ne_nil hne vs)
  rw [htake, hdrop] at h
  exact h

/-- The slots of tokens with the words of a program have the words of its statements. -/
theorem slotsFrom_words {last : Token} (hlast : last.kind = .endOfInput) :
    ∀ (es : List Expr) (start : Nat) {ts : List Token}, (∀ e ∈ es, Inside e.words) →
      (∀ t ∈ ts, t.kind ≠ .endOfInput) → ts.map Token.word = Program.words es →
      (slotsFrom start [] (ts ++ [last])).map (fun s => s.tokens.map Token.word) =
        es.map Expr.words
  | [], start, ts, _, _, h => by
    rw [List.map_eq_nil_iff.1 h, List.nil_append, Parser.slotsFrom_last hlast]
    rfl
  | [e], start, ts, hes, hts, h => by
    have hinside : Inside (ts.map Token.word) := by
      rw [h]
      exact hes e List.mem_cons_self
    have hts' : ∀ t ∈ ts ++ [], t.kind ≠ .endOfInput := by rwa [List.append_nil]
    have hfirst := slotsFrom_first hlast start hinside (fun t ht => by cases ht) hts'
    rw [List.append_nil] at hfirst
    rw [hfirst, List.headD_nil, List.tail_nil, List.nil_append, Parser.slotsFrom_last hlast,
      List.map_singleton, h]
    rfl
  | e :: d :: es, start, ts, hes, hts, h => by
    obtain ⟨us, vs, rfl, hus, hvs⟩ := List.map_eq_append_iff.1 h
    obtain ⟨t, vs, rfl, ht, hvs⟩ := exists_of_words_plain hvs
    have hrest := slotsFrom_words hlast (d :: es) t.span.stop
      (fun e he => hes e (List.mem_cons_of_mem _ he))
      (fun t ht => hts t (List.mem_append_right us (List.mem_cons_of_mem _ ht))) hvs
    have hsemicolon : ∀ s ∈ (t :: vs).head?, ¬Parser.inStatement s := by
      rintro s ⟨⟩ h
      exact (inStatement_iff_word.1 h).1 (Token.word_of_symbol ht)
    rw [slotsFrom_first hlast start (hus ▸ hes e List.mem_cons_self) hsemicolon hts, List.map_cons]
    exact congrArg₂ List.cons hus hrest

namespace Account

variable {lexErrors : List (Located LexicalError)} {slots : List Slot} {program : Program}
  {errs : List (Located SyntaxError)}

/-- Without errors every slot is a statement. -/
theorem clean (h : Account [] slots program errs) (herrs : errs = []) :
    ∃ es : List Expr, program = es.map some ∧
      ∀ e ∈ es, ∃ s ∈ slots, Parser.StatementOf e s.tokens := by
  induction h with
  | nil => exact ⟨[], rfl, nofun⟩
  | cons hs _ ih =>
    obtain ⟨rfl, rfl⟩ := List.append_eq_nil_iff.1 herrs
    obtain ⟨es, rfl, hes⟩ := ih rfl
    cases hs with
    | kept he _ =>
      refine ⟨_ :: es, rfl, ?_⟩
      rintro d hd
      rcases List.mem_cons.1 hd with rfl | hd
      · exact ⟨_, List.mem_cons_self, he⟩
      · obtain ⟨s, hs, hd⟩ := hes d hd
        exact ⟨s, List.mem_cons_of_mem _ hs, hd⟩
    -- an entry is missing without a recorded error only if there is a lexical one
    | dropped _ hlex | silenced _ _ hlex =>
      obtain ⟨x, hx, -⟩ := hlex
      cases hx

/-- Slots with the words of statements are read as these statements. -/
theorem restated (h : Account [] slots program errs) {es : List Expr}
    (hes : ∀ e ∈ es, e.isStatement ∧ e.nest ≤ 128)
    (hwords : slots.map (fun s => s.tokens.map Token.word) = es.map Expr.words) :
    errs = [] ∧ program.map (Option.map Expr.form) = (es.map some).map (Option.map Expr.form) := by
  induction h generalizing es with
  | nil =>
    rw [List.map_eq_nil_iff.1 hwords.symm]
    exact ⟨rfl, rfl⟩
  | cons hs _ ih =>
    obtain ⟨e, es, rfl, he, hrest⟩ := List.map_eq_cons_iff.1 hwords.symm
    obtain ⟨hstatement, hnest⟩ := hes e List.mem_cons_self
    obtain ⟨rfl, hprogram⟩ := ih (fun d hd => hes d (List.mem_cons_of_mem e hd)) hrest.symm
    obtain ⟨d, hd, hform⟩ := exists_written_statement e hstatement he.symm
    rw [← Expr.isStatement_eq_of_form hform] at hstatement
    rw [← Expr.nest_eq_of_form hform] at hnest
    have hentry := (hs.eq_some_iff nofun).2 ⟨hd, hstatement, hnest⟩
    subst hentry
    cases hs with
    | kept => exact ⟨rfl, congrArg₂ List.cons (congrArg some hform) hprogram⟩

end Account

/-! ### The statements of a line -/

/-- **Parsing undoes printing.** The text of a line without errors is read without errors, as the
same statements up to places, and they have the same text. -/
theorem parseProgram_text (line : String) (hlex : (parseProgram line).lexErrors = [])
    (herrs : (parseProgram line).errors = []) :
    let text := Program.text (parseProgram line).statements
    (parseProgram text).lexErrors = [] ∧ (parseProgram text).errors = [] ∧
      (parseProgram text).statements.map (Option.map Expr.form) =
        (parseProgram line).statements.map (Option.map Expr.form) ∧
      Program.text (parseProgram text).statements = text := by
  obtain ⟨haccount, hlexErrors⟩ := account_parseProgram line
  rw [hlex] at hlexErrors
  rw [← hlexErrors, herrs] at haccount
  obtain ⟨es, hprogram, hes⟩ := haccount.clean rfl
  rw [hprogram]
  -- the words of a statement are those of its slot, so they can be printed and stay in one slot
  have hwords : ∀ e ∈ es, AllLegible e.words ∧ Inside e.words := by
    intro e he
    obtain ⟨s, hs, hstatement⟩ := hes e he
    have hlegible := legible_of_not_covers hs (by rw [← hlexErrors]; nofun)
    rw [← hstatement.written.words (valued_of_legible hlegible)]
    refine ⟨fun w hw => ?_, ?_, fun w hw => ?_⟩
    · obtain ⟨t, ht, rfl⟩ := List.mem_map.1 hw
      exact hlegible t ht
    · exact fun h => hstatement.written.ne_nil (List.map_eq_nil_iff.1 h)
    · obtain ⟨t, ht, rfl⟩ := List.mem_map.1 hw
      exact inStatement_iff_word.1 (inStatement_of_mem_slots hs t ht)
  intro text
  obtain ⟨hclean, htokens⟩ := words_of_spells (Program.spells_text es fun e he => (hwords e he).1)
  have hslots : (slots text).map (fun s => s.tokens.map Token.word) = es.map Expr.words := by
    rw [Parser.slots_eq]
    exact slotsFrom_words (Parser.closed_ofLine text).last es 0 (fun e he => (hwords e he).2)
      (Parser.closed_ofLine text).ahead htokens
  obtain ⟨htext, htextErrors⟩ := account_parseProgram text
  rw [hclean] at htext htextErrors
  obtain ⟨herrors, hforms⟩ := htext.restated (fun e he => by
    obtain ⟨s, -, hstatement⟩ := hes e he
    exact ⟨hstatement.statement, hstatement.nest⟩) hslots
  refine ⟨htextErrors, herrors, hforms, ?_⟩
  rw [← Program.text_form, hforms, Program.text_form]

/-- A line and the text of its statements. -/
theorem parseProgram_text_let :
    Program.text (parseProgram "let x = 2.50 in if (x>1) -x else f(PI)  ;true").statements =
      "let x = 2.5 in if (x > 1) -x else f(3.141592653589793); true" ∧
    (parseProgram "let x = 2.5 in if (x > 1) -x else f(3.141592653589793); true").errors = [] ∧
    (parseProgram "let x = 2.5 in if (x > 1) -x else f(3.141592653589793); true").statements.map
        (Option.map Expr.form) =
      (parseProgram "let x = 2.50 in if (x>1) -x else f(PI)  ;true").statements.map
        (Option.map Expr.form) := by
  have hlex : (parseProgram "let x = 2.50 in if (x>1) -x else f(PI)  ;true").lexErrors = [] := by
    decide +kernel
  have herrs : (parseProgram "let x = 2.50 in if (x>1) -x else f(PI)  ;true").errors = [] := by
    decide +kernel
  have htext :
      Program.text (parseProgram "let x = 2.50 in if (x>1) -x else f(PI)  ;true").statements =
        "let x = 2.5 in if (x > 1) -x else f(3.141592653589793); true" := by
    decide +kernel
  have h := parseProgram_text _ hlex herrs
  rw [htext] at h
  exact ⟨htext, h.2.1, h.2.2.1⟩

end ExprLang

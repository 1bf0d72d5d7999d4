import ExprLang.Proofs.Grammar.Nodes
import ExprLang.Proofs.Lexing.Cut
import ExprLang.Proofs.Statements.Acceptance

/-!
# The text of a node

A node of a statement stands where a run of the tokens of its line stands, and nothing is wrong with
these tokens. So the text under its span has the same tokens (`exists_text_of_run`), which are one
slot without lexical errors, and what is read of that text is the node itself, at offsets that are
counted from its start (`spans_exact`).
-/

namespace ExprLang

/-! ### Runs of tokens -/

/-- A run of what a filter keeps, with all that stands between its first and its last element. -/
theorem exists_run_of_filter {α : Type} {p : α → Bool} {l us : List α} (h : us <:+: l.filter p)
    (hne : us ≠ []) : ∃ before run after, l = before ++ run ++ after ∧ run.filter p = us ∧
      run.head? = us.head? ∧ run.getLast? = us.getLast? := by
  obtain ⟨as, bs, h⟩ := h
  obtain ⟨l, l₃, rfl, hl, -⟩ := List.filter_eq_append_iff.1 h.symm
  obtain ⟨l₁, l₂, rfl, -, hus⟩ := List.filter_eq_append_iff.1 hl
  obtain ⟨init, last, rfl⟩ := (List.eq_nil_or_concat' us).resolve_left hne
  obtain ⟨m, n, rfl, hinit, hn⟩ := List.filter_eq_append_iff.1 hus
  obtain ⟨n₁, n₂, rfl, hn₁, hlast, -⟩ := List.filter_eq_cons_iff.1 hn
  have hn₁ : n₁.filter p = [] := List.filter_eq_nil_iff.2 hn₁
  cases init with
  | nil => exact ⟨l₁ ++ m ++ n₁, [last], n₂ ++ l₃, by simp, by simp [hlast], rfl, rfl⟩
  | cons first init =>
    obtain ⟨m₁, m₂, rfl, -, hfirst, hm₂⟩ := List.filter_eq_cons_iff.1 hinit
    refine ⟨l₁ ++ m₁, first :: (m₂ ++ n₁) ++ [last], n₂ ++ l₃, by simp, ?_, rfl, ?_⟩
    · simp [hfirst, hm₂, hn₁, hlast]
    · rw [List.getLast?_concat, List.getLast?_concat]

theorem ne_nil_of_mem_slotsFrom {start : Nat} {held ts : List Token} {s : Slot}
    (hs : s ∈ slotsFrom start held ts) : ts ≠ [] := by
  rintro rfl
  cases hs

/-- The tokens of a slot stand one behind the other in the line. -/
theorem infix_of_mem_slotsFrom {start : Nat} {held ts : List Token} {s : Slot}
    (hs : s ∈ slotsFrom start held ts) : s.tokens <:+: held ++ ts.dropLast := by
  induction ts generalizing start held with
  | nil => cases hs
  | cons t ts ih =>
    unfold slotsFrom at hs
    split_ifs at hs with hsemicolon hend hheld
    · rcases List.mem_cons.1 hs with rfl | hs
      · exact (List.prefix_append _ _).isInfix
      · rw [List.dropLast_cons_of_ne_nil (ne_nil_of_mem_slotsFrom hs)]
        exact (ih hs).trans ⟨held ++ [t], [], by simp⟩
    · cases hs
    · rw [List.mem_singleton.1 hs]
      exact (List.prefix_append _ _).isInfix
    · rw [List.dropLast_cons_of_ne_nil (ne_nil_of_mem_slotsFrom hs)]
      have hrest := ih hs
      rwa [List.append_assoc] at hrest

section

variable {line : String} {s : Slot} {us : List Token}

theorem infix_ahead_of_mem_slots (hs : s ∈ slots line) :
    s.tokens <:+: (Parser.ofLine line).ahead :=
  infix_of_mem_slotsFrom hs

theorem infix_of_mem_slots (hs : s ∈ slots line) : s.tokens <:+: significantTokens line :=
  (infix_ahead_of_mem_slots hs).trans (List.dropLast_prefix _).isInfix

theorem ordered_tokens (hs : s ∈ slots line) : Ordered s.tokens := by
  have hsub := (infix_ahead_of_mem_slots hs).sublist
  rw [Parser.ofLine_ahead] at hsub
  exact (ordered_tokensAt 0 line.toList).sublist (hsub.trans List.filter_sublist)

/-- Nothing is wrong with the tokens between two tokens of a slot in which no lexical error
begins. -/
theorem flaw?_eq_none_of_between {run : List Token} (hs : s ∈ slots line)
    (hlex : ∀ x ∈ (tokenize line).2, ¬ s.Covers x.span.start)
    (hrun : run <:+: tokensAt 0 (lexemes line.toList)) (hus : us ⊆ s.tokens)
    (hfirst : run.head? = us.head?) (hlast : run.getLast? = us.getLast?) :
    ∀ t ∈ run, t.flaw? = none := by
  intro t ht
  have hmem : t ∈ (tokenize line).1 := by
    rw [tokenize_eq]
    exact List.mem_append_left _ (hrun.subset ht)
  refine flaw?_eq_none_of_not_covers hlex hmem ?_
  have horder := (ordered_tokensAt 0 line.toList).sublist hrun.sublist
  obtain ⟨first, last, hf, hl, hextent⟩ := exists_first_last (List.ne_nil_of_mem ht)
  have hstart := start_le_of_mem_tokens hs (hus (List.mem_of_mem_head? (hfirst ▸ hf)))
  have hstop := stop_le_terminator hs (hus (List.mem_of_mem_getLast? (hlast ▸ hl)))
  have hpos := horder.start_lt_stop t ht
  have hwithin := horder.extent_covers ht
  rw [hextent] at hwithin
  dsimp only at hwithin
  constructor <;> omega

/-- **The text under a run of tokens of a slot** has these tokens, and nothing is wrong with it. -/
theorem exists_text_of_run (hs : s ∈ slots line)
    (hlex : ∀ x ∈ (tokenize line).2, ¬ s.Covers x.span.start) (hus : us <:+: s.tokens)
    (hne : us ≠ []) : ∃ text : String, (extent us).Shows text line ∧ (tokenize text).2 = [] ∧
      us = (Parser.ofLine text).ahead.map (Token.shift (extent us).start) := by
  have hline := hus.trans (infix_ahead_of_mem_slots hs)
  rw [Parser.ofLine_ahead] at hline
  obtain ⟨before, run, after, htokens, hfilter, hfirst, hlast⟩ := exists_run_of_filter hline hne
  have hrun : run ≠ [] := by
    rintro rfl
    exact hne hfilter.symm
  have hextent : extent run = extent us := by
    rw [extent, extent, hfirst, hlast]
  -- what stands between the tokens is cut out with them: a flaw there would be one of the slot
  have hflaw := flaw?_eq_none_of_between hs hlex ⟨before, after, htokens.symm⟩ hus.subset hfirst
    hlast
  obtain ⟨text, hshows, htext⟩ := exists_text_of_tokens htokens hrun
  rw [hextent] at hshows htext
  refine ⟨text, hshows, ?_, ?_⟩
  · rw [tokenize_eq]
    refine List.filterMap_eq_nil_iff.2 fun t ht => ?_
    have hnone := hflaw _ (htext ▸ List.mem_map_of_mem ht)
    rwa [Token.flaw?_shift, Option.map_eq_none_iff] at hnone
  · rw [htext, List.filter_map] at hfilter
    rw [Parser.ofLine_ahead]
    exact hfilter.symm

end

/-! ### Reading the text -/

namespace Parser.StatementOf

variable {d e : Expr} {ts : List Token}

theorem ne_nil (h : StatementOf e ts) : ts ≠ [] := h.written.ne_nil

/-- A statement of tokens that were moved is a statement that was moved. -/
theorem exists_of_shift {k : Nat} (h : StatementOf d (ts.map (Token.shift k))) :
    ∃ e, StatementOf e ts ∧ e.mapSpans (Span.shift k) = d := by
  have hleft : Monotone (· - k) := fun _ _ hle => Nat.sub_le_sub_right hle k
  have hright : Monotone (· + k) := fun _ _ hle => Nat.add_le_add_right hle k
  have hmoved := h.mapSpans (respectsUnion_map hleft)
  have hback : Token.mapSpan (Span.map (· - k)) ∘ Token.shift k = id := by
    funext t
    simp [Token.shift, Token.mapSpan, Span.shift, Span.map]
  rw [List.map_map, hback, List.map_id] at hmoved
  exact ⟨_, hmoved, (hmoved.mapSpans (respectsUnion_map hright)).unique h⟩

end Parser.StatementOf

/-- A text that is one statement, when nothing is wrong with its tokens. -/
theorem parseProgram_of_statementOf {text : String} {e : Expr} (hlex : (tokenize text).2 = [])
    (he : Parser.StatementOf e (Parser.ofLine text).ahead)
    (hin : ∀ t ∈ (Parser.ofLine text).ahead, Parser.inStatement t) :
    parseProgram text = ⟨[some e], [], []⟩ := by
  have hclosed := Parser.closed_ofLine text
  have hslots : slots text = [⟨0, (Parser.ofLine text).ahead, (Parser.ofLine text).last⟩] := by
    rw [Parser.slots_eq, Parser.slotsFrom_append hclosed.last hclosed.ahead 0 [] he.ne_nil,
      List.takeWhile_eq_self_iff.2 hin, List.dropWhile_eq_nil_iff.2 hin]
    exact congrArg _ (Parser.slotsFrom_last hclosed.last _)
  obtain ⟨haccount, hlexErrors⟩ := account_parseProgram text
  generalize parseProgram text = parsed at haccount hlexErrors ⊢
  obtain ⟨statements, lexErrors, errors⟩ := parsed
  rw [hslots, hlex] at haccount
  obtain rfl : lexErrors = [] := hlexErrors.trans hlex
  cases haccount with
  | cons hreads hnil =>
    cases hnil
    obtain rfl := (hreads.eq_some_iff nofun).2 he
    cases hreads
    rfl

/-! ### Nodes -/

/-- An expression that is kept is the statement of a slot in which no lexical error begins. -/
theorem exists_clean_slot {line : String} {e : Expr}
    (h : some e ∈ (parseProgram line).statements) : ∃ s ∈ slots line,
      Parser.StatementOf e s.tokens ∧ ∀ x ∈ (tokenize line).2, ¬ s.Covers x.span.start := by
  obtain ⟨s, hs, errs, hreads⟩ := exists_reads_of_mem_statements h
  rw [(account_parseProgram line).2] at hreads
  cases hreads with
  | kept hstatement hno => exact ⟨s, hs, hstatement, fun x hx hcovers => hno ⟨x, hx, hcovers⟩⟩

/-- **Spans are exact.** Take a node of a statement that is kept. Its span falls between characters
and reaches from the start of its first token to the end of its last one. The spans of its parts
are in it, none of them empty, one behind the other. The text under the span, read by itself, is
one statement without errors: the node, with offsets that are counted from its start. -/
theorem spans_exact (line : String) {d e : Expr} (he : some e ∈ (parseProgram line).statements)
    (hd : d.NodeOf e) :
    d.span.fits line.toList = true ∧
    (∃ ts first last, ts <:+: significantTokens line ∧ Written d ts ∧
      ts.map Token.word = d.words ∧ ts.head? = some first ∧ ts.getLast? = some last ∧
      d.span = ⟨first.span.start, last.span.stop⟩) ∧
    (∀ p ∈ d.parts, d.span.start ≤ p.span.start ∧ p.span.start < p.span.stop ∧
      p.span.stop ≤ d.span.stop) ∧
    (d.parts.map Part.span).Pairwise (fun s t => s.stop ≤ t.start) ∧
    ∃ text d', d.span.bytes line = text.toUTF8 ∧ parseProgram text = ⟨[some d'], [], []⟩ ∧
      d'.mapSpans (Span.shift d.span.start) = d := by
  obtain ⟨s, hs, hstatement, hlex⟩ := exists_clean_slot he
  obtain ⟨ts, hts, hnode⟩ := hstatement.node hd
  have horder : Ordered ts := (ordered_tokens hs).sublist hts.sublist
  have hspan : d.span = extent ts := hnode.written.span_eq horder
  have hparts := hnode.written.madeOf
  have hwords : ts.map Token.word = d.words := hnode.written.words
    (valued_of_legible fun t ht => legible_of_not_covers hs hlex t (hts.subset ht))
  obtain ⟨text, hshows, hclean, htext⟩ := exists_text_of_run hs hlex hts hnode.ne_nil
  rw [← hspan] at hshows htext
  refine ⟨hshows.fits, ?_, ?_, hparts.pairwise horder, text, ?_⟩
  · obtain ⟨first, last, hfirst, hlast, hextent⟩ := exists_first_last hnode.ne_nil
    exact ⟨ts, first, last, hts.trans (infix_of_mem_slots hs), hnode.written, hwords, hfirst,
      hlast, hspan.trans hextent⟩
  · intro p hp
    rw [hspan]
    exact hparts.bounds horder hp
  · rw [htext] at hnode
    obtain ⟨d', hd', hshift⟩ := hnode.exists_of_shift
    refine ⟨d', hshows.bytes, parseProgram_of_statementOf hclean hd' fun t ht => ?_, hshift⟩
    -- what ends a statement does not depend on its place
    have hmem : t.shift d.span.start ∈ ts := htext ▸ List.mem_map_of_mem ht
    have hin := inStatement_of_mem_slots hs _ (hts.subset hmem)
    exact hin

set_option maxRecDepth 2000 in
/-- The call in the body of a `let`, behind a character of two bytes. -/
theorem spans_exact_call : ∃ text d',
    (⟨16, 21⟩ : Span).bytes "let x = \"é\" in f(-x)" = text.toUTF8 ∧
      parseProgram text = ⟨[some d'], [], []⟩ ∧
      d'.mapSpans (Span.shift 16) = .call ⟨"f", ⟨16, 17⟩⟩
        [.unary .minus (.var ⟨"x", ⟨19, 20⟩⟩) ⟨18, 20⟩] ⟨16, 21⟩ := by
  have hparsed : (parseProgram "let x = \"é\" in f(-x)").statements = [some (.letIn
      [(⟨"x", ⟨4, 5⟩⟩, .literal (.string "é") ⟨8, 12⟩)]
      (.call ⟨"f", ⟨16, 17⟩⟩ [.unary .minus (.var ⟨"x", ⟨19, 20⟩⟩) ⟨18, 20⟩] ⟨16, 21⟩)
      ⟨0, 21⟩)] := rfl
  have hmem := hparsed ▸ List.mem_singleton_self _
  exact (spans_exact _ hmem (.part (.self _) (Expr.expr_mem_parts.2 (Or.inr rfl)))).2.2.2.2

end ExprLang

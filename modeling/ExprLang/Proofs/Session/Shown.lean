import ExprLang.Proofs.Evaluation.Origins
import ExprLang.Proofs.Session.CommandLine
import ExprLang.Proofs.Session.Undeclared
import ExprLang.Proofs.Statements.Nodes

/-!
# Errors are shown in their line

An error of reading stands at a token of its line. An error of evaluation stands at a node of its
origin: in the statement that failed, or in the body of a function. So it has a place in the line
that is interpreted whenever its origin was written there, and only an error from a body that an
earlier line declared can be without one (`errors_shown`).
-/

namespace ExprLang

/-- An error that is shown in a line: its place is part of the line and ends between characters, so
the diagnostic has the line with the label at the place. -/
structure Error.ShownIn (x : Error) (line : String) : Prop where
  start_le_stop : x.span.start ≤ x.span.stop
  stop_le : x.span.stop ≤ line.utf8ByteSize
  start_isBoundary : Text.isBoundary line.toList x.span.start
  stop_isBoundary : Text.isBoundary line.toList x.span.stop
  excerpt? : (Diagnostic.ofError x line).excerpt? =
    some ⟨line, Diagnostic.lineName, some x.val.label, x.span⟩

theorem Span.Shows.shownIn {x : Error} {text line : String} (h : x.span.Shows text line) :
    x.ShownIn line := by
  have hfits := h.fits
  have hexcerpt := Diagnostic.excerpt?_ofError (e := x) hfits
  simp only [Span.fits, Bool.and_eq_true, decide_eq_true_eq] at hfits
  obtain ⟨⟨hle, hstart⟩, hstop⟩ := hfits
  exact ⟨hle, h.stop_le, hstart, hstop, hexcerpt⟩

/-! ### Errors of reading -/

section

variable {line : String}

/-- A syntax error stands at a token of its slot, or at the token that ends it. -/
theorem exists_token_of_mem_syntaxErrors {e : Located SyntaxError}
    (h : e ∈ (parseProgram line).errors) : ∃ t ∈ (tokenize line).1, t.span = e.span := by
  obtain ⟨s, hs, t, ht, hspan⟩ := (account_parseProgram line).1.exists_holds e h
  exact ⟨t, mem_tokenize_of_mem_places hs ht, hspan⟩

/-- Every error of reading is shown in its line. -/
theorem shownIn_of_mem_allErrors {x : Error} (h : x ∈ (parseProgram line).allErrors) :
    x.ShownIn line := by
  obtain ⟨t, ht, hspan⟩ : ∃ t ∈ (tokenize line).1, t.span = x.span := by
    rcases mem_allErrors.1 h with h | h
    · obtain ⟨e, he, rfl⟩ := List.mem_map.1 h
      obtain ⟨t, ht, hspan, -⟩ := exists_token_of_mem_errors he
      exact ⟨t, ht, hspan⟩
    · obtain ⟨e, he, rfl⟩ := List.mem_map.1 h
      exact exists_token_of_mem_syntaxErrors he
  have hshows := shows_of_mem_tokenize ht
  rw [hspan] at hshows
  exact hshows.shownIn

/-! ### Nodes and names of a statement -/

variable {d e : Expr}

/-- A node of a statement has a text in its line. -/
theorem exists_shows_of_nodeOf (he : some e ∈ (parseProgram line).statements) (hd : d.NodeOf e) :
    ∃ text, d.span.Shows text line := by
  obtain ⟨s, hs, hstatement, hlex⟩ := exists_clean_slot he
  obtain ⟨ts, hts, hnode⟩ := hstatement.node hd
  have horder : Ordered ts := (ordered_tokens hs).sublist hts.sublist
  obtain ⟨text, hshows, -⟩ := exists_text_of_run hs hlex hts hnode.ne_nil
  rw [← hnode.written.span_eq horder] at hshows
  exact ⟨text, hshows⟩

/-- The name of a declaration stands in its line. -/
theorem shows_declared_name {name : Name} {params : List Name} {body : Expr} {span : Span}
    (h : some (.declaration name params body span) ∈ (parseProgram line).statements) :
    name.span.Shows name.val line := by
  obtain ⟨ts, hts, hmem⟩ := exists_written_of_mem_statements h
  cases hts with
  | declaration => exact shows_of_mem_tokenize (hmem _ (by simp))

end

/-! ### Errors of a statement -/

/-- What comes of a statement, with the origin of an error. -/
def tracedStatement (maxDepth : Nat) (registry : Registry) :
    Option Expr → Except TracedError Value
  | some e => (evalTraced (nestingLimit maxDepth) .statement .empty e { registry, maxDepth }).1
  | none => .ok .nothing

/-- The error of a declaration whose signature is taken. It stands at the declared name. -/
def TracedError.AtDeclaredName (x : TracedError) (e : Expr) : Prop :=
  ∃ name params body span, e = .declaration name params body span ∧
    x = ⟨⟨.semantic (.duplicateFunction name.val params.length), name.span⟩, .statement⟩

/-- The body of one of the functions. -/
def Origin.IsBodyOf (r : Registry) : Origin → Prop
  | .statement => False
  | .body f => f ∈ r.functions

section

variable {maxDepth : Nat} {r : Registry} {entry : Option Expr} {x : TracedError}

theorem evalStatement_eq_traced (maxDepth : Nat) (r : Registry) (entry : Option Expr) :
    (evalStatement maxDepth r entry).1 =
      (tracedStatement maxDepth r entry).mapError TracedError.error := by
  cases entry with
  | none => rfl
  | some e =>
    have htraces := eval_eq_traced (nestingLimit maxDepth) .statement .empty e
      { registry := r, maxDepth }
    exact congrArg Prod.fst htraces

/-- A declaration is evaluated at once, so its only error is that of its signature. -/
theorem tracedStatement_declaration {name : Name} {params : List Name} {body : Expr} {span : Span}
    (hx : tracedStatement maxDepth r (some (.declaration name params body span)) = .error x) :
    x = ⟨⟨.semantic (.duplicateFunction name.val params.length), name.span⟩, .statement⟩ := by
  obtain ⟨n, hn⟩ := Nat.exists_eq_succ_of_ne_zero (nestingLimit_pos maxDepth).ne'
  have hstep : tracedStatement maxDepth r (some (.declaration name params body span)) =
      (evalDeclaration name params body
        (Evaluator.enterExpr { registry := r, maxDepth })).1.mapError fun y => ⟨y, .statement⟩ := by
    unfold tracedStatement
    rw [hn]
    rfl
  have hregistry : (Evaluator.enterExpr { registry := r, maxDepth }).registry = r := rfl
  rw [hstep] at hx
  unfold evalDeclaration at hx
  rw [Eval.get_bind, hregistry] at hx
  let f : Function := .declared name.val (params.map Located.val) body
  by_cases hmem : f.signature ∈ r.signatures
  · rw [Registry.declare_of_mem hmem] at hx
    cases hx
    simp [f, Function.signature]
  · rw [Registry.declare_of_not_mem hmem] at hx
    cases hx

/-- **Where an error of a statement stands**: at a node of its origin, or at the declared name. -/
theorem tracedStatement_place (hr : r.Plain) (hentry : IsEntry entry)
    (hx : tracedStatement maxDepth r entry = .error x) :
    ∃ e, entry = some e ∧ (x.AtNode r e ∨ x.AtDeclaredName e) := by
  cases entry with
  | none => cases hx
  | some e =>
    refine ⟨e, rfl, ?_⟩
    cases hdeclared : declared? (some e) with
    | some f =>
      obtain ⟨name, params, body, span, h⟩ :=
        isSome_declared?_iff.1 (Option.isSome_of_eq_some hdeclared)
      cases h
      exact Or.inr ⟨name, params, body, span, rfl, tracedStatement_declaration hx⟩
    | none =>
      have hplain := isPlain_of_declared?_eq_none (hentry e rfl) hdeclared
      exact Or.inl ((evalTraced_raises hr _ .empty (.statement (.self e)) hplain _ rfl).2 x hx)

end

/-- A node of an origin that was written in a line has a text there. The functions that were not
there before the line are those that its statements declared. -/
theorem exists_shows_of_contains {line : String} {r : Registry} {before after : Program}
    {o : Origin} {d e : Expr} (hline : (parseProgram line).statements = before ++ some e :: after)
    (hd : o.Contains ((before.filterMap declared?).foldl Registry.add r) e d)
    (ho : ¬ o.IsBodyOf r) : ∃ text, d.span.Shows text line := by
  cases hd with
  | statement hd => exact exists_shows_of_nodeOf (by simp [hline]) hd
  | body hf hd =>
    have hnew := (Registry.mem_functions_foldl_add hf).resolve_left ho
    obtain ⟨entry, hentry, hdeclared⟩ := List.mem_filterMap.1 hnew
    obtain ⟨name, names, span, rfl, -⟩ := exists_of_declared?_eq hdeclared
    have hmem : _ ∈ (parseProgram line).statements := hline ▸ List.mem_append_left _ hentry
    exact exists_shows_of_nodeOf hmem (.part hd (Expr.expr_mem_parts.2 rfl))

/-- **Every error of a line is shown in the line**, unless it comes from the body of a function that
the session had before. The errors of reading come first, then those of the statements, each from
the statement or from the body of a function that the statement had at hand; there it stands at a
node, or, when a signature is declared again, at the declared name. -/
theorem errors_shown (maxDepth : Nat) (lines : List String) (hosts : Nat → Host) (line : String)
    (host : Host) :
    let s := ((Session.new maxDepth).interpretAll lines hosts).2
    let ceiling := host.ceiling s.maxDepth
    (s.interpret line host).1.errors =
        (parseProgram line).allErrors ++ (s.outcomes line host).filterMap Outcome.error? ∧
      (s.outcomes line host).length = (parseProgram line).statements.length ∧
      (∀ x ∈ (parseProgram line).allErrors, x.ShownIn line) ∧
      ∀ before entry after, (parseProgram line).statements = before ++ entry :: after →
        let r := (evalStatements ceiling s.registry before).2
        (s.outcomes line host)[before.length]? =
            some ((tracedStatement ceiling r entry).mapError TracedError.error) ∧
          ∀ x, tracedStatement ceiling r entry = .error x →
            (∃ e, entry = some e ∧ (x.AtNode r e ∨ x.AtDeclaredName e)) ∧
              (¬ x.origin.IsBodyOf s.registry → x.error.ShownIn line) := by
  intro s ceiling
  refine ⟨rfl, length_evalStatements _ _ _, fun x hx => shownIn_of_mem_allErrors hx, ?_⟩
  intro before entry after hline r
  have hplain : s.registry.Plain := Session.plain_interpretAll maxDepth lines hosts
  obtain ⟨hentry, hregistry, hr⟩ := evalStatements_before ceiling hplain hline
  have hat : (parseProgram line).statements[before.length]? = some entry := by simp [hline]
  have hbefore : (parseProgram line).statements.take before.length = before := by simp [hline]
  have houtcome : (s.outcomes line host)[before.length]? = _ := getElem?_evalStatements hat
  rw [hbefore, evalStatement_eq_traced] at houtcome
  refine ⟨houtcome, fun x hx => ?_⟩
  obtain ⟨e, rfl, hplace⟩ := tracedStatement_place hr hentry hx
  refine ⟨⟨e, rfl, hplace⟩, fun horigin => ?_⟩
  rcases hplace with ⟨d, hd, hspan⟩ | ⟨name, params, body, span, rfl, rfl⟩
  · rw [hregistry] at hd
    obtain ⟨text, hshows⟩ := exists_shows_of_contains hline hd horigin
    rw [← hspan] at hshows
    exact hshows.shownIn
  · have hmem : some (.declaration name params body span) ∈ (parseProgram line).statements := by
      simp [hline]
    exact (shows_declared_name hmem).shownIn

set_option maxRecDepth 4000 in
/-- An error from a body that is written in the same line, at a character of two bytes. -/
theorem errors_shown_body :
    let line := "function f(x) => -\"é\"; f(true)"
    let x : Error := ⟨.semantic (.invalidUnaryOperand .minus .string), ⟨17, 22⟩⟩
    x ∈ (Session.new.interpret line).1.errors ∧ x.ShownIn line := by
  intro line x
  have hparsed : (parseProgram "function f(x) => -\"é\"; f(true)").statements =
      [some (.declaration ⟨"f", ⟨9, 10⟩⟩ [⟨"x", ⟨11, 12⟩⟩]
        (.unary .minus (.literal (.string "é") ⟨18, 22⟩) ⟨17, 22⟩) ⟨0, 22⟩)] ++
      some (.call ⟨"f", ⟨24, 25⟩⟩ [.literal (.boolean true) ⟨26, 30⟩] ⟨24, 31⟩) :: [] := rfl
  obtain ⟨herrors, -, -, hstatements⟩ :=
    errors_shown defaultMaxDepth [] (fun _ => .thread) line .thread
  obtain ⟨houtcome, hplace⟩ := hstatements _ _ _ hparsed
  have hnew (body : Expr) :
      ¬ (Origin.body (.declared "f" ["x"] body)).IsBodyOf Registry.builtins := by
    intro h
    obtain h | h := Registry.mem_functions_foldl_add h
    · cases h
    · simp at h
  exact ⟨herrors ▸ List.mem_append_right _ (List.mem_filterMap.2 ⟨_, List.mem_of_getElem? houtcome,
    rfl⟩), (hplace ⟨x, .body _⟩ rfl).2 (hnew _)⟩

end ExprLang

import ExprLang.Expr.Printer
import ExprLang.Proofs.Lexing.Spelling

/-!
# The text of a tree

`Expr.spells_pieces`: the text of an expression is cut into the words of the expression, provided
that each word has a text. It is said with a rest behind the expression, since the pieces of a text
are built from its end. `Program.spells_text` says the same of the statements of a line.

The text does not depend on places: `Expr.text_form`, `Program.text_form`.
-/

namespace ExprLang

/-- The characters of pieces of text. -/
def chars (ps : List String) : List Char := ps.flatMap String.toList

/-- Words that have a text. -/
def AllLegible (ws : List Word) : Prop := ∀ w ∈ ws, w.Legible

theorem allLegible_append {us ws : List Word} :
    AllLegible (us ++ ws) ↔ AllLegible us ∧ AllLegible ws := by
  simp only [AllLegible, List.mem_append, or_imp, forall_and]

theorem allLegible_cons {w : Word} {ws : List Word} :
    AllLegible (w :: ws) ↔ w.Legible ∧ AllLegible ws := by
  simp only [AllLegible, List.mem_cons, forall_eq_or_imp]

namespace Expr

/-! ### The rest behind a text -/

theorem namePieces_append (rest : List String) : ∀ names : List Name,
    namePieces rest names = namePieces [] names ++ rest
  | [] | [_] => rfl
  | name :: next :: names =>
    congrArg (name.val :: ", " :: ·) (namePieces_append rest (next :: names))

mutual

theorem pieces_append : ∀ (e : Expr) (rest : List String), e.pieces rest = e.pieces [] ++ rest
  | literal .., _ | var _, _ => rfl
  | unary op operand _, rest => congrArg (op.spelling :: ·) (operand.pieces_append rest)
  | binary left op right _, rest => by
    rw [pieces, pieces, left.pieces_append, right.pieces_append,
      left.pieces_append (" " :: op.spelling :: " " :: right.pieces [])]
    simp
  | group inner _, rest => by
    rw [pieces, pieces, inner.pieces_append, inner.pieces_append [")"]]
    simp
  | conditional c r a _, rest => by
    rw [pieces, pieces, c.pieces_append, r.pieces_append, a.pieces_append,
      c.pieces_append (_ :: r.pieces _), r.pieces_append (_ :: a.pieces [])]
    simp
  | letIn bindings body _, rest => by
    rw [pieces, pieces, bindingPieces_append bindings, body.pieces_append,
      bindingPieces_append bindings (_ :: body.pieces [])]
    simp
  | declaration name params body _, rest => by
    rw [pieces, pieces, namePieces_append, body.pieces_append,
      namePieces_append (_ :: body.pieces [])]
    simp
  | call name args _, rest => by
    rw [pieces, pieces, argPieces_append args, argPieces_append args [")"]]
    simp

theorem bindingPieces_append : ∀ (bindings : List (Name × Expr)) (rest : List String),
    bindingPieces bindings rest = bindingPieces bindings [] ++ rest
  | [], _ => rfl
  | [(name, value)], rest => congrArg (name.val :: " = " :: ·) (value.pieces_append rest)
  | (name, value) :: next :: more, rest => by
    show name.val :: " = " :: value.pieces (", " :: bindingPieces (next :: more) rest) =
      name.val :: " = " :: value.pieces (", " :: bindingPieces (next :: more) []) ++ rest
    rw [bindingPieces_append (next :: more) rest, value.pieces_append,
      value.pieces_append (_ :: bindingPieces _ [])]
    simp

theorem argPieces_append : ∀ (args : List Expr) (rest : List String),
    argPieces args rest = argPieces args [] ++ rest
  | [], _ => rfl
  | [e], rest => e.pieces_append rest
  | e :: next :: more, rest => by
    show e.pieces (", " :: argPieces (next :: more) rest) =
      e.pieces (", " :: argPieces (next :: more) []) ++ rest
    rw [argPieces_append (next :: more) rest, e.pieces_append,
      e.pieces_append (_ :: argPieces _ [])]
    simp

end

theorem toList_text (e : Expr) : e.text.toList = chars (e.pieces []) := by
  rw [text, String.toList_join, chars]

/-! ### Places do not matter to the text -/

theorem namePieces_mapSpan (f : Span → Span) (rest : List String) : ∀ names : List Name,
    namePieces rest (names.map (·.mapSpan f)) = namePieces rest names
  | [] | [_] => rfl
  | name :: next :: names =>
    congrArg (name.val :: ", " :: ·) (namePieces_mapSpan f rest (next :: names))

mutual

theorem pieces_mapSpans (f : Span → Span) : ∀ (e : Expr) (rest : List String),
    (e.mapSpans f).pieces rest = e.pieces rest
  | literal .., _ | var _, _ => rfl
  | unary op operand _, rest => congrArg (op.spelling :: ·) (operand.pieces_mapSpans f rest)
  | binary left op right _, rest => by
    rw [mapSpans, pieces, pieces, left.pieces_mapSpans, right.pieces_mapSpans]
  | group inner _, rest => by rw [mapSpans, pieces, pieces, inner.pieces_mapSpans]
  | conditional c r a _, rest => by
    rw [mapSpans, pieces, pieces, c.pieces_mapSpans, r.pieces_mapSpans, a.pieces_mapSpans]
  | letIn bindings body _, rest => by
    rw [mapSpans, pieces, pieces, bindingPieces_mapSpans f bindings, body.pieces_mapSpans]
  | declaration name params body _, rest => by
    rw [mapSpans, pieces, pieces, namePieces_mapSpan, body.pieces_mapSpans]
    rfl
  | call name args _, rest => by
    rw [mapSpans, pieces, pieces, argPieces_mapSpans f args]
    rfl

theorem bindingPieces_mapSpans (f : Span → Span) : ∀ (bindings : List (Name × Expr))
    (rest : List String),
    bindingPieces (mapSpansBindings f bindings) rest = bindingPieces bindings rest
  | [], _ => rfl
  | [(name, value)], rest => congrArg (name.val :: " = " :: ·) (value.pieces_mapSpans f rest)
  | (name, value) :: next :: more, rest => by
    have hrest := bindingPieces_mapSpans f (next :: more) rest
    show name.val :: " = " :: (value.mapSpans f).pieces
      (", " :: bindingPieces (mapSpansBindings f (next :: more)) rest) = _
    rw [hrest, value.pieces_mapSpans]
    rfl

theorem argPieces_mapSpans (f : Span → Span) : ∀ (args : List Expr) (rest : List String),
    argPieces (mapSpansArgs f args) rest = argPieces args rest
  | [], _ => rfl
  | [e], rest => e.pieces_mapSpans f rest
  | e :: next :: more, rest => by
    have hrest := argPieces_mapSpans f (next :: more) rest
    show (e.mapSpans f).pieces (", " :: argPieces (mapSpansArgs f (next :: more)) rest) = _
    rw [hrest, e.pieces_mapSpans]
    rfl

end

theorem text_form (e : Expr) : e.form.text = e.text :=
  congrArg String.join (pieces_mapSpans _ e [])

/-! ### Texts and words -/

theorem spells_names : ∀ (names : List Name) (tail : List String) {ws : List Word},
    AllLegible (nameWords names) → Fresh (chars tail) → Spells (chars tail) ws →
    Spells (chars (namePieces tail names)) (nameWords names ++ ws)
  | [], _, _, _, _, h => h
  | [name], _, _, hl, hfresh, h => h.name (allLegible_cons.1 hl).1 hfresh
  | name :: next :: names, tail, _, hl, hfresh, h => by
    rw [nameWords, allLegible_cons, allLegible_cons] at hl
    · have hrest := spells_names (next :: names) tail hl.2.2 hfresh h
      have hcomma := hrest.space.symbol .comma (unpaired_cons (by decide))
      exact hcomma.name hl.1 (fresh_cons (by decide))
    · nofun

/-- The text of an expression does not begin with the second half of a symbol. -/
theorem unpaired_pieces : ∀ (e : Expr) (tail : List String), AllLegible e.words →
    Unpaired (chars (e.pieces tail))
  | literal value _, _, hl => Literal.Legible.unpaired (allLegible_cons.1 hl).1
  | unary op _ _, _, _ => by cases op <;> exact unpaired_cons (by decide)
  | binary left _ _ _, _, hl => left.unpaired_pieces _ (allLegible_append.1 hl).1
  | group .., _, _ => unpaired_cons (by decide)
  | var name, _, hl => IsWord.unpaired (allLegible_cons.1 hl).1.1
  | conditional .., _, _ => unpaired_cons (by decide)
  | letIn .., _, _ => unpaired_cons (by decide)
  | declaration .., _, _ => unpaired_cons (by decide)
  | call name _ _, _, hl => IsWord.unpaired (allLegible_cons.1 hl).1.1

theorem unpaired_names (names : List Name) (tail : List String) (hl : AllLegible (nameWords names))
    (h : Unpaired (chars tail)) : Unpaired (chars (namePieces tail names)) := by
  match names with
  | [] => exact h
  | [name] => exact (hl _ List.mem_cons_self).1.unpaired
  | name :: next :: names => exact (hl (.name name.val) List.mem_cons_self).1.unpaired

theorem unpaired_args (args : List Expr) (tail : List String) (hl : AllLegible (argWords args))
    (h : Unpaired (chars tail)) : Unpaired (chars (argPieces args tail)) := by
  match args with
  | [] => exact h
  | [e] => exact e.unpaired_pieces tail hl
  | e :: next :: more => exact e.unpaired_pieces _ (allLegible_append.1 hl).1

mutual

/-- The text of an expression is cut into the words of the expression. -/
theorem spells_pieces : ∀ (e : Expr) (tail : List String) {ws : List Word}, AllLegible e.words →
    Fresh (chars tail) → Spells (chars tail) ws → Spells (chars (e.pieces tail)) (e.words ++ ws)
  | literal value _, _, _, hl, hfresh, h => h.literal (allLegible_cons.1 hl).1 hfresh
  | unary op operand _, tail, _, hl, hfresh, h => by
    rw [words, allLegible_cons] at hl
    -- no space stands behind the operator, so the operand must not continue it
    have hoperand := operand.spells_pieces tail hl.2 hfresh h
    exact hoperand.symbol op.symbol (operand.unpaired_pieces tail hl.2)
  | binary left op right _, tail, _, hl, hfresh, h => by
    rw [words, allLegible_append, allLegible_cons] at hl
    have hright := right.spells_pieces tail hl.2.2 hfresh h
    have hop := hright.space.symbol op.symbol (unpaired_cons (by decide))
    rw [words, List.append_assoc]
    exact left.spells_pieces (" " :: op.spelling :: " " :: right.pieces tail) hl.1
      (fresh_cons (by decide)) hop.space
  | group inner _, tail, _, hl, hfresh, h => by
    rw [words, allLegible_cons, allLegible_append] at hl
    have hclose := h.symbol .rightParen hfresh.unpaired
    have hinner := inner.spells_pieces (")" :: tail) hl.2.1 (fresh_cons (by decide)) hclose
    rw [words, List.cons_append, List.append_assoc]
    exact hinner.symbol .leftParen (inner.unpaired_pieces _ hl.2.1)
  | var name, _, _, hl, hfresh, h => h.name (allLegible_cons.1 hl).1 hfresh
  | conditional c r a _, tail, _, hl, hfresh, h => by
    rw [words, allLegible_cons, allLegible_cons, allLegible_append, allLegible_cons,
      allLegible_append, allLegible_cons] at hl
    obtain ⟨-, -, hc, -, hr, -, ha⟩ := hl
    have halternative := a.spells_pieces tail ha hfresh h
    have helse := halternative.space.keyword .elseWord rfl (fresh_cons (by decide))
    have hresolution := r.spells_pieces (" else " :: a.pieces tail) hr (fresh_cons (by decide))
      helse.space
    have hclose := hresolution.space.symbol .rightParen (unpaired_cons (by decide))
    have hcondition := c.spells_pieces (") " :: r.pieces (" else " :: a.pieces tail)) hc
      (fresh_cons (by decide)) hclose
    have hopen := hcondition.symbol .leftParen (c.unpaired_pieces _ hc)
    rw [words, List.cons_append, List.cons_append, List.append_assoc, List.cons_append,
      List.append_assoc, List.cons_append]
    exact hopen.space.keyword .ifWord rfl (fresh_cons (by decide))
  | letIn bindings body _, tail, _, hl, hfresh, h => by
    rw [words, allLegible_cons, allLegible_append, allLegible_cons] at hl
    obtain ⟨-, hbindings, -, hbody⟩ := hl
    have hvalue := body.spells_pieces tail hbody hfresh h
    have hin := hvalue.space.keyword .inWord rfl (fresh_cons (by decide))
    have hnames := spells_bindings bindings (" in " :: body.pieces tail) hbindings
      (fresh_cons (by decide)) hin.space
    rw [words, List.cons_append, List.append_assoc, List.cons_append]
    exact hnames.space.keyword .letWord rfl (fresh_cons (by decide))
  | declaration name params body _, tail, _, hl, hfresh, h => by
    rw [words, allLegible_cons, allLegible_cons, allLegible_cons, allLegible_append,
      allLegible_cons, allLegible_cons] at hl
    obtain ⟨-, hname, -, hparams, -, -, hbody⟩ := hl
    have hvalue := body.spells_pieces tail hbody hfresh h
    have harrow := hvalue.space.symbol .arrow (unpaired_cons (by decide))
    have hclose := harrow.space.symbol .rightParen (unpaired_cons (by decide))
    have hnames := spells_names params (") => " :: body.pieces tail) hparams
      (fresh_cons (by decide)) hclose
    have hunpaired := unpaired_names params (") => " :: body.pieces tail) hparams
      (unpaired_cons (by decide))
    have hopen := hnames.symbol .leftParen hunpaired
    rw [words, List.cons_append, List.cons_append, List.cons_append, List.append_assoc,
      List.cons_append, List.cons_append]
    exact (hopen.name hname (fresh_cons (by decide))).space.keyword .functionWord rfl
      (fresh_cons (by decide))
  | call name args _, tail, _, hl, hfresh, h => by
    rw [words, allLegible_cons, allLegible_cons, allLegible_append] at hl
    obtain ⟨hname, -, hargs, -⟩ := hl
    have hclose := h.symbol .rightParen hfresh.unpaired
    have hlist := spells_args args (")" :: tail) hargs (fresh_cons (by decide)) hclose
    have hunpaired := unpaired_args args (")" :: tail) hargs (unpaired_cons (by decide))
    have hopen := hlist.symbol .leftParen hunpaired
    rw [words, List.cons_append, List.cons_append, List.append_assoc]
    exact hopen.name hname (fresh_cons (by decide))

theorem spells_bindings : ∀ (bindings : List (Name × Expr)) (tail : List String) {ws : List Word},
    AllLegible (bindingWords bindings) → Fresh (chars tail) → Spells (chars tail) ws →
    Spells (chars (bindingPieces bindings tail)) (bindingWords bindings ++ ws)
  | [], _, _, _, _, h => h
  | [(name, value)], tail, _, hl, hfresh, h => by
    rw [bindingWords, allLegible_cons, allLegible_cons] at hl
    have hvalue := value.spells_pieces tail hl.2.2 hfresh h
    have hequal := hvalue.space.symbol .equal (unpaired_cons (by decide))
    exact hequal.space.name hl.1 (fresh_cons (by decide))
  | (name, value) :: next :: more, tail, _, hl, hfresh, h => by
    rw [bindingWords, allLegible_cons, allLegible_cons, allLegible_append, allLegible_cons] at hl
    · have hrest := spells_bindings (next :: more) tail hl.2.2.2.2 hfresh h
      have hcomma := hrest.space.symbol .comma (unpaired_cons (by decide))
      have hvalue := value.spells_pieces (", " :: bindingPieces (next :: more) tail) hl.2.2.1
        (fresh_cons (by decide)) hcomma
      have hequal := hvalue.space.symbol .equal (unpaired_cons (by decide))
      rw [bindingWords, List.cons_append, List.cons_append, List.append_assoc, List.cons_append]
      · exact hequal.space.name hl.1 (fresh_cons (by decide))
      · nofun
    · nofun

theorem spells_args : ∀ (args : List Expr) (tail : List String) {ws : List Word},
    AllLegible (argWords args) → Fresh (chars tail) → Spells (chars tail) ws →
    Spells (chars (argPieces args tail)) (argWords args ++ ws)
  | [], _, _, _, _, h => h
  | [e], tail, _, hl, hfresh, h => e.spells_pieces tail hl hfresh h
  | e :: next :: more, tail, _, hl, hfresh, h => by
    rw [argWords, allLegible_append, allLegible_cons] at hl
    · have hrest := spells_args (next :: more) tail hl.2.2 hfresh h
      have hcomma := hrest.space.symbol .comma (unpaired_cons (by decide))
      rw [argWords, List.append_assoc]
      · exact e.spells_pieces (", " :: argPieces (next :: more) tail) hl.1
          (fresh_cons (by decide)) hcomma
      · nofun
    · nofun

end

end Expr

/-! ### Programs -/

namespace Program

/-- The words of statements with semicolons between them. -/
def words : List Expr → List Word
  | [] => []
  | [e] => e.words
  | e :: es => e.words ++ .plain (.symbol .semicolon) :: words es

theorem toList_text_cons (e d : Expr) (es : List Expr) :
    (text ((e :: d :: es).map some)).toList =
      chars (e.pieces ["; ", text ((d :: es).map some)]) := by
  have hcons : text ((e :: d :: es).map some) = e.text ++ "; " ++ text ((d :: es).map some) :=
    String.intercalate_cons_cons
  rw [hcons, Expr.pieces_append, String.toList_append, String.toList_append, e.toList_text]
  simp [chars]

/-- **The text of a program** is cut into the words of its statements, and semicolons. -/
theorem spells_text : ∀ es : List Expr, (∀ e ∈ es, AllLegible e.words) →
    Spells (text (es.map some)).toList (words es)
  | [], _ => Spells.nil
  | [e], hl => by
    have h := e.spells_pieces [] (hl e List.mem_cons_self) nofun Spells.nil
    rw [List.append_nil, ← e.toList_text] at h
    exact h
  | e :: d :: es, hl => by
    have hrest := spells_text (d :: es) fun e he => hl e (List.mem_cons_of_mem _ he)
    have hsemicolon := hrest.space.symbol .semicolon (unpaired_cons (by decide))
    rw [toList_text_cons]
    refine e.spells_pieces _ (hl e List.mem_cons_self) (fresh_cons (by decide)) ?_
    show Spells (';' :: ' ' :: ((text ((d :: es).map some)).toList ++ [])) _
    rw [List.append_nil]
    exact hsemicolon

theorem text_form (p : Program) : text (p.map (Option.map Expr.form)) = text p := by
  have hstatement : statementText ∘ Option.map Expr.form = statementText := by
    funext entry
    cases entry with
    | none => rfl
    | some e => exact e.text_form
  rw [text, List.map_map, hstatement, text]

end Program

end ExprLang

import ExprLang.Proofs.Grammar.Canonical

/-!
# Places do not matter to the grammar

The words of a tree, whether it is canonical, and how deeply it is nested do not depend on the
places of its nodes, so they can be read off its form.
-/

namespace ExprLang

namespace Expr

variable (f : Span → Span)

theorem span_mapSpans (e : Expr) : (e.mapSpans f).span = f e.span := by
  cases e <;> rfl

theorem rootOp?_mapSpans (e : Expr) : (e.mapSpans f).rootOp? = e.rootOp? := by
  cases e <;> rfl

theorem rightOpen_mapSpans : ∀ e : Expr, (e.mapSpans f).rightOpen = e.rightOpen
  | literal .. | var _ | group .. | conditional .. | letIn .. | declaration .. | call .. => rfl
  | unary _ operand _ => operand.rightOpen_mapSpans
  | binary _ _ right _ => right.rightOpen_mapSpans

theorem isEmpty_mapSpansBindings (bindings : List (Name × Expr)) :
    (mapSpansBindings f bindings).isEmpty = bindings.isEmpty := by
  cases bindings <;> rfl

mutual

theorem isCanonical_mapSpans : ∀ e : Expr, (e.mapSpans f).isCanonical = e.isCanonical
  | literal .. | var _ | declaration .. => rfl
  | unary _ operand _ => by
    rw [mapSpans, isCanonical, isCanonical, rootOp?_mapSpans, operand.isCanonical_mapSpans]
  | binary left _ right _ => by
    rw [mapSpans, isCanonical, isCanonical, left.isCanonical_mapSpans, right.isCanonical_mapSpans,
      rightOpen_mapSpans, rootOp?_mapSpans, rootOp?_mapSpans]
  | group inner _ => inner.isCanonical_mapSpans
  | conditional c r a _ => by
    rw [mapSpans, isCanonical, isCanonical, c.isCanonical_mapSpans, r.isCanonical_mapSpans,
      a.isCanonical_mapSpans]
  | letIn bindings body _ => by
    rw [mapSpans, isCanonical, isCanonical, isEmpty_mapSpansBindings,
      isCanonicalBindings_mapSpans bindings, body.isCanonical_mapSpans]
  | call _ args _ => isCanonicalArgs_mapSpans args

theorem isCanonicalBindings_mapSpans : ∀ bindings : List (Name × Expr),
    isCanonicalBindings (mapSpansBindings f bindings) = isCanonicalBindings bindings
  | [] => rfl
  | (_, value) :: rest => by
    rw [mapSpansBindings, isCanonicalBindings, isCanonicalBindings, value.isCanonical_mapSpans,
      isCanonicalBindings_mapSpans rest]

theorem isCanonicalArgs_mapSpans : ∀ args : List Expr,
    isCanonicalArgs (mapSpansArgs f args) = isCanonicalArgs args
  | [] => rfl
  | e :: rest => by
    rw [mapSpansArgs, isCanonicalArgs, isCanonicalArgs, e.isCanonical_mapSpans,
      isCanonicalArgs_mapSpans rest]

end

mutual

theorem levelsBelow_mapSpans : ∀ e : Expr, (e.mapSpans f).levelsBelow = e.levelsBelow
  | literal .. | var _ => rfl
  | unary _ operand _ => congrArg (· + 1) operand.levelsBelow_mapSpans
  | binary left _ right _ => by
    rw [mapSpans, levelsBelow, levelsBelow, left.levelsBelow_mapSpans, right.levelsBelow_mapSpans]
  | group inner _ => congrArg (· + 1) inner.levelsBelow_mapSpans
  | conditional c r a _ => by
    rw [mapSpans, levelsBelow, levelsBelow, c.levelsBelow_mapSpans, r.levelsBelow_mapSpans,
      a.levelsBelow_mapSpans]
  | letIn bindings body _ => by
    rw [mapSpans, levelsBelow, levelsBelow, levelsBelowBindings_mapSpans bindings,
      body.levelsBelow_mapSpans]
  | declaration _ _ body _ => body.levelsBelow_mapSpans
  | call _ args _ => levelsBelowArgs_mapSpans args

theorem levelsBelowBindings_mapSpans : ∀ bindings : List (Name × Expr),
    levelsBelowBindings (mapSpansBindings f bindings) = levelsBelowBindings bindings
  | [] => rfl
  | (_, value) :: rest => by
    rw [mapSpansBindings, levelsBelowBindings, levelsBelowBindings, value.levelsBelow_mapSpans,
      levelsBelowBindings_mapSpans rest]

theorem levelsBelowArgs_mapSpans : ∀ args : List Expr,
    levelsBelowArgs (mapSpansArgs f args) = levelsBelowArgs args
  | [] => rfl
  | e :: rest => by
    rw [mapSpansArgs, levelsBelowArgs, levelsBelowArgs, e.levelsBelow_mapSpans,
      levelsBelowArgs_mapSpans rest]

end

theorem nameWords_mapSpan : ∀ names : List Name,
    nameWords (names.map (·.mapSpan f)) = nameWords names
  | [] | [_] => rfl
  | name :: next :: names =>
    congrArg (Word.name name.val :: Word.plain (.symbol .comma) :: ·)
      (nameWords_mapSpan (next :: names))

mutual

theorem words_mapSpans : ∀ e : Expr, (e.mapSpans f).words = e.words
  | literal .. | var _ => rfl
  | unary op operand _ => congrArg (Word.plain (.symbol op.symbol) :: ·) operand.words_mapSpans
  | binary left _ right _ => by
    rw [mapSpans, words, words, left.words_mapSpans, right.words_mapSpans]
  | group inner _ => by rw [mapSpans, words, words, inner.words_mapSpans]
  | conditional c r a _ => by
    rw [mapSpans, words, words, c.words_mapSpans, r.words_mapSpans, a.words_mapSpans]
  | letIn bindings body _ => by
    rw [mapSpans, words, words, bindingWords_mapSpans bindings, body.words_mapSpans]
  | declaration name params body _ => by
    rw [mapSpans, words, words, nameWords_mapSpan, body.words_mapSpans]
    rfl
  | call name args _ => by
    rw [mapSpans, words, words, argWords_mapSpans args]
    rfl

theorem bindingWords_mapSpans : ∀ bindings : List (Name × Expr),
    bindingWords (mapSpansBindings f bindings) = bindingWords bindings
  | [] => rfl
  | [(name, value)] =>
    congrArg (Word.name name.val :: Word.plain (.symbol .equal) :: ·) value.words_mapSpans
  | (_, value) :: next :: rest => by
    rw [mapSpansBindings, bindingWords, bindingWords, value.words_mapSpans,
      bindingWords_mapSpans (next :: rest)]
    · rfl
    all_goals nofun

theorem argWords_mapSpans : ∀ args : List Expr, argWords (mapSpansArgs f args) = argWords args
  | [] => rfl
  | [e] => e.words_mapSpans
  | e :: next :: rest => by
    rw [mapSpansArgs, argWords, argWords, e.words_mapSpans, argWords_mapSpans (next :: rest)]
    all_goals nofun

end

/-! ### One map after the other -/

theorem mapSpan_mapSpan (g : Span → Span) {α : Type} (x : Located α) :
    (x.mapSpan f).mapSpan g = x.mapSpan (g ∘ f) := rfl

mutual

theorem mapSpans_mapSpans (g : Span → Span) :
    ∀ e : Expr, (e.mapSpans f).mapSpans g = e.mapSpans (g ∘ f)
  | literal .. | var _ => rfl
  | unary op operand s => congrArg (unary op · (g (f s))) (operand.mapSpans_mapSpans g)
  | binary left op right s => by
    simp only [mapSpans, left.mapSpans_mapSpans g, right.mapSpans_mapSpans g, Function.comp_apply]
  | group inner s => congrArg (group · (g (f s))) (inner.mapSpans_mapSpans g)
  | conditional c r a s => by
    simp only [mapSpans, c.mapSpans_mapSpans g, r.mapSpans_mapSpans g, a.mapSpans_mapSpans g,
      Function.comp_apply]
  | letIn bindings body s => by
    simp only [mapSpans, mapSpansBindings_mapSpans g bindings, body.mapSpans_mapSpans g,
      Function.comp_apply]
  | declaration name params body s => by
    simp only [mapSpans, body.mapSpans_mapSpans g, List.map_map, Function.comp_apply,
      mapSpan_mapSpan]
    rfl
  | call name args s => by
    simp only [mapSpans, mapSpansArgs_mapSpans g args, mapSpan_mapSpan, Function.comp_apply]

theorem mapSpansBindings_mapSpans (g : Span → Span) : ∀ bindings : List (Name × Expr),
    mapSpansBindings g (mapSpansBindings f bindings) = mapSpansBindings (g ∘ f) bindings
  | [] => rfl
  | (_, value) :: rest => by
    simp only [mapSpansBindings, value.mapSpans_mapSpans g, mapSpansBindings_mapSpans g rest,
      mapSpan_mapSpan]

theorem mapSpansArgs_mapSpans (g : Span → Span) : ∀ args : List Expr,
    mapSpansArgs g (mapSpansArgs f args) = mapSpansArgs (g ∘ f) args
  | [] => rfl
  | e :: rest => by
    simp only [mapSpansArgs, e.mapSpans_mapSpans g, mapSpansArgs_mapSpans g rest]

end

/-- A change of places does not change the form. -/
theorem form_mapSpans (e : Expr) : (e.mapSpans f).form = e.form := mapSpans_mapSpans f _ e

theorem mapSpan_id {α : Type} (x : Located α) : x.mapSpan id = x := rfl

mutual

theorem mapSpans_id : ∀ e : Expr, e.mapSpans id = e
  | literal .. | var _ => rfl
  | unary op operand s => congrArg (unary op · s) operand.mapSpans_id
  | binary left op right s => by rw [mapSpans, left.mapSpans_id, right.mapSpans_id, id]
  | group inner s => congrArg (group · s) inner.mapSpans_id
  | conditional c r a s => by rw [mapSpans, c.mapSpans_id, r.mapSpans_id, a.mapSpans_id, id]
  | letIn bindings body s => by
    rw [mapSpans, mapSpansBindings_id bindings, body.mapSpans_id, id]
  | declaration name params body s => by
    rw [mapSpans, body.mapSpans_id, id]
    simp only [mapSpan_id, List.map_id']
  | call name args s => by rw [mapSpans, mapSpansArgs_id args, mapSpan_id, id]

theorem mapSpansBindings_id :
    ∀ bindings : List (Name × Expr), mapSpansBindings id bindings = bindings
  | [] => rfl
  | (_, value) :: rest => by
    rw [mapSpansBindings, value.mapSpans_id, mapSpansBindings_id rest, mapSpan_id]

theorem mapSpansArgs_id : ∀ args : List Expr, mapSpansArgs id args = args
  | [] => rfl
  | e :: rest => by rw [mapSpansArgs, e.mapSpans_id, mapSpansArgs_id rest]

end

theorem isStatement_mapSpans (e : Expr) : (e.mapSpans f).isStatement = e.isStatement := by
  cases e with
  | declaration _ _ body _ => exact body.isCanonical_mapSpans f
  | _ => exact isCanonical_mapSpans f _

/-! ### Equal forms -/

variable {d e : Expr}

theorem words_eq_of_form (h : d.form = e.form) : d.words = e.words :=
  ((words_mapSpans _ d).symm.trans (congrArg words h)).trans (words_mapSpans _ e)

theorem isStatement_eq_of_form (h : d.form = e.form) : d.isStatement = e.isStatement :=
  ((isStatement_mapSpans _ d).symm.trans (congrArg isStatement h)).trans (isStatement_mapSpans _ e)

theorem nest_eq_of_form (h : d.form = e.form) : d.nest = e.nest :=
  congrArg (· + 1) (((levelsBelow_mapSpans _ d).symm.trans (congrArg levelsBelow h)).trans
    (levelsBelow_mapSpans _ e))

end Expr

end ExprLang

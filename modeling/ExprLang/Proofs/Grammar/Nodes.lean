import ExprLang.Proofs.Grammar.Forms
import ExprLang.Proofs.Grammar.Soundness
import ExprLang.Proofs.Lexing.Extent
import ExprLang.Proofs.Lexing.Stream
import Mathlib.Order.MinMax

/-!
# The nodes of an expression

What is said about the tokens of an expression holds of every node in it: its tokens are a run of
the tokens of the whole, and its place is the extent of that run (`Written.span_eq`). `MadeOf`
tells which tokens of an expression are those of its parts, so parts stand one behind the other
within the place of the whole (`MadeOf.bounds`, `MadeOf.pairwise`). A node of a statement is a
statement itself (`StatementOf.node`), and stays one when its tokens are moved
(`Written.mapSpans`).
-/

namespace ExprLang

/-! ### Parts and nodes -/

/-- What an expression is made of, apart from the words of the grammar. -/
inductive Part where
  | name (name : Name)
  | expr (e : Expr)

namespace Part

/-- The place of a part. -/
def span : Part → Span
  | name n => n.span
  | expr e => e.span

/-- The tokens of a part. -/
def Written : Part → List Token → Prop
  | name n, ts => WrittenName n ts
  | expr e, ts => ExprLang.Written e ts

end Part

namespace Expr

/-- The names and the expressions directly below an expression, from left to right. -/
def parts : Expr → List Part
  | literal .. | var _ => []
  | unary _ operand _ => [.expr operand]
  | binary left _ right _ => [.expr left, .expr right]
  | group inner _ => [.expr inner]
  | conditional c r a _ => [.expr c, .expr r, .expr a]
  | letIn bindings body _ =>
    bindings.flatMap (fun b => [.name b.1, .expr b.2]) ++ [.expr body]
  | declaration name params body _ => .name name :: (params.map .name ++ [.expr body])
  | call name args _ => .name name :: args.map .expr

/-- The first expression is a node of the second one: it is that expression, or a node of an
expression directly below it. -/
inductive NodeOf : Expr → Expr → Prop
  | self (e : Expr) : NodeOf e e
  | part {d c e : Expr} (hd : NodeOf d c) (hc : .expr c ∈ e.parts) : NodeOf d e

end Expr

/-- The parts that tokens are made of, from left to right. -/
inductive MadeOf : List Part → List Token → Prop
  | nil : MadeOf [] []
  | skip {ps : List Part} {ts : List Token} (t : Token) (h : MadeOf ps ts) : MadeOf ps (t :: ts)
  | part {p : Part} {ps : List Part} {us ts : List Token} (hp : p.Written us) (h : MadeOf ps ts) :
      MadeOf (p :: ps) (us ++ ts)

namespace MadeOf

variable {p : Part} {ps qs : List Part} {ts us : List Token}

/-- A name and what is behind it. -/
theorem name {t : Token} (ht : t.kind = .identifier) (h : MadeOf ps ts) :
    MadeOf (.name t.toName :: ps) (t :: ts) := by
  have hname : (Part.name t.toName).Written [t] := ⟨t, rfl, ht, rfl⟩
  exact .part hname h

/-- An expression and what is behind it. -/
theorem expr {e : Expr} (he : Written e us) (h : MadeOf ps ts) :
    MadeOf (.expr e :: ps) (us ++ ts) :=
  .part (p := .expr e) he h

/-- An expression up to the end. -/
theorem lastExpr {e : Expr} (he : Written e ts) : MadeOf [.expr e] ts := by
  have h := expr he .nil
  rwa [List.append_nil] at h

theorem append (h : MadeOf ps ts) (h' : MadeOf qs us) : MadeOf (ps ++ qs) (ts ++ us) := by
  induction h with
  | nil => exact h'
  | skip t _ ih => exact .skip t ih
  | part hp _ ih =>
    rw [List.cons_append, List.append_assoc]
    exact .part hp ih

end MadeOf

/-- Names and what is behind them. -/
theorem MadeOf.names {params : List Name} {ps : List Part} {ts us : List Token}
    (h : Separated WrittenName params ts) (h' : MadeOf ps us) :
    MadeOf (params.map .name ++ ps) (ts ++ us) := by
  induction h with
  | one ha => exact .part ha h'
  | cons ha _ _ ih =>
    rw [List.map_cons, List.cons_append, List.append_assoc, List.cons_append]
    exact .part (p := .name _) ha (.skip _ ih)

theorem WrittenBindings.madeOf : ∀ {bindings : List (Name × Expr)} {ts : List Token},
    WrittenBindings bindings ts →
      MadeOf (bindings.flatMap fun b => [.name b.1, .expr b.2]) ts
  | _, _, .one hn _ he => .name hn (.skip _ (.lastExpr he))
  | _, _, .cons hn _ he _ hbindings => .name hn (.skip _ (.expr he (.skip _ hbindings.madeOf)))

theorem WrittenArgs.madeOf : ∀ {args : List Expr} {ts : List Token},
    WrittenArgs args ts → MadeOf (args.map .expr) ts
  | _, _, .one he => .lastExpr he
  | _, _, .cons he _ hargs => .expr he (.skip _ hargs.madeOf)

/-- **The tokens of an expression are made of its parts.** -/
theorem Written.madeOf {e : Expr} {ts : List Token} (h : Written e ts) : MadeOf e.parts ts := by
  cases h with
  | literal | var => exact .skip _ .nil
  | unary _ he => exact .skip _ (.lastExpr he)
  | binary he _ hd => exact .expr he (.skip _ (.lastExpr hd))
  | group _ he _ => exact .skip _ (.expr he (.skip _ .nil))
  | conditional _ _ hc _ hd _ he =>
    exact .skip _ (.skip _ (.expr hc (.skip _ (.expr hd (.skip _ (.lastExpr he))))))
  | letIn _ hbindings _ he => exact .skip _ (hbindings.madeOf.append (.skip _ (.lastExpr he)))
  | declaration _ hn _ hparams _ _ he =>
    refine .skip _ (.name hn (.skip _ ?_))
    rcases hparams with ⟨rfl, rfl⟩ | hparams
    · exact .skip _ (.skip _ (.lastExpr he))
    · exact .names hparams (.skip _ (.skip _ (.lastExpr he)))
  | callNone hn _ _ => exact .name hn (.skip _ (.skip _ .nil))
  | @call n l r args ts hn _ hargs _ =>
    have hparts := hargs.madeOf.append (.skip r .nil)
    rw [List.append_nil] at hparts
    exact .name hn (.skip _ hparts)

/-! ### Places -/

/-- **An expression stands where its tokens stand**, from the first to the last. -/
theorem Written.span_eq : ∀ {e : Expr} {ts : List Token}, Written e ts → Ordered ts →
    e.span = extent ts
  | _, _, .literal _, _ | _, _, .var _, _ => rfl
  | _, _, .unary _ he, h => by
    obtain ⟨hlast, hextent⟩ := h.extent_cons he.ne_nil (List.suffix_refl _)
    rw [hextent, ← he.span_eq hlast]
    rfl
  | _, _, .binary he _ hd, h => by
    rw [← List.singleton_append] at h ⊢
    rw [h.extent_union he.ne_nil hd.ne_nil, ← he.span_eq h.of_append.1,
      ← hd.span_eq h.of_append.2.of_append.2]
    rfl
  | _, _, .group (r := r) _ _ _, h => by
    rw [(h.extent_cons (List.cons_ne_nil r []) (List.suffix_append _ _)).2]
    rfl
  | _, _, @Written.conditional _ l r o _ _ _ ts us _ _ _ _ _ _ _ he, h => by
    obtain ⟨hlast, hextent⟩ := h.extent_cons he.ne_nil ⟨l :: ts ++ r :: us ++ [o], by simp⟩
    rw [hextent, ← he.span_eq hlast]
    rfl
  | _, _, @Written.letIn _ i _ _ ts _ _ _ _ he, h => by
    obtain ⟨hlast, hextent⟩ := h.extent_cons he.ne_nil ⟨ts ++ [i], by simp⟩
    rw [hextent, ← he.span_eq hlast]
    rfl
  | _, _, @Written.declaration _ n l r a _ _ ts _ _ _ _ _ _ _ he, h => by
    obtain ⟨hlast, hextent⟩ := h.extent_cons he.ne_nil ⟨n :: l :: ts ++ [r, a], by simp⟩
    rw [hextent, ← he.span_eq hlast]
    rfl
  | _, _, .callNone (l := l) (r := r) _ _ _, h => by
    rw [(h.extent_cons (List.cons_ne_nil r []) ⟨[l], rfl⟩).2]
    rfl
  | _, _, @Written.call _ l r _ ts _ _ _ _, h => by
    rw [(h.extent_cons (List.cons_ne_nil r []) ⟨l :: ts, rfl⟩).2]
    rfl

theorem WrittenName.span_eq {name : Name} {ts : List Token} (h : WrittenName name ts) :
    name.span = extent ts := by
  obtain ⟨t, rfl, -, rfl⟩ := h
  rfl

namespace Part.Written

variable {p : Part} {ts : List Token}

theorem ne_nil (h : p.Written ts) : ts ≠ [] := by
  cases p with
  | name =>
    obtain ⟨t, rfl, -⟩ := h
    exact List.cons_ne_nil t []
  | expr => exact ExprLang.Written.ne_nil h

theorem span_eq (h : p.Written ts) (hts : Ordered ts) : p.span = extent ts := by
  cases p with
  | name => exact WrittenName.span_eq h
  | expr => exact ExprLang.Written.span_eq h hts

end Part.Written

namespace MadeOf

variable {p : Part} {ps : List Part} {ts : List Token}

/-- The tokens of a part are a run of the tokens of the whole. -/
theorem exists_infix (h : MadeOf ps ts) (hp : p ∈ ps) : ∃ us, us <:+: ts ∧ p.Written us := by
  induction h with
  | nil => cases hp
  | skip t _ ih =>
    obtain ⟨us, hus, hwritten⟩ := ih hp
    exact ⟨us, hus.trans (List.suffix_cons t _).isInfix, hwritten⟩
  | part hq _ ih =>
    rcases List.mem_cons.1 hp with rfl | hp
    · exact ⟨_, (List.prefix_append _ _).isInfix, hq⟩
    · obtain ⟨us, hus, hwritten⟩ := ih hp
      exact ⟨us, hus.trans (List.suffix_append _ _).isInfix, hwritten⟩

/-- Parts stand within the extent of the tokens. -/
theorem bounds (h : MadeOf ps ts) (hts : Ordered ts) (hp : p ∈ ps) :
    (extent ts).start ≤ p.span.start ∧ p.span.start < p.span.stop ∧
      p.span.stop ≤ (extent ts).stop := by
  obtain ⟨us, hus, hwritten⟩ := h.exists_infix hp
  have horder := hts.sublist hus.sublist
  obtain ⟨hstart, hstop⟩ := hts.extent_subset hwritten.ne_nil hus.subset
  rw [hwritten.span_eq horder]
  exact ⟨hstart, horder.extent_lt hwritten.ne_nil, hstop⟩

/-- Parts stand one behind the other. -/
theorem pairwise (h : MadeOf ps ts) (hts : Ordered ts) :
    (ps.map Part.span).Pairwise fun s t => s.stop ≤ t.start := by
  induction h with
  | nil => exact List.Pairwise.nil
  | skip t _ ih => exact ih hts.of_cons
  | part hp h ih =>
    obtain ⟨hus, hts'⟩ := hts.of_append
    refine List.pairwise_cons.2 ⟨List.forall_mem_map.2 fun q hq => ?_, ih hts'⟩
    obtain ⟨vs, hvs, hq⟩ := h.exists_infix hq
    rw [hp.span_eq hus, hq.span_eq (hts'.sublist hvs.sublist)]
    exact (hts.sublist (hvs.sublist.append_left _)).extent_le hp.ne_nil hq.ne_nil

end MadeOf

/-! ### Nodes of a statement -/

namespace Expr

variable {c d e : Expr} {bindings : List (Name × Expr)} {args : List Expr}

/-- The expressions directly below an expression. -/
theorem expr_mem_parts : .expr c ∈ e.parts ↔ match e with
    | literal .. | var _ => False
    | unary _ operand _ | group operand _ | declaration _ _ operand _ => c = operand
    | binary left _ right _ => c = left ∨ c = right
    | conditional condition r a _ => c = condition ∨ c = r ∨ c = a
    | letIn bindings body _ => (∃ name, (name, c) ∈ bindings) ∨ c = body
    | call _ args _ => c ∈ args := by
  cases e <;> simp [parts]

theorem isCanonical_of_mem_bindings (h : isCanonicalBindings bindings) {name : Name}
    (hc : (name, c) ∈ bindings) : c.isCanonical := by
  induction bindings with
  | nil => cases hc
  | cons b rest ih =>
    rw [isCanonicalBindings, Bool.and_eq_true] at h
    rcases List.mem_cons.1 hc with rfl | hc
    · exact h.1
    · exact ih h.2 hc

theorem isCanonical_of_mem_args (h : isCanonicalArgs args) (hc : c ∈ args) : c.isCanonical := by
  induction args with
  | nil => cases hc
  | cons e rest ih =>
    rw [isCanonicalArgs, Bool.and_eq_true] at h
    rcases List.mem_cons.1 hc with rfl | hc
    · exact h.1
    · exact ih h.2 hc

theorem nest_le_levelsBelowBindings {name : Name} (hc : (name, c) ∈ bindings) :
    c.nest ≤ levelsBelowBindings bindings := by
  induction bindings with
  | nil => cases hc
  | cons b rest ih =>
    rcases List.mem_cons.1 hc with rfl | hc
    · exact Nat.le_max_left ..
    · exact Nat.le_trans (ih hc) (Nat.le_max_right ..)

theorem nest_le_levelsBelowArgs (hc : c ∈ args) : c.nest ≤ levelsBelowArgs args := by
  induction args with
  | nil => cases hc
  | cons e rest ih =>
    rcases List.mem_cons.1 hc with rfl | hc
    · exact Nat.le_max_left ..
    · exact Nat.le_trans (ih hc) (Nat.le_max_right ..)

/-- An expression directly below a statement is canonical. -/
theorem isCanonical_of_mem_parts (he : e.isStatement) (hc : .expr c ∈ e.parts) :
    c.isCanonical := by
  rw [expr_mem_parts] at hc
  cases e with
  | literal | var => exact hc.elim
  | unary =>
    simp only [isStatement, isCanonical, Bool.and_eq_true] at he
    exact hc ▸ he.2
  | group | declaration => exact hc ▸ he
  | binary =>
    simp only [isStatement, isCanonical, Bool.and_eq_true] at he
    rcases hc with rfl | rfl
    · exact he.1.1.1.1
    · exact he.1.1.1.2
  | conditional =>
    simp only [isStatement, isCanonical, Bool.and_eq_true] at he
    rcases hc with rfl | rfl | rfl
    · exact he.1.1
    · exact he.1.2
    · exact he.2
  | letIn =>
    simp only [isStatement, isCanonical, Bool.and_eq_true] at he
    rcases hc with ⟨name, hc⟩ | rfl
    · exact isCanonical_of_mem_bindings he.1.2 hc
    · exact he.2
  | call => exact isCanonical_of_mem_args he hc

/-- An expression directly below another one needs no more levels of nesting. -/
theorem nest_le_of_mem_parts (hc : .expr c ∈ e.parts) : c.nest ≤ e.nest := by
  rw [expr_mem_parts] at hc
  cases e with
  | literal | var => exact hc.elim
  | unary | group =>
    rw [hc]
    exact Nat.le_succ _
  | declaration => exact hc ▸ Nat.le_refl _
  | binary =>
    simp only [nest, levelsBelow]
    rcases hc with rfl | rfl <;> omega
  | conditional =>
    simp only [nest, levelsBelow]
    rcases hc with rfl | rfl | rfl <;> omega
  | letIn =>
    rcases hc with ⟨name, hc⟩ | rfl
    · exact Nat.le_succ_of_le (Nat.le_trans (nest_le_levelsBelowBindings hc) (Nat.le_max_left ..))
    · exact Nat.le_succ_of_le (Nat.le_max_right ..)
  | call => exact Nat.le_succ_of_le (nest_le_levelsBelowArgs hc)

end Expr

/-- **A node of a statement is a statement** of a run of its tokens. -/
theorem Parser.StatementOf.node {d e : Expr} {ts : List Token} (h : StatementOf e ts)
    (hd : d.NodeOf e) : ∃ us, us <:+: ts ∧ StatementOf d us := by
  induction hd generalizing ts with
  | self => exact ⟨ts, List.infix_rfl, h⟩
  | part _ hc ih =>
    obtain ⟨us, hus, hwritten⟩ := h.written.madeOf.exists_infix hc
    have hstatement : StatementOf _ us :=
      { written := hwritten
        statement := Expr.isStatement_of_isCanonical (Expr.isCanonical_of_mem_parts h.statement hc)
        nest := Nat.le_trans (Expr.nest_le_of_mem_parts hc) h.nest }
    obtain ⟨vs, hvs, hd⟩ := ih hstatement
    exact ⟨vs, hvs.trans hus, hd⟩

/-! ### Moved tokens -/

/-- A change of places that moves the least span over two others as it moves those. -/
def RespectsUnion (f : Span → Span) : Prop := ∀ s t : Span, f (s.union t) = (f s).union (f t)

/-- Offsets of another kind, if they are in the same order. -/
theorem respectsUnion_map {f : Nat → Nat} (hf : Monotone f) : RespectsUnion (Span.map f) := by
  intro s t
  rw [Span.union, Span.map, hf.map_min, hf.map_max]
  rfl

theorem Token.kind_mapSpan (f : Span → Span) {t : Token} {kind : TokenKind} (h : t.kind = kind) :
    (t.mapSpan f).kind = kind := h

section

open Token

variable (f : Span → Span)

theorem WrittenName.mapSpan {name : Name} {ts : List Token}
    (h : WrittenName name ts) : WrittenName (name.mapSpan f) (ts.map (Token.mapSpan f)) := by
  obtain ⟨t, rfl, ht, rfl⟩ := h
  exact ⟨t.mapSpan f, rfl, ht, rfl⟩

theorem separated_mapSpan {params : List Name} {ts : List Token}
    (h : Separated WrittenName params ts) :
    Separated WrittenName (params.map (·.mapSpan f)) (ts.map (Token.mapSpan f)) := by
  induction h with
  | one ha => exact .one (ha.mapSpan f)
  | cons ha hcomma _ ih =>
    rw [List.map_append, List.map_cons]
    exact .cons (ha.mapSpan f) (kind_mapSpan f hcomma) ih

variable {f}

mutual

/-- **Tokens that are moved are the expression at the changed places.** -/
theorem Written.mapSpans (hf : RespectsUnion f) : ∀ {e : Expr} {ts : List Token}, Written e ts →
    Written (e.mapSpans f) (ts.map (Token.mapSpan f))
  | _, _, .literal (t := t) ht => .literal (t := t.mapSpan f) ht
  | _, _, .var (t := t) ht => .var (t := t.mapSpan f) ht
  | _, _, .unary ht he => by
    rw [Expr.mapSpans, hf, ← Expr.span_mapSpans f]
    exact .unary (kind_mapSpan f ht) (he.mapSpans hf)
  | _, _, .binary he ht hd => by
    rw [Expr.mapSpans, hf, ← Expr.span_mapSpans f, ← Expr.span_mapSpans f, List.map_append]
    exact .binary (he.mapSpans hf) (kind_mapSpan f ht) (hd.mapSpans hf)
  | _, _, .group hl he hr => by
    rw [Expr.mapSpans, hf, List.map_cons, List.map_append]
    exact .group (kind_mapSpan f hl) (he.mapSpans hf) (kind_mapSpan f hr)
  | _, _, .conditional hi hl hc hr hd ho he => by
    rw [Expr.mapSpans, hf, ← Expr.span_mapSpans f, List.map_cons, List.map_cons, List.map_append,
      List.map_cons, List.map_append, List.map_cons]
    exact .conditional (kind_mapSpan f hi) (kind_mapSpan f hl) (hc.mapSpans hf) (kind_mapSpan f hr)
      (hd.mapSpans hf) (kind_mapSpan f ho) (he.mapSpans hf)
  | _, _, .letIn ht hbindings hi he => by
    rw [Expr.mapSpans, hf, ← Expr.span_mapSpans f, List.map_cons, List.map_append, List.map_cons]
    exact .letIn (kind_mapSpan f ht) (hbindings.mapSpans hf) (kind_mapSpan f hi) (he.mapSpans hf)
  | _, _, .declaration ht hn hl hparams hr ha he => by
    rw [Expr.mapSpans, hf, ← Expr.span_mapSpans f, List.map_cons, List.map_cons, List.map_cons,
      List.map_append, List.map_cons, List.map_cons]
    refine .declaration (kind_mapSpan f ht) (kind_mapSpan f hn) (kind_mapSpan f hl) ?_
      (kind_mapSpan f hr) (kind_mapSpan f ha) (he.mapSpans hf)
    rcases hparams with ⟨rfl, rfl⟩ | hparams
    · exact Or.inl ⟨rfl, rfl⟩
    · exact Or.inr (separated_mapSpan f hparams)
  | _, _, .callNone hn hl hr => by
    rw [Expr.mapSpans, hf]
    exact .callNone (kind_mapSpan f hn) (kind_mapSpan f hl) (kind_mapSpan f hr)
  | _, _, .call hn hl hargs hr => by
    rw [Expr.mapSpans, hf, List.map_cons, List.map_cons, List.map_append]
    exact .call (kind_mapSpan f hn) (kind_mapSpan f hl) (hargs.mapSpans hf)
      (kind_mapSpan f hr)

theorem WrittenBindings.mapSpans (hf : RespectsUnion f) :
    ∀ {bindings : List (Name × Expr)} {ts : List Token},
      WrittenBindings bindings ts →
        WrittenBindings (Expr.mapSpansBindings f bindings) (ts.map (Token.mapSpan f))
  | _, _, .one hn hq he => .one (kind_mapSpan f hn) (kind_mapSpan f hq) (he.mapSpans hf)
  | _, _, .cons hn hq he hcomma hbindings => by
    rw [Expr.mapSpansBindings, List.map_cons, List.map_cons, List.map_append, List.map_cons]
    exact .cons (kind_mapSpan f hn) (kind_mapSpan f hq) (he.mapSpans hf)
      (kind_mapSpan f hcomma) (hbindings.mapSpans hf)

theorem WrittenArgs.mapSpans (hf : RespectsUnion f) :
    ∀ {args : List Expr} {ts : List Token}, WrittenArgs args ts →
      WrittenArgs (Expr.mapSpansArgs f args) (ts.map (Token.mapSpan f))
  | _, _, .one he => .one (he.mapSpans hf)
  | _, _, .cons he hcomma hargs => by
    rw [Expr.mapSpansArgs, List.map_append, List.map_cons]
    exact .cons (he.mapSpans hf) (kind_mapSpan f hcomma) (hargs.mapSpans hf)

end

/-- A statement that is moved is a statement. -/
theorem Parser.StatementOf.mapSpans (hf : RespectsUnion f) {e : Expr} {ts : List Token}
    (h : StatementOf e ts) : StatementOf (e.mapSpans f) (ts.map (Token.mapSpan f)) where
  written := h.written.mapSpans hf
  statement := (e.isStatement_mapSpans f).trans h.statement
  nest := Nat.le_trans (Nat.le_of_eq (congrArg (· + 1) (e.levelsBelow_mapSpans f))) h.nest

end

end ExprLang

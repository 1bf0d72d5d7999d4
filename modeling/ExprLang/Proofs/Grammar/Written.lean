import ExprLang.Proofs.Grammar.Canonical
import Mathlib.Logic.Basic
import Mathlib.Tactic.SplitIfs

/-!
# Expressions and the tokens they are written with

`Written e ts` says that the tokens `ts` are an expression `e`, places included: every node stands
where its tokens stand. Any tree has such tokens, canonical or not; it is the reader who decides
between trees with the same tokens.

* `Written.words`: the words of the tokens are the words of the expression;
* `exists_written`: tokens with the words of an expression are that expression, up to places.
-/

namespace ExprLang

/-- The tokens of one or more items with commas between them, when `R` gives the tokens of one. -/
inductive Separated {α : Type} (R : α → List Token → Prop) : List α → List Token → Prop
  | one {a : α} {ts : List Token} (ha : R a ts) : Separated R [a] ts
  | cons {a : α} {as : List α} {comma : Token} {ts us : List Token} (ha : R a ts)
      (hcomma : comma.kind = .symbol .comma) (has : Separated R as us) :
      Separated R (a :: as) (ts ++ comma :: us)

/-- The value that a token stands for. A literal without one is an undefined number. -/
def Token.value (t : Token) : Literal := t.literal?.getD (.number (Binary64.toFloat .nan))

/-- A name and its token. -/
def WrittenName (name : Name) (ts : List Token) : Prop :=
  ∃ t, ts = [t] ∧ t.kind = .identifier ∧ name = t.toName

mutual

/-- The tokens of an expression. -/
inductive Written : Expr → List Token → Prop
  | literal {t : Token} (ht : t.kind.isValue) : Written (.literal t.value t.span) [t]
  | var {t : Token} (ht : t.kind = .identifier) : Written (.var t.toName) [t]
  | unary {op : UnaryOp} {t : Token} {e : Expr} {ts : List Token}
      (ht : t.kind = .symbol op.symbol) (he : Written e ts) :
      Written (.unary op e (t.span.union e.span)) (t :: ts)
  | binary {op : BinaryOp} {t : Token} {e d : Expr} {ts us : List Token} (he : Written e ts)
      (ht : t.kind = .symbol op.symbol) (hd : Written d us) :
      Written (.binary e op d (e.span.union d.span)) (ts ++ t :: us)
  | group {l r : Token} {e : Expr} {ts : List Token} (hl : l.kind = .symbol .leftParen)
      (he : Written e ts) (hr : r.kind = .symbol .rightParen) :
      Written (.group e (l.span.union r.span)) (l :: (ts ++ [r]))
  | conditional {i l r o : Token} {c d e : Expr} {ts us vs : List Token}
      (hi : i.kind = .keyword .ifWord) (hl : l.kind = .symbol .leftParen) (hc : Written c ts)
      (hr : r.kind = .symbol .rightParen) (hd : Written d us) (ho : o.kind = .keyword .elseWord)
      (he : Written e vs) :
      Written (.conditional c d e (i.span.union e.span)) (i :: l :: (ts ++ r :: (us ++ o :: vs)))
  | letIn {t i : Token} {bindings : List (Name × Expr)} {e : Expr} {ts us : List Token}
      (ht : t.kind = .keyword .letWord) (hbindings : WrittenBindings bindings ts)
      (hi : i.kind = .keyword .inWord) (he : Written e us) :
      Written (.letIn bindings e (t.span.union e.span)) (t :: (ts ++ i :: us))
  | declaration {t n l r a : Token} {params : List Name} {e : Expr} {ts us : List Token}
      (ht : t.kind = .keyword .functionWord) (hn : n.kind = .identifier)
      (hl : l.kind = .symbol .leftParen)
      (hparams : params = [] ∧ ts = [] ∨ Separated WrittenName params ts)
      (hr : r.kind = .symbol .rightParen) (ha : a.kind = .symbol .arrow) (he : Written e us) :
      Written (.declaration n.toName params e (t.span.union e.span))
        (t :: n :: l :: (ts ++ r :: a :: us))
  | callNone {n l r : Token} (hn : n.kind = .identifier) (hl : l.kind = .symbol .leftParen)
      (hr : r.kind = .symbol .rightParen) :
      Written (.call n.toName [] (n.span.union r.span)) [n, l, r]
  | call {n l r : Token} {args : List Expr} {ts : List Token} (hn : n.kind = .identifier)
      (hl : l.kind = .symbol .leftParen) (hargs : WrittenArgs args ts)
      (hr : r.kind = .symbol .rightParen) :
      Written (.call n.toName args (n.span.union r.span)) (n :: l :: (ts ++ [r]))

/-- The tokens of one or more bindings with commas between them. -/
inductive WrittenBindings : List (Name × Expr) → List Token → Prop
  | one {n q : Token} {e : Expr} {ts : List Token} (hn : n.kind = .identifier)
      (hq : q.kind = .symbol .equal) (he : Written e ts) :
      WrittenBindings [(n.toName, e)] (n :: q :: ts)
  | cons {n q comma : Token} {e : Expr} {bindings : List (Name × Expr)} {ts us : List Token}
      (hn : n.kind = .identifier) (hq : q.kind = .symbol .equal) (he : Written e ts)
      (hcomma : comma.kind = .symbol .comma) (hbindings : WrittenBindings bindings us) :
      WrittenBindings ((n.toName, e) :: bindings) (n :: q :: (ts ++ comma :: us))

/-- The tokens of one or more arguments with commas between them. -/
inductive WrittenArgs : List Expr → List Token → Prop
  | one {e : Expr} {ts : List Token} (he : Written e ts) : WrittenArgs [e] ts
  | cons {comma : Token} {e : Expr} {args : List Expr} {ts us : List Token} (he : Written e ts)
      (hcomma : comma.kind = .symbol .comma) (hargs : WrittenArgs args us) :
      WrittenArgs (e :: args) (ts ++ comma :: us)

end

theorem Written.ne_nil {e : Expr} {ts : List Token} (h : Written e ts) : ts ≠ [] := by
  cases h with
  | binary he ht hd => simp
  | _ => exact List.cons_ne_nil _ _

/-! ### The words of tokens -/

namespace Token

theorem word_of_plain {t : Token} {kind : TokenKind} (h : t.kind = kind)
    (hvalue : kind.isValue = false) (hname : kind ≠ .identifier) : t.word = .plain kind := by
  rw [word, Lexeme.word, h, hvalue, if_neg Bool.false_ne_true, if_neg hname]

theorem word_of_symbol {t : Token} {s : Symbol} (h : t.kind = .symbol s) :
    t.word = .plain (.symbol s) := word_of_plain h rfl nofun

theorem word_of_identifier {t : Token} (h : t.kind = .identifier) : t.word = .name t.text := by
  rw [word, Lexeme.word, h]
  rfl

theorem word_of_value {t : Token} (h : t.kind.isValue) : t.word = .value t.literal? := by
  rw [word, Lexeme.word, if_pos h]

theorem kind_of_word_plain {t : Token} {kind : TokenKind} (h : t.word = .plain kind) :
    t.kind = kind := by
  unfold word Lexeme.word at h
  split_ifs at h with hvalue hname
  cases h
  rfl

theorem kind_of_word_name {t : Token} {text : String} (h : t.word = .name text) :
    t.kind = .identifier ∧ t.text = text := by
  unfold word Lexeme.word at h
  split_ifs at h with hvalue hname
  cases h
  exact ⟨hname, rfl⟩

theorem kind_of_word_value {t : Token} {l : Option Literal} (h : t.word = .value l) :
    t.kind.isValue ∧ t.literal? = l := by
  unfold word Lexeme.word at h
  split_ifs at h with hvalue hname
  cases h
  exact ⟨hvalue, rfl⟩

end Token

/-- Tokens of which every one that stands for a value has that value. -/
def Valued (ts : List Token) : Prop := ∀ t ∈ ts, t.kind.isValue → t.literal?.isSome

theorem valued_append {ts us : List Token} : Valued (ts ++ us) ↔ Valued ts ∧ Valued us := by
  simp only [Valued, List.mem_append, or_imp, forall_and]

theorem valued_cons {t : Token} {ts : List Token} :
    Valued (t :: ts) ↔ (t.kind.isValue → t.literal?.isSome) ∧ Valued ts := by
  simp only [Valued, List.mem_cons, forall_eq_or_imp]

theorem Token.value_of_literal? {t : Token} (h : t.literal?.isSome) :
    some t.value = t.literal? := by
  obtain ⟨l, hl⟩ := Option.isSome_iff_exists.1 h
  rw [value, hl, Option.getD_some]

theorem words_of_separated {params : List Name} {ts : List Token}
    (h : Separated WrittenName params ts) : ts.map Token.word = Expr.nameWords params := by
  induction h with
  | one ha =>
    obtain ⟨t, rfl, ht, rfl⟩ := ha
    simp [Expr.nameWords, Token.word_of_identifier ht, Token.toName]
  | cons ha hcomma has ih =>
    obtain ⟨t, rfl, ht, rfl⟩ := ha
    cases has <;>
      simp_all [Expr.nameWords, Token.word_of_identifier ht, Token.word_of_symbol hcomma,
        Token.toName]

theorem words_of_params {params : List Name} {ts : List Token}
    (h : params = [] ∧ ts = [] ∨ Separated WrittenName params ts) :
    ts.map Token.word = Expr.nameWords params := by
  rcases h with ⟨rfl, rfl⟩ | h
  · rfl
  · exact words_of_separated h

mutual

/-- Tokens spell the words of their expression. -/
theorem Written.words : ∀ {e : Expr} {ts : List Token}, Written e ts → Valued ts →
    ts.map Token.word = e.words
  | _, _, .literal (t := t) ht, hv => by
    rw [List.map_singleton, Token.word_of_value ht, Expr.words,
      Token.value_of_literal? (hv t List.mem_cons_self ht)]
  | _, _, .var ht, _ => by
    rw [List.map_singleton, Token.word_of_identifier ht]
    rfl
  | _, _, .unary ht he, hv => by
    rw [List.map_cons, Token.word_of_symbol ht, he.words (valued_cons.1 hv).2, Expr.words]
  | _, _, .binary he ht hd, hv => by
    rw [valued_append, valued_cons] at hv
    rw [List.map_append, List.map_cons, he.words hv.1, Token.word_of_symbol ht, hd.words hv.2.2,
      Expr.words]
  | _, _, .group hl he hr, hv => by
    rw [valued_cons, valued_append] at hv
    rw [List.map_cons, List.map_append, List.map_singleton, Token.word_of_symbol hl,
      he.words hv.2.1, Token.word_of_symbol hr, Expr.words]
  | _, _, .conditional hi hl hc hr hd ho he, hv => by
    rw [valued_cons, valued_cons, valued_append, valued_cons, valued_append, valued_cons] at hv
    obtain ⟨-, -, hvc, -, hvd, -, hve⟩ := hv
    rw [List.map_cons, List.map_cons, List.map_append, List.map_cons, List.map_append,
      List.map_cons, Token.word_of_plain hi rfl nofun, Token.word_of_symbol hl, hc.words hvc,
      Token.word_of_symbol hr, hd.words hvd, Token.word_of_plain ho rfl nofun, he.words hve,
      Expr.words]
  | _, _, .letIn ht hbindings hi he, hv => by
    rw [valued_cons, valued_append, valued_cons] at hv
    rw [List.map_cons, List.map_append, List.map_cons, Token.word_of_plain ht rfl nofun,
      hbindings.words hv.2.1, Token.word_of_plain hi rfl nofun, he.words hv.2.2.2, Expr.words]
  | _, _, .declaration ht hn hl hparams hr ha he, hv => by
    rw [valued_cons, valued_cons, valued_cons, valued_append, valued_cons, valued_cons] at hv
    have hnames := words_of_params hparams
    rw [List.map_cons, List.map_cons, List.map_cons, List.map_append, List.map_cons, List.map_cons,
      Token.word_of_plain ht rfl nofun, Token.word_of_identifier hn, Token.word_of_symbol hl,
      hnames, Token.word_of_symbol hr, Token.word_of_symbol ha, he.words hv.2.2.2.2.2.2, Expr.words]
    rfl
  | _, _, .callNone hn hl hr, _ => by
    rw [List.map_cons, List.map_cons, List.map_singleton, Token.word_of_identifier hn,
      Token.word_of_symbol hl, Token.word_of_symbol hr]
    rfl
  | _, _, .call hn hl hargs hr, hv => by
    rw [valued_cons, valued_cons, valued_append] at hv
    rw [List.map_cons, List.map_cons, List.map_append, List.map_singleton,
      Token.word_of_identifier hn, Token.word_of_symbol hl, hargs.words hv.2.2.1,
      Token.word_of_symbol hr, Expr.words]
    rfl

theorem WrittenBindings.words : ∀ {bindings : List (Name × Expr)} {ts : List Token},
    WrittenBindings bindings ts → Valued ts → ts.map Token.word = Expr.bindingWords bindings
  | _, _, .one hn hq he, hv => by
    rw [valued_cons, valued_cons] at hv
    rw [List.map_cons, List.map_cons, Token.word_of_identifier hn, Token.word_of_symbol hq,
      he.words hv.2.2]
    rfl
  | _, _, .cons hn hq he hcomma hbindings, hv => by
    rw [valued_cons, valued_cons, valued_append, valued_cons] at hv
    rw [List.map_cons, List.map_cons, List.map_append, List.map_cons, Token.word_of_identifier hn,
      Token.word_of_symbol hq, he.words hv.2.2.1, Token.word_of_symbol hcomma,
      hbindings.words hv.2.2.2.2]
    cases hbindings <;> rfl

theorem WrittenArgs.words : ∀ {args : List Expr} {ts : List Token}, WrittenArgs args ts →
    Valued ts → ts.map Token.word = Expr.argWords args
  | _, _, .one he, hv => he.words hv
  | _, _, .cons he hcomma hargs, hv => by
    rw [valued_append, valued_cons] at hv
    rw [List.map_append, List.map_cons, he.words hv.1, Token.word_of_symbol hcomma,
      hargs.words hv.2.2]
    cases hargs <;> rfl

end

/-! ### Tokens with given words -/

section

variable {ts : List Token} {ws : List Word}

theorem exists_of_words_plain {kind : TokenKind} (h : ts.map Token.word = .plain kind :: ws) :
    ∃ t us, ts = t :: us ∧ t.kind = kind ∧ us.map Token.word = ws := by
  obtain ⟨t, us, rfl, ht, hus⟩ := List.map_eq_cons_iff.1 h
  exact ⟨t, us, rfl, Token.kind_of_word_plain ht, hus⟩

theorem exists_of_words_name {text : String} (h : ts.map Token.word = .name text :: ws) :
    ∃ t us, ts = t :: us ∧ t.kind = .identifier ∧ t.text = text ∧ us.map Token.word = ws := by
  obtain ⟨t, us, rfl, ht, hus⟩ := List.map_eq_cons_iff.1 h
  obtain ⟨hkind, htext⟩ := Token.kind_of_word_name ht
  exact ⟨t, us, rfl, hkind, htext, hus⟩

theorem exists_writtenNames : ∀ {params : List Name} {ts : List Token}, params ≠ [] →
    ts.map Token.word = Expr.nameWords params →
    ∃ params', Separated WrittenName params' ts ∧ params'.map Located.val = params.map Located.val
  | [name], ts, _, h => by
    obtain ⟨t, us, rfl, ht, htext, hus⟩ := exists_of_words_name h
    rw [List.map_eq_nil_iff.1 hus]
    exact ⟨[t.toName], .one ⟨t, rfl, ht, rfl⟩, by simp [Token.toName, htext]⟩
  | name :: next :: names, ts, _, h => by
    obtain ⟨t, us, rfl, ht, htext, hus⟩ := exists_of_words_name h
    obtain ⟨c, vs, rfl, hc, hvs⟩ := exists_of_words_plain hus
    obtain ⟨params', hparams', hmap⟩ := exists_writtenNames (List.cons_ne_nil next names) hvs
    refine ⟨t.toName :: params', .cons ⟨t, rfl, ht, rfl⟩ hc hparams', ?_⟩
    rw [List.map_cons, hmap, List.map_cons (l := next :: names), ← htext]
    rfl

end

/-- Forgets a place. -/
def Span.forget (_ : Span) : Span := ⟨0, 0⟩

theorem Located.mapSpan_forget {m n : Name} (h : m.val = n.val) :
    m.mapSpan Span.forget = n.mapSpan Span.forget := by
  rw [mapSpan, mapSpan, h]
  rfl

mutual

/-- Tokens with the words of a canonical expression are the expression, up to places. -/
theorem exists_written : ∀ (e : Expr) {ts : List Token}, e.isCanonical →
    ts.map Token.word = e.words → ∃ e', Written e' ts ∧ e'.form = e.form
  | .literal value _, ts, _, h => by
    obtain ⟨t, rfl, ht⟩ := List.map_eq_singleton_iff.1 h
    obtain ⟨hkind, hvalue⟩ := Token.kind_of_word_value ht
    exact ⟨_, .literal hkind, by simp [Expr.form, Expr.mapSpans, Token.value, hvalue]⟩
  | .var name, ts, _, h => by
    obtain ⟨t, us, rfl, ht, htext, hus⟩ := exists_of_words_name h
    rw [List.map_eq_nil_iff.1 hus]
    exact ⟨_, .var ht, congrArg Expr.var (Located.mapSpan_forget htext)⟩
  | .unary op operand _, ts, hc, h => by
    rw [Expr.isCanonical, Bool.and_eq_true] at hc
    obtain ⟨t, us, rfl, ht, hus⟩ := exists_of_words_plain h
    obtain ⟨e', he', hform⟩ := exists_written operand hc.2 hus
    exact ⟨_, .unary ht he', congrArg (Expr.unary op · _) hform⟩
  | .binary left op right _, ts, hc, h => by
    simp only [Expr.isCanonical, Bool.and_eq_true] at hc
    obtain ⟨us, vs, rfl, hus, hvs⟩ := List.map_eq_append_iff.1 h
    obtain ⟨t, vs, rfl, ht, hvs⟩ := exists_of_words_plain hvs
    obtain ⟨l', hl', hl⟩ := exists_written left hc.1.1.1.1 hus
    obtain ⟨r', hr', hr⟩ := exists_written right hc.1.1.1.2 hvs
    exact ⟨_, .binary hl' ht hr', congrArg₂ (Expr.binary · op · _) hl hr⟩
  | .group inner _, ts, hc, h => by
    obtain ⟨o, us, rfl, ho, hus⟩ := exists_of_words_plain h
    obtain ⟨es, vs, rfl, hes, hvs⟩ := List.map_eq_append_iff.1 hus
    obtain ⟨c, vs, rfl, hclose, hvs⟩ := exists_of_words_plain hvs
    obtain ⟨e', he', hform⟩ := exists_written inner hc hes
    rw [List.map_eq_nil_iff.1 hvs]
    exact ⟨_, .group ho he' hclose, congrArg (Expr.group · _) hform⟩
  | .conditional c r a _, ts, hc, h => by
    simp only [Expr.isCanonical, Bool.and_eq_true] at hc
    obtain ⟨i, us, rfl, hi, hus⟩ := exists_of_words_plain h
    obtain ⟨o, us, rfl, ho, hus⟩ := exists_of_words_plain hus
    obtain ⟨cs, us, rfl, hcs, hus⟩ := List.map_eq_append_iff.1 hus
    obtain ⟨p, us, rfl, hp, hus⟩ := exists_of_words_plain hus
    obtain ⟨rs, us, rfl, hrs, hus⟩ := List.map_eq_append_iff.1 hus
    obtain ⟨l, us, rfl, hl, hus⟩ := exists_of_words_plain hus
    obtain ⟨c', hc', hcform⟩ := exists_written c hc.1.1 hcs
    obtain ⟨r', hr', hrform⟩ := exists_written r hc.1.2 hrs
    obtain ⟨a', ha', haform⟩ := exists_written a hc.2 hus
    refine ⟨_, .conditional hi ho hc' hp hr' hl ha', ?_⟩
    unfold Expr.form at hcform hrform haform ⊢
    rw [Expr.mapSpans, Expr.mapSpans, hcform, hrform, haform]
  | .letIn bindings body _, ts, hc, h => by
    simp only [Expr.isCanonical, Bool.and_eq_true, Bool.not_eq_true',
      List.isEmpty_eq_false_iff] at hc
    obtain ⟨t, us, rfl, ht, hus⟩ := exists_of_words_plain h
    obtain ⟨bs, us, rfl, hbs, hus⟩ := List.map_eq_append_iff.1 hus
    obtain ⟨i, us, rfl, hi, hus⟩ := exists_of_words_plain hus
    obtain ⟨bindings', hb', hbform⟩ := exists_writtenBindings bindings hc.1.1 hc.1.2 hbs
    obtain ⟨e', he', hform⟩ := exists_written body hc.2 hus
    refine ⟨_, .letIn ht hb' hi he', ?_⟩
    unfold Expr.form at hform ⊢
    rw [Expr.mapSpans, Expr.mapSpans, hform]
    exact congrArg (Expr.letIn · _ _) hbform
  | .declaration _ _ _ _, _, hc, _ => nomatch hc
  | .call name args _, ts, hc, h => by
    obtain ⟨n, us, rfl, hn, hname, hus⟩ := exists_of_words_name h
    obtain ⟨o, us, rfl, ho, hus⟩ := exists_of_words_plain hus
    obtain ⟨as, us, rfl, has, hus⟩ := List.map_eq_append_iff.1 hus
    obtain ⟨c, us, rfl, hclose, hus⟩ := exists_of_words_plain hus
    rw [List.map_eq_nil_iff.1 hus]
    cases args with
    | nil =>
      rw [List.map_eq_nil_iff.1 has]
      exact ⟨_, .callNone hn ho hclose, congrArg (Expr.call · _ _) (Located.mapSpan_forget hname)⟩
    | cons e rest =>
      obtain ⟨args', hargs', hform⟩ :=
        exists_writtenArgs (e :: rest) (List.cons_ne_nil e rest) hc has
      exact ⟨_, .call hn ho hargs' hclose,
        congrArg₂ (Expr.call · · _) (Located.mapSpan_forget hname) hform⟩

theorem exists_writtenBindings : ∀ (bindings : List (Name × Expr)) {ts : List Token},
    bindings ≠ [] → Expr.isCanonicalBindings bindings →
    ts.map Token.word = Expr.bindingWords bindings →
    ∃ bindings', WrittenBindings bindings' ts ∧
      Expr.mapSpansBindings Span.forget bindings' = Expr.mapSpansBindings Span.forget bindings
  | [], _, hne, _, _ => absurd rfl hne
  | [(name, value)], ts, _, hc, h => by
    rw [Expr.isCanonicalBindings, Bool.and_eq_true] at hc
    obtain ⟨n, us, rfl, hn, hname, hus⟩ := exists_of_words_name h
    obtain ⟨q, us, rfl, hq, hus⟩ := exists_of_words_plain hus
    obtain ⟨e', he', hform⟩ := exists_written value hc.1 hus
    refine ⟨_, .one hn hq he', ?_⟩
    rw [Expr.mapSpansBindings, Expr.mapSpansBindings, Located.mapSpan_forget hname]
    exact congrArg (fun e => [(_, e)]) hform
  | (name, value) :: next :: more, ts, _, hc, h => by
    rw [Expr.isCanonicalBindings, Bool.and_eq_true] at hc
    obtain ⟨n, us, rfl, hn, hname, hus⟩ := exists_of_words_name h
    obtain ⟨q, us, rfl, hq, hus⟩ := exists_of_words_plain hus
    obtain ⟨es, vs, rfl, hes, hvs⟩ := List.map_eq_append_iff.1 hus
    obtain ⟨c, vs, rfl, hcomma, hvs⟩ := exists_of_words_plain hvs
    obtain ⟨e', he', hform⟩ := exists_written value hc.1 hes
    obtain ⟨more', hmore', hmoreform⟩ :=
      exists_writtenBindings (next :: more) (List.cons_ne_nil next more) hc.2 hvs
    refine ⟨_, .cons hn hq he' hcomma hmore', ?_⟩
    rw [Expr.mapSpansBindings, Expr.mapSpansBindings.eq_2 _ name, Located.mapSpan_forget hname,
      hmoreform]
    exact congrArg (fun e => (_, e) :: _) hform

theorem exists_writtenArgs : ∀ (args : List Expr) {ts : List Token}, args ≠ [] →
    Expr.isCanonicalArgs args → ts.map Token.word = Expr.argWords args →
    ∃ args', WrittenArgs args' ts ∧
      Expr.mapSpansArgs Span.forget args' = Expr.mapSpansArgs Span.forget args
  | [], _, hne, _, _ => absurd rfl hne
  | [e], ts, _, hc, h => by
    rw [Expr.isCanonicalArgs, Bool.and_eq_true] at hc
    obtain ⟨e', he', hform⟩ := exists_written e hc.1 h
    exact ⟨[e'], .one he', congrArg (fun e => [e]) hform⟩
  | e :: next :: more, ts, _, hc, h => by
    rw [Expr.isCanonicalArgs, Bool.and_eq_true] at hc
    obtain ⟨us, vs, rfl, hus, hvs⟩ := List.map_eq_append_iff.1 h
    obtain ⟨c, vs, rfl, hcomma, hvs⟩ := exists_of_words_plain hvs
    obtain ⟨e', he', hform⟩ := exists_written e hc.1 hus
    obtain ⟨more', hmore', hmoreform⟩ :=
      exists_writtenArgs (next :: more) (List.cons_ne_nil next more) hc.2 hvs
    exact ⟨_, .cons he' hcomma hmore', congrArg₂ List.cons hform hmoreform⟩

end

theorem mapSpan_forget_names {ms ns : List Name} (h : ms.map Located.val = ns.map Located.val) :
    ms.map (·.mapSpan Span.forget) = ns.map (·.mapSpan Span.forget) := by
  have hmap : ∀ names : List Name, names.map (·.mapSpan Span.forget) =
      (names.map Located.val).map fun text => ⟨text, ⟨0, 0⟩⟩ := fun names => by
    rw [List.map_map]
    rfl
  rw [hmap, hmap, h]

/-- Tokens with the words of a statement are the statement, up to places. -/
theorem exists_written_statement (e : Expr) {ts : List Token} (hs : e.isStatement)
    (h : ts.map Token.word = e.words) : ∃ e', Written e' ts ∧ e'.form = e.form := by
  cases e with
  | declaration name params body span =>
    obtain ⟨t, us, rfl, ht, hus⟩ := exists_of_words_plain h
    obtain ⟨n, us, rfl, hn, hname, hus⟩ := exists_of_words_name hus
    obtain ⟨l, us, rfl, hl, hus⟩ := exists_of_words_plain hus
    obtain ⟨ps, us, rfl, hps, hus⟩ := List.map_eq_append_iff.1 hus
    obtain ⟨r, us, rfl, hr, hus⟩ := exists_of_words_plain hus
    obtain ⟨a, us, rfl, ha, hus⟩ := exists_of_words_plain hus
    obtain ⟨e', he', hform⟩ := exists_written body hs hus
    have hparams : ∃ params', (params' = [] ∧ ps = [] ∨ Separated WrittenName params' ps) ∧
        params'.map Located.val = params.map Located.val := by
      cases params with
      | nil => exact ⟨[], Or.inl ⟨rfl, List.map_eq_nil_iff.1 hps⟩, rfl⟩
      | cons name names =>
        obtain ⟨params', hparams', hmap⟩ := exists_writtenNames (List.cons_ne_nil name names) hps
        exact ⟨params', Or.inr hparams', hmap⟩
    obtain ⟨params', hparams', hmap⟩ := hparams
    refine ⟨_, .declaration ht hn hl hparams' hr ha he', ?_⟩
    show Expr.declaration (n.toName.mapSpan Span.forget) (params'.map (·.mapSpan Span.forget))
      (e'.mapSpans Span.forget) ⟨0, 0⟩ = _
    rw [Located.mapSpan_forget hname, mapSpan_forget_names hmap]
    exact congrArg (Expr.declaration _ _ · _) hform
  | _ => exact exists_written _ hs h

end ExprLang

import ExprLang.Proofs.Grammar.Forms
import ExprLang.Proofs.Statements.Account
import Mathlib.Data.List.Forall2

/-!
# Reading two statements side by side

What the reader does depends on the lexemes of a statement alone: not on the places of its tokens,
not on whether a semicolon or the end of input is behind them, and not on anything further on. So
two readers in front of statements of the same lexemes stay side by side, whatever errors there are.

* A `Pairing` says which tokens correspond, and how places are compared.
* `Parallel p q`: the tokens that are left of the two statements correspond one to one, and so do
  the errors that were recorded since the beginning of the statement.
* `Together m m' p q Q`: the steps `m` and `m'` lead from `p` and `q` to parallel parsers again. If
  no error is known afterwards, `Q` holds of their results; with an error the results do not matter,
  because nothing that is read after it depends on them.

Here are the lemmas for single steps; every routine of the reader is put together from them.
-/

namespace ExprLang

namespace SyntaxError

/-- The kind of the token where an error stands, if the error tells it. -/
def found? : SyntaxError → Option TokenKind
  | .unexpected found _ | .missingIn found | .missingTerminator found => some found
  | .unclosed _ | .nestingTooDeep _ => none

/-- The error at a token of another kind. -/
def withFound (found : TokenKind) : SyntaxError → SyntaxError
  | .unexpected _ expected => .unexpected found expected
  | .unclosed context => .unclosed context
  | .missingIn _ => .missingIn found
  | .missingTerminator _ => .missingTerminator found
  | .nestingTooDeep limit => .nestingTooDeep limit

end SyntaxError

namespace Parser

/-- Which tokens of two statements correspond. Places are compared after a map on either side; the
ends of the statements correspond though their lexemes may differ. -/
structure Pairing where
  left : Span → Span
  right : Span → Span
  rel : Token → Token → Prop
  union : ∀ {s t s' t' : Span}, left s = right s' → left t = right t' →
    left (s.union t) = right (s'.union t')
  ends : ∀ {t t' : Token}, rel t t' → inStatement t' = inStatement t
  lexeme : ∀ {t t' : Token}, rel t t' → inStatement t → t'.toLexeme = t.toLexeme
  span : ∀ {t t' : Token}, rel t t' → inStatement t → left t.span = right t'.span

namespace Pairing

variable (K : Pairing) {α β : Type} {t t' : Token}

/-- Corresponding tokens within the statement. -/
def Tokens (t t' : Token) : Prop := t'.toLexeme = t.toLexeme ∧ K.left t.span = K.right t'.span

/-- Corresponding names. -/
def Names (n n' : Name) : Prop := n.mapSpan K.left = n'.mapSpan K.right

/-- Corresponding expressions. -/
def Exprs (e e' : Expr) : Prop := e.mapSpans K.left = e'.mapSpans K.right

/-- Corresponding errors: each is about the token where it stands. -/
def Errors (e e' : Located SyntaxError) : Prop :=
  ∃ t t', K.rel t t' ∧ e.span = t.span ∧ e'.span = t'.span ∧
    e.val.withFound t.kind = e.val ∧ e'.val = e.val.withFound t'.kind

variable {K}

theorem tokens_of_rel (h : K.rel t t') (hin : inStatement t) : K.Tokens t t' :=
  ⟨K.lexeme h hin, K.span h hin⟩

theorem Tokens.names (h : K.Tokens t t') : K.Names t.toName t'.toName := by
  unfold Names Located.mapSpan Token.toName
  rw [h.1, h.2]

theorem Tokens.exprs (h : K.Tokens t t') : K.Exprs (valueExpr t) (valueExpr t') := by
  unfold Exprs valueExpr Expr.mapSpans
  rw [h.1, h.2]

theorem Exprs.span {e e' : Expr} (h : K.Exprs e e') : K.left e.span = K.right e'.span := by
  have h := congrArg Expr.span h
  rwa [Expr.span_mapSpans, Expr.span_mapSpans] at h

/-- No test that treats a semicolon as the end of input tells corresponding tokens apart. -/
theorem kind_congr (h : K.rel t t') (f : TokenKind → β)
    (hf : f (.symbol .semicolon) = f .endOfInput) : f t'.kind = f t.kind := by
  cases hin : inStatement t with
  | true => rw [K.lexeme h hin]
  | false =>
    have hend : ∀ s, inStatement s = false → f s.kind = f .endOfInput := fun s hs => by
      rcases kind_of_not_inStatement hs with hkind | hkind
      · rw [hkind, hf]
      · rw [hkind]
    rw [hend t hin, hend t' ((K.ends h).trans hin)]

theorem kind_iff (h : K.rel t t') {kind : TokenKind} (hkind : endsStatement kind = false) :
    t'.kind = kind ↔ t.kind = kind := by
  have hdecide := kind_congr h (fun k => decide (k = kind)) (by
    rw [decide_eq_false, decide_eq_false]
    · rintro rfl
      cases hkind
    · rintro rfl
      cases hkind)
  simpa using hdecide

end Pairing

/-! ### Parallel parsers -/

variable {α β : Type} {p q r : Parser}

theorem places_eq_cons (p : Parser) : ∃ ts, p.places = p.current :: ts := by
  unfold places pending endToken current
  cases p.ahead with
  | nil => exact ⟨[], rfl⟩
  | cons t ts => by_cases h : inStatement t <;> simp [h]

/-- From a token within the statement, the places that are left are those behind it. -/
theorem places_tail (hends : inStatement p.endToken = false) (hin : inStatement p.current) :
    p.places = p.current :: p.tail.places ∧ p.tail.endToken = p.endToken ∧
      p.pending.length = p.tail.pending.length + 1 := by
  unfold current at hin
  unfold endToken at hends
  unfold places pending endToken current
  rw [show p.tail.ahead = p.ahead.tail from rfl, show p.tail.last = p.last from rfl]
  cases hahead : p.ahead with
  | nil =>
    rw [hahead] at hin hends
    exact absurd hin (by simpa using hends)
  | cons t ts =>
    rw [hahead] at hin
    have hin : inStatement t = true := hin
    simp [hin]

/-- A later point of the same statement. -/
structure Later (p q : Parser) : Prop where
  pending : q.pending.length ≤ p.pending.length
  recovering : p.recovering = true → q.recovering = true

namespace Later

theorem refl (p : Parser) : Later p p := ⟨Nat.le_refl _, id⟩

theorem trans (h : Later p q) (h' : Later q r) : Later p r :=
  ⟨h'.pending.trans h.pending, h'.recovering ∘ h.recovering⟩

theorem back (h : Later p q) (hq : q.recovering = false) : p.recovering = false := by
  rw [← Bool.not_eq_true] at hq ⊢
  exact mt h.recovering hq

end Later

theorem report_apply (e : SyntaxError) (span : Span) (p : Parser) : (report e span p).2 =
    if p.recovering || p.lexErrorUpTo span.start then { p with recovering := true }
    else { p with errors := p.errors.push ⟨e, span⟩, recovering := true } := rfl

theorem later_report (e : SyntaxError) (span : Span) (p : Parser) :
    Later p (report e span p).2 := by
  refine ⟨?_, fun _ => report_recovering e span p⟩
  rw [report_apply]
  split <;> exact Nat.le_refl _

namespace Pairing

variable (K : Pairing) (B B' : List (Located SyntaxError))

/-- Two parsers in front of corresponding tokens. `B` and `B'` are the errors before the
statement. -/
structure Parallel (p q : Parser) : Prop where
  places : List.Forall₂ K.rel p.places q.places
  ends : inStatement p.endToken = false
  ends' : inStatement q.endToken = false
  lex : ∀ t t', K.rel t t' → q.lexErrorUpTo t'.span.start = p.lexErrorUpTo t.span.start
  recovering : q.recovering = p.recovering
  errors : ∃ errs errs', p.errors.toList = B ++ errs ∧ q.errors.toList = B' ++ errs' ∧
    List.Forall₂ K.Errors errs errs'

/-- Two steps that keep parsers parallel, and what holds of their results. -/
structure Together (m m' : Parse α) (p q : Parser) (Q : α → α → Prop) : Prop where
  parallel : K.Parallel B B' (m p).2 (m' q).2
  later : Later p (m p).2
  result : (m p).2.recovering = false → Q (m p).1 (m' q).1

variable {K B B'}

namespace Parallel

variable (h : K.Parallel B B' p q)

include h

theorem current : K.rel p.current q.current := by
  obtain ⟨ts, hts⟩ := p.places_eq_cons
  obtain ⟨us, hus⟩ := q.places_eq_cons
  have hplaces := h.places
  rw [hts, hus] at hplaces
  exact (List.forall₂_cons.1 hplaces).1

theorem pending_length : q.pending.length = p.pending.length := by
  have hlength := h.places.length_eq
  simp only [Parser.places, List.length_append, List.length_singleton] at hlength
  omega

theorem tail (hin : inStatement p.current) :
    K.Parallel B B' p.tail q.tail ∧ p.pending.length = p.tail.pending.length + 1 := by
  obtain ⟨hp, hpend, hlength⟩ := places_tail h.ends hin
  obtain ⟨hq, hqend, -⟩ := places_tail h.ends' ((K.ends h.current).trans hin)
  have hplaces := h.places
  rw [hp, hq] at hplaces
  exact ⟨⟨(List.forall₂_cons.1 hplaces).2, hpend ▸ h.ends, hqend ▸ h.ends', h.lex, h.recovering,
    h.errors⟩, hlength⟩

/-- An error of both parsers where they are. -/
theorem report {e e' : SyntaxError} (he : e.withFound p.current.kind = e)
    (he' : e' = e.withFound q.current.kind) :
    K.Parallel B B' (Parser.report e p.current.span p).2 (Parser.report e' q.current.span q).2 := by
  rw [report_apply, report_apply, h.recovering, h.lex _ _ h.current]
  obtain ⟨errs, errs', herrs, herrs', hforall⟩ := h.errors
  split
  · exact ⟨h.places, h.ends, h.ends', h.lex, rfl, errs, errs', herrs, herrs', hforall⟩
  · refine ⟨h.places, h.ends, h.ends', h.lex, rfl, errs ++ [⟨e, p.current.span⟩],
      errs' ++ [⟨e', q.current.span⟩], ?_, ?_, ?_⟩
    · rw [Array.toList_push, herrs, List.append_assoc]
    · rw [Array.toList_push, herrs', List.append_assoc]
    · exact List.rel_append hforall (.cons ⟨_, _, h.current, rfl, rfl, he, he'⟩ .nil)

end Parallel

variable {m m' : Parse α} {f f' : α → Parse β} {Q : α → α → Prop} {Q' : β → β → Prop}

/-! ### Steps -/

theorem Together.mono {R : α → α → Prop} (h : K.Together B B' m m' p q Q)
    (hR : ∀ a a', Q a a' → R a a') : K.Together B B' m m' p q R :=
  ⟨h.parallel, h.later, fun hrec => hR _ _ (h.result hrec)⟩

/-- One step after the other. -/
theorem Together.bind (hm : K.Together B B' m m' p q Q)
    (hf : ∀ a a' p' q', K.Parallel B B' p' q' → Later p p' → (p'.recovering = false → Q a a') →
      K.Together B B' (f a) (f' a') p' q' Q') :
    K.Together B B' (m >>= f) (m' >>= f') p q Q' := by
  obtain ⟨hparallel, hlater, hresult⟩ := hm
  obtain ⟨hparallel', hlater', hresult'⟩ := hf _ _ _ _ hparallel hlater hresult
  exact ⟨hparallel', hlater.trans hlater', hresult'⟩

theorem together_get_bind {f f' : Parser → Parse β} (h : K.Together B B' (f p) (f' q) p q Q') :
    K.Together B B' (get >>= f) (get >>= f') p q Q' := ⟨h.parallel, h.later, h.result⟩

theorem together_pure (h : K.Parallel B B' p q) {a a' : α} (hQ : p.recovering = false → Q a a') :
    K.Together B B' (pure a) (pure a') p q Q := ⟨h, .refl p, hQ⟩

/-- A token that both statements have is read by both. -/
theorem together_advance_bind {f f' : Token → Parse β} (h : K.Parallel B B' p q)
    (hin : inStatement p.current)
    (hf : K.Parallel B B' p.tail q.tail → p.pending.length = p.tail.pending.length + 1 →
      K.Tokens p.current q.current →
      K.Together B B' (f p.current) (f' q.current) p.tail q.tail Q') :
    K.Together B B' (advance >>= f) (advance >>= f') p q Q' := by
  obtain ⟨htail, hlength⟩ := h.tail hin
  obtain ⟨hparallel, hlater, hresult⟩ := hf htail hlength (tokens_of_rel h.current hin)
  exact ⟨hparallel, ⟨hlater.pending.trans (by omega), hlater.recovering⟩, hresult⟩

theorem together_advance (h : K.Parallel B B' p q) (hin : inStatement p.current) :
    K.Together B B' advance advance p q K.Tokens := by
  have hbind : K.Together B B' (advance >>= pure) (advance >>= pure) p q K.Tokens :=
    together_advance_bind h hin fun htail _ htokens => together_pure htail fun _ => htokens
  rwa [bind_pure] at hbind

theorem together_report (h : K.Parallel B B' p q) {e e' : SyntaxError}
    (he : e.withFound p.current.kind = e) (he' : e' = e.withFound q.current.kind)
    {Q : Unit → Unit → Prop} :
    K.Together B B' (report e p.current.span) (report e' q.current.span) p q Q := by
  refine ⟨h.report he he', later_report e _ p, fun hrec => ?_⟩
  rw [report_recovering] at hrec
  cases hrec

/-- What is answered after an error does not matter. -/
theorem together_report_bind (h : K.Parallel B B' p q) {e e' : SyntaxError}
    (he : e.withFound p.current.kind = e) (he' : e' = e.withFound q.current.kind) {a a' : α} :
    K.Together B B' (report e p.current.span >>= fun _ => pure a)
      (report e' q.current.span >>= fun _ => pure a') p q Q := by
  refine (together_report h he he' (Q := fun _ _ => False)).bind fun _ _ r r' hr _ hfalse => ?_
  exact together_pure hr fun hrec => (hfalse hrec).elim

theorem together_expect (h : K.Parallel B B' p q) {kind : TokenKind}
    (hkind : endsStatement kind = false) :
    K.Together B B' (expect kind) (expect kind) p q K.Tokens := by
  unfold expect
  refine together_get_bind ?_
  dsimp only
  by_cases hp : p.current.kind = kind
  · rw [if_pos hp, if_pos ((kind_iff h.current hkind).2 hp)]
    exact together_advance h (by simp [inStatement, hp, hkind])
  · rw [if_neg hp, if_neg (mt (kind_iff h.current hkind).1 hp)]
    exact together_report_bind h rfl rfl

theorem together_expectClosing (h : K.Parallel B B' p q) (context : ParenContext) :
    K.Together B B' (expectClosing context) (expectClosing context) p q K.Tokens := by
  unfold expectClosing
  refine together_get_bind ?_
  dsimp only
  rw [kind_congr h.current endsStatement rfl]
  split
  · exact together_report_bind h rfl rfl
  · exact together_expect h rfl

end Pairing

end Parser

end ExprLang

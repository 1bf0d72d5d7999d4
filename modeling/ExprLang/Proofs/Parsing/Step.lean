import ExprLang.Parser
import ExprLang.Proofs.Grammar.Written
import Mathlib.Data.List.TakeWhile

/-!
# One step of reading

What a step of reading can do to a parser, whatever the tokens are:

* `Leads p q`: from `p` to `q` the reader went forward within the statement, and recorded at most
  one error, which stands at a token of the statement or at its end;
* `Moves p ts q`: from `p` to `q` the reader passed the tokens `ts` and did nothing else;
* `Yields m p Q`: `m` leads on from `p`, and if no error is known afterwards, it moved over tokens
  for which `Q` holds.

`Yields.bind` and the specifications of `advance`, `report`, `expect`, `expectClosing` and
`commaList` are all that is needed of a step further on.
-/

namespace ExprLang.Parser

variable {α β : Type} {p q r : Parser}

/-! ### Running a step -/

theorem bind_apply (m : Parse α) (f : α → Parse β) (p : Parser) :
    (m >>= f) p = f (m p).1 (m p).2 := rfl

theorem pure_apply (a : α) (p : Parser) : (pure a : Parse α) p = (a, p) := rfl

theorem get_bind_apply (f : Parser → Parse β) (p : Parser) : (get >>= f) p = f p p := rfl

theorem advance_apply (p : Parser) : advance p = (p.current, p.tail) := rfl

theorem bind_of_eq {m : Parse α} {a : α} (h : m p = (a, q)) (f : α → Parse β) :
    (m >>= f) p = f a q := by
  rw [bind_apply, h]

theorem expect_of_kind {kind : TokenKind} (h : p.current.kind = kind) :
    expect kind p = (p.current, p.tail) := by
  unfold expect
  rw [get_bind_apply, if_pos h, advance_apply]

theorem expectClosing_of_kind {context : ParenContext}
    (h : p.current.kind = .symbol .rightParen) :
    expectClosing context p = (p.current, p.tail) := by
  have hends : ¬ endsStatement p.current.kind := by rw [h]; exact Bool.false_ne_true
  unfold expectClosing
  rw [get_bind_apply, if_neg hends, expect_of_kind h]

/-! ### Places of a statement -/

/-- Whether a token belongs to the statement that is being read. -/
def inStatement (t : Token) : Bool := !endsStatement t.kind

theorem inStatement_iff {t : Token} :
    inStatement t ↔ t.kind ≠ .symbol .semicolon ∧ t.kind ≠ .endOfInput := by
  unfold inStatement endsStatement
  split <;> simp_all

/-- A statement ends at a semicolon or at the end of input. -/
theorem kind_of_not_inStatement {t : Token} (h : inStatement t = false) :
    t.kind = .symbol .semicolon ∨ t.kind = .endOfInput := by
  by_contra hkind
  rw [inStatement_iff.2 (not_or.1 hkind)] at h
  cases h

/-- The tokens that are left of the current statement. -/
def pending (p : Parser) : List Token := p.ahead.takeWhile inStatement

/-- The token that ends the current statement. -/
def endToken (p : Parser) : Token := (p.ahead.dropWhile inStatement).headD p.last

/-- The tokens at which an error of the current statement can still stand. -/
def places (p : Parser) : List Token := p.pending ++ [p.endToken]

theorem current_mem_places (p : Parser) : p.current ∈ p.places := by
  unfold places pending endToken current
  cases p.ahead with
  | nil => simp
  | cons t ts =>
    by_cases h : inStatement t
    · simp [h]
    · simp [h]

/-! ### Going forward -/

/-- From `p` to `q` the reader went forward within the statement. The first error is recorded
unless a lexical error of the statement precedes it; nothing is recorded after it. -/
structure Leads (p q : Parser) : Prop where
  last : q.last = p.last
  lexErrors : q.lexErrors = p.lexErrors
  size : q.size = p.size
  statementStart : q.statementStart = p.statementStart
  ahead : ∃ ts, p.ahead = ts ++ q.ahead ∧ ∀ t ∈ ts, inStatement t
  errors : (q.errors = p.errors ∧ q.recovering = p.recovering) ∨
    (p.recovering = false ∧ q.recovering = true ∧ ∃ t ∈ p.places, ∃ e,
      q.errors = if p.lexErrorUpTo t.span.start then p.errors else p.errors.push ⟨e, t.span⟩)

namespace Leads

theorem refl (p : Parser) : Leads p p :=
  ⟨rfl, rfl, rfl, rfl, ⟨[], rfl, by simp⟩, Or.inl ⟨rfl, rfl⟩⟩

theorem pending_eq (h : Leads p q) : ∃ ts, p.pending = ts ++ q.pending := by
  obtain ⟨ts, hts, hin⟩ := h.ahead
  exact ⟨ts, by rw [pending, pending, hts, List.takeWhile_append_of_pos hin]⟩

theorem dropWhile_eq (h : Leads p q) :
    q.ahead.dropWhile inStatement = p.ahead.dropWhile inStatement := by
  obtain ⟨ts, hts, hin⟩ := h.ahead
  rw [hts, List.dropWhile_append_of_pos hin]

theorem endToken_eq (h : Leads p q) : q.endToken = p.endToken := by
  rw [endToken, endToken, h.dropWhile_eq, h.last]

theorem places_subset (h : Leads p q) : q.places ⊆ p.places := by
  obtain ⟨ts, hts⟩ := h.pending_eq
  unfold places
  rw [hts, h.endToken_eq, List.append_assoc]
  exact List.subset_append_right _ _

theorem lexErrorUpTo_eq (h : Leads p q) (offset : Nat) :
    q.lexErrorUpTo offset = p.lexErrorUpTo offset := by
  unfold lexErrorUpTo
  rw [h.lexErrors, h.statementStart]

/-- Nothing clears the mark of an error. -/
theorem recovering_of (h : Leads p q) (hp : p.recovering = true) : q.recovering = true := by
  rcases h.errors with ⟨-, hrec⟩ | ⟨hrec, -⟩
  · rw [hrec, hp]
  · rw [hp] at hrec
    cases hrec

theorem recovering_eq_false (h : Leads p q) (hq : q.recovering = false) : p.recovering = false := by
  rw [← Bool.not_eq_true] at hq ⊢
  exact fun hp => hq (h.recovering_of hp)

theorem trans (h : Leads p q) (h' : Leads q r) : Leads p r where
  last := h'.last.trans h.last
  lexErrors := h'.lexErrors.trans h.lexErrors
  size := h'.size.trans h.size
  statementStart := h'.statementStart.trans h.statementStart
  ahead := by
    obtain ⟨ts, hts, hin⟩ := h.ahead
    obtain ⟨us, hus, hin'⟩ := h'.ahead
    refine ⟨ts ++ us, by rw [hts, hus, List.append_assoc], fun t ht => ?_⟩
    exact (List.mem_append.1 ht).elim (hin t) (hin' t)
  errors := by
    rcases h.errors with ⟨herr, hrec⟩ | ⟨hrec, hrec', t, ht, e, herr⟩
    · -- nothing was recorded up to `q`, so what `q` records is what `p` records
      rcases h'.errors with ⟨herr', hrec'⟩ | ⟨hq, hr, t, ht, e, herr'⟩
      · exact Or.inl ⟨herr'.trans herr, hrec'.trans hrec⟩
      · refine Or.inr ⟨hrec ▸ hq, hr, t, h.places_subset ht, e, ?_⟩
        rw [herr', herr, h.lexErrorUpTo_eq]
    · -- an error is known at `q`, so nothing is recorded from there on
      rcases h'.errors with ⟨herr', hrec''⟩ | ⟨hq, -⟩
      · exact Or.inr ⟨hrec, hrec''.trans hrec', t, ht, e, herr'.trans herr⟩
      · rw [hrec'] at hq
        cases hq

end Leads

theorem leads_tail (h : endsStatement p.current.kind = false) : Leads p p.tail := by
  unfold current at h
  cases hahead : p.ahead with
  | nil =>
    exact ⟨rfl, rfl, rfl, rfl, ⟨[], by simp [tail, hahead], by simp⟩, Or.inl ⟨rfl, rfl⟩⟩
  | cons t ts =>
    rw [hahead] at h
    refine ⟨rfl, rfl, rfl, rfl, ⟨[t], by simp [tail, hahead], ?_⟩, Or.inl ⟨rfl, rfl⟩⟩
    simpa [inStatement] using h

theorem leads_report (e : SyntaxError) {t : Token} (ht : t ∈ p.places) :
    Leads p (report e t.span p).2 := by
  show Leads p (if p.recovering || p.lexErrorUpTo t.span.start then { p with recovering := true }
    else { p with errors := p.errors.push ⟨e, t.span⟩, recovering := true })
  cases hrec : p.recovering with
  | true =>
    rw [Bool.true_or, if_pos rfl]
    exact ⟨rfl, rfl, rfl, rfl, ⟨[], rfl, by simp⟩, Or.inl ⟨rfl, hrec.symm⟩⟩
  | false =>
    rw [Bool.false_or]
    by_cases hlex : p.lexErrorUpTo t.span.start
    · rw [if_pos hlex]
      refine ⟨rfl, rfl, rfl, rfl, ⟨[], rfl, by simp⟩, Or.inr ⟨hrec, rfl, t, ht, e, ?_⟩⟩
      exact (if_pos hlex).symm
    · rw [if_neg hlex]
      refine ⟨rfl, rfl, rfl, rfl, ⟨[], rfl, by simp⟩, Or.inr ⟨hrec, rfl, t, ht, e, ?_⟩⟩
      exact (if_neg hlex).symm

theorem report_recovering (e : SyntaxError) (span : Span) (p : Parser) :
    (report e span p).2.recovering = true := by
  show (if p.recovering || p.lexErrorUpTo span.start then { p with recovering := true }
    else { p with errors := p.errors.push ⟨e, span⟩, recovering := true }).recovering = true
  split <;> rfl

/-! ### Passing tokens -/

/-- The parser behind a number of tokens. -/
def skip (p : Parser) (count : Nat) : Parser :=
  { p with
    ahead := p.ahead.drop count
    ahead_le := Nat.le_trans (List.drop_suffix _ _).length_le p.ahead_le }

/-- From `p` to `q` the reader passed the tokens `ts` and did nothing else. -/
structure Moves (p : Parser) (ts : List Token) (q : Parser) : Prop where
  ahead : p.ahead = ts ++ q.ahead
  eq_skip : q = p.skip ts.length

namespace Moves

variable {ts us : List Token}

theorem refl (p : Parser) : Moves p [] p := ⟨rfl, rfl⟩

theorem trans (h : Moves p ts q) (h' : Moves q us r) : Moves p (ts ++ us) r where
  ahead := by rw [h.ahead, h'.ahead, List.append_assoc]
  eq_skip := by simp [h'.eq_skip, h.eq_skip, skip, List.drop_drop]

theorem of_ahead (h : p.ahead = ts ++ us) : Moves p ts (p.skip ts.length) :=
  ⟨by simp [skip, h], rfl⟩

theorem tail {t : Token} (h : p.ahead = t :: us) : Moves p [t] p.tail :=
  ⟨by simp [Parser.tail, h], by simp [Parser.tail, skip, h]⟩

theorem recovering (h : Moves p ts q) : q.recovering = p.recovering := by rw [h.eq_skip]; rfl

theorem size (h : Moves p ts q) : q.size = p.size := by rw [h.eq_skip]; rfl

theorem current_of_cons {t : Token} (h : Moves p (t :: ts) q) : p.current = t := by
  rw [current, h.ahead]
  rfl

theorem eq_of_nil (h : Moves p [] q) : p = q := h.eq_skip.symm

/-- Tokens can be passed in two parts. -/
theorem split (h : Moves p (ts ++ us) r) : ∃ q, Moves p ts q ∧ Moves q us r := by
  have hahead : p.ahead = ts ++ (us ++ r.ahead) := by rw [h.ahead, List.append_assoc]
  refine ⟨p.skip ts.length, of_ahead hahead, by simp [skip, hahead], ?_⟩
  rw [h.eq_skip, List.length_append]
  simp [skip, List.drop_drop]

theorem uncons {t : Token} (h : Moves p (t :: ts) r) : Moves p.tail ts r := by
  obtain ⟨q, hq, hr⟩ := @split p r [t] ts h
  have htail := hq.eq_skip
  rw [← (tail hq.ahead).eq_skip] at htail
  rwa [← htail]

/-- Reading the first of the tokens. -/
theorem advance_eq {t : Token} (h : Moves p (t :: ts) r) :
    ∃ q, advance p = (t, q) ∧ Moves q ts r :=
  ⟨p.tail, by rw [advance_apply, h.current_of_cons], h.uncons⟩

theorem expect_eq {t : Token} {kind : TokenKind} (h : Moves p (t :: ts) r) (ht : t.kind = kind) :
    ∃ q, expect kind p = (t, q) ∧ Moves q ts r := by
  have hcurrent := h.current_of_cons
  exact ⟨p.tail, by rw [expect_of_kind (hcurrent ▸ ht), hcurrent], h.uncons⟩

theorem expectClosing_eq {t : Token} {context : ParenContext} (h : Moves p (t :: ts) r)
    (ht : t.kind = .symbol .rightParen) : ∃ q, expectClosing context p = (t, q) ∧ Moves q ts r := by
  have hcurrent := h.current_of_cons
  exact ⟨p.tail, by rw [expectClosing_of_kind (hcurrent ▸ ht), hcurrent], h.uncons⟩

end Moves

/-! ### Specifications -/

/-- From `p` on, `m` leads forward; if no error is known afterwards, it passed tokens for which,
with its result and the parser behind them, `Q` holds. -/
def Yields (m : Parse α) (p : Parser) (Q : List Token → α → Parser → Prop) : Prop :=
  p.last.kind = .endOfInput → Leads p (m p).2 ∧
    ((m p).2.recovering = false → ∃ ts, Moves p ts (m p).2 ∧ Q ts (m p).1 (m p).2)

variable {m : Parse α} {f : α → Parse β} {Q Q' : List Token → α → Parser → Prop}
  {R : List Token → β → Parser → Prop}

namespace Yields

theorem mono (h : Yields m p Q) (hQ : ∀ ts a q, Q ts a q → Q' ts a q) : Yields m p Q' := by
  intro hlast
  obtain ⟨hleads, h⟩ := h hlast
  refine ⟨hleads, fun hrec => ?_⟩
  obtain ⟨ts, hmoves, hq⟩ := h hrec
  exact ⟨ts, hmoves, hQ ts _ _ hq⟩

/-- A step may assume that the end of input is behind the tokens. -/
theorem of_last (h : p.last.kind = .endOfInput → Yields m p Q) : Yields m p Q :=
  fun hlast => h hlast hlast

/-- One step after the other. The second one may assume what the first one did to the parser, and
its tokens follow those of the first. -/
theorem bind (hm : Yields m p Q)
    (hf : ∀ a q, m p = (a, q) → Leads p q →
      Yields (f a) q fun vs b r => ∀ us, Moves p us q → Q us a q → R (us ++ vs) b r) :
    Yields (m >>= f) p R := by
  intro hlast
  obtain ⟨hleads, hread⟩ := hm hlast
  obtain ⟨hleads', hread'⟩ := hf (m p).1 (m p).2 rfl hleads (by rw [hleads.last, hlast])
  refine ⟨hleads.trans hleads', fun hrec => ?_⟩
  obtain ⟨us, hus, hQ⟩ := hread (hleads'.recovering_eq_false hrec)
  obtain ⟨vs, hvs, hR⟩ := hread' hrec
  exact ⟨us ++ vs, hus.trans hvs, hR us hus hQ⟩

end Yields

theorem yields_pure {a : α} (h : Q [] a p) : Yields (pure a) p Q :=
  fun _ => ⟨Leads.refl p, fun _ => ⟨[], Moves.refl p, h⟩⟩

theorem yields_get_bind {f : Parser → Parse β} (h : Yields (f p) p R) : Yields (get >>= f) p R := h

/-- With the end of input behind its tokens, a parser at another token has that token ahead. -/
theorem ahead_eq_cons (hlast : p.last.kind = .endOfInput) (h : inStatement p.current) :
    p.ahead = p.current :: p.tail.ahead := by
  cases hahead : p.ahead with
  | nil => simp [current, hahead, inStatement, hlast, endsStatement] at h
  | cons t ts => simp [current, tail, hahead]

theorem yields_advance (h : inStatement p.current) :
    Yields advance p fun ts t _ => ts = [t] ∧ t = p.current := by
  intro hlast
  refine ⟨leads_tail (by simpa [inStatement] using h), fun _ => ?_⟩
  exact ⟨[p.current], Moves.tail (ahead_eq_cons hlast h), rfl, rfl⟩

/-- A step that only reports an error has no clean outcome. -/
theorem yields_report (e : SyntaxError) {t : Token} (ht : t ∈ p.places)
    {Q : List Token → Unit → Parser → Prop} : Yields (report e t.span) p Q := by
  refine fun _ => ⟨leads_report e ht, fun hrec => ?_⟩
  rw [report_recovering] at hrec
  cases hrec

theorem yields_expect {kind : TokenKind} (hkind : endsStatement kind = false) (p : Parser) :
    Yields (expect kind) p fun ts t _ => ts = [t] ∧ t.kind = kind := by
  by_cases h : p.current.kind = kind
  · have hadvance : Yields advance p fun ts t _ => ts = [t] ∧ t.kind = kind := by
      refine (yields_advance (by simp [inStatement, h, hkind])).mono ?_
      rintro ts t q ⟨hts, rfl⟩
      exact ⟨hts, h⟩
    unfold expect
    refine yields_get_bind ?_
    rwa [if_pos h]
  · unfold expect
    refine yields_get_bind ?_
    rw [if_neg h]
    refine (yields_report (Q := fun _ _ _ => False) _ p.current_mem_places).bind fun _ q _ _ => ?_
    exact yields_pure fun _ _ hfalse => hfalse.elim

theorem yields_expectClosing (context : ParenContext) (p : Parser) :
    Yields (expectClosing context) p fun ts t _ => ts = [t] ∧ t.kind = .symbol .rightParen := by
  unfold expectClosing
  refine yields_get_bind ?_
  dsimp only
  split
  · refine (yields_report (Q := fun _ _ _ => False) _ p.current_mem_places).bind fun _ q _ _ => ?_
    exact yields_pure fun _ _ hfalse => hfalse.elim
  · exact yields_expect rfl p

/-! ### Lists with commas -/

theorem yields_commaList {item : Parse α} {R : α → List Token → Prop}
    (hitem : ∀ q, Yields item q fun ts a _ => R a ts) (rounds : Nat) (p : Parser) :
    Yields (commaList item rounds) p fun ts as _ => Separated R as ts := by
  induction rounds generalizing p with
  | zero =>
    refine (hitem p).bind fun a q _ _ => yields_pure fun us _ ha => ?_
    rw [List.append_nil]
    exact .one ha
  | succ rounds ih =>
    refine (hitem p).bind fun a q _ _ => yields_get_bind ?_
    split
    · refine yields_pure fun us _ ha => ?_
      rw [List.append_nil]
      exact .one ha
    · next hcomma =>
      rw [Bool.or_eq_true, bne_iff_ne, not_or, not_not] at hcomma
      have hin : inStatement q.current := by simp [inStatement, hcomma.2, endsStatement]
      refine (yields_advance hin).bind fun c r _ _ => ?_
      refine (ih r).bind fun as r' _ _ => yields_pure ?_
      rintro vs - has cs - ⟨rfl, rfl⟩ us - ha
      rw [List.append_nil]
      exact .cons ha hcomma.2 has

theorem yields_commaSeparated {item : Parse α} {R : α → List Token → Prop}
    (hitem : ∀ q, Yields item q fun ts a _ => R a ts) (p : Parser) :
    Yields (commaSeparated item) p fun ts as _ => Separated R as ts :=
  yields_get_bind (yields_commaList hitem p.size p)

end ExprLang.Parser

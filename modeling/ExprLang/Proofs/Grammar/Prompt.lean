import ExprLang.Proofs.Grammar.Phrases
import ExprLang.Proofs.Parsing.Rounds

/-!
# Reading stops at the first impossible token

`Prompt m more p P` says what reading a phrase `P` by `m` comes to, beginning at `p`. It may pass
tokens of the phrase. Else it finds an error at a token `t`, behind tokens `us`, and then

* `P` has a member that begins with `us`;
* no reader `more k`, whatever its tokens behind `t` are, passes `us` and `t` without an error.

Here `more k` is the routine `m` with `k` more levels of nesting, so the second point covers every
member of `P`, however deeply it is nested. Only an error about the nesting is exempt. What makes
this provable step by step is that no decision depends on a token behind the one at hand: where `m`
passes tokens, `more k` passes them too, in front of any tokens that go on alike (`Passes.again`).
-/

namespace ExprLang

/-- What an error says of the token at which it stands is true. -/
structure SyntaxError.Fits (e : SyntaxError) (t : Token) : Prop where
  found : ∀ kind ∈ e.found?, kind = t.kind
  expected : ∀ found expected, e = .unexpected found expected → found ≠ expected

namespace Parser

variable {α β : Type} {p q r : Parser} {t c : Token} {ts us : List Token}

/-! ### Tokens at hand -/

/-- A parser without an error, in front of given tokens. The end of input may be among them. -/
structure Facing (p : Parser) (ts : List Token) : Prop where
  clean : p.recovering = false
  last : p.last.kind = .endOfInput
  tokens : ts <+: p.ahead ++ [p.last]

theorem facing_current (hclean : p.recovering = false) (hlast : p.last.kind = .endOfInput) :
    Facing p [p.current] := by
  refine ⟨hclean, hlast, ?_⟩
  unfold current
  cases p.ahead <;> simp

namespace Moves

theorem last (h : Moves p ts q) : q.last = p.last := by
  rw [h.eq_skip]
  rfl

theorem errors (h : Moves p ts q) : q.errors = p.errors := by
  rw [h.eq_skip]
  rfl

theorem lexErrorUpTo_eq (h : Moves p ts q) (offset : Nat) :
    q.lexErrorUpTo offset = p.lexErrorUpTo offset := by
  rw [h.eq_skip]
  rfl

/-- The next token is the first one that is passed, or the one behind. -/
theorem concat_current (h : Moves p ts q) : ∃ cs, ts ++ [q.current] = p.current :: cs := by
  cases ts with
  | nil =>
    rw [h.eq_of_nil]
    exact ⟨[], rfl⟩
  | cons t ts =>
    rw [h.current_of_cons]
    exact ⟨ts ++ [q.current], rfl⟩

end Moves

namespace Facing

theorem current (h : Facing p (t :: ts)) : p.current = t := by
  obtain ⟨us, hus⟩ := h.tokens
  unfold Parser.current
  cases hahead : p.ahead with
  | nil =>
    rw [hahead] at hus
    exact (List.cons.inj hus).1.symm
  | cons u more =>
    rw [hahead] at hus
    exact (List.cons.inj hus).1.symm

theorem of_append (h : Facing p (ts ++ us)) : Facing p ts :=
  ⟨h.clean, h.last, (List.prefix_append ts us).trans h.tokens⟩

theorem moves (h : Facing p (ts ++ us)) (hmoves : Moves p ts q) : Facing q us := by
  have htokens := h.tokens
  rw [hmoves.ahead, List.append_assoc, List.prefix_append_right_inj] at htokens
  refine ⟨hmoves.recovering.trans h.clean, ?_, ?_⟩
  · rw [hmoves.last]
    exact h.last
  · rwa [hmoves.last]

/-- Behind one token. -/
theorem behind (h : Facing p (t :: ts)) (hmoves : Moves p [t] q) : Facing q ts := by
  rw [← List.singleton_append] at h
  exact h.moves hmoves

theorem back (h : Facing q us) (hmoves : Moves p ts q) : Facing p (ts ++ us) := by
  refine ⟨hmoves.recovering.symm.trans h.clean, ?_, ?_⟩
  · rw [← hmoves.last]
    exact h.last
  · rw [hmoves.ahead, List.append_assoc, List.prefix_append_right_inj, ← hmoves.last]
    exact h.tokens

/-- A token with another one behind it can be passed. -/
theorem tail (h : Facing p (t :: c :: ts)) : Moves p [t] p.tail := by
  obtain ⟨us, hus⟩ := h.tokens
  cases hahead : p.ahead with
  | nil =>
    rw [hahead] at hus
    simp at hus
  | cons u more =>
    rw [hahead] at hus
    obtain rfl : t = u := (List.cons.inj hus).1
    exact Moves.tail hahead

theorem concat_current (h : Facing p (us ++ [t])) : ∃ cs, us ++ [t] = p.current :: cs := by
  cases us with
  | nil => exact ⟨[], congrArg (· :: []) h.current.symm⟩
  | cons u us => exact ⟨us ++ [t], congrArg (· :: (us ++ [t])) h.current.symm⟩

end Facing

/-! ### Prompt steps -/

/-- Tokens of a phrase that are passed, and that are passed again wherever they stand in front of
the same next token. -/
structure Passes (m : Parse α) (more : Nat → Parse α) (p : Parser) (P : Phrase)
    (ts : List Token) : Prop where
  moves : Moves p ts (m p).2
  phrase : P ts
  inside : ∀ t ∈ ts, inStatement t
  again : ∀ k p', Facing p' (ts ++ [(m p).2.current]) →
    ∃ q, more k p' = ((m p).1, q) ∧ Moves p' ts q

/-- An error at a token that is not possible there. -/
structure Impossible (more : Nat → Parse α) (P : Phrase) (us : List Token) (t : Token)
    (e : SyntaxError) : Prop where
  fits : e.Fits t
  begins : P.Begins us
  again : ∀ k p', Facing p' (us ++ [t]) → (more k p').2.recovering = true

/-- An error at a token, behind given tokens. It is recorded unless a lexical error precedes it. -/
structure Fails (m : Parse α) (more : Nat → Parse α) (p : Parser) (P : Phrase) (us : List Token)
    (t : Token) (e : SyntaxError) : Prop where
  facing : Facing p (us ++ [t])
  inside : ∀ u ∈ us, inStatement u
  recovering : (m p).2.recovering = true
  errors : (m p).2.errors =
    if p.lexErrorUpTo t.span.start then p.errors else p.errors.push ⟨e, t.span⟩
  cause : (∃ limit, e = .nestingTooDeep limit) ∨ Impossible more P us t e

/-- Reading a phrase stops at the first impossible token. -/
def Prompt (m : Parse α) (more : Nat → Parse α) (p : Parser) (P : Phrase) : Prop :=
  p.last.kind = .endOfInput → p.recovering = false →
    (∃ ts, Passes m more p P ts) ∨ ∃ us t e, Fails m more p P us t e

variable {m : Parse α} {more : Nat → Parse α} {P P' : Phrase}

theorem Passes.mono (h : Passes m more p P ts) (hP : P' ts) : Passes m more p P' ts :=
  ⟨h.moves, hP, h.inside, h.again⟩

theorem Impossible.mono {e : SyntaxError} (h : Impossible more P us t e)
    (hP : ∀ ts, P ts → P' ts) : Impossible more P' us t e := by
  obtain ⟨vs, hvs, hmember⟩ := h.begins
  exact ⟨h.fits, ⟨vs, hvs, hP _ hmember⟩, h.again⟩

namespace Prompt

theorem mono (h : Prompt m more p P) (hP : ∀ ts, P ts → P' ts) : Prompt m more p P' := by
  intro hlast hclean
  rcases h hlast hclean with ⟨ts, hpasses⟩ | ⟨us, t, e, hfails⟩
  · exact Or.inl ⟨ts, hpasses.mono (hP ts hpasses.phrase)⟩
  · right
    refine ⟨us, t, e, hfails.facing, hfails.inside, hfails.recovering, hfails.errors, ?_⟩
    exact hfails.cause.imp_right fun h => h.mono hP

/-- A step may assume that it begins without an error, and with the end of input behind the
tokens. -/
theorem of_clean (h : p.last.kind = .endOfInput → p.recovering = false → Prompt m more p P) :
    Prompt m more p P := fun hlast hclean => h hlast hclean hlast hclean

/-- The rest of a phrase, when the tokens `ts` of it were passed. -/
theorem after {l : Parse β} {more more' : Nat → Parse β} {f : Parse β} (hmoves : Moves p ts q)
    (hin : ∀ t ∈ ts, inStatement t) (hl : l p = f q)
    (hmore : ∀ k p' us, Facing p' (ts ++ q.current :: us) →
      ∃ q', more k p' = more' k q' ∧ Moves p' ts q')
    (hf : Prompt f more' q fun vs => P (ts ++ vs)) : Prompt l more p P := by
  intro hlast hclean
  rcases hf (hmoves.last ▸ hlast) (hmoves.recovering.trans hclean) with
    ⟨vs, hpasses⟩ | ⟨us, t, e, hfails⟩
  · left
    refine ⟨ts ++ vs, ?_, hpasses.phrase, ?_, fun k p' hfacing => ?_⟩
    · rw [hl]
      exact hmoves.trans hpasses.moves
    · rw [List.forall_mem_append]
      exact ⟨hin, hpasses.inside⟩
    · rw [hl] at hfacing ⊢
      rw [List.append_assoc] at hfacing
      obtain ⟨cs, hcs⟩ := hpasses.moves.concat_current
      obtain ⟨q', hgo, hmoves'⟩ := hmore k p' cs (hcs ▸ hfacing)
      obtain ⟨r', hr', hmoves''⟩ := hpasses.again k q' (hfacing.moves hmoves')
      exact ⟨r', hgo.trans hr', hmoves'.trans hmoves''⟩
  · right
    refine ⟨ts ++ us, t, e, ?_, ?_, ?_, ?_, ?_⟩
    · rw [List.append_assoc]
      exact hfails.facing.back hmoves
    · rw [List.forall_mem_append]
      exact ⟨hin, hfails.inside⟩
    · rw [hl]
      exact hfails.recovering
    · rw [hl, hfails.errors, hmoves.lexErrorUpTo_eq, hmoves.errors]
    · refine hfails.cause.imp_right fun h => ⟨h.fits, ?_, fun k p' hfacing => ?_⟩
      · obtain ⟨vs, hvs, hmember⟩ := h.begins
        rw [← List.append_assoc] at hmember
        exact ⟨vs, hvs, hmember⟩
      · rw [List.append_assoc] at hfacing
        obtain ⟨cs, hcs⟩ := hfails.facing.concat_current
        obtain ⟨q', hgo, hmoves'⟩ := hmore k p' cs (hcs ▸ hfacing)
        rw [hgo]
        exact h.again k q' (hfacing.moves hmoves')

/-- Decisions by the next token. -/
theorem congr {l : Parse α} {more' : Nat → Parse α} (h : Prompt m more p P)
    (hl : p.last.kind = .endOfInput → p.recovering = false → l p = m p)
    (hmore : ∀ k p', p'.current = p.current → p'.last.kind = .endOfInput →
      p'.recovering = false → more' k p' = more k p') : Prompt l more' p P := by
  refine of_clean fun hlast hclean => ?_
  refine after (Moves.refl p) (List.forall_mem_nil _) (hl hlast hclean)
    (fun k p' us hfacing => ?_) h
  exact ⟨p', hmore k p' hfacing.current hfacing.last hfacing.clean, Moves.refl p'⟩

/-- One step after the other. The first part of a phrase can always be completed (`hfill`), and the
second step reads what is missing of it. -/
theorem bind {f : α → Parse β} {more' : Nat → α → Parse β} [∀ a, MovesOn (f a)]
    [∀ k a, MovesOn (more' k a)] (hm : Prompt m more p P)
    (hfill : ∀ ts, P ts → P'.Begins ts)
    (hf : ∀ a q ts, m p = (a, q) → Moves p ts q → P ts →
      Prompt (f a) (fun k => more' k a) q fun vs => P' (ts ++ vs)) :
    Prompt (m >>= f) (fun k => more k >>= more' k) p P' := by
  intro hlast hclean
  rcases hm hlast hclean with ⟨ts, hpasses⟩ | ⟨us, t, e, hfails⟩
  · have hrest : Prompt (m >>= f) (fun k => more k >>= more' k) p P' := by
      refine after hpasses.moves hpasses.inside rfl (fun k p' us hfacing => ?_)
        (hf _ _ ts rfl hpasses.moves hpasses.phrase)
      rw [List.append_cons] at hfacing
      obtain ⟨q', hgo, hmoves'⟩ := hpasses.again k p' hfacing.of_append
      exact ⟨q', bind_of_eq hgo _, hmoves'⟩
    exact hrest hlast hclean
  · right
    obtain ⟨hrecovering, herrors⟩ :=
      (MovesOn.onward (m := f (m p).1) (m p).2).recovering hfails.recovering
    refine ⟨us, t, e, hfails.facing, hfails.inside, hrecovering, herrors.trans hfails.errors, ?_⟩
    refine hfails.cause.imp_right fun h => ⟨h.fits, ?_, fun k p' hfacing => ?_⟩
    · obtain ⟨vs, hvs, hmember⟩ := h.begins
      obtain ⟨ws, hws, hmember'⟩ := hfill _ hmember
      rw [List.append_assoc] at hmember'
      exact ⟨vs ++ ws, List.forall_mem_append.2 ⟨hvs, hws⟩, hmember'⟩
    · exact ((MovesOn.onward (m := more' k (more k p').1) (more k p').2).recovering
        (h.again k p' hfacing)).1

/-- One phrase after the other. -/
theorem seq {f : α → Parse β} {more' : Nat → α → Parse β} {Ps : List Phrase}
    [∀ a, MovesOn (f a)] [∀ k a, MovesOn (more' k a)] [hPs : Phrase.Writable (Phrase.sequence Ps)]
    (hm : Prompt m more p P)
    (hf : ∀ a q, m p = (a, q) → Prompt (f a) (fun k => more' k a) q (Phrase.sequence Ps)) :
    Prompt (m >>= f) (fun k => more k >>= more' k) p (Phrase.sequence (P :: Ps)) := by
  refine hm.bind (fun ts hts => ?_) fun a q ts hq _ hts => (hf a q hq).mono fun vs hvs => ?_
  · obtain ⟨vs, hlegible, hvs⟩ := hPs.begins
    exact ⟨vs, hlegible, ts, vs, rfl, hts, hvs⟩
  · exact ⟨ts, vs, rfl, hts, hvs⟩

end Prompt

/-- A decision by the kind of the next token. -/
theorem prompt_ite {kind : TokenKind} {m' : Parse α} {more' : Nat → Parse α}
    (h : p.current.kind = kind → Prompt m more p P)
    (h' : p.current.kind ≠ kind → Prompt m' more' p P) :
    Prompt (get >>= fun q => if q.current.kind = kind then m else m')
      (fun k => get >>= fun q => if q.current.kind = kind then more k else more' k) p P := by
  by_cases hp : p.current.kind = kind
  · refine (h hp).congr (fun _ _ => ?_) fun k p' hcurrent _ _ => ?_
    · rw [get_bind_apply, if_pos hp]
    · rw [get_bind_apply, hcurrent, if_pos hp]
  · refine (h' hp).congr (fun _ _ => ?_) fun k p' hcurrent _ _ => ?_
    · rw [get_bind_apply, if_neg hp]
    · rw [get_bind_apply, hcurrent, if_neg hp]

/-! ### Single steps -/

theorem prompt_pure (a : α) : Prompt (pure a) (fun _ => pure a) p (Phrase.sequence []) := by
  intro _ _
  exact Or.inl ⟨[], Moves.refl p, rfl, List.forall_mem_nil _,
    fun k p' _ => ⟨p', rfl, Moves.refl p'⟩⟩

/-- An error at the next token, whatever is answered then. -/
theorem fails_report {e : SyntaxError} (hlast : p.last.kind = .endOfInput)
    (hclean : p.recovering = false) (hm : (m p).2 = (report e p.current.span p).2)
    (hcause : (∃ limit, e = .nestingTooDeep limit) ∨ Impossible more P [] p.current e) :
    Fails m more p P [] p.current e := by
  refine ⟨facing_current hclean hlast, List.forall_mem_nil _, ?_, ?_, hcause⟩
  · rw [hm]
    exact report_recovering _ _ p
  · rw [hm, report_apply, hclean, Bool.false_or]
    split <;> rfl

/-- An error that depends on the next token only. -/
theorem prompt_report [hP : P.Writable] {e : SyntaxError} (he : e.Fits p.current)
    (hm : ∀ p', p'.current = p.current → (m p').2 = (report e p'.current.span p').2) :
    Prompt m (fun _ => m) p P := by
  intro hlast hclean
  refine Or.inr ⟨[], p.current, e, fails_report hlast hclean (hm p rfl) (Or.inr ?_)⟩
  refine ⟨he, hP.begins, fun k p' hfacing => ?_⟩
  rw [hm p' hfacing.current]
  exact report_recovering _ _ p'

/-- A token that is read, whatever it is. The decision to read it may depend on the token behind it,
too. -/
theorem prompt_advance_bind {l : Parse β} {f : Token → Parse β} {more : Nat → Parse β}
    {more' : Nat → Token → Parse β} (hin : inStatement p.current)
    (hl : p.last.kind = .endOfInput → p.recovering = false → l p = (advance >>= f) p)
    (hmore : ∀ k p', p'.current = p.current → p'.tail.current = p.tail.current →
      p'.last.kind = .endOfInput → p'.recovering = false → more k p' = (advance >>= more' k) p')
    (hf : Prompt (f p.current) (fun k => more' k p.current) p.tail fun vs => P (p.current :: vs)) :
    Prompt l more p P := by
  refine Prompt.of_clean fun hlast hclean => ?_
  refine Prompt.after (Moves.tail (ahead_eq_cons hlast hin)) (List.forall_mem_singleton.2 hin)
    (hl hlast hclean) (fun k p' us hfacing => ?_) hf
  have hmoves := hfacing.tail
  have hgo := hmore k p' hfacing.current (hfacing.behind hmoves).current hfacing.last hfacing.clean
  rw [bind_apply, advance_apply, hfacing.current] at hgo
  exact ⟨p'.tail, hgo, hmoves⟩

theorem prompt_advance {kind : TokenKind} (hp : p.current.kind = kind)
    (hkind : endsStatement kind = false) :
    Prompt advance (fun _ => advance) p (Phrase.token kind) := by
  have hbind : Prompt (advance >>= pure) (fun _ => advance >>= pure) p (Phrase.token kind) := by
    refine prompt_advance_bind (inStatement_of_kind hp hkind) (fun _ _ => rfl)
      (fun _ _ _ _ _ _ => rfl) ((prompt_pure p.current).mono ?_)
    rintro _ rfl
    exact ⟨p.current, rfl, hp⟩
  rwa [bind_pure] at hbind

theorem prompt_expect (kind : TokenKind) [Phrase.Writable (Phrase.token kind)]
    (hkind : endsStatement kind = false) (p : Parser) :
    Prompt (expect kind) (fun _ => expect kind) p (Phrase.token kind) := by
  by_cases hp : p.current.kind = kind
  · refine (prompt_advance hp hkind).congr (fun _ _ => expect_of_kind hp) ?_
    intro k p' hcurrent _ _
    exact expect_of_kind (hcurrent ▸ hp)
  · have hfits : (SyntaxError.unexpected p.current.kind kind).Fits p.current := by
      constructor
      · rintro _ ⟨⟩
        rfl
      · rintro _ _ ⟨⟩
        exact hp
    refine prompt_report hfits fun p' hcurrent => ?_
    unfold expect
    rw [get_bind_apply, hcurrent, if_neg hp]
    rfl

theorem prompt_expectClosing (context : ParenContext) (p : Parser) :
    Prompt (expectClosing context) (fun _ => expectClosing context) p
      (Phrase.token (.symbol .rightParen)) := by
  by_cases hp : endsStatement p.current.kind
  · refine prompt_report (e := .unclosed context) ⟨nofun, nofun⟩ fun p' hcurrent => ?_
    unfold expectClosing
    rw [get_bind_apply, hcurrent, if_pos hp]
    rfl
  · have hexpect : ∀ p' : Parser, p'.current = p.current →
        expectClosing context p' = expect (.symbol .rightParen) p' := by
      intro p' hcurrent
      unfold expectClosing
      rw [get_bind_apply, hcurrent, if_neg hp]
    exact (prompt_expect _ rfl p).congr (fun _ _ => hexpect p rfl) fun k p' h _ _ => hexpect p' h

theorem prompt_bodyMarker (p : Parser) :
    Prompt bodyMarker (fun _ => bodyMarker) p (Phrase.token (.keyword .inWord)) := by
  by_cases hp : p.current.kind = .keyword .inWord
  · have hadvance : ∀ p' : Parser, p'.current = p.current →
        bodyMarker p' = (advance >>= fun _ => pure ()) p' := by
      intro p' hcurrent
      unfold bodyMarker
      rw [get_bind_apply, hcurrent, if_pos hp]
    refine prompt_advance_bind (inStatement_of_kind hp rfl) (fun _ _ => hadvance p rfl)
      (fun k p' h _ _ _ => hadvance p' h) ((prompt_pure ()).mono ?_)
    rintro _ rfl
    exact ⟨p.current, rfl, hp⟩
  · have hfits : (SyntaxError.missingIn p.current.kind).Fits p.current := by
      refine ⟨?_, nofun⟩
      rintro _ ⟨⟩
      rfl
    refine prompt_report hfits fun p' hcurrent => ?_
    unfold bodyMarker
    rw [get_bind_apply, hcurrent, if_neg hp]

/-! ### Lists with commas -/

section

variable {R : α → Phrase} {item : Parse α} {item' : Nat → Parse α}

/-- What follows an item, if the list behind a comma is read promptly. -/
theorem prompt_commaTail {a b : α} (hb : R b ts)
    (hmore : p.last.kind = .endOfInput → p.current.kind = .symbol .comma →
      Prompt (commaSeparated item) (fun k => commaSeparated (item' k)) p.tail (Phrase.items R)) :
    Prompt (commaTail item a) (fun k => commaTail (item' k) a) p fun vs =>
      Phrase.items R (ts ++ vs) := by
  by_cases hcomma : p.current.kind = .symbol .comma
  · have hgo : ∀ (item : Parse α) (p' : Parser), p'.recovering = false →
        p'.current = p.current → commaTail item a p' =
          (advance >>= fun _ => commaSeparated item >>= fun as => pure (a :: as)) p' := by
      intro item p' hclean hcurrent
      unfold commaTail
      rw [get_bind_apply, hclean, hcurrent, hcomma]
      rfl
    refine Prompt.of_clean fun hlast _ => ?_
    refine prompt_advance_bind (inStatement_of_kind hcomma rfl)
      (fun _ hclean => hgo item p hclean rfl)
      (fun k p' hcurrent _ _ hclean => hgo (item' k) p' hclean hcurrent)
      (((hmore hlast hcomma).seq fun as r _ => prompt_pure (a :: as)).mono ?_)
    rintro _ ⟨vs, _, rfl, ⟨as, has⟩, rfl⟩
    rw [List.append_nil]
    exact ⟨b :: as, .cons hb hcomma has⟩
  · have hstop : ∀ (item : Parse α) (p' : Parser), p'.current = p.current →
        commaTail item a p' = (pure [a] : Parse (List α)) p' := by
      intro item p' hcurrent
      have hne : (p'.recovering || p'.current.kind != .symbol .comma) = true := by
        rw [hcurrent, Bool.or_eq_true, bne_iff_ne]
        exact Or.inr hcomma
      unfold commaTail
      rw [get_bind_apply, if_pos hne]
    refine ((prompt_pure [a]).congr (fun _ _ => hstop item p rfl)
      fun k p' h _ _ => hstop (item' k) p' h).mono ?_
    rintro _ rfl
    rw [List.append_nil]
    exact ⟨[b], .one hb⟩

/-- **Lists with commas.** -/
theorem prompt_commaSeparated [MovesOn item] [∀ k, MovesOn (item' k)]
    (hitem : ∀ q, Prompt item item' q fun ts => ∃ a, R a ts) (p : Parser) :
    Prompt (commaSeparated item) (fun k => commaSeparated (item' k)) p (Phrase.items R) := by
  -- an item and a comma leave fewer tokens ahead
  induction hlength : p.ahead.length using Nat.strong_induction_on generalizing p with
  | _ length ih =>
    refine Prompt.congr ?_ (fun hlast _ => commaSeparated_apply item hlast)
      fun k p' _ hlast _ => commaSeparated_apply (item' k) hlast
    refine (hitem p).bind ?_ fun a q ts _ hmoves hts => ?_
    · rintro ts ⟨a, ha⟩
      exact Phrase.begins_of_mem ⟨[a], .one ha⟩
    · obtain ⟨b, hb⟩ := hts
      refine prompt_commaTail hb fun hlast hcomma => ?_
      have hlt := length_tail_lt hlast (by rw [hcomma]; nofun)
      have hle := congrArg List.length hmoves.ahead
      rw [List.length_append] at hle
      exact ih _ (by omega) q.tail rfl

end

end Parser

end ExprLang

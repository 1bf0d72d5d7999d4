import ExprLang.Proofs.Grammar.Forms
import ExprLang.Proofs.Parsing.SideBySide

/-!
# A line is read slot by slot

`Slot.entry` and `Slot.errors` are what is read of a slot that stands alone. What is read of a line
is what is read of its slots (`parseProgram_statements`, `parseProgram_errors`): no slot has an
influence on another one. And slots of corresponding tokens are read alike (`Slot.Alike.entry`,
`Slot.Alike.errors`).
-/

namespace ExprLang

namespace Parser

open Pairing

variable {K : Pairing} {B B' : List (Located SyntaxError)} {p q : Parser}

/-- The expression that is read up to the end of the statement, if it is kept. -/
def kept (p : Parser) : Option Expr :=
  if (wholeStatement p).2.recovering || p.lexErrorBefore p.endToken.span.start then none
  else some (wholeStatement p).1

/-- Parallel parsers keep corresponding expressions. -/
theorem Pairing.Parallel.kept (h : K.Parallel B B' p q)
    (hbefore : q.lexErrorBefore q.endToken.span.start =
      p.lexErrorBefore p.endToken.span.start) :
    p.kept.map (·.mapSpans K.left) = q.kept.map (·.mapSpans K.right) := by
  obtain ⟨hafter, -, hresult⟩ := together_wholeStatement h
  unfold Parser.kept
  rw [hafter.recovering, hbefore]
  split
  · rfl
  · next hkept =>
    rw [Bool.or_eq_true, not_or, Bool.not_eq_true] at hkept
    exact congrArg some (hresult hkept.1)

end Parser

/-! ### A slot that stands alone -/

namespace Slot

/-- A parser in front of the tokens of a slot, with nothing behind them. -/
def parser (lexErrors : List (Located LexicalError)) (s : Slot) : Parser where
  ahead := s.tokens
  last := s.terminator
  lexErrors := lexErrors
  size := s.tokens.length
  statementStart := s.start
  ahead_le := Nat.le_refl _

/-- The expression that is read of a slot, if it is kept. -/
def entry (lexErrors : List (Located LexicalError)) (s : Slot) : Option Expr :=
  (s.parser lexErrors).kept

/-- The errors that are recorded for a slot. -/
def errors (lexErrors : List (Located LexicalError)) (s : Slot) : List (Located SyntaxError) :=
  (Parser.wholeStatement (s.parser lexErrors)).2.errors.toList

/-- A slot ends where its terminator is, and not before. -/
structure Whole (s : Slot) : Prop where
  tokens : ∀ t ∈ s.tokens, Parser.inStatement t
  terminator : Parser.inStatement s.terminator = false

theorem Whole.parser_places {s : Slot} (h : s.Whole) (lexErrors : List (Located LexicalError)) :
    (s.parser lexErrors).places = s.places ∧ (s.parser lexErrors).endToken = s.terminator := by
  have htake : s.tokens.takeWhile Parser.inStatement = s.tokens :=
    List.takeWhile_eq_self_iff.2 h.tokens
  have hdrop : s.tokens.dropWhile Parser.inStatement = [] :=
    List.dropWhile_eq_nil_iff.2 h.tokens
  unfold Parser.places Parser.pending Parser.endToken
  rw [show (s.parser lexErrors).ahead = s.tokens from rfl, htake, hdrop]
  exact ⟨rfl, rfl⟩

/-- Two slots of corresponding tokens, with lexical errors at corresponding places. -/
structure Alike (K : Parser.Pairing) (lexErrors lexErrors' : List (Located LexicalError))
    (s s' : Slot) : Prop where
  whole : s.Whole
  whole' : s'.Whole
  places : List.Forall₂ K.rel s.places s'.places
  lex : ∀ t t', K.rel t t' → (s'.parser lexErrors').lexErrorUpTo t'.span.start =
    (s.parser lexErrors).lexErrorUpTo t.span.start
  before : (s'.parser lexErrors').lexErrorBefore s'.terminator.span.start =
    (s.parser lexErrors).lexErrorBefore s.terminator.span.start

namespace Alike

variable {K : Parser.Pairing} {lexErrors lexErrors' : List (Located LexicalError)} {s s' : Slot}

theorem parallel (h : Alike K lexErrors lexErrors' s s') :
    K.Parallel [] [] (s.parser lexErrors) (s'.parser lexErrors') := by
  obtain ⟨hplaces, hend⟩ := h.whole.parser_places lexErrors
  obtain ⟨hplaces', hend'⟩ := h.whole'.parser_places lexErrors'
  exact ⟨hplaces ▸ hplaces' ▸ h.places, hend ▸ h.whole.terminator, hend' ▸ h.whole'.terminator,
    h.lex, rfl, [], [], rfl, rfl, .nil⟩

/-- Slots that are alike have corresponding statements. -/
theorem entry (h : Alike K lexErrors lexErrors' s s') :
    (s.entry lexErrors).map (·.mapSpans K.left) =
      (s'.entry lexErrors').map (·.mapSpans K.right) := by
  refine h.parallel.kept ?_
  rw [(h.whole.parser_places lexErrors).2, (h.whole'.parser_places lexErrors').2]
  exact h.before

/-- Slots that are alike have corresponding errors. -/
theorem errors (h : Alike K lexErrors lexErrors' s s') :
    List.Forall₂ K.Errors (s.errors lexErrors) (s'.errors lexErrors') := by
  obtain ⟨errs, errs', herrs, herrs', hforall⟩ :=
    (Parser.Pairing.together_wholeStatement h.parallel).parallel.errors
  unfold Slot.errors
  rwa [herrs, herrs']

end Alike

end Slot

/-! ### The slots of a line -/

namespace Parser

open Pairing

variable {p : Parser}

/-- Every token corresponds to itself. -/
def Pairing.same : Pairing where
  left := id
  right := id
  rel := Eq
  union := congrArg₂ Span.union
  ends := fun h => congrArg inStatement h.symm
  lexeme := fun h _ => congrArg Token.toLexeme h.symm
  span := fun h _ => congrArg Token.span h

/-- Corresponding errors can be computed if one of them can. -/
theorem Pairing.eq_map_of_errors {K : Pairing} {f : Located SyntaxError → Located SyntaxError}
    (hf : ∀ e e', K.Errors e e' → e' = f e) {es es' : List (Located SyntaxError)}
    (h : List.Forall₂ K.Errors es es') : es' = es.map f := by
  induction h with
  | nil => rfl
  | cons he _ ih => rw [hf _ _ he, ih, List.map_cons]

theorem Pairing.eq_of_errors {es es' : List (Located SyntaxError)}
    (h : List.Forall₂ Pairing.same.Errors es es') : es' = es := by
  refine (eq_map_of_errors (f := id) ?_ h).trans (List.map_id es)
  rintro ⟨v, s⟩ ⟨_, _⟩ ⟨t, _, rfl, rfl, rfl, hval, rfl⟩
  exact congrArg (Located.mk · t.span) hval

theorem whole_slot (hp : p.Closed) : p.slot.Whole :=
  ⟨fun _ ht => List.mem_takeWhile_imp ht,
    congrArg not (headD_dropWhile_ends hp.last)⟩

/-- What is read of a statement is what is read of its slot alone. -/
theorem statement_slot (hp : p.Closed) : (statement p).1 = p.slot.entry p.lexErrors ∧
    (statement p).2.errors.toList = p.errors.toList ++ p.slot.errors p.lexErrors := by
  obtain ⟨hplaces, hend⟩ := (whole_slot hp).parser_places p.lexErrors
  have hparallel : Pairing.same.Parallel p.errors.toList [] { p with recovering := false }
      (p.slot.parser p.lexErrors) := by
    refine ⟨?_, (whole_slot hp).terminator, hend ▸ (whole_slot hp).terminator, ?_, rfl, [], [],
      (List.append_nil _).symm, rfl, .nil⟩
    · rw [hplaces]
      exact List.forall₂_same.2 fun _ _ => rfl
    · rintro t _ rfl
      rfl
  obtain ⟨hentry, herrors, -⟩ := statement_eq hp
  refine ⟨?_, ?_⟩
  · have hkept := hparallel.kept (by rw [hend]; rfl)
    have hid : (fun e : Expr => e.mapSpans id) = id := funext Expr.mapSpans_id
    rw [show Pairing.same.left = id from rfl, show Pairing.same.right = id from rfl, hid,
      Option.map_id, id, id] at hkept
    exact hentry.trans hkept
  · obtain ⟨errs, errs', herrs, herrs', hforall⟩ :=
      (together_wholeStatement hparallel).parallel.errors
    rw [herrors, herrs, Slot.errors, herrs', List.nil_append, eq_of_errors hforall]

/-- **Reading the statements that are left** is reading the slots that are left. -/
theorem statements_slots (rounds : Nat) (hp : p.Closed) (hrounds : p.ahead.length ≤ rounds) :
    (statements rounds p).1 =
        (slotsFrom p.statementStart [] (p.ahead ++ [p.last])).map (Slot.entry p.lexErrors) ∧
      (statements rounds p).2.errors.toList = p.errors.toList ++
        (slotsFrom p.statementStart [] (p.ahead ++ [p.last])).flatMap (Slot.errors p.lexErrors) := by
  induction rounds generalizing p with
  | zero =>
    have hnil := List.length_eq_zero_iff.1 (Nat.le_zero.1 hrounds)
    rw [hnil, List.nil_append, slotsFrom_last hp.last]
    exact ⟨rfl, (List.append_nil _).symm⟩
  | succ rounds ih =>
    by_cases hnil : p.ahead = []
    · rw [statements_nil _ hnil, hnil, List.nil_append, slotsFrom_last hp.last]
      exact ⟨rfl, (List.append_nil _).symm⟩
    · obtain ⟨hentry, herrs⟩ := statement_slot hp
      obtain ⟨-, -, -, -, -, hlex⟩ := statement_eq hp
      obtain ⟨hclosed, hlength, hslots⟩ := statement_rest hp hnil
      obtain ⟨hmore, hmoreErrs⟩ := ih hclosed (by omega)
      rw [statements_succ _ hnil, hslots, List.map_cons, List.flatMap_cons, ← List.append_assoc,
        ← herrs, ← hentry]
      rw [hlex] at hmore hmoreErrs
      exact ⟨congrArg _ hmore, hmoreErrs⟩

end Parser

theorem whole_of_mem_slots {line : String} {s : Slot} (hs : s ∈ slots line) : s.Whole := by
  refine ⟨inStatement_of_mem_slots hs, ?_⟩
  rcases terminator_kind hs with h | h <;> rw [Parser.inStatement, h] <;> rfl

/-- **The statements of a line** are those of its slots. -/
theorem parseProgram_statements (line : String) : (parseProgram line).statements =
    (slots line).map (Slot.entry (tokenize line).2) := by
  rw [Parser.slots_eq]
  exact (Parser.statements_slots _ (Parser.closed_ofLine line) (Parser.ofLine line).ahead_le).1

/-- **The syntax errors of a line** are those of its slots. -/
theorem parseProgram_errors (line : String) : (parseProgram line).errors =
    (slots line).flatMap (Slot.errors (tokenize line).2) := by
  rw [Parser.slots_eq]
  exact (Parser.statements_slots _ (Parser.closed_ofLine line) (Parser.ofLine line).ahead_le).2

end ExprLang

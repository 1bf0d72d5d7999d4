import ExprLang.Proofs.Lexing.Joined
import ExprLang.Proofs.Statements.Reading

/-!
# Reading two texts with a semicolon between them

The slots of two texts with a semicolon between them are the slots of the first, of which the last
one ends at the semicolon now, and the slots of the second, moved behind the semicolon
(`slots_joined`). Since slots are read one by one, so are the statements, and the errors likewise
(`parseProgram_joined`). So reading composes at semicolons (`parseProgram_composes`).
-/

namespace ExprLang

/-! ### Slots -/

/-- A semicolon in the place of the end of input. -/
def Token.closed (t : Token) : Token :=
  if t.kind = .endOfInput then .semicolonAt t.span.start else t

namespace Token

variable {t : Token}

theorem closed_of_inStatement (h : Parser.inStatement t) : t.closed = t :=
  if_neg (Parser.inStatement_iff.1 h).2

theorem inStatement_closed (t : Token) : Parser.inStatement t.closed = Parser.inStatement t := by
  unfold closed
  split
  · next hend => rw [Parser.inStatement, Parser.inStatement, hend]; rfl
  · rfl

theorem start_closed (t : Token) : t.closed.span.start = t.span.start := by
  unfold closed
  split <;> rfl

end Token

namespace Slot

/-- A slot moved to the right. -/
def shift (offset : Nat) (s : Slot) : Slot :=
  ⟨s.start + offset, s.tokens.map (Token.shift offset), s.terminator.shift offset⟩

/-- A slot that ends at a semicolon. -/
def closed (s : Slot) : Slot := { s with terminator := s.terminator.closed }

end Slot

theorem slotsFrom_shift (k start : Nat) (held ts : List Token) :
    slotsFrom (start + k) (held.map (Token.shift k)) (ts.map (Token.shift k)) =
      (slotsFrom start held ts).map (Slot.shift k) := by
  induction ts generalizing start held with
  | nil => rfl
  | cons t ts ih =>
    have hkind : (t.shift k).kind = t.kind := rfl
    rw [List.map_cons, slotsFrom, slotsFrom, hkind, List.isEmpty_map]
    split_ifs with hsemicolon hend hheld
    · exact congrArg _ (ih t.span.stop [])
    · rfl
    · rfl
    · have h := ih start (held ++ [t])
      rwa [List.map_append] at h

/-- Slots of tokens that do not end with a semicolon, when a semicolon comes behind them. -/
theorem slotsFrom_joined {last : Token} (hlast : last.kind = .endOfInput) {ts : List Token}
    (hts : ∀ t ∈ ts, t.kind ≠ .endOfInput) (start : Nat) (held us : List Token)
    (hend : ∃ t, (held ++ ts).getLast? = some t ∧ t.kind ≠ .symbol .semicolon) :
    slotsFrom start held (ts ++ last.closed :: us) =
      (slotsFrom start held (ts ++ [last])).map Slot.closed ++
        slotsFrom (last.span.start + 1) [] us := by
  have hclosed : last.closed = .semicolonAt last.span.start := if_pos hlast
  induction ts generalizing start held with
  | nil =>
    have hne : held ≠ [] := by
      rintro rfl
      obtain ⟨t, ht, -⟩ := hend
      cases ht
    simp [slotsFrom, hlast, hne, Slot.closed, hclosed, Token.semicolonAt, Lexeme.semicolon]
  | cons t ts ih =>
    obtain ⟨ht, hts⟩ := List.forall_mem_cons.1 hts
    rw [List.cons_append, List.cons_append, slotsFrom, slotsFrom, if_neg ht, if_neg ht]
    split_ifs with hsemicolon
    · have hrest : ∃ u, ([] ++ ts).getLast? = some u ∧ u.kind ≠ .symbol .semicolon := by
        obtain ⟨u, hu, hkind⟩ := hend
        cases ts with
        | nil =>
          rw [List.getLast?_append_cons] at hu
          obtain rfl := Option.some.inj hu
          exact absurd hsemicolon hkind
        | cons v ts =>
          refine ⟨u, ?_, hkind⟩
          rwa [List.getLast?_append_cons, List.getLast?_cons_cons] at hu
      rw [ih hts _ _ hrest]
      have hkeep : (⟨start, held, t⟩ : Slot).closed = ⟨start, held, t⟩ := by
        rw [Slot.closed, Token.closed, if_neg ht]
      rw [List.map_cons, hkeep, List.cons_append]
    · exact ih hts start (held ++ [t]) (by rwa [List.append_assoc])

/-- **The slots of two texts with a semicolon between them.** -/
theorem slots_joined {a : String} (b : String)
    (hclosed : ∀ e ∈ (tokenize a).2, e.val ≠ .unterminatedString)
    (hend : ∃ t, (significantTokens a).dropLast.getLast? = some t ∧ t.kind ≠ .symbol .semicolon) :
    slots (a ++ ";" ++ b) =
      (slots a).map Slot.closed ++ (slots b).map (Slot.shift (a.utf8ByteSize + 1)) := by
  have hsignificant : significantTokens (a ++ ";" ++ b) =
      (Parser.ofLine a).ahead ++ (Parser.ofLine a).last.closed ::
        (significantTokens b).map (Token.shift (a.utf8ByteSize + 1)) := by
    rw [significantTokens, tokenize_joined b hclosed, List.filter_append, Parser.ofLine_ahead,
      Parser.ofLine_last, List.filter_cons_of_pos (by rfl), List.filter_map]
    rfl
  rw [show (significantTokens a).dropLast = (Parser.ofLine a).ahead from rfl] at hend
  rw [slots, hsignificant, slotsFrom_joined (Parser.closed_ofLine a).last
    (Parser.closed_ofLine a).ahead 0 [] _ hend, ← Parser.slots_eq, Parser.ofLine_last]
  congr 1
  have hshift := slotsFrom_shift (a.utf8ByteSize + 1) 0 [] (significantTokens b)
  rwa [Nat.zero_add] at hshift

/-! ### Errors -/

namespace SyntaxError

/-- The error when a semicolon stands in the place of the end of input. -/
def closed (e : SyntaxError) : SyntaxError :=
  if e.found? = some .endOfInput then e.withFound (.symbol .semicolon) else e

theorem withFound_closed {e : SyntaxError} {t : Token} (h : e.withFound t.kind = e) :
    e.withFound t.closed.kind = e.closed := by
  have hfound : ∀ kind, e.found? = some kind → kind = t.kind := by
    cases e <;> intro kind hkind <;> cases hkind <;> simp_all [withFound]
  unfold Token.closed closed
  split_ifs with hend hfound' hfound'
  · rfl
  · cases e <;> simp_all [withFound, found?]
  · exact absurd (hfound _ hfound').symm hend
  · exact h

end SyntaxError

/-- An error of a text, when a semicolon comes behind the text at an offset. -/
def closedError (offset : Nat) (e : Located SyntaxError) : Located SyntaxError :=
  ⟨e.val.closed, if e.span = .point offset then ⟨offset, offset + 1⟩ else e.span⟩

/-! ### Corresponding tokens -/

namespace Parser.Pairing

/-- A token corresponds to itself moved to the right. -/
def moved (k : Nat) : Pairing where
  left := Span.shift k
  right := id
  rel := fun t t' => t' = t.shift k
  union := by
    rintro s t _ _ rfl rfl
    simp only [Span.shift, Span.union, id, Span.mk.injEq]
    omega
  ends := by
    rintro t _ rfl
    rfl
  lexeme := by
    rintro t _ rfl -
    rfl
  span := by
    rintro t _ rfl -
    rfl

/-- A token of a text corresponds to itself, the end of the text to the semicolon there. -/
def ended (offset : Nat) : Pairing where
  __ := same
  rel := fun t t' => t' = t.closed ∧ (t.kind ≠ .endOfInput → t.span.start < offset) ∧
    (t.kind = .endOfInput → t.span = .point offset)
  ends := by
    rintro t _ ⟨rfl, -⟩
    exact t.inStatement_closed
  lexeme := by
    rintro t _ ⟨rfl, -⟩ hin
    rw [Token.closed_of_inStatement hin]
  span := by
    rintro t _ ⟨rfl, -⟩ hin
    rw [Token.closed_of_inStatement hin]
    rfl

variable {k offset : Nat} {es es' : List (Located SyntaxError)}

theorem moved_errors (h : List.Forall₂ (moved k).Errors es es') :
    es' = es.map (·.mapSpan (Span.shift k)) := by
  refine eq_map_of_errors ?_ h
  rintro ⟨v, s⟩ ⟨_, _⟩ ⟨t, _, rfl, rfl, rfl, hval, rfl⟩
  exact congrArg (Located.mk · (t.shift k).span) hval

theorem ended_errors (h : List.Forall₂ (ended offset).Errors es es') :
    es' = es.map (closedError offset) := by
  refine eq_map_of_errors ?_ h
  rintro ⟨v, s⟩ ⟨_, _⟩ ⟨t, _, ⟨rfl, hbefore, hpoint⟩, rfl, rfl, hval, rfl⟩
  refine congrArg₂ Located.mk (SyntaxError.withFound_closed hval) ?_
  dsimp only
  unfold Token.closed
  split_ifs with hend hspan hspan
  · rw [hspan]
    rfl
  · exact absurd (hpoint hend) hspan
  · have hlt := hbefore hend
    rw [hspan] at hlt
    exact absurd hlt (Nat.lt_irrefl offset)
  · rfl

end Parser.Pairing

/-! ### Corresponding slots -/

/-- The lexical errors of two texts with a semicolon at an offset between them. -/
def joinedErrors (offset : Nat) (first second : List (Located LexicalError)) :
    List (Located LexicalError) :=
  first ++ second.map (·.mapSpan (Span.shift (offset + 1)))

section

variable {n : Nat} {first second : List (Located LexicalError)} {P : Nat → Prop}

/-- Up to the semicolon there are the errors of the first text. -/
theorem exists_joinedErrors_first (hP : ∀ m, P m → m ≤ n) :
    (∃ x ∈ joinedErrors n first second, P x.span.start) ↔ ∃ x ∈ first, P x.span.start := by
  constructor
  · rintro ⟨x, hx, hPx⟩
    rcases List.mem_append.1 hx with hx | hx
    · exact ⟨x, hx, hPx⟩
    · obtain ⟨y, -, rfl⟩ := List.mem_map.1 hx
      have hle : y.span.start + (n + 1) ≤ n := hP _ hPx
      omega
  · rintro ⟨x, hx, hPx⟩
    exact ⟨x, List.mem_append_left _ hx, hPx⟩

/-- Behind the semicolon there are the errors of the second text. -/
theorem exists_joinedErrors_second (hfirst : ∀ x ∈ first, x.span.start ≤ n)
    (hP : ∀ m, P m → n < m) :
    (∃ x ∈ joinedErrors n first second, P x.span.start) ↔
      ∃ x ∈ second, P (x.span.start + (n + 1)) := by
  constructor
  · rintro ⟨x, hx, hPx⟩
    rcases List.mem_append.1 hx with hx | hx
    · have hle := hfirst x hx
      have hlt := hP _ hPx
      omega
    · obtain ⟨y, hy, rfl⟩ := List.mem_map.1 hx
      exact ⟨y, hy, hPx⟩
  · rintro ⟨y, hy, hPy⟩
    exact ⟨_, List.mem_append_right _ (List.mem_map_of_mem hy), hPy⟩

end

/-- A token of a line is before the end, or it is the end. -/
theorem start_of_mem_tokenize {line : String} {t : Token} (ht : t ∈ (tokenize line).1) :
    (t.kind ≠ .endOfInput → t.span.start < line.utf8ByteSize) ∧
      (t.kind = .endOfInput → t.span = .point line.utf8ByteSize) := by
  rw [tokenize_eq] at ht
  rcases List.mem_append.1 ht with ht | ht
  · have hmem := toLexeme_mem_of_mem_tokensAt ht
    have hpos : 0 < t.size := size_pos_of_mem_lexemes hmem
    obtain ⟨-, hstop, hle⟩ := bounds_of_mem_tokensAt ht
    rw [sum_size_lexemes_toList] at hle
    exact ⟨fun _ => by omega, fun h => absurd h (kind_ne_endOfInput_of_mem_lexemes hmem)⟩
  · rw [List.mem_singleton.1 ht]
    exact ⟨fun h => absurd rfl h, fun _ => rfl⟩

theorem start_le_of_mem_errors {line : String} {x : Located LexicalError}
    (hx : x ∈ (tokenize line).2) : x.span.start ≤ line.utf8ByteSize := by
  obtain ⟨t, ht, hspan, hkind⟩ := exists_token_of_mem_errors hx
  have hne : t.kind ≠ .endOfInput := by
    rcases hkind with h | h <;> rw [h] <;> nofun
  exact hspan ▸ Nat.le_of_lt ((start_of_mem_tokenize ht).1 hne)

namespace Slot

variable {line : String} {s : Slot}

/-- A slot of the first text. -/
theorem alike_closed (hs : s ∈ slots line) (second : List (Located LexicalError)) :
    Alike (.ended line.utf8ByteSize) (tokenize line).2
      (joinedErrors line.utf8ByteSize (tokenize line).2 second) s s.closed := by
  have hwhole := whole_of_mem_slots hs
  have hbound : ∀ {t : Token}, (t.kind ≠ .endOfInput → t.span.start < line.utf8ByteSize) ∧
      (t.kind = .endOfInput → t.span = .point line.utf8ByteSize) →
      t.span.start ≤ line.utf8ByteSize := fun {t} h => by
    by_cases hend : t.kind = .endOfInput
    · rw [h.2 hend]
      exact Nat.le_refl _
    · exact Nat.le_of_lt (h.1 hend)
  have hterminator : s.terminator ∈ s.places :=
    List.mem_append_right _ (List.mem_singleton_self _)
  have hplaces : s.closed.places = s.places.map Token.closed := by
    have htokens : s.tokens.map Token.closed = s.tokens :=
      (List.map_congr_left fun t ht => Token.closed_of_inStatement (hwhole.tokens t ht)).trans
        (List.map_id _)
    rw [places, places, List.map_append, htokens]
    rfl
  refine ⟨hwhole, ⟨hwhole.tokens, s.terminator.inStatement_closed.trans hwhole.terminator⟩, ?_, ?_,
    ?_⟩
  · rw [hplaces, List.forall₂_map_right_iff, List.forall₂_same]
    exact fun t ht => ⟨rfl, start_of_mem_tokenize (mem_tokenize_of_mem_places hs ht)⟩
  · rintro t _ ⟨rfl, hbefore⟩
    rw [Bool.eq_iff_iff, Parser.lexErrorUpTo_iff, Parser.lexErrorUpTo_iff, t.start_closed]
    exact exists_joinedErrors_first (P := fun m => s.start ≤ m ∧ m ≤ t.span.start)
      fun m hm => hm.2.trans (hbound hbefore)
  · rw [Bool.eq_iff_iff, Parser.lexErrorBefore_iff, Parser.lexErrorBefore_iff]
    have hle := hbound (start_of_mem_tokenize (mem_tokenize_of_mem_places hs hterminator))
    rw [show s.closed.terminator = s.terminator.closed from rfl, Token.start_closed]
    exact exists_joinedErrors_first (P := fun m => s.start ≤ m ∧ m < s.terminator.span.start)
      fun m hm => hm.2.le.trans hle

/-- A slot of the second text. -/
theorem alike_shift (hs : s ∈ slots line) {n : Nat} {first : List (Located LexicalError)}
    (hfirst : ∀ x ∈ first, x.span.start ≤ n) :
    Alike (.moved (n + 1)) (tokenize line).2 (joinedErrors n first (tokenize line).2) s
      (s.shift (n + 1)) := by
  have hwhole := whole_of_mem_slots hs
  have hplaces : (s.shift (n + 1)).places = s.places.map (Token.shift (n + 1)) := by
    simp [places, shift]
  refine ⟨hwhole, ⟨fun t ht => ?_, hwhole.terminator⟩, ?_, ?_, ?_⟩
  · obtain ⟨u, hu, rfl⟩ := List.mem_map.1 ht
    exact hwhole.tokens u hu
  · rw [hplaces, List.forall₂_map_right_iff, List.forall₂_same]
    exact fun t _ => rfl
  · rintro t _ rfl
    rw [Bool.eq_iff_iff, Parser.lexErrorUpTo_iff, Parser.lexErrorUpTo_iff]
    refine (exists_joinedErrors_second
      (P := fun m => s.start + (n + 1) ≤ m ∧ m ≤ t.span.start + (n + 1)) hfirst
      fun m hm => by omega).trans ?_
    simp only [Nat.add_le_add_iff_right]
    rfl
  · rw [Bool.eq_iff_iff, Parser.lexErrorBefore_iff, Parser.lexErrorBefore_iff]
    refine (exists_joinedErrors_second
      (P := fun m => s.start + (n + 1) ≤ m ∧ m < s.terminator.span.start + (n + 1)) hfirst
      fun m hm => by omega).trans ?_
    simp only [Nat.add_le_add_iff_right, Nat.add_lt_add_iff_right]
    rfl

end Slot

/-- **Reading two texts with a semicolon between them.** The statements and errors are those of the
first text, where an error at the end of the text stands at the semicolon now, and then those of the
second text, moved behind the semicolon. -/
theorem parseProgram_joined {a : String} (b : String)
    (hclosed : ∀ e ∈ (tokenize a).2, e.val ≠ .unterminatedString)
    (hend : ∃ t, (significantTokens a).dropLast.getLast? = some t ∧ t.kind ≠ .symbol .semicolon) :
    (parseProgram (a ++ ";" ++ b)).statements = (parseProgram a).statements ++
        (parseProgram b).statements.map
          (Option.map (·.mapSpans (Span.shift (a.utf8ByteSize + 1)))) ∧
      (parseProgram (a ++ ";" ++ b)).errors =
        (parseProgram a).errors.map (closedError a.utf8ByteSize) ++
          (parseProgram b).errors.map (·.mapSpan (Span.shift (a.utf8ByteSize + 1))) := by
  have hlex : (tokenize (a ++ ";" ++ b)).2 =
      joinedErrors a.utf8ByteSize (tokenize a).2 (tokenize b).2 := by
    rw [tokenize_joined b hclosed]
    rfl
  have hfirst : ∀ x ∈ (tokenize a).2, x.span.start ≤ a.utf8ByteSize :=
    fun x hx => start_le_of_mem_errors hx
  have hid : (fun e : Expr => e.mapSpans id) = id := funext Expr.mapSpans_id
  simp only [parseProgram_statements, parseProgram_errors, slots_joined b hclosed hend, hlex,
    List.map_append, List.flatMap_append]
  refine ⟨congrArg₂ _ ?_ ?_, congrArg₂ _ ?_ ?_⟩
  · rw [List.map_map]
    refine List.map_congr_left fun s hs => ?_
    have hentry : (s.entry _).map (fun e => e.mapSpans id) =
        (s.closed.entry _).map fun e => e.mapSpans id :=
      (Slot.alike_closed hs (tokenize b).2).entry
    rw [hid, Option.map_id] at hentry
    exact hentry.symm
  · rw [List.map_map, List.map_map]
    refine List.map_congr_left fun s hs => ?_
    have hentry : (s.entry _).map (·.mapSpans (Span.shift (a.utf8ByteSize + 1))) =
        ((s.shift _).entry _).map fun e => e.mapSpans id :=
      (Slot.alike_shift hs hfirst).entry
    rw [hid, Option.map_id] at hentry
    exact hentry.symm
  · rw [List.flatMap_map, List.map_flatMap]
    refine List.flatMap_congr fun s hs => ?_
    exact Parser.Pairing.ended_errors (Slot.alike_closed hs (tokenize b).2).errors
  · rw [List.flatMap_map, List.map_flatMap]
    refine List.flatMap_congr fun s hs => ?_
    exact Parser.Pairing.moved_errors (Slot.alike_shift hs hfirst).errors

/-! ### Composition -/

/-- An error of a text that ends at an offset, when a semicolon comes behind the text: an error at
the end stands at the semicolon, and tells of it where it told of the end. -/
def atSemicolon (offset : Nat) (e : Located SyntaxError) : Located SyntaxError :=
  if e.span = .point offset then ⟨e.val.closed, ⟨offset, offset + 1⟩⟩ else e

theorem Parser.Pairing.ended_errors_atSemicolon {offset : Nat} {es es' : List (Located SyntaxError)}
    (h : List.Forall₂ (ended offset).Errors es es') : es' = es.map (atSemicolon offset) := by
  refine eq_map_of_errors ?_ h
  rintro ⟨v, s⟩ ⟨_, _⟩ ⟨t, _, ⟨rfl, hbefore, hpoint⟩, rfl, rfl, hval, rfl⟩
  dsimp only at hval ⊢
  by_cases hend : t.kind = .endOfInput
  · have hspan := hpoint hend
    rw [atSemicolon, if_pos hspan, SyntaxError.withFound_closed hval, Token.closed, if_pos hend,
      hspan]
    rfl
  · have hspan : t.span ≠ .point offset := by
      intro hspan
      have hlt := hbefore hend
      rw [hspan] at hlt
      exact Nat.lt_irrefl offset hlt
    rw [atSemicolon, if_neg hspan, Token.closed, if_neg hend, hval]

/-- An error that does not stand at the end of the text does not tell of the end. -/
theorem map_closedError (line : String) :
    (parseProgram line).errors.map (closedError line.utf8ByteSize) =
      (parseProgram line).errors.map (atSemicolon line.utf8ByteSize) := by
  rw [parseProgram_errors, List.map_flatMap, List.map_flatMap]
  apply List.flatMap_congr
  intro s hs
  have halike := (Slot.alike_closed hs []).errors
  rw [← Parser.Pairing.ended_errors halike, ← Parser.Pairing.ended_errors_atSemicolon halike]

namespace Parsed

/-- A line as it was read, further to the right. -/
def shift (offset : Nat) (p : Parsed) : Parsed where
  statements := p.statements.map (Option.map (·.mapSpans (Span.shift offset)))
  lexErrors := p.lexErrors.map (·.mapSpan (Span.shift offset))
  errors := p.errors.map (·.mapSpan (Span.shift offset))

/-- A line as it is read in front of a semicolon at an offset. -/
def endedAt (offset : Nat) (p : Parsed) : Parsed :=
  { p with errors := p.errors.map (atSemicolon offset) }

/-- What was read of one line, and what was read of another one. -/
def append (p q : Parsed) : Parsed where
  statements := p.statements ++ q.statements
  lexErrors := p.lexErrors ++ q.lexErrors
  errors := p.errors ++ q.errors

end Parsed

/-- **Reading composes at semicolons.** What is read of two texts with a semicolon between them is
what is read of the first one in front of the semicolon, and then what is read of the second one
behind it: the statements, the lexical errors and the syntax errors. -/
theorem parseProgram_composes {a : String} (b : String)
    (hclosed : ∀ e ∈ (tokenize a).2, e.val ≠ .unterminatedString)
    (hend : ∃ t, (significantTokens a).dropLast.getLast? = some t ∧ t.kind ≠ .symbol .semicolon) :
    parseProgram (a ++ ";" ++ b) = ((parseProgram a).endedAt a.utf8ByteSize).append
      ((parseProgram b).shift (a.utf8ByteSize + 1)) := by
  obtain ⟨hstatements, herrors⟩ := parseProgram_joined b hclosed hend
  have hlex : (parseProgram (a ++ ";" ++ b)).lexErrors = (parseProgram a).lexErrors ++
      (parseProgram b).lexErrors.map (·.mapSpan (Span.shift (a.utf8ByteSize + 1))) := by
    simp only [(account_parseProgram _).2, tokenize_joined b hclosed]
  rw [map_closedError] at herrors
  generalize parseProgram (a ++ ";" ++ b) = p at *
  obtain ⟨statements, lexErrors, errors⟩ := p
  simp only at hstatements hlex herrors
  rw [hstatements, hlex, herrors]
  rfl

/-- A text that breaks off in front of the semicolon; behind it a variable, and a stray character in
a slot of its own. -/
theorem parseProgram_composes_sum :
    (parseProgram "x +;y; ~ z").statements.map (Option.map Expr.span) =
        [none, some ⟨4, 5⟩, none] ∧
      (parseProgram "x +;y; ~ z").lexErrors = [⟨.unrecognized '~', ⟨7, 8⟩⟩] ∧
      (parseProgram "x +;y; ~ z").errors =
        [⟨.unexpected (.symbol .semicolon) .literal, ⟨3, 4⟩⟩] := by
  have hline : parseProgram "x +;y; ~ z" = _ := parseProgram_composes (a := "x +") "y; ~ z"
    (by decide +kernel) ⟨⟨⟨.symbol .plus, "+", none⟩, ⟨2, 3⟩⟩, by decide +kernel, by decide⟩
  rw [hline]
  decide +kernel

end ExprLang

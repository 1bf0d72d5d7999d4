import ExprLang.Proofs.Lexing.Munch
import ExprLang.Proofs.Session.Order

/-!
# Lexical errors and the tokens they belong to

`Lexeme.Faulty` says what is wrong with a lexeme by its kind, its text and its value alone: a stray
character, digits without a value, or an opening quote that is not closed. The lexical errors of a
line are what is wrong with its tokens, one after the other (`lexical_errors_of_tokens`). A literal
with which nothing is wrong has a value (`Lexeme.Valued`), and behind a quote that is not closed
there is nothing but the end of the line.
-/

namespace ExprLang

variable {k : Lexeme} {after : List Char} {e : LexicalError}

/-- What is wrong with a lexeme. -/
inductive Lexeme.Faulty (k : Lexeme) : LexicalError → Prop
  | stray {c : Char} (hkind : k.kind = .stray) (htext : k.text = String.singleton c) :
      Faulty k (.unrecognized c)
  | number {c : Char} {cs : List Char} (hkind : k.kind = .literal)
      (htext : k.text.toList = c :: cs) (hdigit : c.isDigit) (hvalue : k.literal? = none) :
      Faulty k (.invalidNumber k.text)
  | string {cs : List Char} (hkind : k.kind = .literal) (htext : k.text.toList = '"' :: cs)
      (hopen : cs.getLast? ≠ some '"') : Faulty k .unterminatedString

/-- A literal with a value: the finite number that its digits stand for, or the text between its
quotes. -/
def Lexeme.Valued (k : Lexeme) : Prop :=
  (∃ c cs x, k.text.toList = c :: cs ∧ c.isDigit ∧ x = Number.read k.text.toList ∧ x.isFinite ∧
    k.literal? = some (.number x)) ∨
  ∃ content, '"' ∉ content.toList ∧ k.text = "\"" ++ content ++ "\"" ∧
    k.literal? = some (.string content)

/-! ### Single lexemes -/

namespace Lexeme

theorem Faulty.kind (h : k.Faulty e) : k.kind = .stray ∨ k.kind = .literal := by
  cases h with
  | stray hkind => exact Or.inl hkind
  | number hkind => exact Or.inr hkind
  | string hkind => exact Or.inr hkind

/-- Digits are at fault if they have no value. -/
theorem faulty_iff_of_digit {c : Char} {cs : List Char} (hkind : k.kind = .literal)
    (htext : k.text.toList = c :: cs) (hdigit : c.isDigit) :
    k.Faulty e ↔ k.literal? = none ∧ e = .invalidNumber k.text := by
  constructor
  · intro h
    cases h with
    | stray hstray => cases hkind.symm.trans hstray
    | number _ _ _ hvalue => exact ⟨hvalue, rfl⟩
    | string _ hquote =>
      rw [htext] at hquote
      cases hquote
      cases hdigit
  · rintro ⟨hvalue, rfl⟩
    exact .number hkind htext hdigit hvalue

/-- A string is at fault if it does not end with a quote. -/
theorem faulty_iff_of_quote {content : List Char} (hkind : k.kind = .literal)
    (htext : k.text.toList = '"' :: content) :
    k.Faulty e ↔ content.getLast? ≠ some '"' ∧ e = .unterminatedString := by
  constructor
  · intro h
    cases h with
    | stray hstray => cases hkind.symm.trans hstray
    | number _ hnumber hdigit =>
      rw [htext] at hnumber
      cases hnumber
      cases hdigit
    | string _ hquote hopen =>
      rw [htext] at hquote
      cases hquote
      exact ⟨hopen, rfl⟩
  · rintro ⟨hopen, rfl⟩
    exact .string hkind htext hopen

theorem flaw?_of_none (hkind : k.kind = .literal) (hvalue : k.literal? = none) :
    k.flaw? = some (.invalidNumber k.text) := by
  simp [flaw?, hkind, hvalue]

theorem flaw?_of_number (hkind : k.kind = .literal) {x : Float}
    (hvalue : k.literal? = some (.number x)) : k.flaw? = none := by
  simp [flaw?, hkind, hvalue]

theorem flaw?_of_string (hkind : k.kind = .literal) {s : String}
    (hvalue : k.literal? = some (.string s)) {content : List Char}
    (htext : k.text.toList = '"' :: content) :
    k.flaw? = if '"' ∈ content then none else some .unterminatedString := by
  simp [flaw?, hkind, hvalue, htext]

/-- The literals among the lexemes, each with the text behind it. -/
inductive LiteralShape (k : Lexeme) (after : List Char) : Prop
  | number {c : Char} {cs : List Char} (htext : k.text.toList = c :: cs) (hdigit : c.isDigit)
      (hvalue : k.literal? = numberLiteral? k.text.toList)
  | closed {content : List Char} (hcontent : '"' ∉ content)
      (htext : k.text.toList = '"' :: (content ++ ['"']))
      (hvalue : k.literal? = some (.string (String.ofList content)))
  | unclosed {content : List Char} (hcontent : '"' ∉ content)
      (htext : k.text.toList = '"' :: content)
      (hvalue : k.literal? = some (.string (String.ofList content))) (hafter : after = [])

end Lexeme

theorem IsLexeme.literalShape (h : IsLexeme k after) (hkind : k.kind = .literal) :
    k.LiteralShape after := by
  cases h with
  | integer hne hwhole =>
    obtain ⟨c, cs, rfl⟩ := List.exists_cons_of_ne_nil hne
    exact .number String.toList_ofList (hwhole c List.mem_cons_self) (by rw [String.toList_ofList])
  | decimal hne hwhole =>
    obtain ⟨c, cs, rfl⟩ := List.exists_cons_of_ne_nil hne
    exact .number String.toList_ofList (hwhole c List.mem_cons_self) (by rw [String.toList_ofList])
  | string hcontent => exact .closed hcontent String.toList_ofList rfl
  | openString hcontent => exact .unclosed hcontent String.toList_ofList rfl rfl
  | _ => cases hkind

namespace Lexeme.LiteralShape

theorem getLast?_ne {content : List Char} (h : '"' ∉ content) : content.getLast? ≠ some '"' :=
  fun hlast => h (List.mem_of_getLast? hlast)

theorem flaw?_eq_some_iff (h : k.LiteralShape after) (hkind : k.kind = .literal) :
    k.flaw? = some e ↔ k.Faulty e := by
  cases h with
  | number htext hdigit hvalue =>
    rw [faulty_iff_of_digit hkind htext hdigit, hvalue]
    unfold numberLiteral? at hvalue ⊢
    split at hvalue
    · next hfinite => simp [flaw?_of_number hkind hvalue, hfinite]
    · next hfinite => simp [flaw?_of_none hkind hvalue, hfinite, eq_comm]
  | closed _ htext hvalue =>
    rw [faulty_iff_of_quote hkind htext, flaw?_of_string hkind hvalue htext]
    simp
  | unclosed hcontent htext hvalue =>
    rw [faulty_iff_of_quote hkind htext, flaw?_of_string hkind hvalue htext, if_neg hcontent]
    simp [getLast?_ne hcontent, eq_comm]

/-- A literal with which nothing is wrong has a value. -/
theorem valued (h : k.LiteralShape after) (hkind : k.kind = .literal)
    (hright : ∀ e, ¬ k.Faulty e) : k.Valued := by
  cases h with
  | number htext hdigit hvalue =>
    unfold numberLiteral? at hvalue
    split at hvalue
    · next hfinite => exact Or.inl ⟨_, _, _, htext, hdigit, rfl, hfinite, hvalue⟩
    · exact absurd (.number hkind htext hdigit hvalue) (hright _)
  | @closed content hcontent htext hvalue =>
    refine Or.inr ⟨String.ofList content, by rwa [String.toList_ofList], ?_, hvalue⟩
    rw [← String.toList_inj, htext]
    simp
  | unclosed hcontent htext =>
    exact absurd (.string hkind htext (getLast?_ne hcontent)) (hright _)

/-- A string that is not closed extends to the end of the text. -/
theorem eq_nil (h : k.LiteralShape after) (hkind : k.kind = .literal)
    (hfault : k.Faulty .unterminatedString) : after = [] := by
  cases h with
  | number htext hdigit => cases ((faulty_iff_of_digit hkind htext hdigit).1 hfault).2
  | closed _ htext => exact absurd (by simp) ((faulty_iff_of_quote hkind htext).1 hfault).1
  | unclosed _ _ _ hafter => exact hafter

end Lexeme.LiteralShape

/-! ### The lexemes of a text -/

variable {cs : List Char}

theorem faulty_stray_iff {c : Char} :
    (⟨.stray, String.singleton c, none⟩ : Lexeme).Faulty e ↔ e = .unrecognized c := by
  constructor
  · intro h
    cases h with
    | stray _ htext => rw [String.singleton_inj.1 htext]
    | number hkind => cases hkind
    | string hkind => cases hkind
  · rintro rfl
    exact .stray rfl rfl

theorem flaw?_scan_eq_some_iff (c : Char) (rest : List Char) :
    (scan c rest).lexeme.flaw? = some e ↔ (scan c rest).lexeme.Faulty e := by
  rcases isLexeme_scan c rest with hlexeme | hstray
  · by_cases hkind : (scan c rest).lexeme.kind = .literal
    · exact (hlexeme.literalShape hkind).flaw?_eq_some_iff hkind
    · have hnone : ¬ ((scan c rest).lexeme.kind = .stray ∨ (scan c rest).lexeme.kind = .literal) :=
        not_or.2 ⟨hlexeme.kind_ne_stray, hkind⟩
      exact ⟨fun h => absurd (Lexeme.kind_of_flaw? h) hnone, fun h => absurd h.kind hnone⟩
  · rw [hstray, faulty_stray_iff]
    simp [Lexeme.flaw?, eq_comm]

theorem valued_scan (c : Char) (rest : List Char) (hkind : (scan c rest).lexeme.kind = .literal)
    (hright : ∀ e, ¬ (scan c rest).lexeme.Faulty e) : (scan c rest).lexeme.Valued := by
  rcases isLexeme_scan c rest with hlexeme | hstray
  · exact (hlexeme.literalShape hkind).valued hkind hright
  · rw [hstray] at hkind
    cases hkind

/-- Behind a string that is not closed there are no lexemes. -/
theorem eq_nil_of_faulty {k : Lexeme} {before more : List Lexeme}
    (h : lexemes cs = before ++ k :: more) (hfault : k.Faulty .unterminatedString) : more = [] := by
  have hdrop := lexemes_drop h
  cases htext : (k :: more).flatMap fun l => l.text.toList with
  | nil =>
    rw [htext, lexemes_nil] at hdrop
    cases hdrop
  | cons c rest =>
    rw [htext, lexemes_cons] at hdrop
    obtain ⟨rfl, rfl⟩ := List.cons.inj hdrop
    rcases isLexeme_scan c rest with hlexeme | hstray
    · have hkind := hfault.kind.resolve_left hlexeme.kind_ne_stray
      rw [(hlexeme.literalShape hkind).eq_nil hkind hfault, lexemes_nil]
    · rw [hstray, faulty_stray_iff] at hfault
      cases hfault

/-! ### The tokens of a line -/

variable {line : String} {t : Token}

/-- A token of a line is a lexeme that is cut off, or the end of input. -/
theorem exists_scan_of_mem_tokenize (ht : t ∈ (tokenize line).1) :
    (∃ c rest, (scan c rest).lexeme = t.toLexeme) ∨ t.kind = .endOfInput := by
  rw [tokenize_eq] at ht
  rcases List.mem_append.1 ht with ht | ht
  · exact Or.inl (exists_scan_of_mem_lexemes (toLexeme_mem_of_mem_tokensAt ht))
  · rw [List.mem_singleton.1 ht]
    exact Or.inr rfl

theorem Token.flaw?_eq_some_iff (ht : t ∈ (tokenize line).1) {x : Located LexicalError} :
    t.flaw? = some x ↔ t.toLexeme.Faulty x.val ∧ x.span = t.span := by
  have hlexeme : ∀ e, t.toLexeme.flaw? = some e ↔ t.toLexeme.Faulty e := by
    intro e
    rcases exists_scan_of_mem_tokenize ht with ⟨c, rest, hscan⟩ | hend
    · rw [← hscan]
      exact flaw?_scan_eq_some_iff c rest
    · constructor
      · intro h
        rcases Lexeme.kind_of_flaw? h with hkind | hkind <;> cases hend.symm.trans hkind
      · intro h
        rcases h.kind with hkind | hkind <;> cases hend.symm.trans hkind
  unfold flaw?
  rw [Option.map_eq_some_iff]
  constructor
  · rintro ⟨e, he, rfl⟩
    exact ⟨(hlexeme e).1 he, rfl⟩
  · rintro ⟨hfault, hspan⟩
    exact ⟨x.val, (hlexeme x.val).2 hfault, by rw [← hspan]⟩

theorem Token.valued (ht : t ∈ (tokenize line).1) (hkind : t.kind = .literal)
    (hright : ∀ e, ¬ t.toLexeme.Faulty e) : t.toLexeme.Valued := by
  rcases exists_scan_of_mem_tokenize ht with ⟨c, rest, hscan⟩ | hend
  · rw [← hscan] at hright ⊢
    exact valued_scan c rest (by rw [hscan]; exact hkind) hright
  · cases hend.symm.trans hkind

/-- A stray character stands alone, and it is at fault. -/
theorem Token.faulty_of_stray (ht : t ∈ (tokenize line).1) (hkind : t.kind = .stray) :
    ∃ c, t.toLexeme.Faulty (.unrecognized c) := by
  rcases exists_scan_of_mem_tokenize ht with ⟨c, rest, hscan⟩ | hend
  · rcases isLexeme_scan c rest with hlexeme | hstray
    · exact absurd hkind (hscan ▸ hlexeme.kind_ne_stray)
    · rw [← hscan, hstray]
      exact ⟨c, faulty_stray_iff.2 rfl⟩
  · cases hend.symm.trans hkind

/-- Behind a string that is not closed there is nothing but the end of input. -/
theorem eq_endOfInput_of_faulty {before more : List Token}
    (h : (tokenize line).1 = before ++ t :: more)
    (hfault : t.toLexeme.Faulty .unterminatedString) :
    more = [.placeholder .endOfInput line.utf8ByteSize] := by
  rw [tokenize_eq] at h
  rcases List.eq_nil_or_concat' more with rfl | ⟨front, last, rfl⟩
  · obtain ⟨-, ht⟩ := List.append_inj' h rfl
    cases ht
    rcases hfault.kind with hkind | hkind <;> cases hkind
  · rw [← List.cons_append, ← List.append_assoc] at h
    obtain ⟨htokens, hlast⟩ := List.append_inj' h rfl
    have hlexemes := congrArg (List.map Token.toLexeme) htokens
    rw [tokensAt_toLexeme, List.map_append, List.map_cons] at hlexemes
    have hnil := eq_nil_of_faulty hlexemes hfault
    rw [List.map_eq_nil_iff.1 hnil, ← hlast]
    rfl

/-- There is at most one string that is not closed. -/
theorem eq_of_faulty {s : Token} (hs : s ∈ (tokenize line).1) (ht : t ∈ (tokenize line).1)
    (hsfault : s.toLexeme.Faulty .unterminatedString)
    (htfault : t.toLexeme.Faulty .unterminatedString) : s = t := by
  obtain ⟨before, more, hsplit⟩ := List.append_of_mem hs
  obtain ⟨before', more', hsplit'⟩ := List.append_of_mem ht
  rw [eq_endOfInput_of_faulty hsplit hsfault] at hsplit
  rw [eq_endOfInput_of_faulty hsplit' htfault, hsplit] at hsplit'
  exact (List.cons.inj (List.append_inj' hsplit' rfl).2).1

/-- **Lexical errors and faulty tokens correspond one to one.** The lexical errors of a line are
what is wrong with its tokens, from the first to the last, each at the place of its token: a token
has the error that its kind, text and value call for, and every stray character has one. A string
that is not closed is the last token before the end of input, so there is one at most. Every literal
without an error has a value. So the errors begin one behind the other, and whoever reads the line
reports these. -/
theorem lexical_errors_of_tokens (line : String) :
    (tokenize line).2 = (tokenize line).1.filterMap Token.flaw? ∧
    (∀ t ∈ (tokenize line).1, ∀ x : Located LexicalError,
      t.flaw? = some x ↔ t.toLexeme.Faulty x.val ∧ x.span = t.span) ∧
    (∀ t ∈ (tokenize line).1, t.kind = .stray → ∃ c, t.toLexeme.Faulty (.unrecognized c)) ∧
    (∀ before t more, (tokenize line).1 = before ++ t :: more →
      t.toLexeme.Faulty .unterminatedString →
        more = [.placeholder .endOfInput line.utf8ByteSize]) ∧
    (∀ s ∈ (tokenize line).1, ∀ t ∈ (tokenize line).1, s.toLexeme.Faulty .unterminatedString →
      t.toLexeme.Faulty .unterminatedString → s = t) ∧
    (∀ t ∈ (tokenize line).1, t.kind = .literal → (∀ e, ¬ t.toLexeme.Faulty e) →
      t.toLexeme.Valued) ∧
    ((tokenize line).2.Pairwise fun x y => x.span.start < y.span.start) ∧
    (Parser.ofLine line).lexErrors = (tokenize line).2 ∧
    (parseProgram line).lexErrors = (tokenize line).2 := by
  have herrors : (tokenize line).2 = (tokenize line).1.filterMap Token.flaw? := by
    have hend : (Token.placeholder .endOfInput line.utf8ByteSize).flaw? = none := rfl
    rw [tokenize_eq, List.filterMap_append, List.filterMap_cons, hend, List.filterMap_nil,
      List.append_nil]
  refine ⟨herrors, fun t ht x => Token.flaw?_eq_some_iff ht,
    fun t ht hkind => Token.faulty_of_stray ht hkind,
    fun before t more h hfault => eq_endOfInput_of_faulty h hfault, ?_,
    fun t ht hkind hright => Token.valued ht hkind hright, lexErrors_pairwise line, rfl,
    (account_parseProgram line).2⟩
  intro s hs t ht hsfault htfault
  exact eq_of_faulty hs ht hsfault htfault

example : (tokenize "~ \"a;").2 =
    [⟨.unrecognized '~', ⟨0, 1⟩⟩, ⟨.unterminatedString, ⟨2, 5⟩⟩] := by
  decide +kernel

end ExprLang

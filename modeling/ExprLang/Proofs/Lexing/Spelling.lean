import ExprLang.Proofs.Grammar.Canonical
import ExprLang.Proofs.Lexing.Pieces
import ExprLang.Proofs.Lexing.Tiling

/-!
# Texts and their words

`Spells cs ws` says that a text is cut into the words `ws`, with nothing wrong with it. A text is
built from its end: in front of a text that does not continue it, a piece adds its own word, and a
space adds none. The words that can be written so are `Word.Legible`, and the words that `scan`
finds are of this kind (`legible_of_scan`).
-/

namespace ExprLang

variable {c d : Char} {cs rest : List Char} {ws : List Word}

/-! ### Legible words -/

/-- Letters, numerals and low lines, of which the first one is no numeral. -/
def IsWord (text : String) : Prop :=
  ∃ c cs, text.toList = c :: cs ∧ Scan.startsWord c ∧ ∀ d ∈ cs, Scan.isWordChar d

/-- A word that is not reserved. -/
def IsName (text : String) : Prop := IsWord text ∧ reserved? text = none

/-- The values that have a text: a number is finite and without a sign, and there is no quote in a
string. -/
def Literal.Legible : Literal → Prop
  | .number x => ∃ m q, Binary64.ofFloat x = .finite false m q
  | .string s => '"' ∉ s.toList
  | .boolean _ => True

/-- The words that have a text. -/
def Word.Legible : Word → Prop
  | .name text => IsName text
  | .value (some l) => l.Legible
  | .value none => False
  | .plain _ => True

/-- A text before which a word or a number ends. -/
def Fresh (cs : List Char) : Prop := ∀ d ∈ cs.head?, d ∈ [' ', ')', ',', ';', '(']

/-- A text before which a symbol ends. -/
def Unpaired (cs : List Char) : Prop := ∀ d ∈ cs.head?, d ∉ ['=', '>', '&', '|']

theorem fresh_cons (h : c ∈ [' ', ')', ',', ';', '(']) : Fresh (c :: cs) := by
  rintro d ⟨⟩
  exact h

theorem unpaired_cons (h : c ∉ ['=', '>', '&', '|']) : Unpaired (c :: cs) := by
  rintro d ⟨⟩
  exact h

/-- A property that the first characters of pairs do not have. -/
theorem unpaired_of_all (p : Char → Bool) (hp : ['=', '>', '&', '|'].all fun d => !p d)
    (hc : p c) : Unpaired (c :: cs) := by
  refine unpaired_cons fun hmem => ?_
  have := List.all_eq_true.1 hp c hmem
  rw [hc] at this
  cases this

namespace Fresh

/-- A property of all the characters that end a word. -/
theorem of_all {p : Char → Prop} [DecidablePred p] (h : Fresh cs)
    (hp : [' ', ')', ',', ';', '('].all fun d => p d) : ∀ d ∈ cs.head?, p d :=
  fun d hd => of_decide_eq_true (List.all_eq_true.1 hp d (h d hd))

theorem unpaired (h : Fresh cs) : Unpaired cs := h.of_all (by decide)

theorem isWordChar (h : Fresh cs) : ∀ d ∈ cs.head?, Scan.isWordChar d = false :=
  h.of_all (by decide +kernel)

theorem isDigit (h : Fresh cs) : ∀ d ∈ cs.head?, d.isDigit = false ∧ d ≠ '.' :=
  h.of_all (by decide)

end Fresh

theorem IsWord.unpaired {text : String} (h : IsWord text) : Unpaired (text.toList ++ rest) := by
  obtain ⟨c, cs, htext, hc, -⟩ := h
  rw [htext]
  exact unpaired_of_all Scan.startsWord (by decide +kernel) hc

theorem Literal.Legible.unpaired {l : Literal} (h : l.Legible) :
    Unpaired (l.text.toList ++ rest) := by
  cases l with
  | number x =>
    obtain ⟨m, q, hx⟩ := h
    obtain ⟨whole, fraction, hnumeral, htext, -⟩ := Number.exists_numeral hx
    obtain ⟨c, whole, rfl⟩ := List.exists_cons_of_ne_nil hnumeral.nonempty
    have hc := hnumeral.whole_digits c List.mem_cons_self
    rw [Literal.text, htext, Number.toList_joined]
    split <;> exact unpaired_of_all Char.isDigit (by decide) hc
  | string s =>
    rw [Literal.text, String.append_assoc, String.toList_append]
    exact unpaired_cons (by decide)
  | boolean b => cases b <;> exact unpaired_cons (by decide)

/-! ### Texts and their words -/

/-- A text that is cut into given words, with nothing wrong with it. -/
structure Spells (cs : List Char) (ws : List Word) : Prop where
  flawless : ∀ l ∈ lexemes cs, l.flaw? = none
  words : ((lexemes cs).filter fun l => !l.kind.isTrivia).map Lexeme.word = ws

namespace Spells

theorem nil : Spells [] [] where
  flawless := by simp
  words := by simp

theorem cons {l : Lexeme} (hscan : scan c cs = ⟨l, none, rest⟩) (hkind : l.kind.isTrivia = false)
    (h : Spells rest ws) : Spells (c :: cs) (l.word :: ws) := by
  have hflaw := scan_error c cs
  rw [hscan] at hflaw
  constructor
  · intro k hk
    rw [lexemes_cons, hscan] at hk
    rcases List.mem_cons.1 hk with rfl | hk
    · exact hflaw.symm
    · exact h.flawless k hk
  · rw [lexemes_cons, hscan, List.filter_cons_of_pos (by simp [hkind]), List.map_cons, h.words]

theorem space_iff (hc : Scan.isSpace c) :
    Spells (c :: cs) ws ↔ Spells (cs.dropWhile Scan.isSpace) ws := by
  have hlexemes : lexemes (c :: cs) =
      ⟨.whitespace, String.ofList (c :: cs.takeWhile Scan.isSpace), none⟩ ::
        lexemes (cs.dropWhile Scan.isSpace) := by
    rw [lexemes_cons, scan_of_isSpace hc]
    rfl
  constructor
  · rintro ⟨hflawless, hwords⟩
    rw [hlexemes] at hflawless hwords
    exact ⟨fun l hl => hflawless l (List.mem_cons_of_mem _ hl), hwords⟩
  · rintro ⟨hflawless, hwords⟩
    constructor <;> rw [hlexemes]
    · rintro l hl
      rcases List.mem_cons.1 hl with rfl | hl
      · rfl
      · exact hflawless l hl
    · exact hwords

theorem space (h : Spells rest ws) : Spells (' ' :: rest) ws := by
  rw [space_iff (by decide)]
  cases rest with
  | nil => exact h
  | cons c rest =>
    -- a space that follows belongs to the same lexeme
    by_cases hc : Scan.isSpace c
    · rw [List.dropWhile_cons_of_pos hc]
      exact (space_iff hc).1 h
    · rwa [List.dropWhile_cons_of_neg hc]

theorem symbol (s : Symbol) (hrest : Unpaired rest) (h : Spells rest ws) :
    Spells (s.spelling.toList ++ rest) (.plain (.symbol s) :: ws) := by
  obtain ⟨c, cs, hspelling, hscan⟩ := scan_symbol s hrest
  rw [hspelling]
  exact h.cons hscan rfl

theorem word {text : String} (hword : IsWord text) (hrest : Fresh rest) (h : Spells rest ws) :
    Spells (text.toList ++ rest) ((Lexeme.ofWord text).word :: ws) := by
  obtain ⟨c, cs, htext, hc, hcs⟩ := hword
  have hscan := scan_word hc hcs hrest.isWordChar
  rw [← htext, String.ofList_toList] at hscan
  rw [htext]
  refine h.cons hscan ?_
  rcases Scan.ofWord_kind text with hkind | hkind | ⟨k, hkind⟩ <;> rw [hkind] <;> rfl

theorem name {text : String} (hname : IsName text) (hrest : Fresh rest) (h : Spells rest ws) :
    Spells (text.toList ++ rest) (.name text :: ws) := by
  have hspells := h.word hname.1 hrest
  rwa [Lexeme.ofWord, hname.2] at hspells

theorem keyword (k : Keyword) (hk : k.literal? = none) (hrest : Fresh rest) (h : Spells rest ws) :
    Spells (k.spelling.toList ++ rest) (.plain (.keyword k) :: ws) := by
  have hword : IsWord k.spelling := by
    cases k <;> exact ⟨_, _, rfl, by decide +kernel, List.all_eq_true.1 (by decide +kernel)⟩
  have hspells := h.word hword hrest
  cases k <;> first | exact hspells | cases hk

theorem literal {l : Literal} (hl : l.Legible) (hrest : Fresh rest) (h : Spells rest ws) :
    Spells (l.text.toList ++ rest) (.value (some l) :: ws) := by
  cases l with
  | number x =>
    obtain ⟨m, q, hx⟩ := hl
    obtain ⟨whole, fraction, hnumeral, htext, hread⟩ := Number.exists_numeral hx
    obtain ⟨c, whole, rfl⟩ := List.exists_cons_of_ne_nil hnumeral.nonempty
    have hcons : (Number.text x).toList =
        c :: (Number.joined false (c :: whole) fraction).toList.tail := by
      rw [htext, Number.toList_joined]
      split <;> rfl
    have hscan := scan_number hnumeral hrest.isDigit
    rw [← htext, Scan.ofNumber, hread, if_pos (Binary64.bits_of_finite hx).2.1] at hscan
    rw [← htext] at hcons
    rw [Literal.text, hcons]
    exact h.cons hscan rfl
  | string s =>
    have htext : (Literal.string s).text.toList ++ rest = '"' :: (s.toList ++ '"' :: rest) := by
      simp [Literal.text]
    have hscan := scan_string s.toList rest hl
    rw [String.ofList_toList] at hscan
    rw [htext]
    exact h.cons hscan rfl
  | boolean b =>
    have hword : IsWord (toString b) := by
      cases b <;> exact ⟨_, _, rfl, by decide +kernel, List.all_eq_true.1 (by decide +kernel)⟩
    have hspells := h.word hword hrest
    cases b <;> exact hspells

end Spells

/-! ### The words of a line -/

theorem legible_of_reserved {text : String} {kind : TokenKind} {literal? : Option Literal}
    (h : reserved? text = some (kind, literal?)) :
    Word.Legible (Lexeme.word ⟨kind, text, literal?⟩) := by
  unfold reserved? at h
  split at h
  · next x hx =>
    cases h
    unfold constant? at hx
    split at hx <;> cases hx <;> exact ⟨_, _, rfl⟩
  · obtain ⟨k, -, hk⟩ := Option.map_eq_some_iff.1 h
    cases hk
    cases k <;> trivial

theorem legible_word (hc : Scan.startsWord c) : (Scan.word c rest).lexeme.word.Legible := by
  show (Lexeme.ofWord (String.ofList (c :: rest.takeWhile Scan.isWordChar))).word.Legible
  unfold Lexeme.ofWord
  split
  · next h => exact legible_of_reserved h
  · next h =>
    exact ⟨⟨c, _, String.toList_ofList, hc, fun d hd => List.mem_takeWhile_imp hd⟩, h⟩

theorem legible_string (rest : List Char) : (Scan.string rest).lexeme.word.Legible := by
  have hquote : '"' ∉ (String.ofList (rest.takeWhile (· != '"'))).toList := fun h => by
    rw [String.toList_ofList] at h
    simpa using List.mem_takeWhile_imp h
  unfold Scan.string
  dsimp only
  split <;> exact hquote

theorem legible_ofNumber {text : List Char} (h : (Scan.ofNumber text rest).lexeme.flaw? = none) :
    (Scan.ofNumber text rest).lexeme.word.Legible := by
  unfold Scan.ofNumber at h ⊢
  dsimp only at h ⊢
  split
  · next hfinite => exact Number.read_finite hfinite
  · next hfinite =>
    rw [if_neg hfinite] at h
    cases h

/-- **The words of a line are legible**: a lexeme that has nothing wrong with it has a text. -/
theorem legible_of_scan (c : Char) (rest : List Char) (h : (scan c rest).lexeme.flaw? = none) :
    (scan c rest).lexeme.word.Legible := by
  unfold scan at h ⊢
  split
  · trivial
  · next hsymbol =>
    rw [hsymbol] at h
    dsimp only at h
    split_ifs at h ⊢ with hq hn hr hd ha hb
    · exact legible_string rest
    · trivial
    · split <;> trivial
    · unfold Scan.number at h ⊢
      dsimp only at h ⊢
      split at h <;> exact legible_ofNumber h
    · exact legible_word ha
    · trivial
    · trivial

/-- A token that has nothing wrong with it has a text. -/
theorem legible_of_mem_tokenize {line : String} {t : Token} (ht : t ∈ (tokenize line).1)
    (hflaw : t.flaw? = none) : t.word.Legible := by
  rw [tokenize_eq] at ht
  rcases List.mem_append.1 ht with ht | ht
  · obtain ⟨c, rest, hscan⟩ := exists_scan_of_mem_lexemes (toLexeme_mem_of_mem_tokensAt ht)
    have hlegible := legible_of_scan c rest
    rw [hscan] at hlegible
    exact hlegible (Option.map_eq_none_iff.1 hflaw)
  · rw [List.mem_singleton.1 ht]
    trivial

end ExprLang

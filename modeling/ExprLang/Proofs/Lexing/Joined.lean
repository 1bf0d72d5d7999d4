import ExprLang.Expr
import ExprLang.Proofs.Lexing.Pieces
import ExprLang.Proofs.Lexing.Tiling

/-!
# Cutting two texts with a semicolon between them

A semicolon belongs to no lexeme but its own, except within a string. So the lexemes of two texts
with a semicolon between them are those of the first, the semicolon, and those of the second
(`lexemes_joined`), as long as the first text does not end within a string. The tokens and lexical
errors of the second text are moved behind the semicolon (`tokenize_joined`).
-/

namespace ExprLang

variable {c d : Char} {cs rest : List Char}

/-! ### Separators -/

/-- A character that continues no lexeme but a string. -/
structure Scan.Parts (d : Char) : Prop where
  notMem : d ∉ ['=', '>', '&', '|', '.', '\n']
  digit : d.isDigit = false
  word : isWordChar d = false
  space : isSpace d = false

theorem Scan.parts_semicolon : Scan.Parts ';' :=
  ⟨by decide, by decide, by decide +kernel, by decide⟩

theorem takeWhile_append_of_stop {α : Type} {p : α → Bool} {d : α} (hd : p d = false)
    (s t : List α) : (s ++ d :: t).takeWhile p = s.takeWhile p ∧
      (s ++ d :: t).dropWhile p = s.dropWhile p ++ d :: t := by
  induction s with
  | nil => simp [hd]
  | cons a s ih => by_cases ha : p a <;> simp [ha, ih]

namespace Scan

/-- A scan of a text with more text behind it. -/
def extend (s : Scan) (more : List Char) : Scan := { s with rest := s.rest ++ more }

theorem symbol?_append (hd : Parts d) (c : Char) (cs rest : List Char) :
    symbol? c (cs ++ d :: rest) =
      (symbol? c cs).map fun s => (s.1, s.2 ++ d :: rest) := by
  have hpair : Symbol.ofPair? c d = none :=
    Symbol.ofPair?_eq_none_of_notMem fun h => hd.notMem (by simp at h ⊢; tauto)
  cases cs with
  | nil =>
    rw [List.nil_append, symbol?, symbol?, hpair]
    cases Symbol.ofChar? c <;> rfl
  | cons e cs =>
    rw [List.cons_append, symbol?, symbol?]
    cases Symbol.ofPair? c e with
    | some s => rfl
    | none => cases Symbol.ofChar? c <;> rfl

theorem ofNumber_append (text rest more : List Char) :
    ofNumber text (rest ++ more) = (ofNumber text rest).extend more := by
  unfold ofNumber
  dsimp only
  split <;> rfl

theorem number_append (hd : Parts d) (c : Char) (cs rest : List Char) :
    number c (cs ++ d :: rest) = (number c cs).extend (d :: rest) := by
  obtain ⟨htake, hdrop⟩ := takeWhile_append_of_stop hd.digit cs rest
  unfold number
  dsimp only
  rw [htake, hdrop]
  cases cs.dropWhile Char.isDigit with
  | nil =>
    rw [List.nil_append]
    split
    · next heq =>
      cases heq
      exact absurd hd.notMem (by decide)
    · exact ofNumber_append _ [] (d :: rest)
  | cons e tail =>
    rw [List.cons_append]
    by_cases he : e = '.'
    · subst he
      obtain ⟨htake, hdrop⟩ := takeWhile_append_of_stop hd.digit tail rest
      show ofNumber (_ ++ '.' :: (tail ++ d :: rest).takeWhile Char.isDigit)
        ((tail ++ d :: rest).dropWhile Char.isDigit) = _
      rw [htake, hdrop]
      exact ofNumber_append _ _ (d :: rest)
    · split
      · next heq => exact absurd (List.cons.inj heq).1 he
      · split
        · next heq => exact absurd (List.cons.inj heq).1 he
        · exact ofNumber_append _ (e :: tail) (d :: rest)

theorem word_append (hd : Parts d) (c : Char) (cs rest : List Char) :
    word c (cs ++ d :: rest) = (word c cs).extend (d :: rest) := by
  obtain ⟨htake, hdrop⟩ := takeWhile_append_of_stop hd.word cs rest
  rw [word, htake, hdrop]
  rfl

theorem space_append (hd : Parts d) (c : Char) (cs rest : List Char) :
    space c (cs ++ d :: rest) = (space c cs).extend (d :: rest) := by
  obtain ⟨htake, hdrop⟩ := takeWhile_append_of_stop hd.space cs rest
  rw [space, htake, hdrop]
  rfl

/-- A string with a closing quote is not continued. -/
theorem string_append (h : (string cs).error? ≠ some .unterminatedString) (more : List Char) :
    string (cs ++ more) = (string cs).extend more := by
  have hscan : ∀ text, string text = scan '"' text := fun text => by
    unfold scan
    rw [symbol?_eq_none rfl]
    rfl
  obtain ⟨content, tail, rfl, hcontent⟩ :
      ∃ content tail, cs = content ++ '"' :: tail ∧ '"' ∉ content := by
    refine List.eq_append_cons_of_mem (by_contra fun hno => h ?_)
    have hdrop : cs.dropWhile (· != '"') = [] := List.dropWhile_eq_nil_iff.2 fun e he => by
      rw [bne_iff_ne]
      rintro rfl
      exact hno he
    rw [string, hdrop]
  rw [hscan, hscan, List.append_assoc, List.cons_append, scan_string content _ hcontent,
    scan_string content _ hcontent]
  rfl

end Scan

/-- What is cut off a text does not depend on what is behind a separator. -/
theorem scan_append (hd : Scan.Parts d) (c : Char) (cs rest : List Char)
    (h : (scan c cs).error? ≠ some .unterminatedString) :
    scan c (cs ++ d :: rest) = (scan c cs).extend (d :: rest) := by
  unfold scan at h ⊢
  rw [Scan.symbol?_append hd]
  cases hsymbol : Scan.symbol? c cs with
  | some s => rfl
  | none =>
    rw [hsymbol] at h
    rw [Option.map_none]
    dsimp only at h ⊢
    split_ifs at h ⊢ with hq hn hr hdigit hword hblank
    · exact Scan.string_append h _
    · rfl
    · cases cs with
      | nil =>
        have hline : d ≠ '\n' := fun heq => hd.notMem (by simp [heq])
        simp [Scan.extend, hline]
      | cons e tail =>
        by_cases he : e = '\n' <;> simp [Scan.extend, he]
    · exact Scan.number_append hd c cs rest
    · exact Scan.word_append hd c cs rest
    · exact Scan.space_append hd c cs rest
    · rfl

/-! ### Lexemes -/

/-- The lexeme of a semicolon. -/
def Lexeme.semicolon : Lexeme := ⟨.symbol .semicolon, ";", none⟩

theorem scan_semicolon (rest : List Char) : scan ';' rest = ⟨.semicolon, none, rest⟩ := by
  cases rest <;> rfl

/-- The lexemes of two texts with a semicolon between them. -/
theorem lexemes_joined (h : ∀ l ∈ lexemes cs, l.flaw? ≠ some .unterminatedString)
    (rest : List Char) :
    lexemes (cs ++ ';' :: rest) = lexemes cs ++ .semicolon :: lexemes rest := by
  fun_induction lexemes cs with
  | case1 =>
    rw [List.nil_append, lexemes_cons, scan_semicolon]
    rfl
  | case2 c cs ih =>
    obtain ⟨hc, hcs⟩ := List.forall_mem_cons.1 h
    rw [← scan_error] at hc
    rw [List.cons_append, lexemes_cons, scan_append Scan.parts_semicolon c cs rest hc,
      List.cons_append, ← ih hcs]
    rfl

/-! ### Tokens -/

namespace Token

/-- A token moved to the right. -/
def shift (offset : Nat) (t : Token) : Token := ⟨t.toLexeme, t.span.shift offset⟩

/-- A semicolon at an offset. -/
def semicolonAt (offset : Nat) : Token := ⟨.semicolon, ⟨offset, offset + 1⟩⟩

theorem flaw?_shift (offset : Nat) (t : Token) :
    (t.shift offset).flaw? = t.flaw?.map (·.mapSpan (Span.shift offset)) := by
  unfold flaw? shift
  rw [Option.map_map]
  rfl

end Token

theorem tokensAt_append (offset : Nat) (ls more : List Lexeme) :
    tokensAt offset (ls ++ more) =
      tokensAt offset ls ++ tokensAt (offset + (ls.map Lexeme.size).sum) more := by
  induction ls generalizing offset with
  | nil => rfl
  | cons l ls ih =>
    rw [List.cons_append, tokensAt, tokensAt, ih, List.map_cons, List.sum_cons, Nat.add_assoc,
      List.cons_append]

theorem tokensAt_shift (offset k : Nat) (ls : List Lexeme) :
    tokensAt (offset + k) ls = (tokensAt offset ls).map (Token.shift k) := by
  induction ls generalizing offset with
  | nil => rfl
  | cons l ls ih =>
    rw [tokensAt, tokensAt, List.map_cons, ← ih, Nat.add_right_comm]
    rfl

/-- **The tokens of two texts with a semicolon between them.** -/
theorem tokenize_joined {a : String} (b : String)
    (h : ∀ e ∈ (tokenize a).2, e.val ≠ .unterminatedString) :
    tokenize (a ++ ";" ++ b) =
      (tokensAt 0 (lexemes a.toList) ++ .semicolonAt a.utf8ByteSize ::
          (tokenize b).1.map (Token.shift (a.utf8ByteSize + 1)),
        (tokenize a).2 ++
          (tokenize b).2.map (·.mapSpan (Span.shift (a.utf8ByteSize + 1)))) := by
  have hflaw : ∀ l ∈ lexemes a.toList, l.flaw? ≠ some .unterminatedString := by
    intro l hl hflaw
    rw [← tokensAt_toLexeme 0 (lexemes a.toList)] at hl
    obtain ⟨t, ht, rfl⟩ := List.mem_map.1 hl
    refine h ⟨.unterminatedString, t.span⟩ ?_ rfl
    rw [tokenize_eq]
    exact List.mem_filterMap.2 ⟨t, ht, by rw [Token.flaw?, hflaw]; rfl⟩
  have hchars : (a ++ ";" ++ b).toList = a.toList ++ ';' :: b.toList := by
    simp
  have hsize := sum_size_lexemes_toList a
  have htokens : tokensAt 0 (lexemes (a ++ ";" ++ b).toList) =
      tokensAt 0 (lexemes a.toList) ++ .semicolonAt a.utf8ByteSize ::
        (tokensAt 0 (lexemes b.toList)).map (Token.shift (a.utf8ByteSize + 1)) := by
    rw [hchars, lexemes_joined hflaw, tokensAt_append, Nat.zero_add, hsize, tokensAt,
      ← tokensAt_shift, Nat.zero_add]
    rfl
  have hend : (Token.placeholder .endOfInput (a ++ ";" ++ b).utf8ByteSize) =
      (Token.placeholder .endOfInput b.utf8ByteSize).shift (a.utf8ByteSize + 1) := by
    have hsum : (a ++ ";" ++ b).utf8ByteSize = b.utf8ByteSize + (a.utf8ByteSize + 1) := by
      rw [String.utf8ByteSize_append, String.utf8ByteSize_append, Nat.add_comm]
      rfl
    rw [hsum]
    rfl
  rw [tokenize_eq, tokenize_eq a, tokenize_eq b, htokens, hend]
  refine Prod.ext ?_ ?_
  · simp
  · have hsemicolon : (Token.semicolonAt a.utf8ByteSize).flaw? = none := rfl
    dsimp only
    rw [List.filterMap_append, List.filterMap_cons, hsemicolon, List.filterMap_map,
      List.map_filterMap]
    simp only [Function.comp_def, Token.flaw?_shift]

end ExprLang

import ExprLang.Proofs.Lexing.Cut
import ExprLang.Proofs.Lexing.Spelling

/-!
# The longest lexeme

`IsLexeme` lists the lexemes of the language one class after the other, without any order between
the classes. Several lexemes can be at the head of one text: `=` and `==`, `let` and `letter`, every
part of a run of digits. What is cut off is the longest of them (`nextToken_munches`); a stray
character is cut off where there is none.

A lexeme does not depend on the text behind it, but for a string without a closing quote, which
extends to the end of the text.
-/

namespace ExprLang

variable {c : Char} {cs after rest : List Char} {k : Lexeme} {text : String}

/-! ### The lexemes of the language -/

/-- The value of a number, if it is not too large for one. -/
def numberLiteral? (digits : List Char) : Option Literal :=
  if (Number.read digits).isFinite then some (.number (Number.read digits)) else none

/-- The lexemes, each with the text behind it. -/
inductive IsLexeme : Lexeme → List Char → Prop
  | symbol {after : List Char} (s : Symbol) : IsLexeme ⟨.symbol s, s.spelling, none⟩ after
  | lineFeed {after : List Char} : IsLexeme ⟨.lineEnd, "\n", none⟩ after
  | lineEnd {after : List Char} : IsLexeme ⟨.lineEnd, "\r\n", none⟩ after
  | carriageReturn {after : List Char} : IsLexeme ⟨.whitespace, "\r", none⟩ after
  | space {after blanks : List Char} (hne : blanks ≠ [])
      (hblanks : ∀ d ∈ blanks, Text.isBlank d ∧ d ≠ '\n' ∧ d ≠ '\r') :
      IsLexeme ⟨.whitespace, String.ofList blanks, none⟩ after
  | keyword {after : List Char} (k : Keyword) :
      IsLexeme ⟨.keyword k, k.spelling, k.literal?⟩ after
  | pi {after : List Char} :
      IsLexeme ⟨.constant, "PI", some (.number (Float.ofBits 0x400921FB54442D18))⟩ after
  | euler {after : List Char} :
      IsLexeme ⟨.constant, "E", some (.number (Float.ofBits 0x4005BF0A8B145769))⟩ after
  | name {after : List Char} {text : String} (hword : IsWord text)
      (hkeyword : ∀ k : Keyword, text ≠ k.spelling) (hpi : text ≠ "PI") (heuler : text ≠ "E") :
      IsLexeme ⟨.identifier, text, none⟩ after
  | integer {after whole : List Char} (hne : whole ≠ []) (hwhole : ∀ d ∈ whole, d.isDigit) :
      IsLexeme ⟨.literal, String.ofList whole, numberLiteral? whole⟩ after
  | decimal {after whole fraction : List Char} (hne : whole ≠ []) (hwhole : ∀ d ∈ whole, d.isDigit)
      (hfraction : ∀ d ∈ fraction, d.isDigit) :
      IsLexeme ⟨.literal, String.ofList (whole ++ '.' :: fraction),
        numberLiteral? (whole ++ '.' :: fraction)⟩ after
  | string {after content : List Char} (hcontent : '"' ∉ content) :
      IsLexeme ⟨.literal, String.ofList ('"' :: content ++ ['"']),
        some (.string (String.ofList content))⟩ after
  | openString {content : List Char} (hcontent : '"' ∉ content) :
      IsLexeme ⟨.literal, String.ofList ('"' :: content),
        some (.string (String.ofList content))⟩ []

namespace IsLexeme

theorem kind_ne_stray (h : IsLexeme k after) : k.kind ≠ .stray := by
  cases h <;> nofun

theorem text_ne_nil (h : IsLexeme k after) : k.text.toList ≠ [] := by
  cases h with
  | symbol s => cases s <;> simp [Symbol.spelling]
  | space hne hblanks => simpa using hne
  | keyword k => cases k <;> simp [Keyword.spelling]
  | name hword =>
    obtain ⟨c, cs, htext, -⟩ := hword
    simp [htext]
  | integer hne hwhole => simpa using hne
  | _ => simp

end IsLexeme

/-! ### Words -/

theorem isWord_keyword (k : Keyword) : IsWord k.spelling := by
  cases k <;> exact ⟨_, _, rfl, by decide +kernel, List.all_eq_true.1 (by decide +kernel)⟩

theorem ofWord?_eq_some {k : Keyword} (h : Keyword.ofWord? text = some k) : text = k.spelling := by
  unfold Keyword.ofWord? at h
  split at h <;> cases h <;> rfl

theorem reserved?_eq_none (hkeyword : ∀ k : Keyword, text ≠ k.spelling) (hpi : text ≠ "PI")
    (heuler : text ≠ "E") : reserved? text = none := by
  have hconstant : constant? text = none := by
    unfold constant?
    split
    · exact absurd rfl hpi
    · exact absurd rfl heuler
    · rfl
  rw [reserved?, hconstant, Option.map_eq_none_iff, Option.eq_none_iff_forall_ne_some]
  intro k hk
  exact hkeyword k (ofWord?_eq_some hk)

theorem isLexeme_ofWord (hword : IsWord text) : IsLexeme (.ofWord text) after := by
  unfold Lexeme.ofWord reserved?
  cases hconstant : constant? text with
  | some x =>
    unfold constant? at hconstant
    split at hconstant
    · cases hconstant
      exact .pi
    · cases hconstant
      exact .euler
    · cases hconstant
  | none =>
    have hpi : text ≠ "PI" := by
      rintro rfl
      cases hconstant
    have heuler : text ≠ "E" := by
      rintro rfl
      cases hconstant
    cases hk : Keyword.ofWord? text with
    | some k =>
      rw [ofWord?_eq_some hk]
      exact .keyword k
    | none =>
      refine .name hword (fun k heq => ?_) hpi heuler
      rw [heq] at hk
      cases k <;> cases hk

/-! ### What is cut off is a lexeme -/

theorem isSpace_iff : Scan.isSpace c ↔ Text.isBlank c ∧ c ≠ '\n' ∧ c ≠ '\r' := by
  simp [Scan.isSpace, and_assoc]

theorem ofNumber_lexeme (digits rest : List Char) :
    (Scan.ofNumber digits rest).lexeme =
      ⟨.literal, String.ofList digits, numberLiteral? digits⟩ := by
  unfold Scan.ofNumber numberLiteral?
  dsimp only
  split <;> rfl

theorem isLexeme_number (hc : c.isDigit) :
    IsLexeme (Scan.number c rest).lexeme (Scan.number c rest).rest := by
  have hwhole : ∀ d ∈ c :: rest.takeWhile Char.isDigit, d.isDigit := by
    intro d hd
    rcases List.mem_cons.1 hd with rfl | hd
    · exact hc
    · exact List.mem_takeWhile_imp hd
  unfold Scan.number
  dsimp only
  split
  · rw [ofNumber_lexeme]
    exact .decimal (List.cons_ne_nil _ _) hwhole fun d hd => List.mem_takeWhile_imp hd
  · rw [ofNumber_lexeme]
    exact .integer (List.cons_ne_nil _ _) hwhole

theorem isLexeme_string : IsLexeme (Scan.string rest).lexeme (Scan.string rest).rest := by
  have hcontent : '"' ∉ rest.takeWhile (· != '"') := by
    intro h
    simpa using List.mem_takeWhile_imp h
  unfold Scan.string
  dsimp only
  split
  · exact .openString hcontent
  · exact .string hcontent

/-- What is cut off is a lexeme, or a stray character. -/
theorem isLexeme_scan (c : Char) (rest : List Char) :
    IsLexeme (scan c rest).lexeme (scan c rest).rest ∨
      (scan c rest).lexeme = ⟨.stray, String.singleton c, none⟩ := by
  unfold scan
  split
  · exact Or.inl (.symbol _)
  · split_ifs with hq hn hr hd ha hb
    · exact Or.inl isLexeme_string
    · exact Or.inl .lineFeed
    · split
      · exact Or.inl .lineEnd
      · exact Or.inl .carriageReturn
    · exact Or.inl (isLexeme_number hd)
    · have hword : IsWord (String.ofList (c :: rest.takeWhile Scan.isWordChar)) :=
        ⟨c, _, String.toList_ofList, ha, fun d hd => List.mem_takeWhile_imp hd⟩
      exact Or.inl (isLexeme_ofWord hword)
    · have hspace : Scan.isSpace c := by
        rw [isSpace_iff]
        exact ⟨hb, by simpa using hn, by simpa using hr⟩
      refine Or.inl (.space (List.cons_ne_nil _ _) fun d hd => isSpace_iff.1 ?_)
      rcases List.mem_cons.1 hd with rfl | hd
      · exact hspace
      · exact List.mem_takeWhile_imp hd
    · exact Or.inr rfl

/-! ### No lexeme is longer -/

/-- A lexeme is the given one, or it is shorter. -/
def Lexeme.Within (k l : Lexeme) : Prop := k = l ∨ k.text.toList.length < l.text.toList.length

/-- Characters of a class at the head of a text are all that is taken, or more is taken. -/
theorem takeWhile_append_or {p : Char → Bool} (hcs : ∀ d ∈ cs, p d) (after : List Char) :
    (cs ++ after).takeWhile p = cs ∨ cs.length < ((cs ++ after).takeWhile p).length := by
  rw [List.takeWhile_append_of_pos hcs, List.length_append]
  cases after.takeWhile p with
  | nil => exact Or.inl (List.append_nil cs)
  | cons d ds =>
    right
    rw [List.length_cons]
    omega

theorem scan_of_symbol? {s : Symbol} {tail : List Char}
    (h : Scan.symbol? c rest = some (s, tail)) :
    scan c rest = ⟨⟨.symbol s, s.spelling, none⟩, none, tail⟩ := by
  unfold scan
  rw [h]

/-- A symbol of one character may be the first half of another one. -/
theorem within_of_char {s : Symbol} (hs : Symbol.ofChar? c = some s) (rest : List Char) :
    Lexeme.Within ⟨.symbol s, s.spelling, none⟩ (scan c rest).lexeme := by
  cases rest with
  | nil =>
    left
    have hsymbol : Scan.symbol? c [] = some (s, []) := by simp [Scan.symbol?, hs]
    rw [scan_of_symbol? hsymbol]
  | cons d tail =>
    cases hpair : Symbol.ofPair? c d with
    | some s' =>
      right
      have hsymbol : Scan.symbol? c (d :: tail) = some (s', tail) := by
        simp [Scan.symbol?, hpair]
      rw [scan_of_symbol? hsymbol]
      dsimp only
      rw [Symbol.spelling_of_ofChar? hs, Symbol.spelling_of_ofPair? hpair]
      exact Nat.lt_succ_self 1
    | none =>
      left
      have hsymbol : Scan.symbol? c (d :: tail) = some (s, d :: tail) := by
        simp [Scan.symbol?, hpair, hs]
      rw [scan_of_symbol? hsymbol]

theorem within_symbol (s : Symbol) (h : s.spelling.toList ++ after = c :: rest) :
    Lexeme.Within ⟨.symbol s, s.spelling, none⟩ (scan c rest).lexeme := by
  cases s with
  -- two characters are taken together whatever follows
  | doubleAmpersand | doublePipe | doubleEqual | notEqual | lessEqual | greaterEqual | arrow =>
    cases h
    exact Or.inl rfl
  | _ =>
    cases h
    exact within_of_char rfl after

theorem within_space {blanks : List Char} (hne : blanks ≠ [])
    (hblanks : ∀ d ∈ blanks, Text.isBlank d ∧ d ≠ '\n' ∧ d ≠ '\r')
    (h : blanks ++ after = c :: rest) :
    Lexeme.Within ⟨.whitespace, String.ofList blanks, none⟩ (scan c rest).lexeme := by
  obtain ⟨c, cs, rfl⟩ := List.exists_cons_of_ne_nil hne
  rw [List.cons_append] at h
  obtain ⟨rfl, rfl⟩ := List.cons.inj h
  have hspace : ∀ d ∈ c :: cs, Scan.isSpace d := fun d hd => isSpace_iff.2 (hblanks d hd)
  rw [List.forall_mem_cons] at hspace
  rw [scan_of_isSpace hspace.1, Scan.space]
  dsimp only
  rcases takeWhile_append_or hspace.2 after with heq | hlonger
  · left
    rw [heq]
  · right
    simpa using hlonger

theorem within_word (hword : IsWord text) (h : text.toList ++ after = c :: rest) :
    Lexeme.Within (.ofWord text) (scan c rest).lexeme := by
  obtain ⟨c, cs, htext, hc, hcs⟩ := hword
  rw [htext, List.cons_append] at h
  obtain ⟨rfl, rfl⟩ := List.cons.inj h
  rw [scan_of_startsWord hc, Scan.word]
  dsimp only
  rcases takeWhile_append_or hcs after with heq | hlonger
  · left
    rw [heq, ← htext, String.ofList_toList]
  · right
    rw [Scan.ofWord_text, Scan.ofWord_text, htext]
    simpa using hlonger

theorem within_integer {whole : List Char} (hne : whole ≠ []) (hwhole : ∀ d ∈ whole, d.isDigit)
    (h : whole ++ after = c :: rest) :
    Lexeme.Within ⟨.literal, String.ofList whole, numberLiteral? whole⟩ (scan c rest).lexeme := by
  obtain ⟨c, cs, rfl⟩ := List.exists_cons_of_ne_nil hne
  rw [List.cons_append] at h
  obtain ⟨rfl, rfl⟩ := List.cons.inj h
  rw [List.forall_mem_cons] at hwhole
  rw [scan_of_isDigit hwhole.1]
  by_cases hpoint : ∃ tail, (cs ++ after).dropWhile Char.isDigit = '.' :: tail
  · obtain ⟨tail, htail⟩ := hpoint
    right
    rw [Scan.number_of_point htail, ofNumber_lexeme]
    rcases takeWhile_append_or hwhole.2 after with heq | hlonger
    · simp [heq]
    · simp
      omega
  · rw [Scan.number_of_no_point fun tail htail => hpoint ⟨tail, htail⟩, ofNumber_lexeme]
    rcases takeWhile_append_or hwhole.2 after with heq | hlonger
    · left
      rw [heq]
    · right
      simpa using hlonger

theorem within_decimal {whole fraction : List Char} (hne : whole ≠ [])
    (hwhole : ∀ d ∈ whole, d.isDigit) (hfraction : ∀ d ∈ fraction, d.isDigit)
    (h : whole ++ '.' :: (fraction ++ after) = c :: rest) :
    Lexeme.Within ⟨.literal, String.ofList (whole ++ '.' :: fraction),
      numberLiteral? (whole ++ '.' :: fraction)⟩ (scan c rest).lexeme := by
  obtain ⟨c, cs, rfl⟩ := List.exists_cons_of_ne_nil hne
  rw [List.cons_append] at h
  obtain ⟨rfl, rfl⟩ := List.cons.inj h
  rw [List.forall_mem_cons] at hwhole
  obtain ⟨htake, hdrop⟩ := takeWhile_append_of_head (p := Char.isDigit)
    (t := '.' :: (fraction ++ after)) hwhole.2 (by simp)
  rw [scan_of_isDigit hwhole.1, Scan.number_of_point hdrop, htake, ofNumber_lexeme]
  rcases takeWhile_append_or hfraction after with heq | hlonger
  · left
    rw [heq]
  · right
    simpa using hlonger

theorem scan_lineFeed (rest : List Char) :
    scan '\n' rest = ⟨⟨.lineEnd, "\n", none⟩, none, rest⟩ := by
  unfold scan
  rw [Scan.symbol?_eq_none rfl]
  rfl

theorem within_carriageReturn (rest : List Char) :
    Lexeme.Within ⟨.whitespace, "\r", none⟩ (scan '\r' rest).lexeme := by
  cases rest with
  | nil => exact Or.inl rfl
  | cons d tail =>
    by_cases hd : d = '\n'
    · right
      simp [scan, Scan.symbol?_eq_none (c := '\r') rfl, hd]
    · left
      simp [scan, Scan.symbol?_eq_none (c := '\r') rfl, hd]

theorem within_openString {content : List Char} (hcontent : '"' ∉ content) :
    Lexeme.Within ⟨.literal, String.ofList ('"' :: content),
      some (.string (String.ofList content))⟩ (scan '"' content).lexeme := by
  have hquote : ∀ d ∈ content, (d != '"') = true := by
    intro d hd
    rw [bne_iff_ne]
    rintro rfl
    exact hcontent hd
  have hscan : scan '"' content = Scan.string content := by
    unfold scan
    rw [Scan.symbol?_eq_none rfl]
    rfl
  left
  rw [hscan, Scan.string, List.takeWhile_eq_self_iff.2 hquote, List.dropWhile_eq_nil_iff.2 hquote]

/-- Every lexeme at the head of a text is what is cut off, or it is shorter. -/
theorem IsLexeme.within (hk : IsLexeme k after) (h : k.text.toList ++ after = c :: rest) :
    k.Within (scan c rest).lexeme := by
  cases hk with
  | symbol s => exact within_symbol s h
  | lineFeed =>
    have h : '\n' :: after = c :: rest := h
    obtain ⟨rfl, rfl⟩ := List.cons.inj h
    left
    rw [scan_lineFeed]
  | lineEnd =>
    have h : '\r' :: '\n' :: after = c :: rest := h
    obtain ⟨rfl, rfl⟩ := List.cons.inj h
    exact Or.inl rfl
  | carriageReturn =>
    have h : '\r' :: after = c :: rest := h
    obtain ⟨rfl, rfl⟩ := List.cons.inj h
    exact within_carriageReturn after
  | space hne hblanks =>
    rw [String.toList_ofList] at h
    exact within_space hne hblanks h
  | keyword k =>
    have hlexeme : (⟨.keyword k, k.spelling, k.literal?⟩ : Lexeme) = .ofWord k.spelling := by
      cases k <;> rfl
    rw [hlexeme]
    exact within_word (isWord_keyword k) h
  | pi =>
    have hword : IsWord "PI" :=
      ⟨_, _, rfl, by decide +kernel, List.all_eq_true.1 (by decide +kernel)⟩
    exact within_word hword h
  | euler =>
    have hword : IsWord "E" :=
      ⟨_, _, rfl, by decide +kernel, List.all_eq_true.1 (by decide +kernel)⟩
    exact within_word hword h
  | name hword hkeyword hpi heuler =>
    have hlexeme := reserved?_eq_none hkeyword hpi heuler
    have := within_word hword h
    rwa [Lexeme.ofWord, hlexeme] at this
  | integer hne hwhole =>
    rw [String.toList_ofList] at h
    exact within_integer hne hwhole h
  | decimal hne hwhole hfraction =>
    rw [String.toList_ofList, List.append_assoc, List.cons_append] at h
    exact within_decimal hne hwhole hfraction h
  | string hcontent =>
    rw [String.toList_ofList, List.append_assoc, List.cons_append, List.singleton_append] at h
    obtain ⟨rfl, rfl⟩ := List.cons.inj h
    left
    rw [scan_string _ _ hcontent]
  | openString hcontent =>
    rw [String.toList_ofList, List.append_nil] at h
    obtain ⟨rfl, rfl⟩ := List.cons.inj h
    exact within_openString hcontent

/-! ### Maximal munch -/

/-- A lexeme is at the head of a text. -/
def Lexeme.IsAt (k : Lexeme) (cs : List Char) : Prop :=
  ∃ after, k.text.toList ++ after = cs ∧ IsLexeme k after

/-- Where a stray character is cut off, no lexeme is at the head of the text: it would be at least
as long as the character, but not the character itself. -/
theorem not_isAt_of_stray (hstray : (scan c rest).lexeme = ⟨.stray, String.singleton c, none⟩) :
    ¬ k.IsAt (c :: rest) := by
  rintro ⟨after, htext, hk⟩
  have hwithin := hk.within htext
  rw [hstray] at hwithin
  rcases hwithin with rfl | hshorter
  · exact hk.kind_ne_stray rfl
  · have hpos := List.length_pos_iff.2 hk.text_ne_nil
    rw [String.toList_singleton, List.length_singleton] at hshorter
    omega

/-- **Maximal munch.** The next token is the longest lexeme at the head of the text, of the kind and
with the value of that lexeme, and every other lexeme there is shorter. If there is none, and only
then, it is a stray character, one alone. -/
theorem nextToken_munches {l l' : Lexer} {t : Token} (hinput : l.rest ≠ [])
    (hnext : l.nextToken = (t, l')) :
    t.text.toList ++ l'.rest = l.rest ∧
    (t.kind = .stray ↔ ¬ ∃ k : Lexeme, k.IsAt l.rest) ∧
    (t.kind = .stray → t.text.length = 1) ∧
    (t.kind ≠ .stray → t.toLexeme.IsAt l.rest ∧
      ∀ k : Lexeme, k.IsAt l.rest → k = t.toLexeme ∨ k.text.length < t.text.length) := by
  obtain ⟨c, cs, hrest⟩ := List.exists_cons_of_ne_nil hinput
  obtain ⟨hlexeme, hbehind⟩ : t.toLexeme = (scan c cs).lexeme ∧ l'.rest = (scan c cs).rest := by
    unfold Lexer.nextToken at hnext
    rw [hrest] at hnext
    cases hnext
    exact ⟨rfl, rfl⟩
  have htext : t.text.toList ++ l'.rest = c :: cs := by
    rw [hlexeme, hbehind]
    exact scan_text c cs
  rw [hrest]
  refine ⟨htext, ?_⟩
  rcases isLexeme_scan c cs with hscan | hstray
  · rw [← hlexeme, ← hbehind] at hscan
    have hkind : t.kind ≠ .stray := hscan.kind_ne_stray
    have hat : t.toLexeme.IsAt (c :: cs) := ⟨l'.rest, htext, hscan⟩
    refine ⟨⟨fun h => absurd h hkind, fun h => absurd ⟨_, hat⟩ h⟩, fun h => absurd h hkind, ?_⟩
    intro _
    refine ⟨hat, fun k hk => ?_⟩
    obtain ⟨after, hktext, hk⟩ := hk
    have hwithin := hk.within hktext
    rw [← hlexeme] at hwithin
    exact hwithin
  · have hnone : ¬ ∃ k : Lexeme, k.IsAt (c :: cs) := by
      rintro ⟨k, hk⟩
      exact not_isAt_of_stray hstray hk
    rw [hstray] at hlexeme
    have hkind : t.kind = .stray := congrArg Lexeme.kind hlexeme
    refine ⟨⟨fun _ => hnone, fun _ => hkind⟩, fun _ => ?_, fun h => absurd hkind h⟩
    rw [show t.text = String.singleton c from congrArg Lexeme.text hlexeme]
    exact String.length_singleton

/-- A keyword at the head of a name: both are lexemes, and the name is longer. -/
theorem nextToken_munches_letter :
    let l : Lexer := .ofLine "letter+1"
    let letWord : Lexeme := ⟨.keyword .letWord, "let", none⟩
    let letter : Lexeme := ⟨.identifier, "letter", none⟩
    l.nextToken.1.toLexeme = letter ∧ letter.IsAt l.rest ∧ letWord.IsAt l.rest := by
  intro l letWord letter
  have hlexeme : l.nextToken.1.toLexeme = letter := by decide +kernel
  have hinput : l.rest ≠ [] := by decide
  obtain ⟨-, -, -, hmunch⟩ := nextToken_munches hinput (Prod.mk.eta (p := l.nextToken)).symm
  have hat := (hmunch (by rw [hlexeme]; decide)).1
  rw [hlexeme] at hat
  exact ⟨hlexeme, hat, ['t', 'e', 'r', '+', '1'], by decide, .keyword .letWord⟩

end ExprLang

import ExprLang.Proofs.Lexing.Munch

/-!
# Spacing tokens anew

A blank belongs to no lexeme but layout and strings. So a lexeme that is cut off a text is cut off
again wherever its text stands in front of a blank or at the end (`IsLexeme.standsAlone`), and
blanks between the lexemes are seen as layout, however many there are (`marksOf_gap`). A line can
therefore be laid out anew, as long as there is a blank between any two of its tokens: apart from
layout the tokens are the same, and so is what is wrong with them (`tokens_respaced`).
-/

namespace ExprLang

variable {c d : Char} {cs gap rest after : List Char} {k : Lexeme} {text : String}

/-! ### Blanks -/

namespace Text

theorem isNumeric_of_isBlank (h : isBlank c) : isNumeric c = false :=
  Ranges.contains_of_apart (by decide +kernel) h

end Text

theorem isWordChar_of_isBlank (h : Text.isBlank c) : Scan.isWordChar c = false := by
  have hscore : (c == '_') = false := ne_of_class h '_' (by decide)
  rw [Scan.isWordChar, Text.isAlphanumeric, Text.isAlphabetic_of_isBlank h,
    Text.isNumeric_of_isBlank h, hscore]
  rfl

/-- A text that begins with a blank, or is empty. -/
def Parted (cs : List Char) : Prop := ∀ d ∈ cs.head?, Text.isBlank d

namespace Parted

variable (h : Parted cs)

include h

theorem unpaired : Unpaired cs := by
  cases cs with
  | nil => nofun
  | cons c cs => exact unpaired_of_all Text.isBlank (by decide) (h c rfl)

theorem isWordChar : ∀ d ∈ cs.head?, Scan.isWordChar d = false :=
  fun d hd => isWordChar_of_isBlank (h d hd)

theorem isDigit : ∀ d ∈ cs.head?, d.isDigit = false :=
  fun d hd => Text.isDigit_of_isBlank (h d hd)

theorem ne_point (tail : List Char) : cs ≠ '.' :: tail := by
  rintro rfl
  exact absurd (h '.' rfl) (by decide)

end Parted

/-! ### Marks -/

/-- Whether a token is there for its own sake: it is no layout and not the end of input. -/
def TokenKind.isMark : TokenKind → Bool
  | .whitespace | .lineEnd | .endOfInput => false
  | _ => true

/-- The lexemes of a text that are no layout. -/
def marksOf (cs : List Char) : List Lexeme := (lexemes cs).filter fun l => l.kind.isMark

theorem marksOf_of_layout (h : (scan c cs).lexeme.kind.isMark = false) :
    marksOf (c :: cs) = marksOf (scan c cs).rest := by
  rw [marksOf, lexemes_cons, List.filter_cons_of_neg (by rw [h]; exact Bool.false_ne_true), marksOf]

theorem marksOf_lineFeed (cs : List Char) : marksOf ('\n' :: cs) = marksOf cs := by
  rw [marksOf_of_layout (by rw [scan_lineFeed]; rfl), scan_lineFeed]

theorem marksOf_space (h : Scan.isSpace c) (cs : List Char) :
    marksOf (c :: cs) = marksOf (cs.dropWhile Scan.isSpace) := by
  rw [marksOf_of_layout (by rw [scan_of_isSpace h]; rfl), scan_of_isSpace h]
  rfl

theorem marksOf_carriageReturn (cs : List Char) : marksOf ('\r' :: cs) = marksOf cs := by
  have hsymbol : Scan.symbol? '\r' cs = none := Scan.symbol?_eq_none rfl
  cases cs with
  | nil => exact marksOf_of_layout (by decide)
  | cons d cs =>
    by_cases hd : d = '\n'
    · -- the two characters are one line end
      subst hd
      have hscan : scan '\r' ('\n' :: cs) = ⟨⟨.lineEnd, "\r\n", none⟩, none, cs⟩ := rfl
      rw [marksOf_of_layout (by rw [hscan]; rfl), hscan, marksOf_lineFeed]
    · have hscan : scan '\r' (d :: cs) = ⟨⟨.whitespace, "\r", none⟩, none, d :: cs⟩ := by
        simp [scan, hsymbol, hd]
      rw [marksOf_of_layout (by rw [hscan]; rfl), hscan]

/-- A blank in front of a text is layout of its own, or it joins the layout that is there. -/
theorem marksOf_blank (h : Text.isBlank c) (cs : List Char) : marksOf (c :: cs) = marksOf cs := by
  by_cases hn : c = '\n'
  · rw [hn, marksOf_lineFeed]
  by_cases hr : c = '\r'
  · rw [hr, marksOf_carriageReturn]
  · rw [marksOf_space (isSpace_iff.2 ⟨h, hn, hr⟩)]
    cases cs with
    | nil => rfl
    | cons d cs =>
      by_cases hd : Scan.isSpace d
      · rw [List.dropWhile_cons_of_pos hd, marksOf_space hd]
      · rw [List.dropWhile_cons_of_neg hd]

/-- Blanks in front of a text do not matter. -/
theorem marksOf_gap (h : ∀ c ∈ gap, Text.isBlank c) (rest : List Char) :
    marksOf (gap ++ rest) = marksOf rest := by
  induction gap with
  | nil => rfl
  | cons c gap ih =>
    rw [List.forall_mem_cons] at h
    rw [List.cons_append, marksOf_blank h.1, ih h.2]

/-! ### Lexemes in front of a blank -/

/-- A lexeme that is cut off again where its text stands in front of a blank or at the end. -/
def Lexeme.StandsAlone (k : Lexeme) : Prop :=
  ∀ rest, Parted rest → lexemes (k.text.toList ++ rest) = k :: lexemes rest

theorem standsAlone_symbol (s : Symbol) : Lexeme.StandsAlone ⟨.symbol s, s.spelling, none⟩ := by
  intro rest hrest
  obtain ⟨c, cs, hspelling, hscan⟩ := scan_symbol s hrest.unpaired
  show lexemes (s.spelling.toList ++ rest) = _
  rw [hspelling, List.cons_append, lexemes_cons, hscan]

theorem standsAlone_word (h : IsWord text) : (Lexeme.ofWord text).StandsAlone := by
  intro rest hrest
  obtain ⟨c, cs, htext, hc, hcs⟩ := h
  have hscan := scan_word hc hcs hrest.isWordChar
  rw [← htext, String.ofList_toList] at hscan
  rw [Scan.ofWord_text, htext, List.cons_append, lexemes_cons, hscan]

theorem standsAlone_integer (hc : c.isDigit) (hcs : ∀ d ∈ cs, d.isDigit) :
    Lexeme.StandsAlone ⟨.literal, String.ofList (c :: cs), numberLiteral? (c :: cs)⟩ := by
  intro rest hrest
  obtain ⟨htake, hdrop⟩ := takeWhile_append_of_head hcs hrest.isDigit
  have hscan : scan c (cs ++ rest) = Scan.ofNumber (c :: cs) rest := by
    rw [scan_of_isDigit hc, Scan.number_of_no_point (by rw [hdrop]; exact hrest.ne_point), htake,
      hdrop]
  rw [String.toList_ofList, List.cons_append, lexemes_cons, hscan, ofNumber_lexeme,
    (Scan.ofNumber_text _ _).2]

theorem standsAlone_decimal {fraction : List Char} (hc : c.isDigit) (hcs : ∀ d ∈ cs, d.isDigit)
    (hfraction : ∀ d ∈ fraction, d.isDigit) :
    Lexeme.StandsAlone ⟨.literal, String.ofList (c :: cs ++ '.' :: fraction),
      numberLiteral? (c :: cs ++ '.' :: fraction)⟩ := by
  intro rest hrest
  obtain ⟨htake, hdrop⟩ := takeWhile_append_of_head (p := Char.isDigit)
    (t := '.' :: (fraction ++ rest)) hcs (by simp)
  obtain ⟨htake', hdrop'⟩ := takeWhile_append_of_head hfraction hrest.isDigit
  have hscan : scan c (cs ++ '.' :: (fraction ++ rest)) =
      Scan.ofNumber (c :: cs ++ '.' :: fraction) rest := by
    rw [scan_of_isDigit hc, Scan.number_of_point hdrop, htake, htake', hdrop']
  rw [String.toList_ofList, List.append_assoc, List.cons_append, List.cons_append, lexemes_cons,
    hscan, ofNumber_lexeme, (Scan.ofNumber_text _ _).2]

theorem standsAlone_string {content : List Char} (h : '"' ∉ content) :
    Lexeme.StandsAlone ⟨.literal, String.ofList ('"' :: content ++ ['"']),
      some (.string (String.ofList content))⟩ := by
  intro rest _
  have hscan := scan_string content rest h
  rw [String.toList_ofList, List.append_assoc, List.cons_append, List.singleton_append, lexemes_cons,
    hscan]

theorem IsLexeme.standsAlone (hk : IsLexeme k after) (hmark : k.kind.isMark)
    (hclosed : k.flaw? ≠ some .unterminatedString) : k.StandsAlone := by
  cases hk with
  | symbol s => exact standsAlone_symbol s
  | lineFeed | lineEnd | carriageReturn | space => cases hmark
  | keyword k =>
    have hlexeme : (⟨.keyword k, k.spelling, k.literal?⟩ : Lexeme) = .ofWord k.spelling := by
      cases k <;> rfl
    rw [hlexeme]
    exact standsAlone_word (isWord_keyword k)
  | pi =>
    have hword : IsWord "PI" :=
      ⟨_, _, rfl, by decide +kernel, List.all_eq_true.1 (by decide +kernel)⟩
    exact standsAlone_word hword
  | euler =>
    have hword : IsWord "E" :=
      ⟨_, _, rfl, by decide +kernel, List.all_eq_true.1 (by decide +kernel)⟩
    exact standsAlone_word hword
  | name hword hkeyword hpi heuler =>
    have halone := standsAlone_word hword
    rwa [Lexeme.ofWord, reserved?_eq_none hkeyword hpi heuler] at halone
  | integer hne hwhole =>
    obtain ⟨c, cs, rfl⟩ := List.exists_cons_of_ne_nil hne
    rw [List.forall_mem_cons] at hwhole
    exact standsAlone_integer hwhole.1 hwhole.2
  | decimal hne hwhole hfraction =>
    obtain ⟨c, cs, rfl⟩ := List.exists_cons_of_ne_nil hne
    rw [List.forall_mem_cons] at hwhole
    exact standsAlone_decimal hwhole.1 hwhole.2 hfraction
  | string hcontent => exact standsAlone_string hcontent
  | openString hcontent => exact absurd (by simp [Lexeme.flaw?, hcontent]) hclosed

/-- Whether a character is stray depends on the character alone. -/
theorem scan_of_stray (h : (scan c cs).lexeme.kind = .stray) (rest : List Char) :
    scan c rest = ⟨⟨.stray, String.singleton c, none⟩, some (.unrecognized c), rest⟩ := by
  unfold scan at h ⊢
  cases hsymbol : Scan.symbol? c cs with
  | some s =>
    rw [hsymbol] at h
    cases h
  | none =>
    have hchar : Scan.symbol? c [] = none := Scan.symbol?_cut_none (w := cs) hsymbol
    rw [hsymbol] at h
    rw [Scan.symbol?_eq_none (Option.map_eq_none_iff.1 hchar)]
    dsimp only at h ⊢
    split_ifs at h ⊢ with hq hn hr hd ha hb
    · exact absurd h isLexeme_string.kind_ne_stray
    · split at h <;> cases h
    · exact absurd h (isLexeme_number hd).kind_ne_stray
    · rcases Scan.ofWord_kind (String.ofList (c :: cs.takeWhile Scan.isWordChar)) with
        hkind | hkind | ⟨k, hkind⟩ <;> cases hkind.symm.trans h
    · cases h
    · rfl

/-- **A lexeme of a text stands alone**, if it is no layout and no string without its end. -/
theorem standsAlone_of_mem_lexemes (hk : k ∈ lexemes cs) (hmark : k.kind.isMark)
    (hclosed : k.flaw? ≠ some .unterminatedString) : k.StandsAlone := by
  obtain ⟨c, rest, rfl⟩ := exists_scan_of_mem_lexemes hk
  rcases isLexeme_scan c rest with hlexeme | hstray
  · exact hlexeme.standsAlone hmark hclosed
  · intro rest' _
    have hscan := scan_of_stray (by rw [hstray]) rest'
    rw [hstray, String.toList_singleton, List.singleton_append, lexemes_cons, hscan]

/-! ### Lines laid out anew -/

/-- Nothing but white space and line ends. -/
def IsGap (gap : String) : Prop := ∀ c ∈ gap.toList, Text.isBlank c

instance (gap : String) : Decidable (IsGap gap) :=
  decidable_of_iff (gap.toList.all Text.isBlank) List.all_eq_true

/-- A text of given words with gaps between them. Behind the last word there may be a gap. -/
inductive Spaced : List String → String → Prop
  | nil : Spaced [] ""
  | cons {word gap text : String} {words : List String} (hgap : IsGap gap)
      (hbetween : words ≠ [] → gap ≠ "") (htext : Spaced words text) :
      Spaced (word :: words) (word ++ gap ++ text)

/-- A gap is the boundary that the word in front of it needs. -/
theorem parted_gap {gap text : String} {words : List String} (hgap : IsGap gap)
    (hbetween : words ≠ [] → gap ≠ "") (htext : Spaced words text) :
    Parted (gap.toList ++ text.toList) := by
  cases hchars : gap.toList with
  | cons c cs =>
    rintro d ⟨⟩
    exact hgap c (by rw [hchars]; exact List.mem_cons_self)
  | nil =>
    cases htext with
    | nil => nofun
    | cons => exact absurd (String.toList_eq_nil_iff.1 hchars) (hbetween (List.cons_ne_nil _ _))

/-- The marks of a text that is put together from words that stand alone. -/
theorem marksOf_spaced {ls : List Lexeme} (hls : ∀ l ∈ ls, l.kind.isMark ∧ l.StandsAlone)
    {text : String} (h : Spaced (ls.map Lexeme.text) text) : marksOf text.toList = ls := by
  induction ls generalizing text with
  | nil =>
    cases h
    exact congrArg _ lexemes_nil
  | cons l ls ih =>
    rw [List.map_cons] at h
    cases h with
    | @cons _ gap text _ hgap hbetween htext =>
      obtain ⟨⟨hmark, halone⟩, hls⟩ := List.forall_mem_cons.1 hls
      rw [String.toList_append, String.toList_append, List.append_assoc, marksOf,
        halone _ (parted_gap hgap hbetween htext),
        List.filter_cons_of_pos (p := fun l : Lexeme => l.kind.isMark) hmark]
      exact congrArg (l :: ·) ((marksOf_gap hgap text.toList).trans (ih hls htext))

/-- The tokens of a line that are there for their own sake, without their places. -/
def marks (line : String) : List Lexeme :=
  ((tokenize line).1.filter fun t => t.kind.isMark).map Token.toLexeme

variable (line : String)

theorem marks_eq : marks line = marksOf line.toList := by
  have hfilter : (fun t : Token => t.kind.isMark) =
      (fun l : Lexeme => l.kind.isMark) ∘ Token.toLexeme := rfl
  rw [marks, hfilter, ← List.filter_map, tokenize_eq, List.map_append, tokensAt_toLexeme,
    List.filter_append]
  exact List.append_nil _

/-- What is wrong with a line is what is wrong with its marks. -/
theorem errors_eq : (tokenize line).2.map Located.val = (marks line).filterMap Lexeme.flaw? := by
  have hval : (fun t : Token => t.flaw?.map Located.val) = Lexeme.flaw? ∘ Token.toLexeme := by
    funext t
    rw [Token.flaw?, Option.map_map]
    exact Option.map_id_apply
  have hlayout : ∀ l : Lexeme, (if l.kind.isMark then l.flaw? else none) = l.flaw? := by
    intro l
    split
    · rfl
    · next hl =>
      cases hflaw : l.flaw? with
      | none => rfl
      | some e =>
        rcases Lexeme.kind_of_flaw? hflaw with hkind | hkind <;>
          exact absurd (by rw [hkind]; rfl) hl
  rw [marks_eq, marksOf, List.filterMap_filter, funext hlayout, tokenize_eq, List.map_filterMap,
    hval, ← List.filterMap_map, tokensAt_toLexeme]

/-- The tokens that the grammar mentions are marks, and the end of input behind them. -/
theorem significant_eq : ((tokenize line).1.filter fun t => !t.kind.isTrivia).map Token.toLexeme =
    ((marks line).filter fun l => !l.kind.isTrivia) ++ [⟨.endOfInput, "", none⟩] := by
  have hfilter : (fun t : Token => !t.kind.isTrivia) =
      (fun l : Lexeme => !l.kind.isTrivia) ∘ Token.toLexeme := rfl
  have hmarks : ∀ l ∈ lexemes line.toList,
      (!l.kind.isTrivia) = (!l.kind.isTrivia && l.kind.isMark) := by
    intro l hl
    have hend := kind_ne_endOfInput_of_mem_lexemes hl
    cases hkind : l.kind <;> first | rfl | exact absurd hkind hend
  rw [marks_eq, marksOf, List.filter_filter, ← List.filter_congr hmarks, hfilter, ← List.filter_map,
    tokenize_eq, List.map_append, tokensAt_toLexeme, List.filter_append]
  rfl

/-- **Tokens survive another spacing.** The marks of a line, that is its tokens without layout and
the end of input, are written one after the other with gaps between them, and if wanted in front of
the first one and behind the last one. The text has the same marks, of the same kinds, texts and
values. So it has the same tokens for the grammar, and the same things are wrong with it. -/
theorem tokens_respaced {line before text : String}
    (hclosed : ∀ x ∈ (tokenize line).2, x.val ≠ .unterminatedString) (hbefore : IsGap before)
    (htext : Spaced ((marks line).map Lexeme.text) text) :
    marks (before ++ text) = marks line ∧
    ((tokenize (before ++ text)).1.filter fun t => !t.kind.isTrivia).map Token.toLexeme =
      ((tokenize line).1.filter fun t => !t.kind.isTrivia).map Token.toLexeme ∧
    (tokenize (before ++ text)).2.map Located.val = (tokenize line).2.map Located.val := by
  have halone : ∀ l ∈ marks line, l.kind.isMark ∧ l.StandsAlone := by
    intro l hl
    have hflaw : l.flaw? ≠ some .unterminatedString := by
      intro hflaw
      have hmem : .unterminatedString ∈ (tokenize line).2.map Located.val := by
        rw [errors_eq]
        exact List.mem_filterMap.2 ⟨l, hl, hflaw⟩
      obtain ⟨x, hx, hval⟩ := List.mem_map.1 hmem
      exact hclosed x hx hval
    rw [marks_eq] at hl
    obtain ⟨hmem, hmark⟩ := List.mem_filter.1 hl
    exact ⟨hmark, standsAlone_of_mem_lexemes hmem hmark hflaw⟩
  have hmarks : marks (before ++ text) = marks line := by
    rw [marks_eq, String.toList_append, marksOf_gap hbefore, marksOf_spaced halone htext]
  refine ⟨hmarks, ?_, ?_⟩
  · rw [significant_eq, significant_eq, hmarks]
  · rw [errors_eq, errors_eq, hmarks]

/-- A line without layout, of which the string has a blank and a line end. -/
theorem tokens_respaced_string :
    let line := "x=>1.~\"a \n\"!"
    let text := "x\r\n=>\t1. ~ \"a \n\" !"
    (∀ x ∈ (tokenize line).2, x.val ≠ .unterminatedString) ∧
      Spaced ((marks line).map Lexeme.text) text ∧ marks ("\n " ++ text) = marks line ∧
      (tokenize ("\n " ++ text)).2.map Located.val = [.unrecognized '~'] := by
  intro line text
  have hclosed : ∀ x ∈ (tokenize line).2, x.val ≠ .unterminatedString := by decide +kernel
  have hwords : (marks line).map Lexeme.text = ["x", "=>", "1.", "~", "\"a \n\"", "!"] := by
    decide +kernel
  have htext : Spaced ((marks line).map Lexeme.text) text := by
    have hgap : ∀ gap ∈ ["\r\n", "\t", " ", ""], IsGap gap := by decide +kernel
    have hspaced : Spaced ["x", "=>", "1.", "~", "\"a \n\"", "!"]
        ("x" ++ "\r\n" ++ ("=>" ++ "\t" ++ ("1." ++ " " ++ ("~" ++ " " ++
          ("\"a \n\"" ++ " " ++ ("!" ++ "" ++ "")))))) := by
      repeat refine .cons (hgap _ (by decide)) (by decide) ?_
      exact .nil
    rw [hwords]
    exact hspaced
  have hbefore : IsGap "\n " := by decide +kernel
  obtain ⟨hmarks, -, herrors⟩ := tokens_respaced hclosed hbefore htext
  exact ⟨hclosed, htext, hmarks, herrors.trans (by decide +kernel)⟩

end ExprLang

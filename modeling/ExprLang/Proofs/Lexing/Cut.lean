import ExprLang.Proofs.Lexing.Extent
import ExprLang.Proofs.Lexing.Joined

/-!
# Cutting a piece out of a text

A lexeme ends where it ends whatever is behind it: when the text behind a lexeme is cut off, at the
lexeme or further to the right, the lexeme stays as it is (`scan_cut`). So a piece of a text that
begins and ends between two lexemes has the lexemes that it had in the text (`lexemes_piece`).
-/

namespace ExprLang

variable {c : Char} {cs v w : List Char}

/-- A run of characters that does not reach into the text that is cut off. -/
theorem takeWhile_cut {p : Char → Bool} (h : (cs ++ w).dropWhile p = v ++ w) :
    (cs ++ w).takeWhile p = cs.takeWhile p ∧ cs.dropWhile p = v := by
  have hsplit : cs ++ w = ((cs ++ w).takeWhile p ++ v) ++ w := by
    rw [List.append_assoc, ← h, List.takeWhile_append_dropWhile]
  have hcs : cs = (cs ++ w).takeWhile p ++ v := List.append_cancel_right hsplit
  have hrun : ∀ d ∈ (cs ++ w).takeWhile p, p d := fun d hd => List.mem_takeWhile_imp hd
  have hhead : ∀ d ∈ v.head?, p d = false := by
    intro d hd
    have hnot := List.head?_dropWhile_not p (cs ++ w)
    rw [h, List.head?_append, Option.mem_def.1 hd] at hnot
    simpa using hnot
  obtain ⟨htake, hdrop⟩ := takeWhile_append_of_head hrun hhead
  rw [← hcs] at htake hdrop
  exact ⟨htake.symm, hdrop⟩

namespace Scan

theorem symbol?_cut {s : Symbol} (h : symbol? c (cs ++ w) = some (s, v ++ w)) :
    symbol? c cs = some (s, v) := by
  cases cs with
  | nil =>
    cases w with
    | nil => simpa using h
    | cons d w =>
      rw [List.nil_append, symbol?] at h
      cases hpair : Symbol.ofPair? c d with
      | some s' =>
        -- two characters would reach into the text that is cut off
        rw [hpair] at h
        have hlength := congrArg List.length (Prod.mk.inj (Option.some.inj h)).2
        simp at hlength
        omega
      | none =>
        rw [hpair] at h
        obtain ⟨s', hs', heq⟩ := Option.map_eq_some_iff.1 h
        obtain ⟨rfl, hv⟩ := Prod.mk.inj heq
        obtain rfl : [] = v := List.append_cancel_right hv
        rw [symbol?, hs']
        rfl
  | cons d cs =>
    rw [List.cons_append, symbol?] at h
    rw [symbol?]
    cases hpair : Symbol.ofPair? c d with
    | some s' =>
      rw [hpair] at h
      obtain ⟨rfl, hv⟩ := Prod.mk.inj (Option.some.inj h)
      obtain rfl : cs = v := List.append_cancel_right hv
      rfl
    | none =>
      rw [hpair] at h
      obtain ⟨s', hs', heq⟩ := Option.map_eq_some_iff.1 h
      obtain ⟨rfl, hv⟩ := Prod.mk.inj heq
      obtain rfl : d :: cs = v := List.append_cancel_right hv
      dsimp only
      rw [hs']
      rfl

theorem symbol?_cut_none (h : symbol? c (cs ++ w) = none) : symbol? c cs = none := by
  refine symbol?_eq_none ?_
  unfold symbol? at h
  split at h
  · exact Option.map_eq_none_iff.1 h
  · split at h
    · cases h
    · exact Option.map_eq_none_iff.1 h

theorem number_of_point {tail : List Char} (h : cs.dropWhile Char.isDigit = '.' :: tail) :
    number c cs = ofNumber
      (c :: cs.takeWhile Char.isDigit ++ '.' :: tail.takeWhile Char.isDigit)
      (tail.dropWhile Char.isDigit) := by
  unfold number
  dsimp only
  rw [h]
  rfl

theorem number_of_no_point (h : ∀ tail, cs.dropWhile Char.isDigit ≠ '.' :: tail) :
    number c cs = ofNumber (c :: cs.takeWhile Char.isDigit) (cs.dropWhile Char.isDigit) := by
  unfold number
  dsimp only
  split
  · next tail heq => exact absurd heq (h tail)
  · rfl

theorem number_cut (h : (number c (cs ++ w)).rest = v ++ w) :
    number c (cs ++ w) = (number c cs).extend w := by
  by_cases hpoint : ∃ tail, (cs ++ w).dropWhile Char.isDigit = '.' :: tail
  · obtain ⟨tail, htail⟩ := hpoint
    rw [number_of_point htail, (ofNumber_text _ _).2] at h
    obtain ⟨tail, rfl⟩ : ∃ more, tail = more ++ w := by
      refine ⟨tail.takeWhile Char.isDigit ++ v, ?_⟩
      rw [List.append_assoc, ← h, List.takeWhile_append_dropWhile]
    obtain ⟨hwhole, hrest⟩ := takeWhile_cut (v := '.' :: tail) htail
    obtain ⟨hfraction, hv⟩ := takeWhile_cut h
    rw [number_of_point htail, number_of_point hrest, hwhole, hfraction, h, hv, ofNumber_append]
  · have hno : ∀ tail, (cs ++ w).dropWhile Char.isDigit ≠ '.' :: tail :=
      fun tail htail => hpoint ⟨tail, htail⟩
    rw [number_of_no_point hno, (ofNumber_text _ _).2] at h
    obtain ⟨hwhole, hv⟩ := takeWhile_cut h
    have hno' : ∀ tail, cs.dropWhile Char.isDigit ≠ '.' :: tail := by
      intro tail htail
      refine hno (tail ++ w) ?_
      rw [h, ← hv, htail, List.cons_append]
    rw [number_of_no_point hno, number_of_no_point hno', hwhole, h, hv, ofNumber_append]

theorem string_cut (h : (string (cs ++ w)).rest = v ++ w) :
    string (cs ++ w) = (string cs).extend w := by
  unfold string at h ⊢
  dsimp only at h ⊢
  cases hdrop : (cs ++ w).dropWhile (· != '"') with
  | nil =>
    rw [hdrop] at h
    obtain ⟨rfl, rfl⟩ := List.append_eq_nil_iff.1 h.symm
    rw [List.append_nil] at hdrop ⊢
    rw [hdrop]
    rfl
  | cons d rest =>
    rw [hdrop] at h
    obtain rfl : rest = v ++ w := h
    obtain ⟨htake, hcs⟩ := takeWhile_cut (v := d :: v) hdrop
    rw [htake, hcs]
    rfl

theorem word_cut (h : (word c (cs ++ w)).rest = v ++ w) :
    word c (cs ++ w) = (word c cs).extend w := by
  obtain ⟨htake, hdrop⟩ := takeWhile_cut h
  rw [word, word, htake, hdrop, show (cs ++ w).dropWhile isWordChar = v ++ w from h]
  rfl

theorem space_cut (h : (space c (cs ++ w)).rest = v ++ w) :
    space c (cs ++ w) = (space c cs).extend w := by
  obtain ⟨htake, hdrop⟩ := takeWhile_cut h
  rw [space, space, htake, hdrop, show (cs ++ w).dropWhile isSpace = v ++ w from h]
  rfl

end Scan

/-- **The text behind a lexeme does not matter**: what the lexeme does not reach can be cut off. -/
theorem scan_cut (h : (scan c (cs ++ w)).rest = v ++ w) :
    scan c (cs ++ w) = (scan c cs).extend w := by
  unfold scan at h ⊢
  cases hsymbol : Scan.symbol? c (cs ++ w) with
  | some s =>
    rw [hsymbol] at h
    obtain ⟨s, rest⟩ := s
    obtain rfl : rest = v ++ w := h
    rw [Scan.symbol?_cut hsymbol]
    rfl
  | none =>
    rw [hsymbol] at h
    rw [Scan.symbol?_cut_none hsymbol]
    dsimp only at h ⊢
    split_ifs at h ⊢ with hq hn hr hdigit hword hblank
    · exact Scan.string_cut h
    · rfl
    · cases cs with
      | nil =>
        cases w with
        | nil => rfl
        | cons d w =>
          by_cases hd : d = '\n'
          · -- a line end of two characters would reach into the text that is cut off
            subst hd
            have hlength := congrArg List.length h
            simp at hlength
            omega
          · simp [Scan.extend, hd]
      | cons d cs => by_cases hd : d = '\n' <;> simp [Scan.extend, hd]
    · exact Scan.number_cut h
    · exact Scan.word_cut h
    · exact Scan.space_cut h
    · rfl

/-! ### Lexemes -/

/-- The lexeme at the head of a text stays when the text behind it is cut off. -/
theorem lexemes_cut_cons {l : Lexeme} {ls : List Lexeme}
    (h : lexemes (l.text.toList ++ (v ++ w)) = l :: ls) :
    lexemes (v ++ w) = ls ∧ lexemes (l.text.toList ++ v) = l :: lexemes v := by
  cases htext : l.text.toList with
  | nil =>
    have hpos : 0 < l.size := size_pos_of_mem_lexemes (h ▸ List.mem_cons_self)
    rw [Lexeme.size, String.toList_eq_nil_iff.1 htext] at hpos
    exact absurd hpos (Nat.lt_irrefl 0)
  | cons c cs =>
    rw [htext, List.cons_append, lexemes_cons] at h
    obtain ⟨hl, hls⟩ := List.cons.inj h
    have hrest : (scan c (cs ++ (v ++ w))).rest = v ++ w := by
      have hscan := scan_text c (cs ++ (v ++ w))
      rw [hl, htext, List.cons_append] at hscan
      exact List.append_cancel_left (List.cons.inj hscan).2
    rw [hrest] at hls
    refine ⟨hls, ?_⟩
    rw [← List.append_assoc] at hl hrest
    have hcut := scan_cut hrest
    rw [hcut] at hl hrest
    have hv : (scan c (cs ++ v)).rest = v := List.append_cancel_right hrest
    rw [List.cons_append, lexemes_cons, hv]
    exact congrArg (· :: lexemes v) hl

/-- The first lexemes of a text are the lexemes of the text up to there. -/
theorem lexemes_take {ls more : List Lexeme}
    (h : lexemes (ls.flatMap (fun l => l.text.toList) ++ w) = ls ++ more) :
    lexemes (ls.flatMap fun l => l.text.toList) = ls := by
  induction ls with
  | nil => exact lexemes_nil
  | cons l ls ih =>
    rw [List.flatMap_cons, List.append_assoc] at h
    obtain ⟨hls, hl⟩ := lexemes_cut_cons h
    rw [List.flatMap_cons, hl, ih hls]

/-- The last lexemes of a text are the lexemes of the text from there on. -/
theorem lexemes_drop {ls more : List Lexeme} (h : lexemes cs = ls ++ more) :
    lexemes (more.flatMap fun l => l.text.toList) = more := by
  induction ls generalizing cs with
  | nil =>
    rw [List.nil_append] at h
    rw [← h, flatMap_text_lexemes]
  | cons l ls ih =>
    cases cs with
    | nil =>
      rw [lexemes_nil] at h
      cases h
    | cons c cs =>
      rw [lexemes_cons] at h
      exact ih (List.cons.inj h).2

/-- **A piece of a text has the lexemes that it had in the text**, if it begins and ends between
lexemes. -/
theorem lexemes_piece {before piece after : List Lexeme}
    (h : lexemes cs = before ++ piece ++ after) :
    lexemes (piece.flatMap fun l => l.text.toList) = piece := by
  rw [List.append_assoc] at h
  have hdrop := lexemes_drop h
  rw [List.flatMap_append] at hdrop
  exact lexemes_take hdrop

/-! ### Tokens -/

/-- Tokens that are laid side by side are laid side by side on both sides of a cut. -/
theorem tokensAt_eq_append {offset : Nat} {ls : List Lexeme} {ts us : List Token}
    (h : tokensAt offset ls = ts ++ us) : ∃ ls₁ ls₂, ls = ls₁ ++ ls₂ ∧
      ts = tokensAt offset ls₁ ∧ us = tokensAt (offset + (ls₁.map Lexeme.size).sum) ls₂ := by
  have hls := tokensAt_toLexeme offset ls
  rw [h, List.map_append] at hls
  rw [← hls, tokensAt_append] at h
  have hlength : (tokensAt offset (ts.map Token.toLexeme)).length = ts.length := by
    rw [← List.length_map Token.toLexeme, tokensAt_toLexeme, List.length_map]
  obtain ⟨hts, hus⟩ := List.append_inj h hlength
  exact ⟨_, _, hls.symm, hts.symm, hus.symm⟩

/-- **A run of tokens, cut out of its line**: the text under its extent has the same tokens, moved
to the left. -/
theorem exists_text_of_tokens {line : String} {before ts after : List Token}
    (h : tokensAt 0 (lexemes line.toList) = before ++ ts ++ after) (hne : ts ≠ []) :
    ∃ text : String, (extent ts).Shows text line ∧
      ts = (tokensAt 0 (lexemes text.toList)).map (Token.shift (extent ts).start) := by
  obtain ⟨ls, as, hlexemes, hfront, -⟩ := tokensAt_eq_append h
  obtain ⟨bs, ps, rfl, -, hts⟩ := tokensAt_eq_append hfront.symm
  rw [Nat.zero_add] at hts
  have hps : ps ≠ [] := by
    rintro rfl
    exact hne hts
  have hextent := extent_tokensAt (bs.map Lexeme.size).sum hps
  rw [← hts] at hextent
  refine ⟨String.ofList (ps.flatMap fun l => l.text.toList), ?_, ?_⟩
  · refine ⟨String.ofList (bs.flatMap fun l => l.text.toList),
      String.ofList (as.flatMap fun l => l.text.toList), ?_, ?_⟩
    · have htext := flatMap_text_lexemes line.toList
      rw [hlexemes, List.flatMap_append, List.flatMap_append] at htext
      rw [← String.ofList_append, ← String.ofList_append, htext, String.ofList_toList]
    · rw [hextent, utf8ByteSize_flatMap_text, utf8ByteSize_flatMap_text]
  · rw [String.toList_ofList, lexemes_piece hlexemes, hextent, ← tokensAt_shift, Nat.zero_add]
    exact hts

end ExprLang

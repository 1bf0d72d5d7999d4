import ExprLang.Expr
import ExprLang.Proofs.Lexing.Places

/-!
# The stream of tokens

* `Tiles`: tokens that cover a range of bytes one behind the other; the tokens of a line cover the
  whole line (`tiles_tokenize`).
* `Lexer.after`: a lexer that is asked for one token after the other. It hands out the tokens of the
  line, and past them the end of input for ever (`nextToken_after_ofLine`).
* `Lexer.placed`: a lexer with offsets of another kind cuts the same tokens, at mapped places
  (`drain_placed`). When every character brings its byte offset, the places are the same, though
  there is no character that would bring the offset of the end (`tokens_ofPlaced_charOffsets`).

`tokenize_tiles` puts these together.
-/

namespace ExprLang

/-! ### Tokens side by side -/

/-- Tokens that cover the bytes from `lo` up to `hi`, each from the end of the one before it. -/
def Tiles : Nat → List Token → Nat → Prop
  | lo, [], hi => lo = hi
  | lo, t :: ts, hi => t.span.start = lo ∧ Tiles t.span.stop ts hi

theorem Tiles.append {lo mid hi : Nat} {ts us : List Token} (hts : Tiles lo ts mid)
    (hus : Tiles mid us hi) : Tiles lo (ts ++ us) hi := by
  induction ts generalizing lo with
  | nil =>
    have hmid : lo = mid := hts
    rwa [hmid]
  | cons t ts ih =>
    obtain ⟨hstart, hts⟩ := hts
    exact ⟨hstart, ih hts⟩

theorem tiles_tokensAt (offset : Nat) (ls : List Lexeme) :
    Tiles offset (tokensAt offset ls) (offset + (ls.map Lexeme.size).sum) := by
  induction ls generalizing offset with
  | nil => rfl
  | cons l ls ih =>
    rw [List.map_cons, List.sum_cons, ← Nat.add_assoc]
    exact ⟨rfl, ih (offset + l.size)⟩

/-- The tokens of a line cover it. -/
theorem tiles_tokenize (line : String) : Tiles 0 (tokenize line).1 line.utf8ByteSize := by
  have hlexemes := tiles_tokensAt 0 (lexemes line.toList)
  rw [Nat.zero_add, sum_size_lexemes_toList] at hlexemes
  rw [tokenize_eq]
  exact hlexemes.append ⟨rfl, rfl⟩

/-- The texts of the tokens of a line are the line. -/
theorem join_text_tokenize (line : String) :
    String.join ((tokenize line).1.map fun t => t.text) = line := by
  have htexts : (tokensAt 0 (lexemes line.toList)).flatMap (fun t => t.text.toList) =
      line.toList := by
    rw [← List.flatMap_map Token.toLexeme fun l => l.text.toList, tokensAt_toLexeme,
      flatMap_text_lexemes]
  rw [← String.toList_inj, tokenize_eq, String.toList_join, List.flatMap_map, List.flatMap_append,
    htexts]
  simp [Token.placeholder]

/-! ### One token after the other -/

namespace Lexer

/-- The lexer after a number of tokens were asked for. -/
def after : Nat → Lexer → Lexer
  | 0, l => l
  | n + 1, l => after n l.nextToken.2

variable {l : Lexer}

theorem after_of_stays (h : l.nextToken.2 = l) (n : Nat) : l.after n = l := by
  induction n with
  | zero => rfl
  | succ n ih => rw [after, h, ih]

theorem nextToken_after (hplace : l.place = id) (n : Nat) :
    (l.after n).nextToken.1 = (tokensAt l.position (lexemes l.rest))[n]?.getD
      (.placeholder .endOfInput (l.position + ((lexemes l.rest).map Lexeme.size).sum)) := by
  induction n generalizing l with
  | zero =>
    cases hrest : l.rest with
    | nil => simp [after, nextToken_nil hrest hplace, tokensAt]
    | cons c cs =>
      obtain ⟨htoken, -⟩ := nextToken_cons hrest hplace rfl
      rw [lexemes_cons, tokensAt]
      exact htoken
  | succ n ih =>
    cases hrest : l.rest with
    | nil =>
      have hend := nextToken_nil hrest hplace
      rw [after_of_stays (by rw [hend]), hend]
      simp [tokensAt]
    | cons c cs =>
      obtain ⟨-, hrest', hposition, hplace', -⟩ := nextToken_cons hrest hplace rfl
      have htail := ih hplace'
      rw [hrest', hposition] at htail
      rw [after, htail, lexemes_cons, tokensAt, List.getElem?_cons_succ, List.map_cons,
        List.sum_cons, Nat.add_assoc]

/-- The tokens that a lexer hands out: those of the line, and then the end of input for ever. -/
theorem nextToken_after_ofLine (line : String) (n : Nat) :
    ((ofLine line).after n).nextToken.1 =
      (tokenize line).1[n]?.getD (.placeholder .endOfInput line.utf8ByteSize) := by
  have hsize := sum_size_lexemes_toList line
  rw [nextToken_after rfl, tokenize_eq, show (ofLine line).rest = line.toList from rfl,
    show (ofLine line).position = 0 from rfl, hsize, Nat.zero_add, List.getElem?_append]
  split
  · rfl
  · next hn =>
    rw [List.getElem?_eq_none (Nat.le_of_not_lt hn)]
    cases n - (tokensAt 0 (lexemes line.toList)).length <;> rfl

/-- Behind the tokens of a line there is the end of input, and the lexer stays there. -/
theorem nextToken_end (line : String) : (ofLine line).tokens.2.nextToken =
    (.placeholder .endOfInput line.utf8ByteSize, (ofLine line).tokens.2) := by
  have hsize := sum_size_lexemes_toList line
  obtain ⟨-, -, hstays⟩ := drain_eq (l := ofLine line) rfl rfl (Nat.le_refl _)
  rwa [show (ofLine line).rest = line.toList from rfl, show (ofLine line).position = 0 from rfl,
    hsize, Nat.zero_add] at hstays

end Lexer

/-! ### Offsets of another kind -/

/-- The span between the mapped ends. -/
def Span.map (f : Nat → Nat) (s : Span) : Span := ⟨f s.start, f s.stop⟩

/-- A token at a changed place. -/
def Token.mapSpan (f : Span → Span) (t : Token) : Token := ⟨t.toLexeme, f t.span⟩

namespace Lexer

variable (f : Nat → Nat) {l : Lexer}

/-- A lexer that reports other offsets. -/
def placed (l : Lexer) : Lexer :=
  { l with place := f, errors := l.errors.map (·.mapSpan (Span.map f)) }

theorem nextToken_placed (hplace : l.place = id) : (l.placed f).nextToken =
    (l.nextToken.1.mapSpan (Span.map f), l.nextToken.2.placed f) := by
  unfold nextToken
  rw [show (l.placed f).rest = l.rest from rfl]
  cases l.rest with
  | nil => simp [placed, offset, hplace, Token.mapSpan, Token.placeholder, Span.point, Span.map]
  | cons c cs =>
    cases herror : (scan c cs).error? <;>
      simp [placed, offset, hplace, herror, Token.mapSpan, Span.map, Located.mapSpan]

theorem place_nextToken (l : Lexer) : l.nextToken.2.place = l.place := by
  unfold nextToken
  split <;> rfl

theorem next?_placed (hplace : l.place = id) : (l.placed f).next? =
    (l.next?.1.map (Token.mapSpan (Span.map f)), l.next?.2.placed f) := by
  unfold next?
  rw [show (l.placed f).finished = l.finished from rfl, nextToken_placed f hplace]
  split <;> rfl

theorem place_next? (l : Lexer) : l.next?.2.place = l.place := by
  unfold next?
  split
  · rfl
  · exact l.place_nextToken

/-- A lexer that reports other offsets cuts the same tokens. -/
theorem drain_placed (steps : Nat) (hplace : l.place = id) : drain steps (l.placed f) =
    ((drain steps l).1.map (Token.mapSpan (Span.map f)), (drain steps l).2.placed f) := by
  induction steps generalizing l with
  | zero => rfl
  | succ steps ih =>
    have hnext := next?_placed f hplace
    have hplace' := l.place_next?
    rw [drain, drain, hnext]
    cases h : l.next? with
    | mk t? l' =>
      rw [h, hplace] at hplace'
      cases t? with
      | none => rfl
      | some t =>
        dsimp only [Option.map_some]
        rw [ih hplace']
        rfl

/-- Characters with their byte offsets, the first one at an offset. -/
def charOffsets : Nat → List Char → List (Nat × Char)
  | _, [] => []
  | offset, c :: cs => (offset, c) :: charOffsets (offset + c.utf8Size) cs

theorem map_snd_charOffsets (offset : Nat) (cs : List Char) :
    (charOffsets offset cs).map Prod.snd = cs := by
  induction cs generalizing offset with
  | nil => rfl
  | cons c cs ih => rw [charOffsets, List.map_cons, ih]

/-- Every boundary of a text is found where it is, the end of the text behind its last character. -/
theorem placeAmong_charOffsets {cs : List Char} (hcs : cs ≠ []) {n : Nat}
    (hn : Text.isBoundary cs n = true) (offset : Nat) :
    placeAmong (charOffsets offset cs) n = offset + n := by
  induction cs generalizing offset n with
  | nil => exact absurd rfl hcs
  | cons c cs ih =>
    cases n with
    | zero => cases cs <;> rfl
    | succ n =>
      simp only [Text.isBoundary, Bool.and_eq_true, decide_eq_true_eq] at hn
      obtain ⟨hle, hrest⟩ := hn
      cases cs with
      | nil =>
        -- a boundary behind the only character is the end
        cases hbeyond : n + 1 - c.utf8Size with
        | zero =>
          have hend : n + 1 = c.utf8Size := by omega
          rw [hend]
          simp [charOffsets, placeAmong, Nat.ne_of_gt c.utf8Size_pos]
        | succ m =>
          rw [hbeyond] at hrest
          cases hrest
      | cons d ds =>
        have htail := ih (by simp) hrest (offset + c.utf8Size)
        rw [charOffsets, charOffsets, placeAmong, if_neg (Nat.succ_ne_zero n), ← charOffsets, htail]
        omega

theorem placeAmong_of_isBoundary {cs : List Char} {n : Nat} (hn : Text.isBoundary cs n = true) :
    placeAmong (charOffsets 0 cs) n = n := by
  by_cases hcs : cs = []
  · subst hcs
    cases n with
    | zero => rfl
    | succ n => cases hn
  · rw [placeAmong_charOffsets hcs hn, Nat.zero_add]

theorem map_placeAmong {cs : List Char} {s : Span} (hs : s.fits cs = true) :
    s.map (placeAmong (charOffsets 0 cs)) = s := by
  simp only [Span.fits, Bool.and_eq_true] at hs
  rw [Span.map, placeAmong_of_isBoundary hs.1.2, placeAmong_of_isBoundary hs.2]

/-- A line whose characters bring their byte offsets is cut into the tokens of the line, with the
same errors. -/
theorem tokens_ofPlaced_charOffsets (line : String) :
    let l := ofPlaced (charOffsets 0 line.toList)
    (l.tokens.1, l.tokens.2.errors.toList) = tokenize line := by
  intro l
  let f := placeAmong (charOffsets 0 line.toList)
  have hl : l = (ofLine line).placed f := by
    simp [l, f, ofPlaced, placed, ofLine, map_snd_charOffsets]
  have htokens : ∀ t ∈ (tokenize line).1, t.mapSpan (Span.map f) = t := by
    intro t ht
    rw [Token.mapSpan, map_placeAmong (shows_of_mem_tokenize ht).fits]
  have herrors : ∀ e ∈ (tokenize line).2, e.mapSpan (Span.map f) = e := by
    intro e he
    obtain ⟨t, ht, hspan, -⟩ := exists_token_of_mem_errors he
    rw [Located.mapSpan, map_placeAmong (hspan ▸ (shows_of_mem_tokenize ht).fits)]
  have hdrain : l.tokens =
      ((ofLine line).tokens.1.map (Token.mapSpan (Span.map f)), (ofLine line).tokens.2.placed f) := by
    rw [hl]
    exact drain_placed f _ rfl
  rw [hdrain]
  apply Prod.ext
  · exact (List.map_congr_left htokens).trans (List.map_id _)
  · rw [placed, Array.toList_map]
    exact (List.map_congr_left herrors).trans (List.map_id _)

end Lexer

/-! ### The stream as a whole -/

/-- **The tokens of a line tile it.** The last token is the end of input, at the end of the line;
the others are not empty and are no ends of input. Their texts one after the other are the line,
their spans follow each other from the beginning of the line to its end, and each one shows the
text of its token, between two boundaries of characters. This is the stream that a lexer hands out
token by token, and past it there is the end of input for ever; and it is the same stream when the
characters of the line bring their byte offsets with them. -/
theorem tokenize_tiles (line : String) :
    (∃ ts, (tokenize line).1 = ts ++ [.placeholder .endOfInput line.utf8ByteSize] ∧
      ∀ t ∈ ts, t.kind ≠ .endOfInput ∧ t.span.start < t.span.stop) ∧
    String.join ((tokenize line).1.map fun t => t.text) = line ∧
    Tiles 0 (tokenize line).1 line.utf8ByteSize ∧
    (∀ t ∈ (tokenize line).1, t.span.bytes line = t.text.toUTF8 ∧ t.span.fits line.toList) ∧
    (∀ n, ((Lexer.ofLine line).after n).nextToken.1 =
      (tokenize line).1[n]?.getD (.placeholder .endOfInput line.utf8ByteSize)) ∧
    (∀ n, ((Lexer.ofLine line).tokens.2.after n).nextToken =
      (.placeholder .endOfInput line.utf8ByteSize, (Lexer.ofLine line).tokens.2)) ∧
    let l := Lexer.ofPlaced (Lexer.charOffsets 0 line.toList)
    (l.tokens.1, l.tokens.2.errors.toList) = tokenize line := by
  refine ⟨⟨tokensAt 0 (lexemes line.toList), ?_, ?_⟩, join_text_tokenize line,
    tiles_tokenize line, ?_, Lexer.nextToken_after_ofLine line, ?_,
    Lexer.tokens_ofPlaced_charOffsets line⟩
  · rw [tokenize_eq]
  · intro t ht
    have hmem := toLexeme_mem_of_mem_tokensAt ht
    have hpos : 0 < t.size := size_pos_of_mem_lexemes hmem
    obtain ⟨-, hstop, -⟩ := bounds_of_mem_tokensAt ht
    exact ⟨kind_ne_endOfInput_of_mem_lexemes hmem, by omega⟩
  · intro t ht
    have hshows := shows_of_mem_tokenize ht
    exact ⟨hshows.bytes, hshows.fits⟩
  · intro n
    have hend := Lexer.nextToken_end line
    rw [Lexer.after_of_stays (by rw [hend]), hend]

end ExprLang

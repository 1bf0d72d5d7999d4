import ExprLang.Lexer
import Mathlib.Data.List.TakeWhile

/-!
# One lexeme at the head of a text

What `scan` cuts off a text, whatever the text is:

* `scan_text`: the lexeme and the rest are the text again, so no character is lost;
* `scan_error`: what is wrong can be read off the lexeme alone (`Lexeme.flaw?`);
* `scan_kind_ne_endOfInput`: the end of input is no lexeme of a text.
-/

namespace ExprLang

namespace Symbol

theorem spelling_of_ofChar? {c : Char} {s : Symbol} (h : ofChar? c = some s) :
    s.spelling.toList = [c] := by
  unfold ofChar? at h
  split at h <;> cases h <;> rfl

theorem spelling_of_ofPair? {c d : Char} {s : Symbol} (h : ofPair? c d = some s) :
    s.spelling.toList = [c, d] := by
  unfold ofPair? at h
  split at h <;> cases h <;> rfl

end Symbol

/-- What is wrong with a lexeme: a stray character, digits without a value, or a string without its
closing quote. -/
def Lexeme.flaw? (l : Lexeme) : Option LexicalError :=
  match l.kind, l.literal?, l.text.toList with
  | .stray, _, c :: _ => some (.unrecognized c)
  | .literal, none, _ => some (.invalidNumber l.text)
  | .literal, some (.string _), _ :: content =>
    if '"' ∈ content then none else some .unterminatedString
  | _, _, _ => none

theorem Lexeme.kind_of_flaw? {l : Lexeme} {e : LexicalError} (h : l.flaw? = some e) :
    l.kind = .stray ∨ l.kind = .literal := by
  unfold flaw? at h
  split at h
  · exact Or.inl ‹_›
  · exact Or.inr ‹_›
  · exact Or.inr ‹_›
  · cases h

namespace Scan

/-! ### The parts of `scan` -/

theorem symbol?_text {c : Char} {rest tail : List Char} {s : Symbol}
    (h : symbol? c rest = some (s, tail)) : s.spelling.toList ++ tail = c :: rest := by
  unfold symbol? at h
  split at h
  · obtain ⟨s', hs, he⟩ := Option.map_eq_some_iff.1 h
    cases he
    rw [Symbol.spelling_of_ofChar? hs, List.singleton_append]
  · split at h
    · next hp =>
      cases h
      rw [Symbol.spelling_of_ofPair? hp, List.cons_append, List.singleton_append]
    · obtain ⟨s', hs, he⟩ := Option.map_eq_some_iff.1 h
      cases he
      rw [Symbol.spelling_of_ofChar? hs, List.singleton_append]

theorem ofNumber_text (text rest : List Char) :
    (ofNumber text rest).lexeme.text = String.ofList text ∧ (ofNumber text rest).rest = rest := by
  unfold ofNumber
  dsimp only
  split <;> exact ⟨rfl, rfl⟩

theorem number_text (c : Char) (rest : List Char) :
    (number c rest).lexeme.text.toList ++ (number c rest).rest = c :: rest := by
  unfold number
  dsimp only
  split
  · next tail h =>
    obtain ⟨ht, hr⟩ := ofNumber_text
      (c :: rest.takeWhile Char.isDigit ++ '.' :: tail.takeWhile Char.isDigit)
      (tail.dropWhile Char.isDigit)
    rw [ht, hr, String.toList_ofList, List.append_assoc, List.cons_append, List.cons_append,
      List.takeWhile_append_dropWhile, ← h, List.takeWhile_append_dropWhile]
  · obtain ⟨ht, hr⟩ :=
      ofNumber_text (c :: rest.takeWhile Char.isDigit) (rest.dropWhile Char.isDigit)
    rw [ht, hr, String.toList_ofList, List.cons_append, List.takeWhile_append_dropWhile]

theorem ofWord_text (word : String) : (Lexeme.ofWord word).text = word := by
  unfold Lexeme.ofWord
  split <;> rfl

theorem string_text (rest : List Char) :
    (string rest).lexeme.text.toList ++ (string rest).rest = '"' :: rest := by
  have hsplit := List.takeWhile_append_dropWhile (p := (· != '"')) (l := rest)
  unfold string
  dsimp only
  split
  · next h =>
    rw [h, List.append_nil] at hsplit
    simp [hsplit]
  · next d tail h =>
    -- the character at which the content stops is the closing quote
    have hd : d = '"' := by
      have := List.head_dropWhile_not (p := (· != '"')) (l := rest) (by simp [h])
      simpa [h] using this
    rw [h, hd] at hsplit
    simp [hsplit]

end Scan

/-- No character is lost: the lexeme and the rest are the text. -/
theorem scan_text (c : Char) (rest : List Char) :
    (scan c rest).lexeme.text.toList ++ (scan c rest).rest = c :: rest := by
  unfold scan
  split
  · next h => exact Scan.symbol?_text h
  · split_ifs with hq hn hr hd ha hb
    · rw [beq_iff_eq.1 hq]
      exact Scan.string_text rest
    · simp [beq_iff_eq.1 hn]
    · rw [beq_iff_eq.1 hr]
      split <;> simp
    · exact Scan.number_text c rest
    · simp [Scan.word, Scan.ofWord_text]
    · simp [Scan.space]
    · simp

theorem scan_text_ne_nil (c : Char) (rest : List Char) :
    (scan c rest).lexeme.text.toList ≠ [] := by
  unfold scan
  split
  · next s _ _ => cases s <;> simp [Symbol.spelling]
  · split_ifs with hq hn hr hd ha hb
    · unfold Scan.string
      dsimp only
      split <;> simp
    · simp
    · split <;> simp
    · unfold Scan.number
      dsimp only
      split <;> simp [(Scan.ofNumber_text _ _).1]
    · simp [Scan.word, Scan.ofWord_text]
    · simp [Scan.space]
    · simp

theorem scan_rest_length (c : Char) (rest : List Char) :
    (scan c rest).rest.length < (c :: rest).length := by
  have htext := congrArg List.length (scan_text c rest)
  have hne := List.length_pos_iff.2 (scan_text_ne_nil c rest)
  rw [List.length_append] at htext
  omega

/-! ### What is wrong with a lexeme -/

namespace Scan

theorem ofWord_kind (word : String) :
    (Lexeme.ofWord word).kind = .identifier ∨ (Lexeme.ofWord word).kind = .constant ∨
      ∃ k, (Lexeme.ofWord word).kind = .keyword k := by
  unfold Lexeme.ofWord reserved?
  split
  · next h =>
    split at h
    · cases h
      exact Or.inr (Or.inl rfl)
    · obtain ⟨k, -, hk⟩ := Option.map_eq_some_iff.1 h
      cases hk
      exact Or.inr (Or.inr ⟨k, rfl⟩)
  · exact Or.inl rfl

theorem ofNumber_error (text rest : List Char) :
    (ofNumber text rest).error? = (ofNumber text rest).lexeme.flaw? := by
  unfold ofNumber
  dsimp only
  split <;> rfl

theorem number_error (c : Char) (rest : List Char) :
    (number c rest).error? = (number c rest).lexeme.flaw? := by
  unfold number
  dsimp only
  split <;> exact ofNumber_error _ _

theorem word_error (c : Char) (rest : List Char) :
    (word c rest).error? = (word c rest).lexeme.flaw? := by
  show none = (Lexeme.ofWord _).flaw?
  unfold Lexeme.flaw?
  rcases ofWord_kind (String.ofList (c :: rest.takeWhile isWordChar)) with h | h | ⟨k, h⟩ <;>
    rw [h]

theorem string_error (rest : List Char) :
    (string rest).error? = (string rest).lexeme.flaw? := by
  have hquote : '"' ∉ rest.takeWhile (· != '"') := fun h => by
    simpa using List.mem_takeWhile_imp h
  unfold string
  dsimp only
  split <;> simp [Lexeme.flaw?, hquote]

end Scan

/-- What is wrong with a lexeme can be read off it. -/
theorem scan_error (c : Char) (rest : List Char) :
    (scan c rest).error? = (scan c rest).lexeme.flaw? := by
  unfold scan
  split
  · rfl
  · split_ifs with hq hn hr hd ha hb
    · exact Scan.string_error rest
    · rfl
    · split <;> rfl
    · exact Scan.number_error c rest
    · exact Scan.word_error c rest
    · rfl
    · simp [Lexeme.flaw?]

theorem scan_kind_ne_endOfInput (c : Char) (rest : List Char) :
    (scan c rest).lexeme.kind ≠ .endOfInput := by
  unfold scan
  split
  · simp
  · split_ifs with hq hn hr hd ha hb
    · unfold Scan.string
      dsimp only
      split <;> simp
    · simp
    · split <;> simp
    · unfold Scan.number Scan.ofNumber
      dsimp only
      split <;> split <;> simp
    · unfold Scan.word
      dsimp only
      rcases Scan.ofWord_kind (String.ofList (c :: rest.takeWhile Scan.isWordChar)) with
        h | h | ⟨k, h⟩ <;> rw [h] <;> nofun
    · simp [Scan.space]
    · simp

end ExprLang

import ExprLang.Diagnostic
import ExprLang.Proofs.Lexing.Tiling

/-!
# What stands under a span

`span.Shows text line` says that a text stands in a line at a span. It does so for every token of
the line (`shows_of_mem_tokenize`); the bytes of the line under the span are then those of the text
(`Span.Shows.bytes`), and both ends of the span are character boundaries (`Span.Shows.fits`).
-/

namespace ExprLang

namespace Text

/-- A text may be cut behind the characters that it begins with. -/
theorem isBoundary_append (cs ds : List Char) :
    isBoundary (cs ++ ds) (String.ofList cs).utf8ByteSize = true := by
  induction cs with
  | nil => rw [String.ofList_nil]; cases ds <;> rfl
  | cons c cs ih =>
    have hsize : (String.ofList (c :: cs)).utf8ByteSize =
        (String.ofList cs).utf8ByteSize + c.utf8Size := by
      rw [show c :: cs = [c] ++ cs from rfl, String.ofList_append, String.utf8ByteSize_append,
        ← String.singleton_eq_ofList, String.utf8ByteSize_singleton, Nat.add_comm]
    rw [hsize, List.cons_append]
    obtain ⟨n, hn⟩ : ∃ n, (String.ofList cs).utf8ByteSize + c.utf8Size = n + 1 :=
      ⟨_, (Nat.succ_pred_eq_of_pos (Nat.add_pos_right _ c.utf8Size_pos)).symm⟩
    rw [hn, isBoundary, ← hn, Nat.add_sub_cancel, ih, Bool.and_true, decide_eq_true_eq]
    exact Nat.le_add_left ..

end Text

namespace Span

/-- The bytes of a line under a span. -/
def bytes (s : Span) (line : String) : ByteArray := line.toUTF8.extract s.start s.stop

/-- A text that stands in a line at a span. -/
def Shows (s : Span) (text line : String) : Prop :=
  ∃ before after, line = before ++ text ++ after ∧
    s = ⟨before.utf8ByteSize, before.utf8ByteSize + text.utf8ByteSize⟩

variable {s : Span} {text line : String}

theorem Shows.bytes (h : s.Shows text line) : s.bytes line = text.toUTF8 := by
  obtain ⟨before, after, rfl, rfl⟩ := h
  show (before ++ text ++ after).toByteArray.extract _ _ = text.toByteArray
  rw [String.append_assoc, String.toByteArray_append, String.toByteArray_append]
  have hbefore := ByteArray.extract_append_size_add (a := before.toByteArray) (i := 0)
    (b := text.toByteArray ++ after.toByteArray) (j := text.utf8ByteSize)
  exact hbefore.trans (ByteArray.extract_append_eq_left String.size_toByteArray.symm)

theorem Shows.fits (h : s.Shows text line) : s.fits line.toList = true := by
  obtain ⟨before, after, rfl, rfl⟩ := h
  have hstart := Text.isBoundary_append before.toList (text ++ after).toList
  have hstop := Text.isBoundary_append (before ++ text).toList after.toList
  rw [String.ofList_toList, ← String.toList_append] at hstart hstop
  rw [← String.append_assoc] at hstart
  rw [String.utf8ByteSize_append] at hstop
  simp only [Span.fits, Bool.and_eq_true, decide_eq_true_eq]
  exact ⟨⟨Nat.le_add_right .., hstart⟩, hstop⟩

/-- A span that shows a text ends in the line. -/
theorem Shows.stop_le (h : s.Shows text line) : s.stop ≤ line.utf8ByteSize := by
  obtain ⟨before, after, rfl, rfl⟩ := h
  rw [String.utf8ByteSize_append, String.utf8ByteSize_append]
  exact Nat.le_add_right ..

end Span

/-- An error is shown in a line that has its place. -/
theorem Diagnostic.excerpt?_ofError {e : Error} {line : String}
    (h : e.span.fits line.toList = true) :
    (ofError e line).excerpt? = some ⟨line, lineName, some e.val.label, e.span⟩ :=
  if_pos h

/-- Lexemes that are laid side by side show their texts. -/
theorem exists_of_mem_tokensAt {offset : Nat} {ls : List Lexeme} {t : Token}
    (h : t ∈ tokensAt offset ls) : ∃ before after, ls = before ++ t.toLexeme :: after ∧
      t.span.start = offset + (before.map Lexeme.size).sum ∧
      t.span.stop = t.span.start + t.size := by
  induction ls generalizing offset with
  | nil => cases h
  | cons l ls ih =>
    rcases List.mem_cons.1 h with rfl | h
    · exact ⟨[], ls, rfl, rfl, rfl⟩
    · obtain ⟨before, after, rfl, hstart, hstop⟩ := ih h
      refine ⟨l :: before, after, rfl, ?_, hstop⟩
      rw [hstart, List.map_cons, List.sum_cons, Nat.add_assoc]

/-- The text of lexemes. -/
theorem utf8ByteSize_flatMap_text (ls : List Lexeme) :
    (String.ofList (ls.flatMap fun l => l.text.toList)).utf8ByteSize = (ls.map Lexeme.size).sum := by
  induction ls with
  | nil => rfl
  | cons l ls ih =>
    rw [List.flatMap_cons, String.ofList_append, String.utf8ByteSize_append, ih,
      String.ofList_toList, List.map_cons, List.sum_cons, Lexeme.size]

/-- **Every token shows its text.** -/
theorem shows_of_mem_tokenize {line : String} {t : Token} (ht : t ∈ (tokenize line).1) :
    t.span.Shows t.text line := by
  rw [tokenize_eq] at ht
  rcases List.mem_append.1 ht with ht | ht
  · obtain ⟨before, after, hlexemes, hstart, hstop⟩ := exists_of_mem_tokensAt ht
    have htext := flatMap_text_lexemes line.toList
    rw [hlexemes, List.flatMap_append, List.flatMap_cons] at htext
    refine ⟨String.ofList (before.flatMap fun l => l.text.toList),
      String.ofList (after.flatMap fun l => l.text.toList), ?_, ?_⟩
    · rw [← String.toList_inj, String.toList_append, String.toList_append, String.toList_ofList,
        String.toList_ofList, ← htext, List.append_assoc]
    · rw [utf8ByteSize_flatMap_text, ← Nat.zero_add (before.map Lexeme.size).sum, ← hstart]
      exact congrArg (Span.mk t.span.start) hstop
  · rw [List.mem_singleton.1 ht]
    exact ⟨line, "", by simp [Token.placeholder], rfl⟩

end ExprLang

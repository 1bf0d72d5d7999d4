import ExprLang.Proofs.Lexing.Scan
import Mathlib.Algebra.GroupWithZero.Nat

/-!
# The tokens of a line

A line is cut in two steps that do not depend on each other: `lexemes` cuts the text, and `tokensAt`
lays the lexemes side by side from an offset on. No character is lost (`flatMap_text_lexemes`), and
`tokenize` is this (`tokenize_eq`): the placed lexemes, then the end of input, and the errors that
can be read off the tokens.

`tokenize_pairwise` gives the order of the tokens, and `mem_errors_iff` the tokens that an error
belongs to.
-/

namespace ExprLang

/-- The number of bytes of a lexeme. -/
def Lexeme.size (l : Lexeme) : Nat := l.text.utf8ByteSize

/-- The lexemes of a text, in order. -/
def lexemes : List Char → List Lexeme
  | [] => []
  | c :: cs => (scan c cs).lexeme :: lexemes (scan c cs).rest
termination_by cs => cs.length
decreasing_by exact scan_rest_length c cs

@[simp] theorem lexemes_nil : lexemes [] = [] := by rw [lexemes]

theorem lexemes_cons (c : Char) (cs : List Char) :
    lexemes (c :: cs) = (scan c cs).lexeme :: lexemes (scan c cs).rest := by rw [lexemes]

/-- The texts of the lexemes are the text. -/
theorem flatMap_text_lexemes (cs : List Char) :
    (lexemes cs).flatMap (fun l => l.text.toList) = cs := by
  fun_induction lexemes cs with
  | case1 => rfl
  | case2 c cs ih => rw [List.flatMap_cons, ih, scan_text]

/-- Every lexeme is one that `scan` cuts off. -/
theorem exists_scan_of_mem_lexemes {cs : List Char} {l : Lexeme} (h : l ∈ lexemes cs) :
    ∃ c rest, (scan c rest).lexeme = l := by
  fun_induction lexemes cs with
  | case1 => cases h
  | case2 c cs ih =>
    rcases List.mem_cons.1 h with rfl | h
    · exact ⟨c, cs, rfl⟩
    · exact ih h

theorem kind_ne_endOfInput_of_mem_lexemes {cs : List Char} {l : Lexeme} (h : l ∈ lexemes cs) :
    l.kind ≠ .endOfInput := by
  obtain ⟨c, rest, rfl⟩ := exists_scan_of_mem_lexemes h
  exact scan_kind_ne_endOfInput c rest

theorem size_pos_of_mem_lexemes {cs : List Char} {l : Lexeme} (h : l ∈ lexemes cs) :
    0 < l.size := by
  obtain ⟨c, rest, rfl⟩ := exists_scan_of_mem_lexemes h
  have hne := scan_text_ne_nil c rest
  unfold Lexeme.size
  rw [Nat.pos_iff_ne_zero, Ne, String.utf8ByteSize_eq_zero_iff]
  intro h
  exact hne (by rw [h]; rfl)

/-! ### Placing lexemes -/

/-- The lexemes as tokens, one behind the other, from an offset on. -/
def tokensAt : Nat → List Lexeme → List Token
  | _, [] => []
  | offset, l :: ls => ⟨l, ⟨offset, offset + l.size⟩⟩ :: tokensAt (offset + l.size) ls

/-- What is wrong with a token, at its place. -/
def Token.flaw? (t : Token) : Option (Located LexicalError) :=
  t.toLexeme.flaw?.map fun e => ⟨e, t.span⟩

theorem tokensAt_toLexeme (offset : Nat) (ls : List Lexeme) :
    (tokensAt offset ls).map Token.toLexeme = ls := by
  induction ls generalizing offset with
  | nil => rfl
  | cons l ls ih => rw [tokensAt, List.map_cons, ih]

theorem toLexeme_mem_of_mem_tokensAt {offset : Nat} {ls : List Lexeme} {t : Token}
    (h : t ∈ tokensAt offset ls) : t.toLexeme ∈ ls := by
  rw [← tokensAt_toLexeme offset ls]
  exact List.mem_map_of_mem h

/-- The tokens of a line begin at or after the offset, and end at or before the end of the line. -/
theorem bounds_of_mem_tokensAt {offset : Nat} {ls : List Lexeme} {t : Token}
    (h : t ∈ tokensAt offset ls) :
    offset ≤ t.span.start ∧ t.span.stop = t.span.start + t.size ∧
      t.span.stop ≤ offset + (ls.map Lexeme.size).sum := by
  induction ls generalizing offset with
  | nil => cases h
  | cons l ls ih =>
    rw [List.map_cons, List.sum_cons]
    rcases List.mem_cons.1 h with rfl | h
    · exact ⟨Nat.le_refl _, rfl, by dsimp only; omega⟩
    · obtain ⟨hstart, hstop, hend⟩ := ih h
      exact ⟨by omega, hstop, by omega⟩

/-- A token ends before the next ones begin. -/
theorem tokensAt_pairwise (offset : Nat) (ls : List Lexeme) :
    (tokensAt offset ls).Pairwise fun s t => s.span.stop ≤ t.span.start := by
  induction ls generalizing offset with
  | nil => exact List.Pairwise.nil
  | cons l ls ih => exact List.pairwise_cons.2 ⟨fun t ht => (bounds_of_mem_tokensAt ht).1, ih _⟩

/-! ### The lexer -/

namespace Lexer

variable {steps : Nat} {l : Lexer}

theorem nextToken_nil (hrest : l.rest = []) (hplace : l.place = id) :
    l.nextToken = (.placeholder .endOfInput l.position, l) := by
  unfold nextToken
  rw [hrest]
  simp [offset, hplace]

/-- One step: the token at the position, and the lexer behind it. -/
theorem nextToken_cons {c : Char} {cs : List Char} (hrest : l.rest = c :: cs)
    (hplace : l.place = id) {t : Token}
    (ht : t = ⟨(scan c cs).lexeme, ⟨l.position, l.position + (scan c cs).lexeme.size⟩⟩) :
    l.nextToken.1 = t ∧ l.nextToken.2.rest = (scan c cs).rest ∧
      l.nextToken.2.position = l.position + (scan c cs).lexeme.size ∧
      l.nextToken.2.place = id ∧
      l.nextToken.2.errors.toList = l.errors.toList ++ t.flaw?.toList := by
  subst ht
  unfold nextToken Token.flaw?
  rw [hrest]
  simp only [offset, hplace, Lexeme.size, ← scan_error, id_eq]
  refine ⟨trivial, trivial, trivial, trivial, ?_⟩
  cases (scan c cs).error? <;> simp

/-- The tokens that are left of a line: the placed lexemes of the rest and the end of input, which
is answered from then on. -/
theorem drain_eq (hplace : l.place = id) (hopen : l.finished = false)
    (hsteps : l.rest.length + 2 ≤ steps) :
    (drain steps l).1 = tokensAt l.position (lexemes l.rest) ++
        [.placeholder .endOfInput (l.position + ((lexemes l.rest).map Lexeme.size).sum)] ∧
      (drain steps l).2.errors.toList =
        l.errors.toList ++ (tokensAt l.position (lexemes l.rest)).filterMap Token.flaw? ∧
      (drain steps l).2.nextToken =
        (.placeholder .endOfInput (l.position + ((lexemes l.rest).map Lexeme.size).sum),
          (drain steps l).2) := by
  induction steps generalizing l with
  | zero => omega
  | succ steps ih =>
    cases hrest : l.rest with
    | nil =>
      obtain ⟨steps, rfl⟩ : ∃ n, steps = n + 1 := ⟨steps - 1, by omega⟩
      have hstays := nextToken_nil (l := { l with finished := true }) hrest hplace
      simp [drain, next?, hopen, nextToken_nil hrest hplace, Token.placeholder, tokensAt, hstays]
    | cons c cs =>
      rw [hrest] at hsteps
      have hlength := scan_rest_length c cs
      have hkind := scan_kind_ne_endOfInput c cs
      generalize ht : (⟨(scan c cs).lexeme, ⟨l.position, l.position + (scan c cs).lexeme.size⟩⟩ :
        Token) = t
      obtain ⟨htoken, hrest', hposition, hplace', herrors⟩ := nextToken_cons hrest hplace ht.symm
      have hnext : l.next? = (some t, { l.nextToken.2 with finished := false }) := by
        simp [next?, hopen, htoken, ← ht, hkind]
      obtain ⟨htokens, hlist, hstays⟩ := ih (l := { l.nextToken.2 with finished := false }) hplace'
        rfl (by rw [hrest']; omega)
      rw [hrest', hposition] at htokens hlist hstays
      rw [lexemes_cons, tokensAt, ht, List.map_cons, List.sum_cons, ← Nat.add_assoc]
      simp only [drain, hnext]
      refine ⟨by rw [htokens, List.cons_append], ?_, hstays⟩
      rw [hlist, herrors, List.append_assoc, List.filterMap_cons]
      cases t.flaw? <;> rfl

end Lexer

theorem sum_size_lexemes (cs : List Char) :
    ((lexemes cs).map Lexeme.size).sum = (String.ofList cs).utf8ByteSize := by
  fun_induction lexemes cs with
  | case1 => rfl
  | case2 c cs ih =>
    rw [List.map_cons, List.sum_cons, ih, Lexeme.size, ← String.utf8ByteSize_append,
      ← String.ofList_toList (s := (scan c cs).lexeme.text), ← String.ofList_append, scan_text]

theorem sum_size_lexemes_toList (line : String) :
    ((lexemes line.toList).map Lexeme.size).sum = line.utf8ByteSize := by
  rw [sum_size_lexemes, String.ofList_toList]

/-- The tokens of a line are its lexemes side by side and the end of input; the errors can be read
off the tokens. -/
theorem tokenize_eq (line : String) :
    tokenize line = (tokensAt 0 (lexemes line.toList) ++
        [.placeholder .endOfInput line.utf8ByteSize],
      (tokensAt 0 (lexemes line.toList)).filterMap Token.flaw?) := by
  have hsteps : (Lexer.ofLine line).rest.length + 2 ≤ line.toList.length + 2 := Nat.le_refl _
  obtain ⟨htokens, herrors, -⟩ := Lexer.drain_eq (l := Lexer.ofLine line) rfl rfl hsteps
  have hsize := sum_size_lexemes_toList line
  unfold tokenize Lexer.tokens
  refine Prod.ext ?_ ?_
  · rw [← hsize, ← Nat.zero_add ((lexemes line.toList).map Lexeme.size).sum]
    exact htokens
  · exact herrors

/-! ### Order of the tokens -/

/-- The tokens of a line follow each other: each one begins behind the beginning of the tokens
before it, and not before their end. -/
theorem tokenize_pairwise (line : String) : (tokenize line).1.Pairwise fun s t =>
    s.span.start < t.span.start ∧ s.span.stop ≤ t.span.start := by
  have hsize := sum_size_lexemes_toList line
  rw [tokenize_eq]
  refine List.pairwise_append.2 ⟨?_, List.pairwise_singleton _ _, ?_⟩
  · refine (tokensAt_pairwise 0 (lexemes line.toList)).imp_of_mem fun {s t} hs _ hst => ⟨?_, hst⟩
    have hpos : 0 < s.size := size_pos_of_mem_lexemes (toLexeme_mem_of_mem_tokensAt hs)
    obtain ⟨-, hstop, -⟩ := bounds_of_mem_tokensAt hs
    omega
  · intro s hs t ht
    rw [List.mem_singleton.1 ht]
    have hpos : 0 < s.size := size_pos_of_mem_lexemes (toLexeme_mem_of_mem_tokensAt hs)
    obtain ⟨-, hstop, hend⟩ := bounds_of_mem_tokensAt hs
    show s.span.start < line.utf8ByteSize ∧ s.span.stop ≤ line.utf8ByteSize
    omega

/-- Two tokens of a line that begin at the same place are the same. -/
theorem eq_of_start_eq {line : String} {s t : Token} (hs : s ∈ (tokenize line).1)
    (ht : t ∈ (tokenize line).1) (h : s.span.start = t.span.start) : s = t := by
  have horder := tokenize_pairwise line
  refine List.Pairwise.forall_of_forall_of_flip
    (R := fun s t => s.span.start = t.span.start → s = t) (fun _ _ _ => rfl) (horder.imp ?_)
    (horder.imp ?_) hs ht h
  · intro s t hst h
    omega
  · intro s t hst h
    omega

/-- A lexical error begins where the token with the flaw begins. -/
theorem span_of_flaw? {t : Token} {e : Located LexicalError} (h : t.flaw? = some e) :
    e.span = t.span := by
  obtain ⟨e, -, rfl⟩ := Option.map_eq_some_iff.1 h
  rfl

/-- A lexical error is the flaw of one of the tokens. -/
theorem mem_errors_iff {line : String} {e : Located LexicalError} :
    e ∈ (tokenize line).2 ↔ ∃ t ∈ (tokenize line).1, t.flaw? = some e := by
  have hend : (Token.placeholder .endOfInput line.utf8ByteSize).flaw? = none := rfl
  rw [tokenize_eq]
  simp only [List.mem_filterMap, List.mem_append, List.mem_singleton]
  constructor
  · rintro ⟨t, ht, h⟩
    exact ⟨t, Or.inl ht, h⟩
  · rintro ⟨t, ht | rfl, h⟩
    · exact ⟨t, ht, h⟩
    · rw [hend] at h
      cases h

/-- Nothing is wrong with a token at which no lexical error begins. -/
theorem flaw?_eq_none {line : String} {t : Token} (ht : t ∈ (tokenize line).1)
    (h : ∀ x ∈ (tokenize line).2, x.span.start ≠ t.span.start) : t.flaw? = none := by
  cases hflaw : t.flaw? with
  | none => rfl
  | some x =>
    refine absurd ?_ (h x (mem_errors_iff.2 ⟨t, ht, hflaw⟩))
    rw [span_of_flaw? hflaw]

/-- A lexical error stands where a stray character or a literal stands. -/
theorem exists_token_of_mem_errors {line : String} {e : Located LexicalError}
    (h : e ∈ (tokenize line).2) :
    ∃ t ∈ (tokenize line).1, t.span = e.span ∧ (t.kind = .stray ∨ t.kind = .literal) := by
  obtain ⟨t, ht, hflaw⟩ := mem_errors_iff.1 h
  obtain ⟨e', he', rfl⟩ := Option.map_eq_some_iff.1 hflaw
  exact ⟨t, ht, rfl, Lexeme.kind_of_flaw? he'⟩

end ExprLang

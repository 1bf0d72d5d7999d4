import ExprLang.Proofs.Lexing.Scan
import ExprLang.Proofs.Number.Reading

/-!
# Lexemes of a known shape

What `scan` cuts off a text that begins with a blank, a string, a symbol, a word or a number, when
it is known what follows: exactly that piece, as long as what follows does not continue it. The
branches of `scan` exclude each other because the tables of characters lie apart.
-/

namespace ExprLang

/-! ### Classes of characters -/

namespace Text

/-- Whether the runs of two tables lie apart. -/
def Ranges.apart (r s : Ranges) : Bool :=
  r.all fun x => s.all fun y => Nat.blt x.2 y.1 || Nat.blt y.2 x.1

theorem Ranges.contains_iff {r : Ranges} {n : Nat} :
    r.contains n ↔ ∃ x ∈ r, x.1 ≤ n ∧ n ≤ x.2 := by
  induction r with
  | nil => simp [contains]
  | cons x r ih => simp [contains, ih, Nat.ble_eq]

theorem Ranges.contains_of_apart {r s : Ranges} (h : r.apart s) {n : Nat} (hr : r.contains n) :
    s.contains n = false := by
  rw [← Bool.not_eq_true, contains_iff]
  rintro ⟨y, hy, hy1, hy2⟩
  obtain ⟨x, hx, hx1, hx2⟩ := contains_iff.1 hr
  have := List.all_eq_true.1 (List.all_eq_true.1 h x hx) y hy
  rw [Bool.or_eq_true, Nat.blt_eq, Nat.blt_eq] at this
  omega

/-- The digits that a number is made of. -/
def decimalDigits : Ranges := [(0x30, 0x39)]

theorem isDigit_eq (c : Char) : c.isDigit = decimalDigits.contains c.toNat := by
  rw [Bool.eq_iff_iff, Ranges.contains_iff]
  simp [Char.isDigit, decimalDigits, UInt32.le_iff_toNat_le]

theorem isAlphabetic_of_isBlank {c : Char} (h : isBlank c) : isAlphabetic c = false :=
  Ranges.contains_of_apart (by decide +kernel) h

theorem isDigit_of_isBlank {c : Char} (h : isBlank c) : c.isDigit = false := by
  rw [isDigit_eq]
  exact Ranges.contains_of_apart (by decide) h

theorem isDigit_of_isAlphabetic {c : Char} (h : isAlphabetic c) : c.isDigit = false := by
  rw [isDigit_eq]
  exact Ranges.contains_of_apart (by decide +kernel) h

end Text

variable {c d : Char} {cs rest : List Char}

/-- Whether a word can begin with a character. -/
def Scan.startsWord (c : Char) : Bool := Text.isAlphabetic c || c == '_'

namespace Symbol

theorem ofPair?_eq_none (h : ofChar? c = none) : ofPair? c d = none := by
  unfold ofPair?
  split <;> first | rfl | cases h

theorem ofPair?_eq_none_of_notMem (h : d ∉ ['=', '>', '&', '|']) : ofPair? c d = none := by
  unfold ofPair?
  split <;> first | rfl | exact absurd (by decide) h

theorem ofChar?_of_isBlank (h : Text.isBlank c) : ofChar? c = none := by
  unfold ofChar?
  split <;> first | rfl | exact absurd h (by decide)

theorem ofChar?_of_isDigit (h : c.isDigit) : ofChar? c = none := by
  unfold ofChar?
  split <;> first | rfl | exact absurd h (by decide)

theorem ofChar?_of_startsWord (h : Scan.startsWord c) : ofChar? c = none := by
  unfold ofChar?
  split <;> first | rfl | exact absurd h (by decide +kernel)

end Symbol

theorem Scan.symbol?_eq_none (h : Symbol.ofChar? c = none) : symbol? c rest = none := by
  unfold symbol?
  split
  · rw [h]
    rfl
  · rw [Symbol.ofPair?_eq_none h, h]
    rfl

theorem ne_of_class {p : Char → Bool} (h : p c) (d : Char) (hd : p d = false) : (c == d) = false :=
  beq_eq_false_iff_ne.2 fun heq => by
    rw [heq, hd] at h
    cases h

/-! ### Single lexemes -/

theorem scan_of_isSpace (h : Scan.isSpace c) : scan c rest = Scan.space c rest := by
  have hspace := h
  unfold Scan.isSpace at h
  simp only [Bool.and_eq_true, bne_iff_ne] at h
  obtain ⟨⟨hblank, hn⟩, hr⟩ := h
  unfold scan
  rw [Scan.symbol?_eq_none (Symbol.ofChar?_of_isBlank hblank), ne_of_class hspace '"' (by decide)]
  simp [hn, hr, Text.isDigit_of_isBlank hblank, Text.isAlphabetic_of_isBlank hblank, hblank]
  rintro rfl
  exact absurd hblank (by decide)

theorem scan_of_startsWord (h : Scan.startsWord c) : scan c rest = Scan.word c rest := by
  have hdigit : c.isDigit = false := by
    rcases Bool.or_eq_true_iff.1 h with h | h
    · exact Text.isDigit_of_isAlphabetic h
    · rw [beq_iff_eq.1 h]
      rfl
  unfold scan
  rw [Scan.symbol?_eq_none (Symbol.ofChar?_of_startsWord h),
    ne_of_class h '"' (by decide +kernel), ne_of_class h '\n' (by decide +kernel),
    ne_of_class h '\r' (by decide +kernel), hdigit]
  unfold Scan.startsWord at h
  simp [h]

theorem scan_of_isDigit (h : c.isDigit) : scan c rest = Scan.number c rest := by
  unfold scan
  rw [Scan.symbol?_eq_none (Symbol.ofChar?_of_isDigit h), ne_of_class h '"' (by decide),
    ne_of_class h '\n' (by decide), ne_of_class h '\r' (by decide), h]
  rfl

theorem scan_string (s rest : List Char) (hs : '"' ∉ s) :
    scan '"' (s ++ '"' :: rest) =
      ⟨⟨.literal, String.ofList ('"' :: s ++ ['"']), some (.string (String.ofList s))⟩, none,
        rest⟩ := by
  have hquote : ∀ c ∈ s, (c != '"') = true := fun c hc => by
    rw [bne_iff_ne]
    rintro rfl
    exact hs hc
  have hscan : scan '"' (s ++ '"' :: rest) = Scan.string (s ++ '"' :: rest) := by
    unfold scan
    rw [Scan.symbol?_eq_none rfl]
    rfl
  rw [hscan, Scan.string, List.takeWhile_append_of_pos hquote, List.dropWhile_append_of_pos hquote]
  simp

/-- The symbol at the head of a text, if no longer symbol is there. -/
theorem scan_symbol (s : Symbol) (hrest : ∀ d ∈ rest.head?, d ∉ ['=', '>', '&', '|']) :
    ∃ c cs, s.spelling.toList = c :: cs ∧
      scan c (cs ++ rest) = ⟨⟨.symbol s, s.spelling, none⟩, none, rest⟩ := by
  have hone : ∀ c, Symbol.ofChar? c = some s →
      scan c rest = ⟨⟨.symbol s, s.spelling, none⟩, none, rest⟩ := by
    intro c hc
    have hsymbol : Scan.symbol? c rest = some (s, rest) := by
      unfold Scan.symbol?
      cases rest with
      | nil => simp [hc]
      | cons d tail => simp [hc, Symbol.ofPair?_eq_none_of_notMem (hrest d rfl)]
    unfold scan
    rw [hsymbol]
  cases s with
  -- two characters are taken together whatever follows
  | doubleAmpersand | doublePipe | doubleEqual | notEqual | lessEqual | greaterEqual | arrow =>
    exact ⟨_, _, rfl, rfl⟩
  | _ => exact ⟨_, _, rfl, hone _ rfl⟩

theorem takeWhile_append_of_head {α : Type} {p : α → Bool} {s t : List α} (hs : ∀ d ∈ s, p d)
    (ht : ∀ d ∈ t.head?, p d = false) :
    (s ++ t).takeWhile p = s ∧ (s ++ t).dropWhile p = t := by
  rw [List.takeWhile_append_of_pos hs, List.dropWhile_append_of_pos hs]
  cases t with
  | nil => simp
  | cons d tail => simp [ht d rfl]

theorem scan_word (hc : Scan.startsWord c) (hcs : ∀ d ∈ cs, Scan.isWordChar d)
    (hrest : ∀ d ∈ rest.head?, Scan.isWordChar d = false) :
    scan c (cs ++ rest) = ⟨.ofWord (String.ofList (c :: cs)), none, rest⟩ := by
  obtain ⟨htake, hdrop⟩ := takeWhile_append_of_head hcs hrest
  rw [scan_of_startsWord hc, Scan.word, htake, hdrop]

theorem scan_number {whole fraction : List Char} (h : Numeral (c :: whole) fraction)
    (hrest : ∀ d ∈ rest.head?, d.isDigit = false ∧ d ≠ '.') :
    scan c ((Number.joined false (c :: whole) fraction).toList.tail ++ rest) =
      Scan.ofNumber (Number.joined false (c :: whole) fraction).toList rest := by
  have hwhole : ∀ d ∈ whole, d.isDigit := fun d hd =>
    h.whole_digits d (List.mem_cons_of_mem c hd)
  rw [scan_of_isDigit (h.whole_digits c List.mem_cons_self), Number.toList_joined, Scan.number]
  cases fraction with
  | nil =>
    obtain ⟨htake, hdrop⟩ := takeWhile_append_of_head hwhole fun d hd => (hrest d hd).1
    simp only [List.isEmpty_nil, if_true, List.tail_cons, htake, hdrop]
    cases rest with
    | nil => rfl
    | cons d tail =>
      have := (hrest d rfl).2
      split
      · next heq =>
        cases heq
        exact absurd rfl this
      · rfl
  | cons f fraction =>
    obtain ⟨htake, hdrop⟩ := takeWhile_append_of_head (t := '.' :: f :: fraction ++ rest) hwhole
      fun d hd => by cases hd; rfl
    obtain ⟨htake', hdrop'⟩ := takeWhile_append_of_head h.fraction_digits fun d hd => (hrest d hd).1
    simp only [List.isEmpty_cons, Bool.false_eq_true, if_false, List.cons_append, List.tail_cons,
      List.append_assoc] at htake hdrop htake' hdrop' ⊢
    simp [htake, hdrop, htake', hdrop']

end ExprLang

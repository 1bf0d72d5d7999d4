import ExprLang.Number.Text
import ExprLang.Proofs.Number.Shortest

/-!
# A number reads back

`Number.exists_numeral`: reading the text of a finite number without a sign gives the number again.
The text is a `Numeral`: digits with at most one point among them, which is neither first nor last.
-/

namespace ExprLang

open Binary64

/-- Digits, and a point with more digits after it unless there are none. -/
structure Numeral (whole fraction : List Char) : Prop where
  nonempty : whole ≠ []
  whole_digits : ∀ c ∈ whole, c.isDigit
  fraction_digits : ∀ c ∈ fraction, c.isDigit

/-! ### Positional notation -/

theorem digitsValue_eq (ds : List Char) : Number.digitsValue ds = Nat.ofDigitChars 10 ds 0 :=
  Nat.ofDigitChars_eq_foldl.symm

namespace Decimal

variable {d : Decimal} {whole fraction : List Char}

theorem value_pos (h : 0 < d.digits) : 0 < d.value :=
  mul_pos (Nat.cast_pos.2 h) (zpow_pos (by norm_num) _)

theorem isDigit_of_mem_digitText {n : Nat} {c : Char} (hc : c ∈ digitText n) : c.isDigit :=
  Nat.isDigit_of_mem_toDigits (by decide) (by decide) hc

/-- The parts of the positional notation are digits, and their value is that of the decimal. -/
theorem positional_spec (h : d.positional = (whole, fraction)) : Numeral whole fraction ∧
    (Number.digitsValue (whole ++ fraction) : ℚ) / (10 ^ fraction.length : Nat) = d.value := by
  have hdigits : ∀ k, ∀ c ∈ List.replicate k '0', c.isDigit := fun k c hc => by
    rw [(List.mem_replicate.1 hc).2]
    rfl
  have hpos : 0 < (digitText d.digits).length := Nat.length_toDigits_pos
  rw [digitsValue_eq, value]
  unfold positional at h
  dsimp only at h
  split at h
  · next hexp =>
    obtain ⟨k, hk⟩ := Int.eq_ofNat_of_zero_le hexp
    rw [hk, Int.toNat_natCast] at h
    cases h
    refine ⟨⟨?_, fun c hc => ?_, List.forall_mem_nil _⟩, ?_⟩
    · exact List.append_ne_nil_of_left_ne_nil (List.length_pos_iff.1 hpos) _
    · rcases List.mem_append.1 hc with hc | hc
      · exact isDigit_of_mem_digitText hc
      · exact hdigits k c hc
    · rw [List.append_nil, Nat.ofDigitChars_append, Nat.ofDigitChars_replicate_zero, digitText,
        Nat.ofDigitChars_ten_toDigits, hk]
      simp [mul_comm]
  · next hexp =>
    obtain ⟨k, hk⟩ : ∃ k : Nat, d.exponent = -k := ⟨(-d.exponent).toNat, by omega⟩
    rw [hk, neg_neg, Int.toNat_natCast, List.splitAt_eq] at h
    obtain ⟨rfl, rfl⟩ := Prod.mk.inj h
    have hmem : ∀ c ∈ List.replicate (k + 1 - (digitText d.digits).length) '0' ++
        digitText d.digits, c.isDigit := fun c hc => by
      rcases List.mem_append.1 hc with hc | hc
      · exact hdigits _ c hc
      · exact isDigit_of_mem_digitText hc
    -- the zeros in front leave at least one digit before the point
    have hlength : k < (List.replicate (k + 1 - (digitText d.digits).length) '0' ++
        digitText d.digits).length := by
      rw [List.length_append, List.length_replicate]
      omega
    refine ⟨⟨List.length_pos_iff.1 ?_, fun c hc => hmem c (List.mem_of_mem_take hc),
      fun c hc => hmem c (List.mem_of_mem_drop hc)⟩, ?_⟩
    · rw [List.length_take]
      omega
    · rw [List.take_append_drop, List.length_drop,
        show ∀ n, k < n → n - (n - k) = k by omega, Nat.ofDigitChars_append,
        Nat.ofDigitChars_replicate_zero, Nat.mul_zero, digitText, Nat.ofDigitChars_ten_toDigits, hk,
        zpow_neg, div_eq_mul_inv]
      · simp
      · exact hlength

end Decimal

/-! ### The text of a number -/

namespace Number

variable {x : Float} {whole fraction : List Char}

theorem toList_joined (whole fraction : List Char) : (joined false whole fraction).toList =
    if fraction.isEmpty then whole else whole ++ '.' :: fraction := by
  unfold joined
  split <;> simp

theorem read_joined (h : Numeral whole fraction) : read (joined false whole fraction).toList =
    Binary64.nearest false (digitsValue (whole ++ fraction)) (10 ^ fraction.length) := by
  have hpoint : ∀ c ∈ whole, (c != '.') = true := fun c hc => by
    have := h.whole_digits c hc
    rw [bne_iff_ne]
    rintro rfl
    exact absurd this (by decide)
  rw [toList_joined]
  unfold read
  cases fraction with
  | nil =>
    have htake : whole.takeWhile (· != '.') = whole := List.takeWhile_eq_self_iff.2 hpoint
    have hdrop : whole.dropWhile (· != '.') = [] := List.dropWhile_eq_nil_iff.2 hpoint
    simp [htake, hdrop]
  | cons c fraction =>
    rw [List.isEmpty_cons, if_neg Bool.false_ne_true, List.takeWhile_append_of_pos hpoint,
      List.dropWhile_append_of_pos hpoint]
    simp

theorem nearest_unsigned (n d : Nat) : Binary64.nearest false n d =
    Float.ofBits (UInt64.ofNat (if n = 0 then 0 else nearestBits n d)) := by
  unfold Binary64.nearest
  dsimp only
  rw [if_neg Bool.false_ne_true, Nat.zero_add]

theorem text_eq {m : Nat} {q : Int} (h : Binary64.ofFloat x = .finite false m q) : text x =
    if m = 0 then joined false ['0'] []
    else joined false (Decimal.shortest m q).positional.1 (Decimal.shortest m q).positional.2 := by
  unfold text Style.write
  rw [h]
  exact String.empty_append

/-- The text of a finite number without a sign is a numeral that reads back. -/
theorem exists_numeral {m : Nat} {q : Int} (h : Binary64.ofFloat x = .finite false m q) :
    ∃ whole fraction, Numeral whole fraction ∧ text x = joined false whole fraction ∧
      read (text x).toList = x := by
  obtain ⟨hc, -, hbits, hlt⟩ := bits_of_finite h
  have hx : Float.ofBits (UInt64.ofNat x.toBits.toNat) = x := by
    rw [UInt64.ofNat_toNat, Float.ofBits_toBits]
  rw [text_eq h]
  by_cases hm : m = 0
  · have hnumeral : Numeral ['0'] [] :=
      ⟨List.cons_ne_nil _ _, List.all_eq_true.1 rfl, List.forall_mem_nil _⟩
    have hzero : x.toBits.toNat = 0 := by
      have := hc.normal
      omega
    rw [if_pos hm]
    refine ⟨['0'], [], hnumeral, rfl, ?_⟩
    rw [read_joined hnumeral, ← hx, hzero]
    rfl
  · generalize hp : (Decimal.shortest m q).positional = parts
    obtain ⟨whole, fraction⟩ := parts
    obtain ⟨hnumeral, hvalue⟩ := Decimal.positional_spec hp
    obtain ⟨hpos, hrounds⟩ := Decimal.shortest_rounds (Nat.pos_of_ne_zero hm) hc.le
    have hn : digitsValue (whole ++ fraction) ≠ 0 := fun hzero => by
      have := Decimal.value_pos hpos
      rw [← hvalue, hzero, Nat.cast_zero, zero_div] at this
      exact lt_irrefl _ this
    rw [← hvalue] at hrounds
    rw [if_neg hm]
    refine ⟨whole, fraction, hnumeral, rfl, ?_⟩
    rw [read_joined hnumeral, nearest_unsigned, if_neg hn,
      nearestBits_eq hc (Nat.pos_of_ne_zero hn) (Nat.pow_pos (by decide)) hrounds hbits hlt, hx]

/-- A finite number that was read has no sign. -/
theorem read_finite {cs : List Char} (h : (read cs).isFinite) :
    ∃ m q, Binary64.ofFloat (read cs) = .finite false m q := by
  have hnearest : ∀ n d, (Binary64.nearest false n d).isFinite →
      ∃ m q, Binary64.ofFloat (Binary64.nearest false n d) = .finite false m q := by
    intro n d hfinite
    have hle : (if n = 0 then 0 else nearestBits n d) ≤ infinityBits := by
      split
      · exact Nat.zero_le _
      · exact Nat.min_le_right _ _
    rw [nearest_unsigned] at hfinite ⊢
    rcases Nat.lt_or_eq_of_le hle with hlt | heq
    · exact exists_finite_of_lt hlt
    · rw [heq] at hfinite
      exact absurd hfinite Bool.false_ne_true
  exact hnearest _ _ h

end Number

end ExprLang

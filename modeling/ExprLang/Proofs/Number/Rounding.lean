import ExprLang.Proofs.Number.Bits

/-!
# Rounding to the nearest double

`Rounds m q w` says that a number, counted in units of the last place of the double `m * 2 ^ q`, is
nearer to the double than to its neighbours. `nearestBits_eq`: the double that `nearest` takes for a
quotient is the one whose interval the quotient is in. A quotient just below a power of two may
belong to the double at the power; it is then rounded with the units of the binade below.
-/

namespace ExprLang.Binary64

variable {n d m a b : Nat} {q e : Int} {w : ℚ}

/-! ### Quotients on a scale -/

theorem zpow_eq_div (b : Nat) (e : Int) :
    (b : ℚ) ^ e = (b ^ e.toNat : Nat) / (b ^ (-e).toNat : Nat) := by
  obtain ⟨k, rfl | rfl⟩ := e.eq_nat_or_neg
  · simp
  · simp

theorem scaled_div (n d : Nat) (q : Int) :
    ((scaled n d q).1 : ℚ) / (scaled n d q).2 = n / d / 2 ^ q := by
  have h := zpow_eq_div 2 q
  rw [Nat.cast_ofNat] at h
  rw [h, scaled, Nat.pow_eq, Nat.pow_eq, Nat.cast_mul, Nat.cast_mul]
  field_simp

theorem scaled_pos (hd : 0 < d) (q : Int) : 0 < (scaled n d q).2 :=
  Nat.mul_pos hd (Nat.two_pow_pos _)

/-- The lengths of two numbers give the leading digit of their quotient up to one place. -/
theorem log2_div (hn : 0 < n) (hd : 0 < d) :
    (2 : ℚ) ^ ((n.log2 : Int) - d.log2 - 1) < n / d ∧
      (n / d : ℚ) < 2 ^ ((n.log2 : Int) - d.log2 + 1) := by
  have hnlow : (2 : ℚ) ^ (n.log2 : Int) ≤ n := by exact_mod_cast Nat.log2_self_le hn.ne'
  have hnhigh : (n : ℚ) < 2 ^ (n.log2 + 1 : Int) := by exact_mod_cast Nat.lt_log2_self
  have hdlow : (2 : ℚ) ^ (d.log2 : Int) ≤ d := by exact_mod_cast Nat.log2_self_le hd.ne'
  have hdhigh : (d : ℚ) < 2 ^ (d.log2 + 1 : Int) := by exact_mod_cast Nat.lt_log2_self
  have hdpos : (0 : ℚ) < d := by exact_mod_cast hd
  constructor
  · rw [lt_div_iff₀ hdpos]
    calc (2 : ℚ) ^ ((n.log2 : Int) - d.log2 - 1) * d
        < 2 ^ ((n.log2 : Int) - d.log2 - 1) * 2 ^ (d.log2 + 1 : Int) := by gcongr
      _ = 2 ^ (n.log2 : Int) := by
        rw [← zpow_add₀ two_ne_zero]
        congr 1
        omega
      _ ≤ n := hnlow
  · rw [div_lt_iff₀ hdpos]
    calc (n : ℚ) < 2 ^ (n.log2 + 1 : Int) := hnhigh
      _ = 2 ^ ((n.log2 : Int) - d.log2 + 1) * 2 ^ (d.log2 : Int) := by
        rw [← zpow_add₀ two_ne_zero]
        congr 1
        omega
      _ ≤ 2 ^ ((n.log2 : Int) - d.log2 + 1) * d := by gcongr

theorem leadingExponent_bounds (hn : 0 < n) (hd : 0 < d) :
    (2 : ℚ) ^ leadingExponent n d ≤ n / d ∧ (n / d : ℚ) < 2 ^ (leadingExponent n d + 1) := by
  obtain ⟨hlow, hhigh⟩ := log2_div hn hd
  unfold leadingExponent
  dsimp only
  generalize (n.log2 : Int) - d.log2 = l at *
  have hpos : (0 : ℚ) < (scaled n d l).2 := by exact_mod_cast scaled_pos hd l
  have hpow : (0 : ℚ) < 2 ^ l := by positivity
  have hiff : (scaled n d l).1 < (scaled n d l).2 ↔ (n / d : ℚ) < 2 ^ l := by
    rw [← Nat.cast_lt (α := ℚ), ← div_lt_one hpos, scaled_div, div_lt_one hpow]
  split_ifs with h
  · exact ⟨hlow.le, by simpa using hiff.1 h⟩
  · exact ⟨not_lt.1 (mt hiff.2 h), hhigh⟩

theorem le_leadingExponent (hn : 0 < n) (hd : 0 < d) (h : (2 : ℚ) ^ e ≤ n / d) :
    e ≤ leadingExponent n d :=
  Int.lt_add_one_iff.1 <|
    (zpow_lt_zpow_iff_right₀ one_lt_two).1 (h.trans_lt (leadingExponent_bounds hn hd).2)

theorem leadingExponent_lt (hn : 0 < n) (hd : 0 < d) (h : (n / d : ℚ) < 2 ^ e) :
    leadingExponent n d < e :=
  (zpow_lt_zpow_iff_right₀ one_lt_two).1 ((leadingExponent_bounds hn hd).1.trans_lt h)

/-! ### Rounding to an integer -/

/-- A remainder of half the denominator decides between an integer and the one below it. -/
theorem roundQuotient_eq_of_le (hb : 0 < b) (hlow : 2 * (m * b) ≤ 2 * a + b)
    (hhigh : 2 * a ≤ 2 * (m * b) + b)
    (hodd : m % 2 = 1 → 2 * (m * b) < 2 * a + b ∧ 2 * a < 2 * (m * b) + b) :
    roundQuotient a b = m := by
  have hr := Nat.mod_lt a hb
  have hdiv := Nat.div_add_mod' a b
  -- the integer part is the integer or the one below
  have hfloor : a / b = m ∨ a / b + 1 = m := by
    rcases Nat.lt_trichotomy (a / b) m with hlt | heq | hgt
    · refine Or.inr (Nat.le_antisymm hlt (Nat.le_of_not_lt fun h => ?_))
      have := Nat.mul_le_mul_right b (show a / b + 2 ≤ m from h)
      rw [Nat.add_mul] at this
      omega
    · exact Or.inl heq
    · have := Nat.mul_le_mul_right b (show m + 1 ≤ a / b from hgt)
      rw [Nat.add_mul] at this
      omega
  unfold roundQuotient
  dsimp only
  generalize a % b = r at *
  rcases hfloor with hq | hq
  · rw [hq] at hdiv ⊢
    split_ifs <;> omega
  · subst hq
    rw [Nat.add_mul, one_mul] at *
    split_ifs <;> omega

/-- A quotient at most half away from an integer is rounded to it, at half only to an even one. -/
theorem roundQuotient_eq (hb : 0 < b) (hlow : (2 * m : ℚ) - 1 ≤ 2 * (a / b))
    (hhigh : 2 * (a / b : ℚ) ≤ 2 * m + 1)
    (hodd : m % 2 = 1 → (2 * m : ℚ) - 1 < 2 * (a / b) ∧ 2 * (a / b : ℚ) < 2 * m + 1) :
    roundQuotient a b = m := by
  have hbpos : (0 : ℚ) < b := by exact_mod_cast hb
  have hcancel : (a / b * b : ℚ) = a := div_mul_cancel₀ _ hbpos.ne'
  refine roundQuotient_eq_of_le hb ?_ ?_ fun h => ⟨?_, ?_⟩
  · rw [← Nat.cast_le (α := ℚ)]
    push_cast
    nlinarith
  · rw [← Nat.cast_le (α := ℚ)]
    push_cast
    nlinarith
  · rw [← Nat.cast_lt (α := ℚ)]
    push_cast
    nlinarith [(hodd h).1]
  · rw [← Nat.cast_lt (α := ℚ)]
    push_cast
    nlinarith [(hodd h).2]

/-! ### Rounding to a double -/

/-- The distance from a double to the lower end of its interval, in quarters of its last place. -/
def gapBelow (m : Nat) (q : Int) : Nat := if m = 2 ^ 52 ∧ -1074 < q then 1 else 2

/-- A number, in units of the last place, lies between the midpoints from a double to its
neighbours. The midpoints themselves belong to the double with an even significand. -/
structure Rounds (m : Nat) (q : Int) (w : ℚ) : Prop where
  low : 4 * m - gapBelow m q ≤ 4 * w
  high : 4 * w ≤ 4 * m + 2
  odd : m % 2 = 1 → 4 * m - gapBelow m q < 4 * w ∧ 4 * w < 4 * m + 2

theorem Rounds.half (h : Rounds m q w) : 4 * m - 2 ≤ 4 * w ∧ (m % 2 = 1 → 4 * m - 2 < 4 * w) := by
  have hgap : (gapBelow m q : ℚ) ≤ 2 := by
    unfold gapBelow
    split_ifs <;> norm_num
  have hlow := h.low
  refine ⟨by linarith, fun hm => ?_⟩
  have := (h.odd hm).1
  linarith

/-- The significand and the exponent that a quotient is rounded to. The significand may be the next
power of two. -/
def rounded (n d : Nat) : Nat × Int :=
  let q := max (leadingExponent n d - 52) leastExponent
  (roundQuotient (scaled n d q).1 (scaled n d q).2, q)

theorem nearestBits_eq_rounded (n d : Nat) : nearestBits n d =
    min (((rounded n d).2 - leastExponent).toNat * 2 ^ 52 + (rounded n d).1) infinityBits := rfl

/-- A quotient in the binade of the double, or a subnormal one. -/
theorem rounded_of_le (hc : Canonical m q) (hn : 0 < n) (hd : 0 < d)
    (h : Rounds m q (n / d / 2 ^ q)) (hbinade : (2 : ℚ) ^ 52 ≤ n / d / 2 ^ q ∨ q = -1074) :
    rounded n d = (m, q) := by
  have hpow : (0 : ℚ) < 2 ^ q := by positivity
  have hm : (m : ℚ) + 1 ≤ 2 ^ 53 := by exact_mod_cast hc.lt
  have hlt : leadingExponent n d < 53 + q := by
    refine leadingExponent_lt hn hd ?_
    rw [zpow_add₀ two_ne_zero, ← div_lt_iff₀ hpow]
    have := h.high
    norm_num at hm ⊢
    linarith
  have hexp : max (leadingExponent n d - 52) leastExponent = q := by
    unfold leastExponent
    -- a subnormal keeps the least exponent, whatever its leading digit is
    rcases hbinade with hw | rfl
    · have hle : 52 + q ≤ leadingExponent n d := by
        refine le_leadingExponent hn hd ?_
        rw [zpow_add₀ two_ne_zero, ← le_div_iff₀ hpow]
        exact_mod_cast hw
      have := hc.le
      omega
    · omega
  obtain ⟨hlow, hodd⟩ := h.half
  have hround : roundQuotient (scaled n d q).1 (scaled n d q).2 = m := by
    refine roundQuotient_eq (scaled_pos hd q) ?_ ?_ fun hm => ?_ <;> rw [scaled_div]
    · linarith
    · linarith [h.high]
    · have := hodd hm
      have := (h.odd hm).2
      constructor <;> linarith
  unfold rounded
  dsimp only
  rw [hexp, hround]

/-- A quotient just below the binade of the double. -/
theorem rounded_of_lt (hc : Canonical m q) (hn : 0 < n) (hd : 0 < d)
    (h : Rounds m q (n / d / 2 ^ q)) (hq : -1074 < q) (hbelow : (n / d / 2 ^ q : ℚ) < 2 ^ 52) :
    m = 2 ^ 52 ∧ rounded n d = (2 ^ 53, q - 1) := by
  have hpow : (0 : ℚ) < 2 ^ q := by positivity
  have hnormal : 2 ^ 52 ≤ m := hc.normal.resolve_right (by omega)
  -- the interval of any other double ends within its binade
  have hm : m = 2 ^ 52 := by
    refine le_antisymm (not_lt.1 fun hlt => ?_) hnormal
    have hm : (2 : ℚ) ^ 52 + 1 ≤ m := by exact_mod_cast hlt
    linarith [h.half.1]
  subst hm
  have hlow : (4 * 2 ^ 52 - 1 : ℚ) ≤ 4 * (n / d / 2 ^ q) := by
    have := h.low
    rw [gapBelow, if_pos ⟨rfl, hq⟩] at this
    exact_mod_cast this
  have hexp : leadingExponent n d = 51 + q := by
    refine le_antisymm (Int.lt_add_one_iff.1 (leadingExponent_lt hn hd ?_))
      (le_leadingExponent hn hd ?_)
    · rw [show 51 + q + 1 = 52 + q by ring, zpow_add₀ two_ne_zero, ← div_lt_iff₀ hpow]
      exact_mod_cast hbelow
    · rw [zpow_add₀ two_ne_zero, ← le_div_iff₀ hpow]
      norm_num at hlow ⊢
      linarith
  have hround : roundQuotient (scaled n d (q - 1)).1 (scaled n d (q - 1)).2 = 2 ^ 53 := by
    have hdouble : (n / d / 2 ^ (q - 1) : ℚ) = 2 * (n / d / 2 ^ q) := by
      rw [zpow_sub_one₀ two_ne_zero]
      field_simp
    refine roundQuotient_eq (scaled_pos hd _) ?_ ?_ (fun h => absurd h (by decide)) <;>
      rw [scaled_div, hdouble]
    · push_cast
      linarith
    · push_cast
      linarith
  have hmax : max (leadingExponent n d - 52) leastExponent = q - 1 := by
    unfold leastExponent
    omega
  unfold rounded
  dsimp only
  rw [hmax, hround]
  exact ⟨rfl, rfl⟩

/-- **A quotient in the interval of a double is read as the double.** -/
theorem nearestBits_eq (hc : Canonical m q) (hn : 0 < n) (hd : 0 < d)
    (h : Rounds m q (n / d / 2 ^ q)) {bits : Nat} (hbits : (bits : Int) = (q + 1074) * 2 ^ 52 + m)
    (hfinite : bits < infinityBits) : nearestBits n d = bits := by
  have hle := hc.le
  rw [nearestBits_eq_rounded]
  unfold leastExponent
  by_cases hbinade : (2 : ℚ) ^ 52 ≤ n / d / 2 ^ q ∨ q = -1074
  · rw [rounded_of_le hc hn hd h hbinade]
    dsimp only
    omega
  · rw [not_or, not_le] at hbinade
    obtain ⟨rfl, hrounded⟩ := rounded_of_lt hc hn hd h (by omega) hbinade.1
    rw [hrounded]
    dsimp only
    -- the significand `2 ^ 53` carries into the exponent field
    omega

end ExprLang.Binary64

import ExprLang.Number.Shortest
import ExprLang.Proofs.Number.Rounding

/-!
# The shortest decimal reads back

The grids of `Decimal.search` get finer until one of them has a number in the interval of the double
(`Interval.rounds_of_covers`); the double itself is on every grid that is fine enough
(`Interval.hit?_isSome_of_le`), so there is such a grid among those that are tried. Hence
`shortest_rounds`: the decimal that is written rounds to the double.
-/

namespace ExprLang

open Binary64

namespace Decimal

/-- The number that a decimal is. -/
def value (d : Decimal) : ℚ := d.digits * 10 ^ d.exponent

variable {m n : Nat} {q g : Int} {w : ℚ}

namespace Interval

/-! ### The interval on its scale -/

/-- A quarter of the last place of a double, on the scale of its interval. -/
def quarter (q g : Int) : Nat := 2 ^ q.toNat * 10 ^ (-g).toNat

theorem quarter_pos (q g : Int) : 0 < quarter q g :=
  Nat.mul_pos (Nat.two_pow_pos _) (Nat.pow_pos (by decide))

theorem of_low (m : Nat) (q g : Int) : (of m q g).low = (4 * m - gapBelow m q) * quarter q g := rfl

theorem of_value (m : Nat) (q g : Int) : (of m q g).value = 4 * m * quarter q g := rfl

theorem of_high (m : Nat) (q g : Int) : (of m q g).high = (4 * m + 2) * quarter q g := rfl

theorem of_step (m : Nat) (q g : Int) :
    (of m q g).step = 4 * 2 ^ (-q).toNat * 10 ^ g.toNat := rfl

theorem of_closed (m : Nat) (q g : Int) : (of m q g).closed = (m % 2 == 0) := rfl

/-- A multiple of the step in quarters of the last place. -/
theorem step_div_quarter (n m : Nat) (q g : Int) :
    ((n * (of m q g).step : Nat) : ℚ) / quarter q g = 4 * (n * 10 ^ g / 2 ^ q) := by
  have h2 := zpow_eq_div 2 q
  have h10 := zpow_eq_div 10 g
  rw [Nat.cast_ofNat] at h2 h10
  rw [h2, h10, of_step, quarter]
  push_cast
  field_simp

/-- A multiple of the step that lies in the interval is nearer to the double than to others. -/
theorem rounds_of_covers (hm : 0 < m) (h : (of m q g).covers (n * (of m q g).step)) :
    Rounds m q (n * 10 ^ g / 2 ^ q) := by
  have hpos : (0 : ℚ) < quarter q g := by exact_mod_cast quarter_pos q g
  have hgap : gapBelow m q ≤ 4 * m := by
    unfold gapBelow
    split_ifs <;> omega
  have hcast : ((4 * m - gapBelow m q : Nat) : ℚ) = 4 * m - gapBelow m q := by
    rw [Nat.cast_sub hgap]
    push_cast
    rfl
  have hstep := step_div_quarter n m q g
  generalize (n * (of m q g).step) = x at *
  have hlow : (of m q g).low ≤ x ↔ (4 * m - gapBelow m q : ℚ) ≤ 4 * (n * 10 ^ g / 2 ^ q) := by
    rw [of_low, ← hstep, le_div_iff₀ hpos, ← hcast]
    exact_mod_cast Iff.rfl
  have hlow' : (of m q g).low < x ↔ (4 * m - gapBelow m q : ℚ) < 4 * (n * 10 ^ g / 2 ^ q) := by
    rw [of_low, ← hstep, lt_div_iff₀ hpos, ← hcast]
    exact_mod_cast Iff.rfl
  have hhigh : x ≤ (of m q g).high ↔ 4 * (n * 10 ^ g / 2 ^ q) ≤ (4 * m + 2 : ℚ) := by
    rw [of_high, ← hstep, div_le_iff₀ hpos]
    exact_mod_cast Iff.rfl
  have hhigh' : x < (of m q g).high ↔ 4 * (n * 10 ^ g / 2 ^ q) < (4 * m + 2 : ℚ) := by
    rw [of_high, ← hstep, div_lt_iff₀ hpos]
    exact_mod_cast Iff.rfl
  unfold covers at h
  rw [of_closed] at h
  by_cases heven : m % 2 = 0
  · rw [heven] at h
    simp only [BEq.rfl, if_true, Bool.and_eq_true, decide_eq_true_eq] at h
    exact ⟨hlow.1 h.1, hhigh.1 h.2, fun hodd => absurd heven (by omega)⟩
  · rw [beq_eq_false_iff_ne.2 heven] at h
    simp only [Bool.false_eq_true, if_false, Bool.and_eq_true, decide_eq_true_eq] at h
    exact ⟨(hlow'.1 h.1).le, (hhigh'.1 h.2).le, fun _ => ⟨hlow'.1 h.1, hhigh'.1 h.2⟩⟩

/-! ### Hits -/

/-- What is taken on a grid lies in the interval. -/
theorem hit?_covers {i : Interval} (h : i.hit? = some n) : 0 < n ∧ i.covers (n * i.step) := by
  unfold hit? at h
  dsimp only at h
  split at h
  · cases h
  · next hzero =>
    split at h
    · next hlower hupper =>
      split at h <;> cases h
      · exact ⟨Nat.pos_of_ne_zero hzero, hlower⟩
      · exact ⟨Nat.succ_pos _, hupper⟩
    · next hlower _ =>
      cases h
      exact ⟨Nat.pos_of_ne_zero hzero, hlower⟩
    · next _ hupper =>
      cases h
      exact ⟨Nat.succ_pos _, hupper⟩
    · cases h

/-- The value itself is taken on a grid that it is on. -/
theorem hit?_isSome_of_dvd {i : Interval} (hlow : i.low < i.value) (hhigh : i.value < i.high)
    (hstep : 0 < i.step) (hdvd : i.step ∣ i.value) : i.hit?.isSome := by
  have hlower : i.covers (i.value / i.step * i.step) = true := by
    rw [Nat.div_mul_cancel hdvd, covers]
    split_ifs
    · simp [hlow.le, hhigh.le]
    · simp [hlow, hhigh]
  have hzero : i.value / i.step ≠ 0 := by
    have := Nat.le_of_dvd (by omega) hdvd
    exact (Nat.div_pos this hstep).ne'
  unfold hit?
  dsimp only
  rw [if_neg hzero, hlower]
  split <;> first | rfl | simp_all

/-- A double is on every grid that is fine enough. -/
theorem hit?_isSome_of_le (hm : 0 < m) (hgq : g ≤ q) (hg : g ≤ 0) : (of m q g).hit?.isSome := by
  have hpos := quarter_pos q g
  refine hit?_isSome_of_dvd ?_ ?_ ?_ ?_
  · rw [of_low, of_value]
    refine Nat.mul_lt_mul_of_pos_right ?_ hpos
    unfold gapBelow
    split_ifs <;> omega
  · rw [of_value, of_high]
    exact Nat.mul_lt_mul_of_pos_right (by omega) hpos
  · rw [of_step]
    positivity
  · -- a decimal place is worth a binary one
    obtain ⟨k, hk⟩ : 2 ^ (-q).toNat ∣ 10 ^ (-g).toNat :=
      (pow_dvd_pow 2 (by omega)).trans (pow_dvd_pow_of_dvd (by decide) _)
    have hg : g.toNat = 0 := by omega
    refine ⟨m * 2 ^ q.toNat * k, ?_⟩
    rw [of_value, of_step, quarter, hk, hg]
    ring

end Interval

/-! ### The search -/

theorem search_spec (hm : 0 < m) {tries : Nat}
    (htries : ∃ i : Nat, i < tries ∧ (Interval.of m q (g - i)).hit?.isSome) :
    0 < (search m q tries g).digits ∧ Rounds m q ((search m q tries g).value / 2 ^ q) := by
  induction tries generalizing g with
  | zero =>
    obtain ⟨i, hi, -⟩ := htries
    exact absurd hi (Nat.not_lt_zero i)
  | succ tries ih =>
    unfold search
    split
    · next n hhit =>
      obtain ⟨hn, hcovers⟩ := Interval.hit?_covers hhit
      exact ⟨hn, Interval.rounds_of_covers hm hcovers⟩
    · next hmiss =>
      obtain ⟨i, hi, hhit⟩ := htries
      cases i with
      | zero =>
        rw [Nat.cast_zero, sub_zero, hmiss] at hhit
        cases hhit
      | succ i =>
        refine ih ⟨i, Nat.lt_of_succ_lt_succ hi, ?_⟩
        rwa [show g - 1 - i = g - (i + 1 : Nat) by push_cast; ring]

theorem stripZeros_spec (tries : Nat) {d : Decimal} (hd : 0 < d.digits) :
    0 < (stripZeros tries d).digits ∧ (stripZeros tries d).value = d.value := by
  induction tries generalizing d with
  | zero => exact ⟨hd, rfl⟩
  | succ tries ih =>
    unfold stripZeros
    split_ifs with hmod
    · have hdigits : d.digits = d.digits / 10 * 10 := by omega
      obtain ⟨hpos, hvalue⟩ := ih (d := ⟨d.digits / 10, d.exponent + 1⟩) (by dsimp only; omega)
      refine ⟨hpos, hvalue.trans ?_⟩
      have hcast : (d.digits : ℚ) = (d.digits / 10 : Nat) * 10 := by exact_mod_cast hdigits
      rw [value, value, hcast, zpow_add_one₀ (by norm_num)]
      ring
    · exact ⟨hd, rfl⟩

/-- **The shortest decimal reads back**: it is positive and lies in the interval of its double. -/
theorem shortest_rounds (hm : 0 < m) (hq : -1074 ≤ q) :
    0 < (shortest m q).digits ∧ Rounds m q ((shortest m q).value / 2 ^ q) := by
  have htop : -1074 ≤ topExponent m q := by
    unfold topExponent
    omega
  have hhit : ∃ i : Nat, i < (topExponent m q + 1075).toNat ∧
      (Interval.of m q (topExponent m q - i)).hit?.isSome := by
    -- the last grid that is tried holds every double
    refine ⟨(topExponent m q + 1074).toNat, by omega, ?_⟩
    rw [show topExponent m q - ((topExponent m q + 1074).toNat : Int) = -1074 by omega]
    exact Interval.hit?_isSome_of_le hm hq (by decide)
  obtain ⟨hpos, hrounds⟩ := search_spec hm hhit
  obtain ⟨hpos', hvalue⟩ := stripZeros_spec 2 hpos
  unfold shortest
  dsimp only
  rw [hvalue]
  exact ⟨hpos', hrounds⟩

end Decimal

end ExprLang

import ExprLang.Number.Binary64
import Mathlib

/-!
# Doubles and their bits

A finite double is its bits: `Float.ofBits_toBits` and `toBits_ofBits`. The bits of a finite double
without a sign are its exponent, counted from the least one, and its significand as one number
(`bits_of_finite`), and the significand and the exponent are `Canonical`.
-/

namespace ExprLang.Binary64

open Float.Model (Format UnpackedFloat)
open Float.Model.UnpackedFloat (pack_unpack unpackExponent)

variable {b : BitVec Format.binary64.numBits} {x : Float}

/-! ### The fields of a bit pattern -/

theorem toNat_unpackExponent (b : BitVec Format.binary64.numBits) :
    (unpackExponent b).toNat = b.toNat / 2 ^ 52 % 2 ^ 11 := by
  simp [unpackExponent, Nat.shiftRight_eq_div_pow]

theorem unpackExponent_ne_iff :
    unpackExponent b ≠ -1#_ ↔ b.toNat / 2 ^ 52 % 2 ^ 11 ≠ 2047 := by
  rw [← toNat_unpackExponent, Ne, ← BitVec.toNat_inj]
  rfl

/-! ### Finite doubles -/

/-- The exponent field of a finite double is not the largest one. -/
theorem isFinite_iff : x.isFinite ↔ x.toBits.toNat / 2 ^ 52 % 2 ^ 11 ≠ 2047 := by
  show (UnpackedFloat.unpack Format.binary64 x.toBits.toBitVec).isFinite ↔ _
  rw [← UInt64.toNat_toBitVec, ← unpackExponent_ne_iff]
  unfold UnpackedFloat.unpack
  dsimp only
  split_ifs with h
  · exact iff_of_false Bool.false_ne_true (not_not_intro h)
  · exact iff_of_false Bool.false_ne_true (not_not_intro h)
  all_goals exact iff_of_true rfl h

/-- A double keeps the bits it is made of, unless they are those of no number. -/
theorem toBits_ofBits {u : UInt64} (h : u.toNat / 2 ^ 52 % 2 ^ 11 ≠ 2047) :
    (Float.ofBits u).toBits = u := by
  let b : BitVec Format.binary64.numBits := u.toBitVec
  have hexp : unpackExponent b ≠ -1#_ := unpackExponent_ne_iff.2 h
  refine congrArg UInt64.ofBitVec ((pack_unpack b).trans (if_neg fun hnan => ?_))
  exact hexp (of_decide_eq_true hnan).1

/-- The significands and exponents of doubles: a significand has 53 binary digits, or fewer at the
least exponent. -/
structure Canonical (m : Nat) (q : Int) : Prop where
  lt : m < 2 ^ 53
  le : -1074 ≤ q
  normal : 2 ^ 52 ≤ m ∨ q = -1074

section

variable {m n : Nat} {q : Int}

/-- The bits of a finite double without a sign. -/
theorem bits_of_finite (h : ofFloat x = .finite false m q) :
    Canonical m q ∧ x.isFinite ∧ (x.toBits.toNat : Int) = (q + 1074) * 2 ^ 52 + m ∧
      x.toBits.toNat < infinityBits := by
  have hlt := x.toBits.toNat_lt
  have hinfinity : infinityBits = 2047 * 2 ^ 52 := rfl
  rw [isFinite_iff]
  unfold ofFloat ofBits leastExponent at h
  generalize x.toBits.toNat = n at *
  simp only [Nat.pow_eq] at h
  split_ifs at h with hinf hnan hsub
  · obtain ⟨hsign, rfl, rfl⟩ := Binary64.finite.inj h
    rw [beq_eq_false_iff_ne] at hsign
    exact ⟨⟨by omega, by omega, by omega⟩, hinf, by omega, by omega⟩
  · obtain ⟨hsign, rfl, rfl⟩ := Binary64.finite.inj h
    rw [beq_eq_false_iff_ne] at hsign
    exact ⟨⟨by omega, by omega, by omega⟩, hinf, by omega, by omega⟩

/-- Bits below those of infinity are a finite double without a sign. -/
theorem exists_finite_of_lt (hn : n < infinityBits) :
    ∃ m q, ofFloat (Float.ofBits (UInt64.ofNat n)) = .finite false m q := by
  have hbits : infinityBits = 2047 * 2 ^ 52 := rfl
  have hmod : (UInt64.ofNat n).toNat = n := UInt64.toNat_ofNat_of_lt' (Nat.lt_trans hn (by decide))
  have hsign : (n / 2 ^ 63 % 2 == 1) = false := beq_eq_false_iff_ne.2 (by omega)
  unfold ofFloat
  rw [toBits_ofBits (by rw [hmod]; omega), hmod]
  unfold ofBits
  simp only [Nat.pow_eq]
  rw [hsign, if_neg (by omega)]
  split <;> exact ⟨_, _, rfl⟩

end

end ExprLang.Binary64

/-
# 64-bit arithmetic that does not wrap

The operations of `UInt64` as operations of `ℕ`, under the bounds that keep them from
wrapping around, and the two readings of a word as a signed number.
-/
import Mathlib.Data.UInt

namespace Lib

lemma toNat_add_of_lt {a b : UInt64} (h : a.toNat + b.toNat < 2 ^ 64) :
    (a + b).toNat = a.toNat + b.toNat := by
  rw [UInt64.toNat_add, Nat.mod_eq_of_lt h]

lemma toNat_mul_of_lt {a b : UInt64} (h : a.toNat * b.toNat < 2 ^ 64) :
    (a * b).toNat = a.toNat * b.toNat := by
  rw [UInt64.toNat_mul, Nat.mod_eq_of_lt h]

lemma toNat_sub_of_ge {a b : UInt64} (h : b.toNat ≤ a.toNat) :
    (a - b).toNat = a.toNat - b.toNat :=
  UInt64.toNat_sub_of_le _ _ (UInt64.le_iff_toNat_le.2 h)

lemma toNat_ofNat_of_lt {n : ℕ} (h : n < 2 ^ 64) : (UInt64.ofNat n).toNat = n := by
  rw [UInt64.toNat_ofNat', Nat.mod_eq_of_lt h]

lemma eq_zero_iff_toNat {a : UInt64} : a = 0 ↔ a.toNat = 0 := by
  rw [← UInt64.toNat_inj]
  rfl

/-- Only the largest word is `-1` as a signed number. -/
lemma toInt64_ne_neg_one {a : UInt64} (h : a.toNat < 2 ^ 64 - 1) : a.toInt64 ≠ -1 := by
  intro he
  have h1 : a = (-1 : Int64).toUInt64 := by rw [← he, UInt64.toUInt64_toInt64]
  rw [h1] at h
  exact absurd h (by decide)

lemma toInt_toInt64_of_lt {a : UInt64} (h : a.toNat < 2 ^ 63) : a.toInt64.toInt = a.toNat := by
  rw [Int64.toInt, UInt64.toBitVec_toInt64, BitVec.toInt_eq_toNat_of_lt (by simp; omega)]
  rfl

lemma zero_le_toInt64 {a : UInt64} (h : a.toNat < 2 ^ 63) : 0 ≤ a.toInt64 := by
  rw [Int64.le_iff_toInt_le, toInt_toInt64_of_lt h]
  exact Int.natCast_nonneg _

end Lib

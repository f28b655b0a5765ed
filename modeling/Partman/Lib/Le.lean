/-
# Little-endian byte strings

`leBytes w n` is the string of the `w` low bytes of `n`, least significant first, and
`ofLe` reads such a string back.
-/
import Mathlib.Data.Nat.Basic
import Mathlib.Tactic.Ring
import Mathlib.Tactic.Common

namespace Lib

/-- The `w` little-endian bytes of `n`; what does not fit is dropped. -/
def leBytes : ℕ → ℕ → List UInt8
  | 0, _ => []
  | w + 1, n => UInt8.ofNat n :: leBytes w (n / 256)

/-- The number with the given little-endian bytes. -/
def ofLe : List UInt8 → ℕ
  | [] => 0
  | b :: l => b.toNat + 256 * ofLe l

@[simp] lemma leBytes_zero (n : ℕ) : leBytes 0 n = [] := rfl

@[simp] lemma leBytes_succ (w n : ℕ) :
    leBytes (w + 1) n = UInt8.ofNat n :: leBytes w (n / 256) := rfl

@[simp] lemma ofLe_nil : ofLe [] = 0 := rfl

@[simp] lemma ofLe_cons (b : UInt8) (l : List UInt8) : ofLe (b :: l) = b.toNat + 256 * ofLe l := rfl

@[simp] lemma length_leBytes (w n : ℕ) : (leBytes w n).length = w := by
  induction w generalizing n with
  | zero => rfl
  | succ w ih => simp [ih]

lemma ofLe_leBytes (w n : ℕ) : ofLe (leBytes w n) = n % 256 ^ w := by
  induction w generalizing n with
  | zero => simp [Nat.mod_one]
  | succ w ih =>
    rw [leBytes_succ, ofLe_cons, ih, UInt8.toNat_ofNat', pow_succ' 256 w, Nat.mod_mul]

lemma ofLe_lt (l : List UInt8) : ofLe l < 256 ^ l.length := by
  induction l with
  | nil => simp
  | cons b l ih =>
    have hb : b.toNat < 256 := b.toNat_lt
    rw [ofLe_cons, List.length_cons, pow_succ]
    omega

lemma leBytes_ofLe (l : List UInt8) : leBytes l.length (ofLe l) = l := by
  induction l with
  | nil => rfl
  | cons b l ih =>
    have hb : b.toNat < 256 := b.toNat_lt
    rw [List.length_cons, leBytes_succ, ofLe_cons]
    congr 1
    · apply UInt8.toNat_inj.1
      rw [UInt8.toNat_ofNat']
      omega
    · rw [show (b.toNat + 256 * ofLe l) / 256 = ofLe l by omega, ih]

/-- Only the low bytes of a number are written. -/
lemma leBytes_mod (w n : ℕ) : leBytes w (n % 256 ^ w) = leBytes w n := by
  conv_rhs => rw [← leBytes_ofLe (leBytes w n), ofLe_leBytes, length_leBytes]

/-- Equal strings stand for numbers that agree in their low bytes. -/
lemma leBytes_inj {w n k : ℕ} (h : leBytes w n = leBytes w k) : n % 256 ^ w = k % 256 ^ w := by
  rw [← ofLe_leBytes, ← ofLe_leBytes, h]

lemma leBytes_inj_of_lt {w n k : ℕ} (hn : n < 256 ^ w) (hk : k < 256 ^ w)
    (h : leBytes w n = leBytes w k) : n = k := by
  have := leBytes_inj h
  rwa [Nat.mod_eq_of_lt hn, Nat.mod_eq_of_lt hk] at this

end Lib

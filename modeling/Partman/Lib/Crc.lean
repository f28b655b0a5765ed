/-
# Cyclic redundancy checks in reflected form

The register of a reflected CRC of width `w` with generator `P` is a bit vector that is
shifted right, the generator being added whenever a one falls out.  Everything the
register does is linear over exclusive or, and no bit step loses information as soon as
the top bit of the generator is set.  The results used elsewhere are

* `feed_xor`: the register is linear in the initial value and the message together;
* `feed_inj`: feeding a fixed message is injective in the register;
* `feed_ne_of_block`: two messages that differ only inside a block of at most `w / 8`
  bytes leave different registers (burst errors are detected).
-/
import Mathlib.Algebra.Group.Nat.Defs
import Mathlib.Logic.Function.Iterate
import Mathlib.Data.List.Basic
import Mathlib.Tactic.Common

namespace Lib.Crc

variable {w : ℕ} (P : BitVec w)

/-- One bit step of the register. -/
def bitStep (x : BitVec w) : BitVec w :=
  if x.getLsbD 0 then (x >>> 1) ^^^ P else x >>> 1

/-- One byte, the low end of which meets the low end of the register, and eight steps. -/
def byteStep (x : BitVec w) (b : BitVec 8) : BitVec w :=
  (bitStep P)^[8] (x ^^^ b.setWidth w)

/-- A whole message. -/
def feed (x : BitVec w) (bs : List (BitVec 8)) : BitVec w := bs.foldl (byteStep P) x

@[simp] lemma feed_nil (x : BitVec w) : feed P x [] = x := rfl

@[simp] lemma feed_cons (x : BitVec w) (b : BitVec 8) (bs : List (BitVec 8)) :
    feed P x (b :: bs) = feed P (byteStep P x b) bs := rfl

lemma feed_append (x : BitVec w) (bs cs : List (BitVec 8)) :
    feed P x (bs ++ cs) = feed P (feed P x bs) cs := List.foldl_append

/-! ## Linearity -/

lemma bitStep_xor (x y : BitVec w) : bitStep P (x ^^^ y) = bitStep P x ^^^ bitStep P y := by
  unfold bitStep
  rw [BitVec.getLsbD_xor, BitVec.ushiftRight_xor_distrib]
  cases hx : x.getLsbD 0 <;> cases hy : y.getLsbD 0
  · simp
  · simp [BitVec.xor_assoc]
  · simp [BitVec.xor_assoc, BitVec.xor_comm P]
  · simp only [Bool.xor_self, Bool.false_eq_true, if_false, if_true]
    rw [BitVec.xor_comm (y >>> 1) P, BitVec.xor_assoc, ← BitVec.xor_assoc P P, BitVec.xor_self,
      BitVec.zero_xor]

lemma bitStep_iterate_xor (n : ℕ) (x y : BitVec w) :
    (bitStep P)^[n] (x ^^^ y) = (bitStep P)^[n] x ^^^ (bitStep P)^[n] y := by
  induction n generalizing x y with
  | zero => rfl
  | succ n ih => rw [Function.iterate_succ_apply, Function.iterate_succ_apply,
      Function.iterate_succ_apply, bitStep_xor, ih]

lemma byteStep_xor (x y : BitVec w) (b c : BitVec 8) :
    byteStep P (x ^^^ y) (b ^^^ c) = byteStep P x b ^^^ byteStep P y c := by
  unfold byteStep
  rw [← bitStep_iterate_xor, BitVec.setWidth_xor]
  congr 1
  ac_rfl

/-- The register is linear in its initial value and the message. -/
lemma feed_xor (x y : BitVec w) : ∀ {bs cs : List (BitVec 8)}, bs.length = cs.length →
    feed P (x ^^^ y) (List.zipWith (· ^^^ ·) bs cs) = feed P x bs ^^^ feed P y cs := by
  intro bs
  induction bs generalizing x y with
  | nil =>
    intro cs h
    obtain rfl : cs = [] := List.length_eq_zero_iff.1 h.symm
    rfl
  | cons b bs ih =>
    intro cs h
    cases cs with
    | nil => simp at h
    | cons c cs =>
      rw [List.zipWith_cons_cons, feed_cons, feed_cons, feed_cons, byteStep_xor]
      exact ih _ _ (by simpa using h)

/-- Two messages of one length leave the same register exactly when their difference
leaves nothing in the empty register. -/
lemma feed_eq_iff (x : BitVec w) {bs cs : List (BitVec 8)} (h : bs.length = cs.length) :
    feed P x bs = feed P x cs ↔ feed P 0#w (List.zipWith (· ^^^ ·) bs cs) = 0#w := by
  have hx := feed_xor P x x h
  rw [BitVec.xor_self] at hx
  rw [hx, BitVec.xor_eq_zero_iff]

/-! ## No information is lost -/

lemma bitStep_injective (hP : P.msb = true) : Function.Injective (bitStep P) := by
  have key : ∀ x : BitVec w, (bitStep P x).msb = x.getLsbD 0 := by
    intro x
    have hw : 0 < w := by
      rcases Nat.eq_zero_or_pos w with rfl | h
      · simp [BitVec.msb, BitVec.getMsbD] at hP
      · exact h
    have hs : (x >>> 1).msb = false := by
      rw [BitVec.msb_eq_getLsbD_last, BitVec.getLsbD_ushiftRight]
      exact BitVec.getLsbD_of_ge _ _ (by omega)
    unfold bitStep
    split
    · next h => rw [BitVec.msb_xor, hs, hP, h]; rfl
    · next h => rw [hs]; simpa using h
  intro x y hxy
  have h0 : x.getLsbD 0 = y.getLsbD 0 := by rw [← key, ← key, hxy]
  have h1 : x >>> 1 = y >>> 1 := by
    unfold bitStep at hxy
    rw [h0] at hxy
    split at hxy
    · rwa [BitVec.xor_left_inj] at hxy
    · exact hxy
  apply BitVec.eq_of_getLsbD_eq
  intro i hi
  cases i with
  | zero => exact h0
  | succ i =>
    have := congrArg (fun z => z.getLsbD i) h1
    simpa [BitVec.getLsbD_ushiftRight, Nat.add_comm] using this

lemma byteStep_injective (hP : P.msb = true) (b : BitVec 8) :
    Function.Injective fun x => byteStep P x b := by
  intro x y h
  have := (bitStep_injective P hP).iterate 8 h
  rwa [BitVec.xor_left_inj] at this

lemma feed_injective (hP : P.msb = true) (bs : List (BitVec 8)) :
    Function.Injective fun x => feed P x bs := by
  induction bs with
  | nil => exact fun _ _ h => h
  | cons b bs ih => exact fun x y h => byteStep_injective P hP b (ih h)

/-! ## Burst errors -/

/-- A register whose low bits are clear is only moved down. -/
lemma bitStep_iterate_shiftLeft (n : ℕ) (y : BitVec w) (hy : y <<< n >>> n = y) :
    (bitStep P)^[n] (y <<< n) = y := by
  have key : ∀ k ≤ n, (bitStep P)^[k] (y <<< n) = y <<< n >>> k := by
    intro k
    induction k with
    | zero => intro _; simp
    | succ k ih =>
      intro hk
      rw [Function.iterate_succ_apply', ih (by omega)]
      have hbit : (y <<< n >>> k).getLsbD 0 = false := by
        rw [BitVec.getLsbD_ushiftRight, BitVec.getLsbD_shiftLeft]
        simp [show k < n by omega]
      rw [bitStep, hbit, if_neg (by simp), BitVec.shiftRight_add]
  rw [key n (Nat.le_refl n), hy]

/-- The bits above the lowest `n` are moved down, the others are looked up. -/
lemma bitStep_iterate_split (n : ℕ) (y : BitVec w) :
    (bitStep P)^[n] y = (y >>> n) ^^^ (bitStep P)^[n] (BitVec.ofNat w (y.toNat % 2 ^ n)) := by
  have hlow : ∀ i < w, (BitVec.ofNat w (y.toNat % 2 ^ n)).getLsbD i
      = (decide (i < n) && y.getLsbD i) := by
    intro i hi
    rw [BitVec.getLsbD_ofNat, Nat.testBit_mod_two_pow]
    simp [hi, BitVec.getLsbD]
  have hsplit : y = (y >>> n) <<< n ^^^ BitVec.ofNat w (y.toNat % 2 ^ n) := by
    apply BitVec.eq_of_getLsbD_eq
    intro i hi
    rw [BitVec.getLsbD_xor, hlow i hi, BitVec.getLsbD_shiftLeft, BitVec.getLsbD_ushiftRight]
    by_cases h : i < n
    · simp [h]
    · simp [h, hi, show n + (i - n) = i by omega]
  have hup : (y >>> n) <<< n >>> n = y >>> n := by
    apply BitVec.eq_of_getLsbD_eq
    intro i hi
    rw [BitVec.getLsbD_ushiftRight, BitVec.getLsbD_shiftLeft]
    by_cases h : n + i < w
    · simp [h]
    · simp [h, BitVec.getLsbD_ushiftRight, BitVec.getLsbD_of_ge y (n + i) (by omega)]
  calc (bitStep P)^[n] y
      = (bitStep P)^[n] ((y >>> n) <<< n ^^^ BitVec.ofNat w (y.toNat % 2 ^ n)) := by
        rw [← hsplit]
    _ = _ := by rw [bitStep_iterate_xor, bitStep_iterate_shiftLeft P n _ hup]

/-- The bytes of a short message laid out in a register. -/
def pack : List (BitVec 8) → BitVec w
  | [] => 0#w
  | b :: bs => b.setWidth w ^^^ (pack bs <<< 8)

lemma getLsbD_pack_of_ge (bs : List (BitVec 8)) (i : ℕ) (hi : 8 * bs.length ≤ i) :
    (pack bs : BitVec w).getLsbD i = false := by
  induction bs generalizing i with
  | nil => simp [pack]
  | cons b bs ih =>
    rw [List.length_cons] at hi
    rw [pack, BitVec.getLsbD_xor, BitVec.getLsbD_setWidth, BitVec.getLsbD_shiftLeft,
      BitVec.getLsbD_of_ge b i (by omega), ih (i - 8) (by omega)]
    simp

lemma getLsbD_pack_cons (b : BitVec 8) (bs : List (BitVec 8)) (i : ℕ) (hi : i < w) :
    (pack (b :: bs) : BitVec w).getLsbD i =
      if i < 8 then b.getLsbD i else (pack bs : BitVec w).getLsbD (i - 8) := by
  rw [pack, BitVec.getLsbD_xor, BitVec.getLsbD_setWidth, BitVec.getLsbD_shiftLeft]
  split
  · next h => simp [hi, h]
  · next h => simp [hi, h, BitVec.getLsbD_of_ge b i (by omega)]

lemma pack_inj : ∀ {bs cs : List (BitVec 8)}, bs.length = cs.length → 8 * bs.length ≤ w →
    (pack bs : BitVec w) = pack cs → bs = cs := by
  intro bs
  induction bs with
  | nil => intro cs h _ _; exact (List.length_eq_zero_iff.1 h.symm).symm
  | cons b bs ih =>
    intro cs h hw hp
    cases cs with
    | nil => simp at h
    | cons c cs =>
      rw [List.length_cons] at hw
      have hbits := fun i => congrArg (fun z => z.getLsbD i) hp
      have hbc : b = c := by
        apply BitVec.eq_of_getLsbD_eq
        intro i hi
        have := hbits i
        rwa [getLsbD_pack_cons _ _ _ (by omega), getLsbD_pack_cons _ _ _ (by omega), if_pos hi,
          if_pos hi] at this
      have hrest : (pack bs : BitVec w) = pack cs := by
        apply BitVec.eq_of_getLsbD_eq
        intro i hi
        by_cases hlt : i + 8 < w
        · have := hbits (i + 8)
          rwa [getLsbD_pack_cons _ _ _ hlt, getLsbD_pack_cons _ _ _ hlt, if_neg (by omega),
            if_neg (by omega)] at this
        · rw [getLsbD_pack_of_ge _ _ (by omega), getLsbD_pack_of_ge _ _ (by simp at h; omega)]
      rw [hbc, ih (by simpa using h) (by omega) hrest]

/-- A message that fits into the register acts as one addition followed by its bit
steps. -/
lemma feed_eq_iterate (bs : List (BitVec 8)) (hw : 8 * bs.length ≤ w) (x : BitVec w) :
    feed P x bs = (bitStep P)^[8 * bs.length] (x ^^^ pack bs) := by
  induction bs generalizing x with
  | nil => simp [pack]
  | cons b bs ih =>
    rw [List.length_cons] at hw
    have hshift : (pack bs : BitVec w) <<< 8 >>> 8 = pack bs := by
      apply BitVec.eq_of_getLsbD_eq
      intro i hi
      rw [BitVec.getLsbD_ushiftRight, BitVec.getLsbD_shiftLeft]
      by_cases hlt : 8 + i < w
      · simp [hlt]
      · simp [hlt, getLsbD_pack_of_ge (w := w) bs i (by omega)]
    calc feed P x (b :: bs)
        = (bitStep P)^[8 * bs.length] ((bitStep P)^[8] (x ^^^ b.setWidth w) ^^^ pack bs) := by
          rw [feed_cons, ih (by omega), byteStep]
      _ = (bitStep P)^[8 * bs.length] ((bitStep P)^[8]
            ((x ^^^ b.setWidth w) ^^^ (pack bs <<< 8))) := by
          rw [bitStep_iterate_xor P 8 (x ^^^ b.setWidth w), bitStep_iterate_shiftLeft P 8 _ hshift]
      _ = (bitStep P)^[8 * (b :: bs).length] (x ^^^ pack (b :: bs)) := by
          rw [← Function.iterate_add_apply, List.length_cons, pack, BitVec.xor_assoc]
          rfl

/-- **Burst errors are detected.**  Messages that differ only inside a block that fits
into the register leave different registers. -/
theorem feed_ne_of_block (hP : P.msb = true) (x : BitVec w) {pre bs cs post : List (BitVec 8)}
    (hlen : bs.length = cs.length) (hw : 8 * bs.length ≤ w) (hne : bs ≠ cs) :
    feed P x (pre ++ bs ++ post) ≠ feed P x (pre ++ cs ++ post) := by
  intro h
  simp only [feed_append] at h
  have h1 := feed_injective P hP post h
  rw [feed_eq_iterate P bs hw, feed_eq_iterate P cs (by omega), hlen] at h1
  have h2 := (bitStep_injective P hP).iterate _ h1
  rw [BitVec.xor_right_inj] at h2
  exact hne (pack_inj hlen hw h2)

end Lib.Crc

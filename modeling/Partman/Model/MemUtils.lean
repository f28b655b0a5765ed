/-
# Types and byte access (`partman_types.h`, `memutils.c`)

The C types are those of an LP64 platform: `unsigned long` and `unsigned long long` are
both 64 bits wide, so `pu32` is wider than its name says.  The image is mapped shared, so
a `pu8 *` into a mapping is the byte offset of the image it points at; the writers return
the stores they perform, in program order, and the readers read the image.
-/
import Partman.Lib.Mem
import Partman.Lib.Le

namespace Partman

abbrev Pu8 := UInt8
abbrev Pu16 := UInt16
abbrev Pu32 := UInt64
abbrev Pu64 := UInt64
abbrev P32 := Int64
abbrev P64 := Int64

/-- Result of a subroutine that can fail. -/
inductive Pres
  | fail
  | ok
deriving DecidableEq, Repr

abbrev Pflag := Bool

abbrev Plba := Pu64
abbrev PlbaMbr := Pu32

/-- An LBA returned by a search, `-1` standing for failure. -/
abbrev PlbaRes := P64
abbrev Pchs := Pu32
abbrev PcharUcs := Pu32

/-- The bytes of an image.  What lies at or past the image size is what a page that
reaches over the end of the file shows there. -/
abbrev Image := ℕ → UInt8

/-- A byte store into the mapped image. -/
abbrev Store := ℕ × UInt8

/-! ## Writers -/

def writePu8 (buf : ℕ) (i : Pu8) : List Store := [(buf, i &&& 0xFF)]

def writePu16 (buf : ℕ) (i : Pu16) : List Store :=
  [(buf, ((i >>> 0) &&& 0xFF).toUInt8),
   (buf + 1, ((i >>> 8) &&& 0xFF).toUInt8)]

def writePu24 (buf : ℕ) (i : Pu32) : List Store :=
  [(buf, ((i >>> 0) &&& 0xFF).toUInt8),
   (buf + 1, ((i >>> 8) &&& 0xFF).toUInt8),
   (buf + 2, ((i >>> 16) &&& 0xFF).toUInt8)]

def writePu32 (buf : ℕ) (i : Pu32) : List Store :=
  [(buf, ((i >>> 0) &&& 0xFF).toUInt8),
   (buf + 1, ((i >>> 8) &&& 0xFF).toUInt8),
   (buf + 2, ((i >>> 16) &&& 0xFF).toUInt8),
   (buf + 3, ((i >>> 24) &&& 0xFF).toUInt8)]

def writePu64 (buf : ℕ) (i : Pu64) : List Store :=
  [(buf, ((i >>> 0) &&& 0xFF).toUInt8),
   (buf + 1, ((i >>> 8) &&& 0xFF).toUInt8),
   (buf + 2, ((i >>> 16) &&& 0xFF).toUInt8),
   (buf + 3, ((i >>> 24) &&& 0xFF).toUInt8),
   (buf + 4, ((i >>> 32) &&& 0xFF).toUInt8),
   (buf + 5, ((i >>> 40) &&& 0xFF).toUInt8),
   (buf + 6, ((i >>> 48) &&& 0xFF).toUInt8),
   (buf + 7, ((i >>> 56) &&& 0xFF).toUInt8)]

/-! ## Readers -/

def readPu8 (m : Image) (buf : ℕ) : Pu8 := m buf

def readPu16 (m : Image) (buf : ℕ) : Pu16 :=
  ((m buf).toUInt16 <<< 0) ||| ((m (buf + 1)).toUInt16 <<< 8)

def readPu24 (m : Image) (buf : ℕ) : Pu32 :=
  ((m buf).toUInt64 <<< 0) ||| ((m (buf + 1)).toUInt64 <<< 8) |||
  ((m (buf + 2)).toUInt64 <<< 16)

def readPu32 (m : Image) (buf : ℕ) : Pu32 :=
  ((m buf).toUInt64 <<< 0) ||| ((m (buf + 1)).toUInt64 <<< 8) |||
  ((m (buf + 2)).toUInt64 <<< 16) ||| ((m (buf + 3)).toUInt64 <<< 24)

def readPu64 (m : Image) (buf : ℕ) : Pu64 :=
  ((m buf).toUInt64 <<< 0) ||| ((m (buf + 1)).toUInt64 <<< 8) |||
  ((m (buf + 2)).toUInt64 <<< 16) ||| ((m (buf + 3)).toUInt64 <<< 24) |||
  ((m (buf + 4)).toUInt64 <<< 32) ||| ((m (buf + 5)).toUInt64 <<< 40) |||
  ((m (buf + 6)).toUInt64 <<< 48) ||| ((m (buf + 7)).toUInt64 <<< 56)

/-! ## The writers fill consecutive bytes, least significant first -/

open Lib

@[simp] lemma byte_and_ff (b : UInt8) : b &&& 255 = b := by
  apply UInt8.toNat_inj.1
  rw [UInt8.toNat_and]
  exact Nat.and_two_pow_sub_one_of_lt_two_pow (n := 8) b.toNat_lt

/-- The byte taken out of a shifted value. -/
lemma toUInt8_shiftRight (i k : UInt64) (hk : k.toNat < 64) :
    (i >>> k).toUInt8 = UInt8.ofNat (i.toNat / 2 ^ k.toNat) := by
  apply UInt8.toNat_inj.1
  rw [UInt64.toNat_toUInt8, UInt64.toNat_shiftRight, Nat.mod_eq_of_lt hk,
    Nat.shiftRight_eq_div_pow, UInt8.toNat_ofNat']

lemma writePu8_eq (buf : ℕ) (i : Pu8) : writePu8 buf i = storeAt buf [i] := by
  simp [writePu8]

lemma writePu16_eq (buf : ℕ) (i : Pu16) :
    writePu16 buf i = storeAt buf (leBytes 2 i.toNat) := by
  have h1 : (i >>> 8).toUInt8 = UInt8.ofNat (i.toNat / 256) := by
    apply UInt8.toNat_inj.1
    rw [UInt16.toNat_toUInt8, UInt16.toNat_shiftRight, UInt8.toNat_ofNat']
    exact congrArg (· % 256) (Nat.shiftRight_eq_div_pow i.toNat 8)
  simp [writePu16, h1]

lemma writePu24_eq (buf : ℕ) (i : Pu32) :
    writePu24 buf i = storeAt buf (leBytes 3 i.toNat) := by
  simp [writePu24, toUInt8_shiftRight, Nat.div_div_eq_div_mul]

lemma writePu32_eq (buf : ℕ) (i : Pu32) :
    writePu32 buf i = storeAt buf (leBytes 4 i.toNat) := by
  simp [writePu32, toUInt8_shiftRight, Nat.div_div_eq_div_mul]

lemma writePu64_eq (buf : ℕ) (i : Pu64) :
    writePu64 buf i = storeAt buf (leBytes 8 i.toNat) := by
  simp [writePu64, toUInt8_shiftRight, Nat.div_div_eq_div_mul]

/-! ## The readers -/

/-- Adding a byte above the bytes that are already there. -/
lemma toNat_or_shiftLeft {a k : UInt64} {n j : ℕ} (ha : a.toNat = n) (hk : k.toNat = j)
    (hj : j + 8 ≤ 64) (hn : n < 2 ^ j) (b : UInt8) :
    (a ||| b.toUInt64 <<< k).toNat = n + b.toNat * 2 ^ j := by
  have hb : b.toNat < 256 := b.toNat_lt
  have hlt : b.toNat <<< j < 2 ^ 64 := by
    rw [Nat.shiftLeft_eq]
    calc b.toNat * 2 ^ j < 2 ^ 8 * 2 ^ j := Nat.mul_lt_mul_of_pos_right hb (Nat.two_pow_pos _)
      _ = 2 ^ (8 + j) := (Nat.pow_add ..).symm
      _ ≤ 2 ^ 64 := Nat.pow_le_pow_right (by decide) (by omega)
  rw [UInt64.toNat_or, UInt64.toNat_shiftLeft, hk, Nat.mod_eq_of_lt (show j < 64 by omega),
    UInt8.toNat_toUInt64, Nat.mod_eq_of_lt hlt, ha, Nat.or_comm,
    ← Nat.shiftLeft_add_eq_or_of_lt hn, Nat.shiftLeft_eq, Nat.add_comm]

lemma toNat_readPu16 (m : Image) (buf : ℕ) :
    (readPu16 m buf).toNat = ofLe (loadAt m buf 2) := by
  have h0 := (m buf).toNat_lt
  have h1 := (m (buf + 1)).toNat_lt
  have hlt : (m (buf + 1)).toNat <<< 8 < 2 ^ 16 := by
    rw [Nat.shiftLeft_eq]
    omega
  have e0 : ((m buf).toUInt16 <<< (0 : UInt16)).toNat = (m buf).toNat := by simp
  rw [readPu16, UInt16.toNat_or, e0, UInt16.toNat_shiftLeft, UInt8.toNat_toUInt16,
    show (8 : UInt16).toNat % 16 = 8 from rfl, Nat.mod_eq_of_lt hlt, Nat.or_comm,
    ← Nat.shiftLeft_add_eq_or_of_lt h0, Nat.shiftLeft_eq]
  simp only [loadAt_succ, loadAt_zero, ofLe_cons, ofLe_nil]
  omega

lemma toNat_readPu32 (m : Image) (buf : ℕ) :
    (readPu32 m buf).toNat = ofLe (loadAt m buf 4) := by
  have h0 := (m buf).toNat_lt
  have h1 := (m (buf + 1)).toNat_lt
  have h2 := (m (buf + 2)).toNat_lt
  have e0 : ((m buf).toUInt64 <<< (0 : UInt64)).toNat = (m buf).toNat := by simp
  have e1 := toNat_or_shiftLeft (k := 8) (j := 8) e0 rfl (by decide) (by omega) (m (buf + 1))
  have e2 := toNat_or_shiftLeft (k := 16) (j := 16) e1 rfl (by decide) (by omega) (m (buf + 2))
  have e3 := toNat_or_shiftLeft (k := 24) (j := 24) e2 rfl (by decide) (by omega) (m (buf + 3))
  rw [readPu32, e3]
  simp only [loadAt_succ, loadAt_zero, ofLe_cons, ofLe_nil, Nat.add_assoc, Nat.reduceAdd]
  omega

lemma toNat_readPu64 (m : Image) (buf : ℕ) :
    (readPu64 m buf).toNat = ofLe (loadAt m buf 8) := by
  have h0 := toNat_readPu32 m buf
  have hlt : (readPu32 m buf).toNat < 2 ^ 32 := by
    rw [h0]
    simpa using ofLe_lt (loadAt m buf 4)
  have h4 := (m (buf + 4)).toNat_lt
  have h5 := (m (buf + 5)).toNat_lt
  have h6 := (m (buf + 6)).toNat_lt
  have e4 := toNat_or_shiftLeft (k := 32) (j := 32) h0 rfl (by decide) (h0 ▸ hlt) (m (buf + 4))
  have e5 := toNat_or_shiftLeft (k := 40) (j := 40) e4 rfl (by decide) (by omega) (m (buf + 5))
  have e6 := toNat_or_shiftLeft (k := 48) (j := 48) e5 rfl (by decide) (by omega) (m (buf + 6))
  have e7 := toNat_or_shiftLeft (k := 56) (j := 56) e6 rfl (by decide) (by omega) (m (buf + 7))
  have hdef : readPu64 m buf = readPu32 m buf ||| (m (buf + 4)).toUInt64 <<< 32 |||
      (m (buf + 5)).toUInt64 <<< 40 ||| (m (buf + 6)).toUInt64 <<< 48 |||
      (m (buf + 7)).toUInt64 <<< 56 := rfl
  rw [hdef, e7]
  simp only [loadAt_succ, loadAt_zero, ofLe_cons, ofLe_nil, Nat.add_assoc, Nat.reduceAdd]
  omega

/-! ## Reading and writing are inverse -/

lemma readPu32_lt (m : Image) (buf : ℕ) : (readPu32 m buf).toNat < 2 ^ 32 := by
  rw [toNat_readPu32]
  simpa using ofLe_lt (loadAt m buf 4)

lemma leBytes_readPu16 (m : Image) (buf : ℕ) :
    leBytes 2 (readPu16 m buf).toNat = loadAt m buf 2 := by
  rw [toNat_readPu16]
  exact leBytes_ofLe (loadAt m buf 2)

lemma leBytes_readPu32 (m : Image) (buf : ℕ) :
    leBytes 4 (readPu32 m buf).toNat = loadAt m buf 4 := by
  rw [toNat_readPu32]
  exact leBytes_ofLe (loadAt m buf 4)

lemma leBytes_readPu64 (m : Image) (buf : ℕ) :
    leBytes 8 (readPu64 m buf).toNat = loadAt m buf 8 := by
  rw [toNat_readPu64]
  exact leBytes_ofLe (loadAt m buf 8)

lemma le16_inj {a b : Pu16} (h : leBytes 2 a.toNat = leBytes 2 b.toNat) : a = b :=
  UInt16.toNat_inj.1 (leBytes_inj_of_lt a.toNat_lt b.toNat_lt h)

lemma le32_inj {a b : Pu32} (ha : a.toNat < 2 ^ 32) (hb : b.toNat < 2 ^ 32)
    (h : leBytes 4 a.toNat = leBytes 4 b.toNat) : a = b :=
  UInt64.toNat_inj.1 (leBytes_inj_of_lt ha hb h)

lemma le64_inj {a b : Pu64} (h : leBytes 8 a.toNat = leBytes 8 b.toNat) : a = b :=
  UInt64.toNat_inj.1 (leBytes_inj_of_lt a.toNat_lt b.toNat_lt h)

lemma ofLe_loadAt_of_holds {m : Image} {buf w n : ℕ} (h : Holds m buf (leBytes w n)) :
    ofLe (loadAt m buf w) = n % 256 ^ w := by
  rw [holds_iff_loadAt, length_leBytes] at h
  rw [h, ofLe_leBytes]

lemma readPu16_of_holds {m : Image} {buf : ℕ} {i : Pu16} (h : Holds m buf (leBytes 2 i.toNat)) :
    readPu16 m buf = i := by
  apply UInt16.toNat_inj.1
  rw [toNat_readPu16, ofLe_loadAt_of_holds h]
  exact Nat.mod_eq_of_lt i.toNat_lt

lemma readPu32_of_holds {m : Image} {buf : ℕ} {i : Pu32} (h : Holds m buf (leBytes 4 i.toNat))
    (hi : i.toNat < 2 ^ 32) : readPu32 m buf = i := by
  apply UInt64.toNat_inj.1
  rw [toNat_readPu32, ofLe_loadAt_of_holds h]
  exact Nat.mod_eq_of_lt hi

end Partman

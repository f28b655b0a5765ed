/-
# The table-driven CRC-32 (`crc32.c`)

The static table starts out as zeros and is filled by the first byte that is fed.  The
functions below work on the filled table; `crc32Compute8Lazy_eq` says that threading the
static table through the calls makes no difference.
-/
import Partman.Lib.Crc
import Partman.Model.MemUtils

namespace Partman

open Lib

abbrev Pcrc32 := Pu32

/-- The static array `crc_table`, by index. -/
abbrev CrcTable := ℕ → Pcrc32

/-- The table before its first use. -/
def crcTableZero : CrcTable := fun _ => 0

/-- The inner loop of `crc32_init_table`: `j` runs over the multiples of `2 * i`. -/
def crc32FillRow (i : ℕ) (crc32 : Pcrc32) (t : CrcTable) : CrcTable :=
  (List.range (128 / i)).foldl
    (fun t k => Function.update t (i + k * (2 * i)) (crc32 ^^^ t (k * (2 * i)))) t

/-- `crc32_init_table`: `i` runs over `128, 64, .., 1`. -/
def crc32InitTable (t : CrcTable) : CrcTable :=
  ([128, 64, 32, 16, 8, 4, 2, 1].foldl (fun (s : Pcrc32 × CrcTable) i =>
    let crc32 := (s.1 >>> 1) ^^^ (if s.1 &&& 1 != 0 then 0xEDB88320 else 0)
    (crc32, crc32FillRow i crc32 s.2)) (1, t)).2

/-- The table after its first use. -/
def crcTable : CrcTable := crc32InitTable crcTableZero

def crc32Init : Pcrc32 := 0xFFFFFFFF

def crc32Finalize (crc32 : Pcrc32) : Pcrc32 := crc32 ^^^ 0xFFFFFFFF

/-- `crc32_compute8`, the static table being handed in and out. -/
def crc32Compute8Lazy (t : CrcTable) (crc32 : Pcrc32) (i : Pu8) : CrcTable × Pcrc32 :=
  let t := if t 255 == 0 then crc32InitTable t else t
  let crc32 := crc32 ^^^ i.toUInt64
  (t, (crc32 >>> 8) ^^^ t (crc32 &&& 0xFF).toNat)

/-- `crc32_compute8` on the filled table. -/
def crc32Compute8 (crc32 : Pcrc32) (i : Pu8) : Pcrc32 :=
  let crc32 := crc32 ^^^ i.toUInt64
  (crc32 >>> 8) ^^^ crcTable (crc32 &&& 0xFF).toNat

def crc32Compute16 (crc32 : Pcrc32) (i : Pu16) : Pcrc32 :=
  let crc32 := crc32Compute8 crc32 ((i >>> 0) &&& 0xFF).toUInt8
  crc32Compute8 crc32 ((i >>> 8) &&& 0xFF).toUInt8

def crc32Compute32 (crc32 : Pcrc32) (i : Pu32) : Pcrc32 :=
  let crc32 := crc32Compute8 crc32 ((i >>> 0) &&& 0xFF).toUInt8
  let crc32 := crc32Compute8 crc32 ((i >>> 8) &&& 0xFF).toUInt8
  let crc32 := crc32Compute8 crc32 ((i >>> 16) &&& 0xFF).toUInt8
  crc32Compute8 crc32 ((i >>> 24) &&& 0xFF).toUInt8

def crc32Compute64 (crc32 : Pcrc32) (i : Pu64) : Pcrc32 :=
  let crc32 := crc32Compute8 crc32 ((i >>> 0) &&& 0xFF).toUInt8
  let crc32 := crc32Compute8 crc32 ((i >>> 8) &&& 0xFF).toUInt8
  let crc32 := crc32Compute8 crc32 ((i >>> 16) &&& 0xFF).toUInt8
  let crc32 := crc32Compute8 crc32 ((i >>> 24) &&& 0xFF).toUInt8
  let crc32 := crc32Compute8 crc32 ((i >>> 32) &&& 0xFF).toUInt8
  let crc32 := crc32Compute8 crc32 ((i >>> 40) &&& 0xFF).toUInt8
  let crc32 := crc32Compute8 crc32 ((i >>> 48) &&& 0xFF).toUInt8
  crc32Compute8 crc32 ((i >>> 56) &&& 0xFF).toUInt8

/-- `crc32_compute16`, the static table being handed in and out. -/
def crc32Compute16Lazy (t : CrcTable) (crc32 : Pcrc32) (i : Pu16) : CrcTable × Pcrc32 :=
  let (t, crc32) := crc32Compute8Lazy t crc32 ((i >>> 0) &&& 0xFF).toUInt8
  crc32Compute8Lazy t crc32 ((i >>> 8) &&& 0xFF).toUInt8

/-- `crc32_compute32`, the static table being handed in and out. -/
def crc32Compute32Lazy (t : CrcTable) (crc32 : Pcrc32) (i : Pu32) : CrcTable × Pcrc32 :=
  let (t, crc32) := crc32Compute8Lazy t crc32 ((i >>> 0) &&& 0xFF).toUInt8
  let (t, crc32) := crc32Compute8Lazy t crc32 ((i >>> 8) &&& 0xFF).toUInt8
  let (t, crc32) := crc32Compute8Lazy t crc32 ((i >>> 16) &&& 0xFF).toUInt8
  crc32Compute8Lazy t crc32 ((i >>> 24) &&& 0xFF).toUInt8

/-- `crc32_compute64`, the static table being handed in and out. -/
def crc32Compute64Lazy (t : CrcTable) (crc32 : Pcrc32) (i : Pu64) : CrcTable × Pcrc32 :=
  let (t, crc32) := crc32Compute8Lazy t crc32 ((i >>> 0) &&& 0xFF).toUInt8
  let (t, crc32) := crc32Compute8Lazy t crc32 ((i >>> 8) &&& 0xFF).toUInt8
  let (t, crc32) := crc32Compute8Lazy t crc32 ((i >>> 16) &&& 0xFF).toUInt8
  let (t, crc32) := crc32Compute8Lazy t crc32 ((i >>> 24) &&& 0xFF).toUInt8
  let (t, crc32) := crc32Compute8Lazy t crc32 ((i >>> 32) &&& 0xFF).toUInt8
  let (t, crc32) := crc32Compute8Lazy t crc32 ((i >>> 40) &&& 0xFF).toUInt8
  let (t, crc32) := crc32Compute8Lazy t crc32 ((i >>> 48) &&& 0xFF).toUInt8
  crc32Compute8Lazy t crc32 ((i >>> 56) &&& 0xFF).toUInt8

/-! ## The table -/

/-- The generator of CRC-32, reflected. -/
def crcPoly : BitVec 32 := 0xEDB88320#32

lemma crcPoly_msb : crcPoly.msb = true := by decide

/-- A 32-bit register held in a `pcrc32`. -/
def ofReg (x : BitVec 32) : Pcrc32 := ⟨x.setWidth 64⟩

lemma ofReg_injective : Function.Injective ofReg := by
  intro x y h
  have h1 : x.setWidth 64 = y.setWidth 64 := congrArg UInt64.toBitVec h
  have h2 := congrArg (BitVec.setWidth 32) h1
  simpa using h2

/-- Every entry of the table is the register after eight steps on its index. -/
lemma crcTable_eq (k : Fin 256) :
    crcTable k = ofReg ((Crc.bitStep crcPoly)^[8] (BitVec.ofNat 32 k)) := by
  revert k
  decide +kernel

/-- The table is in use exactly when its last entry is not zero. -/
lemma crc32Compute8Lazy_eq {t : CrcTable} (ht : t = crcTableZero ∨ t = crcTable)
    (crc32 : Pcrc32) (i : Pu8) :
    crc32Compute8Lazy t crc32 i = (crcTable, crc32Compute8 crc32 i) := by
  rcases ht with rfl | rfl
  · rfl
  · have h : (crcTable 255 == 0) = false := by
      rw [show crcTable 255 = _ from crcTable_eq 255]
      decide
    simp [crc32Compute8Lazy, crc32Compute8, h]

/-! ## Bytes fed to the checksum -/

/-- Feeding a string of bytes. -/
def crc32Feed (crc32 : Pcrc32) (bs : List UInt8) : Pcrc32 := bs.foldl crc32Compute8 crc32

/-- The checksum of a string of bytes. -/
def crc32Of (bs : List UInt8) : Pcrc32 := crc32Finalize (crc32Feed crc32Init bs)

lemma crc32Feed_append (crc32 : Pcrc32) (bs cs : List UInt8) :
    crc32Feed crc32 (bs ++ cs) = crc32Feed (crc32Feed crc32 bs) cs := List.foldl_append

lemma crc32Compute8_eq (crc32 : Pcrc32) (i : Pu8) :
    crc32Compute8 crc32 i = crc32Feed crc32 [i] := rfl

lemma crc32Compute16_eq (crc32 : Pcrc32) (i : Pu16) :
    crc32Compute16 crc32 i = crc32Feed crc32 (leBytes 2 i.toNat) := by
  have h := writePu16_eq 0 i
  simp only [writePu16, leBytes_succ, leBytes_zero, storeAt_cons, storeAt_nil, List.cons.injEq,
    Prod.mk.injEq, and_true, true_and] at h
  rw [crc32Compute16, h.1, h.2]
  rfl

lemma crc32Compute32_eq (crc32 : Pcrc32) (i : Pu32) :
    crc32Compute32 crc32 i = crc32Feed crc32 (leBytes 4 i.toNat) := by
  have h := writePu32_eq 0 i
  simp only [writePu32, leBytes_succ, leBytes_zero, storeAt_cons, storeAt_nil, List.cons.injEq,
    Prod.mk.injEq, and_true, true_and] at h
  rw [crc32Compute32, h.1, h.2.1, h.2.2.1, h.2.2.2]
  rfl

lemma crc32Compute64_eq (crc32 : Pcrc32) (i : Pu64) :
    crc32Compute64 crc32 i = crc32Feed crc32 (leBytes 8 i.toNat) := by
  have h := writePu64_eq 0 i
  simp only [writePu64, leBytes_succ, leBytes_zero, storeAt_cons, storeAt_nil, List.cons.injEq,
    Prod.mk.injEq, and_true, true_and] at h
  obtain ⟨h0, h1, h2, h3, h4, h5, h6, h7⟩ := h
  rw [crc32Compute64, h0, h1, h2, h3, h4, h5, h6, h7]
  rfl

lemma ofReg_xor (x y : BitVec 32) : ofReg (x ^^^ y) = ofReg x ^^^ ofReg y := by
  apply UInt64.toBitVec_inj.1
  simp [ofReg]

lemma toNat_ofReg (x : BitVec 32) : (ofReg x).toNat = x.toNat := by
  simp only [ofReg, UInt64.toNat, BitVec.toNat_setWidth]
  exact Nat.mod_eq_of_lt (lt_of_lt_of_le x.isLt (by decide))

lemma ofReg_shiftRight (x : BitVec 32) : ofReg x >>> 8 = ofReg (x >>> 8) := by
  apply UInt64.toNat_inj.1
  rw [toNat_ofReg, UInt64.toNat_shiftRight, toNat_ofReg, BitVec.toNat_ushiftRight]
  rfl

/-- One table look-up is eight bit steps. -/
lemma crc32Compute8_ofReg (x : BitVec 32) (i : Pu8) :
    crc32Compute8 (ofReg x) i = ofReg (Crc.byteStep crcPoly x i.toBitVec) := by
  obtain ⟨y, hy⟩ : ∃ y, y = x ^^^ i.toBitVec.setWidth 32 := ⟨_, rfl⟩
  have hx : ofReg x ^^^ i.toUInt64 = ofReg y := by
    apply UInt64.toBitVec_inj.1
    simp [ofReg, hy]
  have hidx : (ofReg y &&& 0xFF).toNat = y.toNat % 256 := by
    rw [UInt64.toNat_and, toNat_ofReg]
    exact Nat.and_two_pow_sub_one_eq_mod y.toNat 8
  have hlt : y.toNat % 256 < 256 := Nat.mod_lt _ (by decide)
  have htab := crcTable_eq ⟨y.toNat % 256, hlt⟩
  calc crc32Compute8 (ofReg x) i
      = ofReg y >>> 8 ^^^ crcTable (y.toNat % 256) := by rw [crc32Compute8, hx, hidx]
    _ = ofReg (y >>> 8 ^^^ (Crc.bitStep crcPoly)^[8] (BitVec.ofNat 32 (y.toNat % 2 ^ 8))) := by
      rw [ofReg_xor, ofReg_shiftRight]
      exact congrArg _ htab
    _ = ofReg (Crc.byteStep crcPoly x i.toBitVec) := by
      rw [← Crc.bitStep_iterate_split, Crc.byteStep, hy]

lemma crc32Feed_ofReg (x : BitVec 32) (bs : List UInt8) :
    crc32Feed (ofReg x) bs = ofReg (Crc.feed crcPoly x (bs.map UInt8.toBitVec)) := by
  induction bs generalizing x with
  | nil => rfl
  | cons b bs ih =>
    rw [List.map_cons, Crc.feed_cons, ← ih, ← crc32Compute8_ofReg]
    rfl

/-- The checksum, defined bit by bit: the register starts and ends complemented. -/
def crc32Bits (bs : List UInt8) : BitVec 32 :=
  Crc.feed crcPoly 0xFFFFFFFF#32 (bs.map UInt8.toBitVec) ^^^ 0xFFFFFFFF#32

/-- The table-driven checksum of a string is the one defined bit by bit. -/
lemma crc32Of_eq (bs : List UInt8) : crc32Of bs = ofReg (crc32Bits bs) := by
  have hinit : crc32Init = ofReg 0xFFFFFFFF#32 := by decide
  rw [crc32Of, hinit, crc32Feed_ofReg, crc32Finalize, crc32Bits, ofReg_xor]
  rfl

lemma crc32Of_lt (bs : List UInt8) : (crc32Of bs).toNat < 2 ^ 32 := by
  rw [crc32Of_eq, toNat_ofReg]
  exact (crc32Bits bs).isLt

/-- Strings that differ only in a block of at most four bytes have different checksums. -/
lemma crc32Of_ne_of_block {pre bs cs post : List UInt8} (hlen : bs.length = cs.length)
    (h4 : bs.length ≤ 4) (hne : bs ≠ cs) :
    crc32Of (pre ++ bs ++ post) ≠ crc32Of (pre ++ cs ++ post) := by
  rw [crc32Of_eq, crc32Of_eq]
  intro h
  have h1 := ofReg_injective h
  rw [crc32Bits, crc32Bits, BitVec.xor_left_inj] at h1
  simp only [List.map_append] at h1
  refine Crc.feed_ne_of_block crcPoly crcPoly_msb _ (by simp [hlen]) (by simp; omega) ?_ h1
  intro hmap
  exact hne (List.map_injective_iff.2 (fun _ _ => UInt8.toBitVec_inj.1) hmap)

/-- The remainder that a string of bytes leaves in the empty register. -/
def crc32Rem (bs : List UInt8) : BitVec 32 := Crc.feed crcPoly 0#32 (bs.map UInt8.toBitVec)

/-- Two strings of one length have the same checksum exactly when their difference
leaves no remainder. -/
lemma crc32Of_eq_iff {bs cs : List UInt8} (h : bs.length = cs.length) :
    crc32Of bs = crc32Of cs ↔ crc32Rem (List.zipWith (· ^^^ ·) bs cs) = 0#32 := by
  have hzip : (List.zipWith (· ^^^ ·) bs cs).map UInt8.toBitVec
      = List.zipWith (· ^^^ ·) (bs.map UInt8.toBitVec) (cs.map UInt8.toBitVec) := by
    rw [List.map_zipWith, List.zipWith_map]
    rfl
  rw [crc32Of_eq, crc32Of_eq, ofReg_injective.eq_iff, crc32Bits, crc32Bits, BitVec.xor_left_inj,
    crc32Rem, hzip]
  exact Crc.feed_eq_iff crcPoly _ (by simpa using h)

end Partman

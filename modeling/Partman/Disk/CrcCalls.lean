/-
# The checksum on any sequence of calls

A program computes checksums one after another; each is fed by any mixture of the four
functions, and the first byte of all fills the static table.  Whatever the mixture, the
result is the checksum, defined bit by bit, of the bytes in little-endian order.
-/
import Partman.Model.Crc32

namespace Partman

open Lib

/-- A call that feeds a value to the checksum. -/
inductive CrcCall
  | compute8 (i : Pu8)
  | compute16 (i : Pu16)
  | compute32 (i : Pu32)
  | compute64 (i : Pu64)

namespace CrcCall

/-- The bytes that the call contributes. -/
def bytes : CrcCall → List UInt8
  | compute8 i => [i]
  | compute16 i => leBytes 2 i.toNat
  | compute32 i => leBytes 4 i.toNat
  | compute64 i => leBytes 8 i.toNat

/-- The call on the static table and the checksum. -/
def run (s : CrcTable × Pcrc32) : CrcCall → CrcTable × Pcrc32
  | compute8 i => crc32Compute8Lazy s.1 s.2 i
  | compute16 i => crc32Compute16Lazy s.1 s.2 i
  | compute32 i => crc32Compute32Lazy s.1 s.2 i
  | compute64 i => crc32Compute64Lazy s.1 s.2 i

end CrcCall

/-- One checksum, from `crc32_init` to `crc32_finalize`. -/
def crcChecksum (t : CrcTable) (calls : List CrcCall) : CrcTable × Pcrc32 :=
  let s := calls.foldl CrcCall.run (t, crc32Init)
  (s.1, crc32Finalize s.2)

/-- The checksums of a program, one after another. -/
def crcChecksums (t : CrcTable) : List (List CrcCall) → List Pcrc32
  | [] => []
  | calls :: rest => (crcChecksum t calls).2 :: crcChecksums (crcChecksum t calls).1 rest

/-- The static table is in one of its two states. -/
def TableReady (t : CrcTable) : Prop := t = crcTableZero ∨ t = crcTable

/-- **One call**, whether it finds the table filled or fills it. -/
lemma CrcCall.run_eq {t : CrcTable} (ht : TableReady t) (crc32 : Pcrc32) (c : CrcCall) :
    c.run (t, crc32) = (crcTable, crc32Feed crc32 c.bytes) := by
  cases c with
  | compute8 i => exact crc32Compute8Lazy_eq ht crc32 i
  | compute16 i =>
    simp only [CrcCall.run, crc32Compute16Lazy, crc32Compute8Lazy_eq ht,
      crc32Compute8Lazy_eq (Or.inr rfl), CrcCall.bytes, ← crc32Compute16_eq, crc32Compute16]
  | compute32 i =>
    simp only [CrcCall.run, crc32Compute32Lazy, crc32Compute8Lazy_eq ht,
      crc32Compute8Lazy_eq (Or.inr rfl), CrcCall.bytes, ← crc32Compute32_eq, crc32Compute32]
  | compute64 i =>
    simp only [CrcCall.run, crc32Compute64Lazy, crc32Compute8Lazy_eq ht,
      crc32Compute8Lazy_eq (Or.inr rfl), CrcCall.bytes, ← crc32Compute64_eq, crc32Compute64]

/-- **A sequence of calls** feeds its bytes, and leaves the table in one of its states. -/
lemma foldl_run_eq {t : CrcTable} (ht : TableReady t) (crc32 : Pcrc32) (calls : List CrcCall) :
    TableReady (calls.foldl CrcCall.run (t, crc32)).1 ∧
      (calls.foldl CrcCall.run (t, crc32)).2 = crc32Feed crc32 (calls.flatMap CrcCall.bytes) := by
  induction calls generalizing t crc32 with
  | nil => exact ⟨ht, rfl⟩
  | cons c calls ih =>
    rw [List.foldl_cons, c.run_eq ht, List.flatMap_cons, crc32Feed_append]
    exact ih (Or.inr rfl) _

lemma crcChecksum_eq {t : CrcTable} (ht : TableReady t) (calls : List CrcCall) :
    TableReady (crcChecksum t calls).1 ∧
      (crcChecksum t calls).2 = ofReg (crc32Bits (calls.flatMap CrcCall.bytes)) := by
  obtain ⟨htable, hcrc⟩ := foldl_run_eq ht crc32Init calls
  exact ⟨htable, by rw [← crc32Of_eq, crc32Of, ← hcrc]; rfl⟩

lemma crcChecksums_of_ready {t : CrcTable} (ht : TableReady t) (runs : List (List CrcCall)) :
    crcChecksums t runs =
      runs.map fun calls => ofReg (crc32Bits (calls.flatMap CrcCall.bytes)) := by
  induction runs generalizing t with
  | nil => rfl
  | cons calls rest ih =>
    obtain ⟨htable, hcrc⟩ := crcChecksum_eq ht calls
    rw [crcChecksums, hcrc, ih htable, List.map_cons]

/-- **Every checksum of a program** that starts with an empty table is the one defined bit by
bit, of the bytes that its calls contribute, and has 32 bits. -/
theorem crcChecksums_eq (runs : List (List CrcCall)) :
    crcChecksums crcTableZero runs =
      runs.map (fun calls => ofReg (crc32Bits (calls.flatMap CrcCall.bytes))) ∧
    ∀ crc32 ∈ crcChecksums crcTableZero runs, crc32.toNat < 2 ^ 32 := by
  have h := crcChecksums_of_ready (Or.inl rfl) runs
  refine ⟨h, fun crc32 hc => ?_⟩
  rw [h] at hc
  obtain ⟨calls, -, rfl⟩ := List.mem_map.1 hc
  rw [toNat_ofReg]
  exact (crc32Bits _).isLt

end Partman

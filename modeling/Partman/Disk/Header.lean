/-
# The checksum of a header, as written and as read

The checksum is computed from the fields of a header and never from its bytes.  It is the
checksum of the 92 bytes that are written, with the four bytes of the checksum itself
replaced by zeros, and the reader gets the fields back.  So a header that carries its
checksum passes the tests of a load at its own LBA, and so does one that has been restored
from the other copy.
-/
import Partman.Disk.Damage
import Partman.Disk.Saved

namespace Partman

open Lib

variable {m : Image} {buf : ℕ} {hdr : GptHdr}

/-- The 92 bytes of a header, with bytes 16 to 19 replaced by zeros. -/
def hdrZeroed (m : Image) (buf : ℕ) : List UInt8 :=
  loadAt m buf 16 ++ List.replicate 4 0 ++ loadAt m (buf + 20) 72

/-- The header on the disk passes the tests of `gpt_pair_load` at this LBA. -/
structure PassesAt (m : Image) (buf : ℕ) (lba : Plba) : Prop where
  present : gptIsPresent m buf = true
  valid : gptHdrIsValid (gptHdrRead m buf) lba = true

/-- What a header is on the disk: the checksum of its fields is the one of its bytes, and the
reader gets its fields. -/
structure HdrAgrees (m : Image) (buf : ℕ) (hdr : GptHdr) : Prop where
  crc : gptHdrCrcCreate hdr = ofReg (crc32Bits (hdrZeroed m buf))
  read : gptHdrRead m buf = hdr
  passes : ∀ lba, hdr.hdrCrc32 = gptHdrCrcCreate hdr → hdr.myLba = lba → PassesAt m buf lba

/-- The bytes that were seen are the ones of the header where the reserved bytes are zeros. -/
lemma hdrSeen_eq_hdrZeroed (h : loadAt m (buf + 20) 4 = leBytes 4 0) :
    hdrSeen m buf = hdrZeroed m buf := by
  rw [hdrSeen, hdrZeroed, show (72 : ℕ) = 4 + 68 from rfl, loadAt_add m (buf + 20), h]
  simp only [List.append_assoc]
  rfl

lemma hdrAgrees_of_holds (hb : hdr.Bounded) (h : Holds m buf (hdrBytes hdr)) :
    HdrAgrees m buf hdr := by
  obtain ⟨hpres, hread⟩ := gptHdrRead_of_holds hb h
  have hres : loadAt m (buf + 20) 4 = leBytes 4 0 := by
    rw [hdrBytes, holds_append, holds_append, length_hdrLo] at h
    simpa using holds_iff_loadAt.1 h.1.2
  refine ⟨?_, hread, fun lba hcrc hlba => ⟨hpres, ?_⟩⟩
  · rw [← hdrSeen_eq_hdrZeroed hres, ← crc32Of_eq, ← gptHdrCrcCreate_read hpres, hread]
  · rw [hread, gptHdrIsValid, ← hcrc, ← hlba]
    simp

/-- **Writer, reader and checksum of headers agree**, whatever was on the disk before: for a
header whose fields fit, and for the one that `gpt_restore` makes of it in place of either
copy. -/
theorem gptHdrWrite_agrees (hb : hdr.Bounded) (m : Image) (buf : ℕ) :
    HdrAgrees (stores m (gptHdrWrite buf hdr)) buf hdr ∧
    ∀ (gpt : Gpt) (tableDstLba : Plba),
      (gpt.hdrSec = hdr → ∀ hdr', hdr' = (gptRestore gpt tableDstLba true).hdrPrim →
        hdr'.myLba = hdr.altLba ∧
          PassesAt (stores m (gptHdrWrite buf hdr')) buf hdr'.myLba) ∧
      (gpt.hdrPrim = hdr → ∀ hdr', hdr' = (gptRestore gpt tableDstLba false).hdrSec →
        hdr'.myLba = hdr.altLba ∧
          PassesAt (stores m (gptHdrWrite buf hdr')) buf hdr'.myLba) := by
  have hwritten : ∀ hdr : GptHdr, hdr.Bounded →
      HdrAgrees (stores m (gptHdrWrite buf hdr)) buf hdr := fun hdr hb => by
    rw [gptHdrWrite_eq]
    exact hdrAgrees_of_holds hb (holds_stores_storeAt _ _ _)
  have hrestored : ∀ lba, PassesAt (stores m (gptHdrWrite buf (gptRestoreHdr hdr lba))) buf
      (gptRestoreHdr hdr lba).myLba := fun lba =>
    (hwritten _ (hb.restore lba)).passes _ (gptRestoreHdr_crc hdr lba) rfl
  refine ⟨hwritten hdr hb, fun gpt lba => ⟨?_, ?_⟩⟩
  · rintro rfl hdr' rfl
    exact ⟨rfl, hrestored lba⟩
  · rintro rfl hdr' rfl
    exact ⟨rfl, hrestored lba⟩

/-- A header of the small image with 128 entries of this size, and with its checksum. -/
def hdrOfEntrySz (entrySz : Pu32) : GptHdr :=
  let hdr : GptHdr := ⟨gptHdrRev, gptHdrSz, 0, 1, 2047, 34, 2014, Guid.zero, 2, 128, entrySz, 0⟩
  { hdr with hdrCrc32 := gptHdrCrcCreate hdr }

lemma hdrOfEntrySz_bounded {entrySz : Pu32} (h : entrySz.toNat < 2 ^ 32) :
    (hdrOfEntrySz entrySz).Bounded where
  rev := show gptHdrRev.toNat < 2 ^ 32 by decide
  hdrSz := show gptHdrSz.toNat < 2 ^ 32 by decide
  hdrCrc32 := gptHdrCrcCreate_lt _
  diskGuid := show Guid.zero.timeLo.toNat < 2 ^ 32 by decide
  partTableEntryCnt := show (128 : UInt64).toNat < 2 ^ 32 by decide
  partEntrySz := h
  partTableCrc32 := show (0 : UInt64).toNat < 2 ^ 32 by decide

theorem gptHdrWrite_agrees_small :
    HdrAgrees (stores zeroImage (gptHdrWrite 512 (hdrOfEntrySz 128))) 512 (hdrOfEntrySz 128) ∧
      PassesAt (stores zeroImage (gptHdrWrite 512 (hdrOfEntrySz 128))) 512 1 :=
  have h := (gptHdrWrite_agrees (hdrOfEntrySz_bounded (by decide)) zeroImage 512).1
  ⟨h, h.passes 1 (gptHdrCrcCreate_setCrc _ _).symm rfl⟩

end Partman

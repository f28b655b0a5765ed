/-
# The boot record on the disk

The MBR occupies the first bytes of the image.  A save writes the disk signature, the four
entries and the boot signature and leaves the rest of the sector alone; a load finds an
MBR exactly when the boot signature is there.
-/
import Partman.Disk.Codec
import Partman.Disk.Geometry

namespace Partman

open Lib

variable {sys : Sys} {ctx : ImgCtx} {m : Image}

/-! ## The bytes that are written -/

/-- The sixteen bytes of an entry. -/
def mbrPartBytes (part : MbrPart) : List UInt8 :=
  [part.bootInd] ++ leBytes 3 part.startChs.toNat ++ [part.type] ++ leBytes 3 part.endChs.toNat ++
  leBytes 4 part.startLba.toNat ++ leBytes 4 part.szLba.toNat

/-- The entries and the boot signature. -/
def mbrTail (mbr : Mbr) : List UInt8 :=
  ((List.range 4).flatMap fun i => mbrPartBytes (mbr.partitions i)) ++ leBytes 2 mbrBootSig.toNat

@[simp] lemma length_mbrPartBytes (part : MbrPart) : (mbrPartBytes part).length = 16 := by
  simp [mbrPartBytes]

@[simp] lemma length_mbrTail (mbr : Mbr) : (mbrTail mbr).length = 66 := by
  simp [mbrTail]

lemma mbrPartWrite_eq (buf : ℕ) (part : MbrPart) :
    mbrPartWrite buf part = storeAt buf (mbrPartBytes part) := by
  simp only [mbrPartWrite, mbrPartBytes, writePu8_eq, writePu24_eq, writePu32_eq, storeAt_append,
    List.length_append, length_leBytes, List.length_singleton, Nat.reduceAdd]

lemma mbrWrite_eq (mbr : Mbr) :
    mbrWrite 0 mbr = storeAt 440 (leBytes 4 mbr.diskSig.toNat) ++ storeAt 446 (mbrTail mbr) := by
  have hparts : mbrTail mbr = mbrPartBytes (mbr.partitions 0) ++ mbrPartBytes (mbr.partitions 1) ++
      mbrPartBytes (mbr.partitions 2) ++ mbrPartBytes (mbr.partitions 3) ++
      leBytes 2 mbrBootSig.toNat := by
    simp [mbrTail, List.range_succ]
  rw [hparts]
  simp only [mbrWrite, mbrPartWrite_eq, writePu32_eq, writePu16_eq, storeAt_append,
    length_mbrPartBytes, Nat.reduceAdd, Nat.zero_add, List.append_assoc]

/-- The bytes that a save of an MBR writes. -/
def InMbr (a : ℕ) : Prop := (440 ≤ a ∧ a < 444) ∨ (446 ≤ a ∧ a < 512)

lemma mem_mbrWrite {mbr : Mbr} {s : Store} (h : s ∈ mbrWrite 0 mbr) : InMbr s.1 := by
  rw [mbrWrite_eq, List.mem_append] at h
  rcases h with h | h
  · exact Or.inl (by simpa using mem_storeAt h)
  · exact Or.inr (by simpa using mem_storeAt h)

lemma holds_mbrWrite (m : Image) (mbr : Mbr) :
    Holds (stores m (mbrWrite 0 mbr)) 440 (leBytes 4 mbr.diskSig.toNat) ∧
      Holds (stores m (mbrWrite 0 mbr)) 446 (mbrTail mbr) := by
  rw [mbrWrite_eq, stores_append]
  refine ⟨(holds_stores_storeAt m _ _).stores fun s hs => ?_, holds_stores_storeAt _ _ _⟩
  have := mem_storeAt hs
  rw [length_leBytes]
  omega

lemma holds_mbrTail {o : ℕ} {mbr : Mbr} (h : Holds m o (mbrTail mbr)) :
    (∀ i < 4, Holds m (o + 16 * i) (mbrPartBytes (mbr.partitions i))) ∧
      Holds m (o + 64) (leBytes 2 mbrBootSig.toNat) := by
  simp only [mbrTail, List.range_succ, List.range_zero, List.nil_append, List.flatMap_append,
    List.flatMap_cons, List.flatMap_nil, List.append_nil, holds_append, List.length_append,
    length_mbrPartBytes, Nat.reduceAdd] at h
  obtain ⟨⟨⟨⟨h0, h1⟩, h2⟩, h3⟩, hsig⟩ := h
  refine ⟨fun i hi => ?_, hsig⟩
  rcases (by omega : i = 0 ∨ i = 1 ∨ i = 2 ∨ i = 3) with rfl | rfl | rfl | rfl
  · exact h0
  · exact h1
  · exact h2
  · exact h3

lemma mbrIsPresent_of_holds {mbr : Mbr} (h : Holds m 446 (mbrTail mbr)) :
    mbrIsPresent m 0 = true := by
  rw [mbrIsPresent, readPu16_of_holds (holds_mbrTail h).2]
  rfl

/-- **A boot record that has been written is found.** -/
lemma mbrIsPresent_stores (m : Image) (mbr : Mbr) :
    mbrIsPresent (stores m (mbrWrite 0 mbr)) 0 = true :=
  mbrIsPresent_of_holds (holds_mbrWrite m mbr).2

lemma mbrIsPresent_congr {m' : Image} (h : ∀ a, InMbr a → m' a = m a) :
    mbrIsPresent m' 0 = mbrIsPresent m 0 := by
  have e0 : m' 510 = m 510 := h _ (Or.inr (by decide))
  have e1 : m' 511 = m 511 := h _ (Or.inr (by decide))
  simp only [mbrIsPresent, readPu16, Nat.zero_add, Nat.reduceAdd, e0, e1]

/-! ## Mapping the sector -/

lemma toNat_mbrMapLen (hv : ctx.Valid) : (mbrMapLen ctx).toNat = ctx.sec := by
  rw [mbrMapLen, byteToLba_mbrSz hv, lbaToByte, UInt64.one_mul]
  rfl

lemma mbrMap_of_serves (hv : ctx.Valid) (hs : sys.Serves ctx) : mbrMap sys ctx = true := by
  have hlen := toNat_mbrMapLen hv
  have hsec := hv.sec_bounds
  have hsz := hv.size
  have hpg := hs.pgSz_pos
  rw [mbrMap, Sys.mmap, Bool.and_eq_true, bne_iff_ne]
  refine ⟨fun h0 => ?_, hs.mapOk _ _ (by omega) (by simp) ?_⟩
  · rw [eq_zero_iff_toNat] at h0
    omega
  · rw [UInt64.toNat_zero, hlen]
    omega

lemma mbrUnmap_of_serves (hv : ctx.Valid) (hs : sys.Serves ctx) : mbrUnmap sys ctx = .ok := by
  have hlen := toNat_mbrMapLen hv
  have hsec := hv.sec_bounds
  rw [mbrUnmap, if_pos]
  exact hs.unmapOk _ _ (by omega) (by simp)

/-! ## Loading and saving -/

/-- A save of a boot record performs all of its stores, or none. -/
lemma mbrSave_cases (sys : Sys) (mbr : Mbr) (ctx : ImgCtx) :
    mbrSave sys mbr ctx = (.fail, []) ∨ (mbrSave sys mbr ctx).2 = mbrWrite 0 mbr := by
  unfold mbrSave
  split
  · exact Or.inr rfl
  · exact Or.inl rfl

lemma mbrSave_ok {mbr : Mbr} (h : (mbrSave sys mbr ctx).1 = .ok) :
    (mbrSave sys mbr ctx).2 = mbrWrite 0 mbr := by
  rcases mbrSave_cases sys mbr ctx with e | e
  · rw [e] at h
    exact absurd h (by decide)
  · exact e

lemma mbrSave_of_serves (hv : ctx.Valid) (hs : sys.Serves ctx) (mbr : Mbr) :
    mbrSave sys mbr ctx = (.ok, mbrWrite 0 mbr) := by
  rw [mbrSave, if_pos (mbrMap_of_serves hv hs), mbrUnmap_of_serves hv hs]

/-- **A load of an MBR is decided by the boot signature.** -/
lemma schemLoadMbr_of_serves (hv : ctx.Valid) (hs : sys.Serves ctx) (m : Image) (schem : Schem) :
    schemLoadMbr sys m schem ctx =
      if mbrIsPresent m 0 then
        (.ok, mbrToSchem schem (mbrRead m 0) ctx, [⟨0, byteToLba ctx mbrSz true, mbrSz.toNat⟩])
      else (.notFound, schem, [⟨0, byteToLba ctx mbrSz true, mbrSz.toNat⟩]) := by
  unfold schemLoadMbr mbrLoad
  simp only [mbrMap_of_serves hv hs, mbrUnmap_of_serves hv hs, if_true]
  cases mbrIsPresent m 0 <;> rfl

end Partman

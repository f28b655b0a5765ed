/-
# A boot record that is loaded and saved again

In memory a partition has a start and an end, on the disk a start and a size.  Both
conversions may wrap around, and one undoes the other.  So a save of a boot record that was
loaded writes back what was there, except for the addresses of used entries, which are
computed anew, and for unused entries, which are cleared.
-/
import Partman.Disk.BootRecord
import Partman.Model.SchemCtx

namespace Partman

open Lib

variable {sys sys' : Sys} {ctx : ImgCtx} {m : Image} {schem : Schem}

/-- Where the entry `i` is stored. -/
def entryOff (i : ℕ) : ℕ := 446 + 16 * i

/-- The bytes that a save of a loaded boot record may change: the two addresses of a used
entry, and all of an entry of type zero. -/
def MayChange (m : Image) (a : ℕ) : Prop :=
  ∃ i < 4, (m (entryOff i + 4) ≠ 0 ∧
      ((entryOff i + 1 ≤ a ∧ a ≤ entryOff i + 3) ∨ (entryOff i + 5 ≤ a ∧ a ≤ entryOff i + 7))) ∨
    (m (entryOff i + 4) = 0 ∧ entryOff i ≤ a ∧ a < entryOff i + 16)

/-- What a load that succeeds has found. -/
lemma schemLoadMbr_ok (h : (schemLoadMbr sys m schem ctx).1 = .ok) :
    mbrIsPresent m 0 = true ∧
      (schemLoadMbr sys m schem ctx).2.1 = mbrToSchem schem (mbrRead m 0) ctx := by
  unfold schemLoadMbr mbrLoad at h ⊢
  by_cases hmap : mbrMap sys ctx = true
  · cases hp : mbrIsPresent m 0 with
    | false =>
      by_cases hu : mbrUnmap sys ctx = .ok <;> simp [hmap, hp, hu] at h
    | true =>
      by_cases hu : mbrUnmap sys ctx = .ok
      · simp [hmap, hu]
      · simp [hmap, hp, hu] at h
  · simp [hmap] at h

/-- The conversion of an entry to a partition and back changes only the addresses: what the
subtraction and the addition of the size do is undone, also where they wrap around. -/
lemma mbrPartFromSchem_toSchem (part : MbrPart) (ctx : ImgCtx) :
    ∃ startChs endChs, mbrPartFromSchem (mbrPartToSchem part) ctx =
      { part with startChs := startChs, endChs := endChs } := by
  have hsz : part.startLba + part.szLba - 1 - part.startLba + 1 = part.szLba := by grind
  exact ⟨_, _, congrArg (fun sz => MbrPart.mk part.bootInd _ part.type _ part.startLba sz) hsz⟩

/-! ## The bytes that are written back -/

/-- The boot record that a save of the loaded scheme writes. -/
def mbrBack (m : Image) (schem : Schem) (ctx : ImgCtx) : Mbr :=
  mbrFromSchem (mbrToSchem schem (mbrRead m 0) ctx) Mbr.zero ctx

/-- A used entry is what was read but for its addresses. -/
lemma mbrBack_of_used (schem : Schem) (ctx : ImgCtx) {i : ℕ} (hi : i < 4)
    (hu : m (entryOff i + 4) ≠ 0) :
    ∃ startChs endChs, (mbrBack m schem ctx).partitions i =
      { mbrPartRead m (entryOff i) with startChs := startChs, endChs := endChs } := by
  have hread : (mbrRead m 0).partitions i = mbrPartRead m (entryOff i) := by
    rw [mbrRead, entryOff]
    simp only [hi, if_true, Nat.zero_add]
  have hused : mbrIsPartUsed (mbrPartRead m (entryOff i)) = true := bne_iff_ne.2 hu
  have hcnt : i < mbrMaxPartCnt.toNat := hi
  have hto : (mbrToSchem schem (mbrRead m 0) ctx).table i =
      mbrPartToSchem (mbrPartRead m (entryOff i)) := by
    simp only [mbrToSchem, mbrInitSchem, hread]
    exact if_pos ⟨hcnt, hused⟩
  have hfrom : (mbrBack m schem ctx).partitions i =
      mbrPartFromSchem (mbrPartToSchem (mbrPartRead m (entryOff i))) ctx := by
    simp only [mbrBack, mbrFromSchem, hto]
    exact if_pos ⟨hcnt, hused⟩
  obtain ⟨startChs, endChs, he⟩ := mbrPartFromSchem_toSchem (mbrPartRead m (entryOff i)) ctx
  exact ⟨startChs, endChs, hfrom.trans he⟩

/-- Cells that show what another memory shows. -/
lemma eq_of_holds_loadAt {m' : Image} {o n a : ℕ} (h : Holds m' o (loadAt m o n)) (h1 : o ≤ a)
    (h2 : a < o + n) : m' a = m a := by
  rw [holds_iff_loadAt, length_loadAt, loadAt_eq_iff] at h
  have := h (a - o) (by omega)
  rwa [Nat.add_sub_of_le h1] at this

/-- In a used entry only the addresses change. -/
lemma entry_eq {m' : Image} {part : MbrPart} {o a : ℕ} {startChs endChs : Pchs}
    (hpart : part = { mbrPartRead m o with startChs := startChs, endChs := endChs })
    (hm : Holds m' o (mbrPartBytes part)) (h1 : o ≤ a) (h2 : a < o + 16)
    (hs : ¬ (o + 1 ≤ a ∧ a ≤ o + 3)) (he : ¬ (o + 5 ≤ a ∧ a ≤ o + 7)) : m' a = m a := by
  subst hpart
  simp only [mbrPartBytes, holds_append, List.length_append, length_leBytes,
    List.length_singleton, Nat.reduceAdd, mbrPartRead, leBytes_readPu32] at hm
  obtain ⟨⟨⟨⟨⟨hboot, -⟩, htype⟩, -⟩, hstart⟩, hsz⟩ := hm
  rcases (by omega : a = o ∨ a = o + 4 ∨ (o + 8 ≤ a ∧ a < o + 8 + 4) ∨
    (o + 12 ≤ a ∧ a < o + 12 + 4)) with rfl | rfl | ⟨h3, h4⟩ | ⟨h3, h4⟩
  · exact hboot.1
  · exact htype.1
  · exact eq_of_holds_loadAt hstart h3 h4
  · exact eq_of_holds_loadAt hsz h3 h4

/-- **Writing back a boot record that is present** leaves every byte that may not change. -/
lemma stores_mbrBack (hp : mbrIsPresent m 0 = true) {a : ℕ} (ha : ¬ MayChange m a) :
    stores m (mbrWrite 0 (mbrBack m schem ctx)) a = m a := by
  obtain ⟨hsig, htail⟩ := holds_mbrWrite m (mbrBack m schem ctx)
  obtain ⟨hparts, hboot⟩ := holds_mbrTail htail
  by_cases hin : InMbr a
  · rcases hin with ⟨h1, h2⟩ | ⟨h1, h2⟩
    · -- the disk signature is the one that was read
      rw [show (mbrBack m schem ctx).diskSig = readPu32 m 440 from rfl, leBytes_readPu32] at hsig
      exact eq_of_holds_loadAt hsig h1 h2
    · by_cases htable : a < 510
      · have hi : (a - 446) / 16 < 4 := by omega
        have h3 : entryOff ((a - 446) / 16) ≤ a := by
          rw [entryOff]
          omega
        have h4 : a < entryOff ((a - 446) / 16) + 16 := by
          rw [entryOff]
          omega
        by_cases hu : m (entryOff ((a - 446) / 16) + 4) = 0
        · exact absurd ⟨_, hi, Or.inr ⟨hu, h3, h4⟩⟩ ha
        · obtain ⟨startChs, endChs, hpart⟩ := mbrBack_of_used schem ctx hi hu
          refine entry_eq hpart (hparts _ hi) h3 h4 (fun hs => ?_) fun he => ?_
          · exact ha ⟨_, hi, Or.inl ⟨hu, Or.inl hs⟩⟩
          · exact ha ⟨_, hi, Or.inl ⟨hu, Or.inr he⟩⟩
      · -- the boot signature is there already
        have hsig' : leBytes 2 mbrBootSig.toNat = loadAt m 510 2 := by
          rw [← leBytes_readPu16, ← eq_of_beq (show (readPu16 m 510 == mbrBootSig) = true from hp)]
        rw [hsig'] at hboot
        exact eq_of_holds_loadAt hboot (by omega) (by omega)
  · refine stores_of_forall_ne (fun s hs => ?_) m
    rintro rfl
    exact hin (mem_mbrWrite hs)

/-- **Loading and saving a boot record unedited** changes only the addresses of used entries
and the entries of type zero, whatever the bytes of the sector and whether or not the save
is granted. -/
theorem schemSaveMbr_unedited (h : (schemLoadMbr sys m schem ctx).1 = .ok) (sys' : Sys) {a : ℕ}
    (ha : ¬ MayChange m a) :
    stores m (schemSaveMbr sys' (schemLoadMbr sys m schem ctx).2.1 ctx).2 a = m a := by
  obtain ⟨hp, he⟩ := schemLoadMbr_ok h
  rw [he, schemSaveMbr]
  rcases mbrSave_cases sys' (mbrBack m schem ctx) ctx with hs | hs
  · rw [← mbrBack, hs]
    rfl
  · rw [← mbrBack, hs]
    exact stores_mbrBack hp ha

/-- A sector of sevens with a boot signature. -/
def sevensImage : Image := fun a => if a = 510 then 0x55 else if a = 511 then 0xAA else 7

/-- Its bootstrap code is kept. -/
theorem schemSaveMbr_unedited_small :
    stores sevensImage (schemSaveMbr plainSys
      (schemLoadMbr plainSys sevensImage (schemNew .mbr) smallCtx).2.1 smallCtx).2 100 =
        sevensImage 100 := by
  have hv := (imgCtxValidate_ok_iff _).1 smallCtx_valid
  refine schemSaveMbr_unedited ?_ plainSys ?_
  · rw [schemLoadMbr_of_serves hv (plainSys_serves (by decide)), if_pos (by decide)]
  · rintro ⟨i, -, h⟩
    simp only [entryOff] at h
    omega

end Partman

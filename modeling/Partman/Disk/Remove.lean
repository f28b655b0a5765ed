/-
# Removing a scheme

Removing a GPT erases the signatures of the two headers that a load could find.  Removing
an MBR writes a boot record without entries, and with it the boot signature by which a
load recognises an MBR.
-/
import Partman.Disk.BootRecord
import Partman.Disk.Saved
import Partman.Model.SchemCtx

namespace Partman

open Lib

variable {sys sys₁ : Sys} {ctx : ImgCtx} {m : Image} {lba : Plba}

/-! ## The GPT -/

lemma gptHdrEraseSig_eq (buf : ℕ) : gptHdrEraseSig buf = storeAt buf (List.replicate 8 0) := by
  simp only [gptHdrEraseSig, writePu8_eq]
  rfl

/-- An erasure stores eight zeros at the header, or nothing. -/
lemma gptEraseAt_spec (sys : Sys) (ctx : ImgCtx) (lba : Plba) :
    gptEraseAt sys ctx lba = (.fail, []) ∨
      (gptEraseAt sys ctx lba).2 =
        storeAt (lbaToByte ctx lba).toNat (List.replicate 8 0) := by
  unfold gptEraseAt
  rcases mapSecs_cases sys ctx lba 1 with h | h
  · simp [h]
  · simp [h, gptHdrEraseSig_eq]

lemma schemRemoveGpt_eq (sys : Sys) (ctx : ImgCtx) : schemRemoveGpt sys ctx =
    match gptEraseAt sys ctx 1 with
    | (.fail, ss) => (.fail, ss)
    | (.ok, ss) => ((gptEraseAt sys ctx (imgLastLba ctx)).1,
        ss ++ (gptEraseAt sys ctx (imgLastLba ctx)).2) := rfl

/-- The stores of a removal go to the signatures, whether it succeeds or not. -/
lemma mem_schemRemoveGpt (hv : ctx.Valid) {s : Store} (hs : s ∈ (schemRemoveGpt sys ctx).2) :
    (ctx.primHdrOff ≤ s.1 ∧ s.1 < ctx.primHdrOff + 8) ∨
      (ctx.secHdrOff ≤ s.1 ∧ s.1 < ctx.secHdrOff + 8) := by
  have herase : ∀ lba, ctx.Inside lba 1 → ∀ s ∈ (gptEraseAt sys ctx lba).2,
      ctx.off lba ≤ s.1 ∧ s.1 < ctx.off lba + 8 := by
    intro lba hin s hs
    rcases gptEraseAt_spec sys ctx lba with e | e
    · simp [e] at hs
    · rw [e, toNat_lbaToByte hin.lt.1] at hs
      simpa [ImgCtx.off] using mem_storeAt hs
  rw [schemRemoveGpt_eq] at hs
  have hprim := herase 1 (inside_one hv)
  have hsec := herase (imgLastLba ctx) (imgLastLba_inside hv)
  rw [off_one] at hprim
  rw [off_imgLastLba hv] at hsec
  rcases he : gptEraseAt sys ctx 1 with ⟨_ | _, ss⟩ <;> rw [he] at hs hprim
  · exact Or.inl (hprim s hs)
  · rcases List.mem_append.1 hs with hs | hs
    · exact Or.inl (hprim s hs)
    · exact Or.inr (hsec s hs)

lemma gptEraseAt_ok (h : (gptEraseAt sys ctx lba).1 = .ok) (hin : ctx.Inside lba 1) :
    (gptEraseAt sys ctx lba).2 = storeAt (ctx.off lba) (List.replicate 8 0) := by
  rcases gptEraseAt_spec sys ctx lba with e | e
  · rw [e] at h
    exact absurd h (by decide)
  · rw [e, hin.toNat_off]

/-- A removal of the GPT that succeeds erases both signatures. -/
lemma schemRemoveGpt_ok (hv : ctx.Valid) (h : (schemRemoveGpt sys ctx).1 = .ok) :
    (schemRemoveGpt sys ctx).2 =
      storeAt ctx.primHdrOff (List.replicate 8 0) ++
        storeAt ctx.secHdrOff (List.replicate 8 0) := by
  rw [schemRemoveGpt_eq] at h ⊢
  rcases he : gptEraseAt sys ctx 1 with ⟨_ | _, ss⟩
  · rw [he] at h
    exact absurd (show Pres.fail = .ok from h) (by decide)
  · rw [he] at h
    have hss := gptEraseAt_ok (by rw [he]) (inside_one hv)
    rw [he] at hss
    have hss' := gptEraseAt_ok h (imgLastLba_inside hv)
    rw [off_imgLastLba hv] at hss'
    show ss ++ (gptEraseAt sys ctx (imgLastLba ctx)).2 = _
    rw [show ss = storeAt (ctx.off 1) (List.replicate 8 0) from hss, hss', off_one]

/-- A header whose first byte is zero is not there. -/
lemma not_hdrAt_of_zero (h : m (ctx.off lba) = 0) (hdr : GptHdr) : ¬ HdrAt m ctx lba hdr := by
  intro hhdr
  have hsig := gptIsPresent_iff.1 hhdr.present
  rw [loadAt_succ, h, gptSig] at hsig
  exact absurd (List.cons.inj hsig).1 (by decide)

/-- Without a header at either place there is no GPT. -/
lemma schemLoadGpt_of_no_hdr (hv : ctx.Valid) (hs : sys.Serves ctx)
    (hprim : ∀ hdr, ¬ HdrAt m ctx 1 hdr) (hsec : ∀ hdr, ¬ HdrAt m ctx (imgLastLba ctx) hdr)
    (schem : Schem) : (schemLoadGpt sys m schem ctx).1 = .notFound := by
  have hp : (loadCopy sys m ctx 1).res = .hdrInv :=
    gptPairLoad_hdrInv hv hs (savedPrim_inside hv schem) hprim
  have hs : (loadCopy sys m ctx (imgLastLba ctx)).res = .hdrInv :=
    gptPairLoad_hdrInv hv hs (imgLastLba_inside hv) hsec
  exact schemLoadGpt_notFound schem (by rw [hp]; decide) (by rw [hp]; decide)
    (by rw [hs]; decide) (by rw [hs]; decide)

/-- After a removal that succeeds neither place has a header. -/
lemma no_hdr_of_remove (hv : ctx.Valid) (hok : (schemRemoveGpt sys₁ ctx).1 = .ok) (m : Image) :
    (∀ hdr, ¬ HdrAt (stores m (schemRemoveGpt sys₁ ctx).2) ctx 1 hdr) ∧
      ∀ hdr, ¬ HdrAt (stores m (schemRemoveGpt sys₁ ctx).2) ctx (imgLastLba ctx) hdr := by
  obtain ⟨h0, h1, h2, h3, h4⟩ := hv.layout
  rw [schemRemoveGpt_ok hv hok, stores_append]
  have hsec : Holds (stores (stores m (storeAt ctx.primHdrOff (List.replicate 8 0)))
      (storeAt ctx.secHdrOff (List.replicate 8 0))) ctx.secHdrOff (List.replicate 8 0) :=
    holds_stores_storeAt _ _ _
  have hprim : Holds (stores (stores m (storeAt ctx.primHdrOff (List.replicate 8 0)))
      (storeAt ctx.secHdrOff (List.replicate 8 0))) ctx.primHdrOff (List.replicate 8 0) := by
    refine (holds_stores_storeAt _ _ _).stores fun s hs => ?_
    have := mem_storeAt hs
    rw [List.length_replicate] at this ⊢
    omega
  refine ⟨not_hdrAt_of_zero ?_, not_hdrAt_of_zero ?_⟩
  · rw [off_one]
    exact hprim.1
  · rw [off_imgLastLba hv]
    exact hsec.1

/-- After a removal that succeeds no load finds a GPT. -/
lemma schemLoadGpt_of_remove (hv : ctx.Valid) (hs : sys.Serves ctx)
    (hok : (schemRemoveGpt sys₁ ctx).1 = .ok) (m : Image) (schem : Schem) :
    (schemLoadGpt sys (stores m (schemRemoveGpt sys₁ ctx).2) schem ctx).1 = .notFound := by
  obtain ⟨hprim, hsec⟩ := no_hdr_of_remove hv hok m
  exact schemLoadGpt_of_no_hdr hv hs hprim hsec schem

/-! ## The MBR -/

/-- After a removal of the MBR every load finds one. -/
lemma schemLoadMbr_of_remove (hv : ctx.Valid) (hs : sys.Serves ctx)
    (hok : (schemRemoveMbr sys₁ ctx).1 = .ok) (m : Image) (schem : Schem) :
    (schemLoadMbr sys (stores m (schemRemoveMbr sys₁ ctx).2) schem ctx).1 = .ok := by
  rw [schemRemoveMbr, mbrSave_ok hok, schemLoadMbr_of_serves hv hs, mbrIsPresent_stores]
  rfl

/-- **A removal that succeeds removes the scheme exactly if it is a GPT.** -/
theorem funcsLoad_of_remove (hctx : imgCtxValidate ctx = .ok) (hs : sys.Serves ctx)
    (t : SchemType) (m : Image) (schem : Schem) (hok : (funcsRemove t sys₁ ctx).1 = .ok) :
    (funcsLoad t sys (stores m (funcsRemove t sys₁ ctx).2) schem ctx).1 = .notFound ↔ t = .gpt := by
  have hv := (imgCtxValidate_ok_iff ctx).1 hctx
  cases t with
  | mbr =>
    have h := schemLoadMbr_of_remove hv hs hok m schem
    simp only [funcsLoad, funcsRemove] at h ⊢
    rw [h]
    decide
  | gpt => exact iff_of_true (schemLoadGpt_of_remove hv hs hok m schem) rfl
  | cnt => exact absurd (show Pres.fail = .ok from hok) (by decide)

/-- The GPT is removed from the image of zeros. -/
theorem funcsLoad_of_remove_small :
    (funcsLoad .gpt plainSys (stores zeroImage (funcsRemove .gpt plainSys smallCtx).2)
      (schemNew .gpt) smallCtx).1 = .notFound ↔ SchemType.gpt = .gpt :=
  funcsLoad_of_remove smallCtx_valid (plainSys_serves (by decide)) .gpt zeroImage _ (by decide)

/-- Removing the MBR from an image of zeros, which has none, puts one there. -/
theorem funcsLoad_of_remove_mbr :
    (funcsRemove .mbr plainSys smallCtx).1 = .ok ∧
      (funcsLoad .mbr plainSys zeroImage (schemNew .mbr) smallCtx).1 = .notFound ∧
      (funcsLoad .mbr plainSys (stores zeroImage (funcsRemove .mbr plainSys smallCtx).2)
        (schemNew .mbr) smallCtx).1 = .ok := by
  have hv := (imgCtxValidate_ok_iff _).1 smallCtx_valid
  have hs : plainSys.Serves smallCtx := plainSys_serves (by decide)
  refine ⟨by decide, ?_, schemLoadMbr_of_remove hv hs (by decide) _ _⟩
  simp only [funcsLoad, schemLoadMbr_of_serves hv hs]
  rfl

end Partman

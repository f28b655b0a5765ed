/-
# Recovery from one damaged copy

After a save, one byte of the image may take any value: the scheme that is loaded is the
one that was saved.
-/
import Partman.Disk.Damage

namespace Partman

open Lib

variable {sys sys' : Sys} {ctx : ImgCtx} {m : Image} {schem : Schem}

/-- An intact primary copy is loaded whatever has become of the secondary one, as long as
that is not fatal. -/
lemma load_of_prim (hv : ctx.Valid) (hs : sys.Serves ctx)
    (hp : CopyAt sys m ctx 1 (savedPrim schem ctx) (savedTable schem))
    (hsec : (loadCopy sys m ctx (imgLastLba ctx)).res ≠ .fatal) (schem₀ : Schem) :
    (schemLoadGpt sys m schem₀ ctx).1 = .ok ∧
      schem.SameGpt (schemLoadGpt sys m schem₀ ctx).2.1 := by
  obtain ⟨h1, h2⟩ := schemLoadGpt_prim schem₀ (hp.loaded hv hs _ _) hsec
  rw [h2]
  exact ⟨h1, schemOfCopy_savedPrim schem schem₀ ctx⟩

/-- An intact secondary copy is loaded when the primary one is given up. -/
lemma load_of_sec (hv : ctx.Valid) (hs : sys.Serves ctx)
    (hp : (loadCopy sys m ctx 1).res ≠ .ok) (hpf : (loadCopy sys m ctx 1).res ≠ .fatal)
    (hsec : CopyAt sys m ctx (imgLastLba ctx) (savedSec schem ctx) (savedTable schem))
    (schem₀ : Schem) :
    (schemLoadGpt sys m schem₀ ctx).1 = .ok ∧
      schem.SameGpt (schemLoadGpt sys m schem₀ ctx).2.1 := by
  obtain ⟨h1, h2⟩ := schemLoadGpt_sec schem₀ hp hpf (hsec.loaded hv hs _ _)
  rw [h2]
  exact ⟨h1, schemOfCopy_savedSec schem schem₀ ctx⟩

/-- **One damaged copy is always recovered.**  Change any one byte of the image that a
successful save has left: loading succeeds and yields the scheme that was saved. -/
theorem schemLoadGpt_of_damage (hctx : imgCtxValidate ctx = .ok) (hs : sys.Serves ctx)
    (hpg : sys'.pgSz = sys.pgSz) (schem : Schem) (hok : schem.GptOk)
    (hsave : (schemSaveGpt sys' schem ctx).1 = .ok) (m : Image) (p : ℕ) (v : UInt8)
    (schem₀ : Schem) :
    let m' := Function.update (stores m (schemSaveGpt sys' schem ctx).2) p v
    (schemLoadGpt sys m' schem₀ ctx).1 = .ok ∧
      schem.SameGpt (schemLoadGpt sys m' schem₀ ctx).2.1 := by
  intro m'
  have hv := (imgCtxValidate_ok_iff ctx).1 hctx
  obtain ⟨h0, h1, h2, h3, h4⟩ := hv.layout
  have hcnt := hok.cnt
  obtain ⟨hprim, hsec⟩ := copies_of_schemSaveGpt hv hpg hok hsave m
  have hoff1 := off_one ctx
  have hoff2 := off_savedPrim_table schem ctx
  have hoff3 := off_imgLastLba hv
  have hoff4 := off_savedSec_table hv schem
  have hc1 := savedPrim_cnt schem ctx
  have hc2 := savedSec_cnt schem ctx
  have hm : ∀ a, a ≠ p → m' a = stores m (schemSaveGpt sys' schem ctx).2 a := by
    intro a ha
    show Function.update (stores m (schemSaveGpt sys' schem ctx).2) p v a = _
    rw [Function.update_of_ne ha]
  have hsurv := hsec.damage hv hs (by rw [hc2]; omega) p v
  by_cases hp : p < ctx.secTabOff
  · -- the secondary copy is as it was
    have hsec' : CopyAt sys m' ctx (imgLastLba ctx) (savedSec schem ctx) (savedTable schem) :=
      hsec.congr (fun a ha _ => hm a (by omega)) fun a ha _ => hm a (by omega)
    rcases hprim.damage hv hs (by omega) p v with hl | hl | hl
    · obtain ⟨e1, e2⟩ := schemLoadGpt_prim schem₀ hl hsurv.not_fatal
      rw [e2]
      exact ⟨e1, schemOfCopy_savedPrim schem schem₀ ctx⟩
    · exact load_of_sec hv hs (by rw [hl]; decide) (by rw [hl]; decide) hsec' schem₀
    · exact load_of_sec hv hs (by rw [hl]; decide) (by rw [hl]; decide) hsec' schem₀
  · -- the primary copy is as it was
    have hprim' : CopyAt sys m' ctx 1 (savedPrim schem ctx) (savedTable schem) :=
      hprim.congr (fun a _ ha => hm a (by omega)) fun a _ ha => hm a (by rw [hc1] at ha; omega)
    exact load_of_prim hv hs hprim' hsurv.not_fatal schem₀

/-- The small GPT, with the first byte of its primary header changed. -/
theorem schemLoadGpt_of_damage_small :
    let m' := Function.update
      (stores zeroImage (schemSaveGpt plainSys smallGpt smallCtx).2) 512 0x00
    (schemLoadGpt plainSys m' (schemInitGpt smallGpt smallCtx zeroRng).1 smallCtx).1 = .ok ∧
      smallGpt.SameGpt
        (schemLoadGpt plainSys m' (schemInitGpt smallGpt smallCtx zeroRng).1 smallCtx).2.1 :=
  schemLoadGpt_of_damage smallCtx_valid (plainSys_serves (by decide)) rfl smallGpt smallGpt_ok
    (by rw [smallGpt_saved smallCtx_valid (by decide)]) zeroImage 512 0x00 _

end Partman

/-
# Saving again what has been saved

What is loaded from an image is saved with the stores that have made the image.  So a save
right after a load changes nothing; and where a byte has been damaged that the load can do
without, it puts the byte back.
-/
import Partman.Disk.Interrupt
import Partman.Session.Sound

namespace Partman

open Lib

variable {sys sys' : Sys} {ctx : ImgCtx} {fuel : ℕ} {plats : List Sys} {m m' : Image}
  {sc : SchemCtx} {p p₀ : Prog} {schem schem' mbr gpt O : Schem}

/-! ## Schemes that are saved alike -/

/-- The GPT that has been loaded is saved as the one that it is. -/
lemma Schem.SameGpt.gptFromSchem_eq (h : schem.SameGpt schem') (ctx : ImgCtx) :
    gptFromSchem schem' Gpt.zero ctx = gptFromSchem schem Gpt.zero ctx := by
  have htab : gptTableFromSchem schem' Gpt.zero.tablePrim =
      gptTableFromSchem schem Gpt.zero.tablePrim := by
    funext i
    by_cases hi : i < schem.partCnt.toNat
    · have hu := schemPartIsUsedGpt_asGpt (schem.table i)
      simp only [gptTableFromSchem, h.partCnt, h.table i hi, hu]
      split_ifs with hc
      · rw [SchemPart.asGpt, if_pos hc.2]
        rfl
      · rfl
    · rw [gptTableFromSchem, gptTableFromSchem, h.partCnt, if_neg fun hc => hi hc.1,
        if_neg fun hc => hi hc.1]
  simp only [gptFromSchem, htab, h.idGuid, h.firstUsableLba, h.lastUsableLba, h.partCnt]

lemma Schem.SameGpt.schemSaveGpt_eq (h : schem.SameGpt schem') (sys : Sys) (ctx : ImgCtx) :
    schemSaveGpt sys schem' ctx = schemSaveGpt sys schem ctx := by
  rw [schemSaveGpt, schemSaveGpt, h.gptFromSchem_eq]

/-- The MBR that has been loaded is saved as the one that it is. -/
lemma Schem.MbrAgain.mbrFromSchem_eq (h : schem.MbrAgain schem') (ctx : ImgCtx) :
    mbrFromSchem schem' Mbr.zero ctx = mbrFromSchem schem Mbr.zero ctx := by
  refine congrArg₂ Mbr.mk h.idI (funext fun i => ?_)
  rw [h.partCnt]
  by_cases hi : i < schem.partCnt.toNat
  · rw [h.used i hi]
    split_ifs with hc
    · obtain ⟨htype, hboot, hstart, hend⟩ := h.part i hi hc.2
      simp only [mbrPartFromSchem, schemMbrPartIsProt, htype, hboot, hstart, hend]
    · rfl
  · rw [if_neg fun hc => hi hc.1, if_neg fun hc => hi hc.1]

/-- The stores of a save of both schemes that succeeds. -/
lemma schemCtxSave_stores_gpt (hwf : sc.WellFormed) (hkeeps : sc.KeepsMbr)
    (hm : sc.schemMbr = some mbr) (hg : sc.schemGpt = some gpt)
    (hsave : (schemCtxSave sys sc ctx).res = .ok) :
    (schemCtxSave sys sc ctx).stores =
        mbrWrite 0 (mbrFromSchem mbr Mbr.zero ctx) ++ (schemSaveGpt sys gpt ctx).2 ∧
      (schemSaveGpt sys gpt ctx).1 = .ok := by
  obtain ⟨hops, hstores⟩ := schemCtxSave_ok hsave
  have hremM : removal sys sc ctx .mbr = (.ok, []) := if_neg fun hc => hkeeps hc.1 hc.2
  have hremG : removal sys sc ctx .gpt = (.ok, []) :=
    if_neg fun hc => absurd (hg.symm.trans hc.2) (by simp)
  have hsav : saving sys sc ctx .gpt = schemSaveGpt sys gpt ctx :=
    saving_gpt hg (hwf.funcs.2 gpt hg).1
  have hok := (hops .gpt (Or.inr rfl)).2
  rw [hsav] at hok
  refine ⟨?_, hok⟩
  rw [hstores, hremM, hremG, saving_mbr_stores hwf hm (hops .mbr (Or.inl rfl)).2, hsav]
  rfl

/-- Where nothing has been saved nothing is loaded. -/
lemma SchemCtx.Again.noMbr {sc' : SchemCtx} (h : sc.Again sc') (hg : sc.schemGpt = none)
    (hm : sc.schemMbr = none) : sc'.schemMbr = none := by
  have htype := h.type
  rw [schemCtxGetType, schemCtxGetType, hg, h.noGpt hg, hm] at htype
  cases hm' : sc'.schemMbr with
  | none => rfl
  | some mbr => simp [hm'] at htype

/-! ## Images that can be loaded still -/

/-- An entry depends on its own bytes only. -/
lemma mbrPartRead_congr {buf : ℕ} (h : ∀ a, buf ≤ a → a < buf + 16 → m' a = m a) :
    mbrPartRead m' buf = mbrPartRead m buf := by
  have h24 : ∀ o, buf ≤ o → o + 3 ≤ buf + 16 → readPu24 m' o = readPu24 m o := by
    intro o h1 h2
    simp only [readPu24, h o h1 (by omega), h (o + 1) (by omega) (by omega),
      h (o + 2) (by omega) (by omega)]
  have h32 : ∀ o, buf ≤ o → o + 4 ≤ buf + 16 → readPu32 m' o = readPu32 m o :=
    fun o h1 h2 => readPu32_mix rfl fun a ha hb => Or.inl (h a (by omega) (by omega))
  simp only [mbrPartRead, readPu8, h buf le_rfl (by omega), h (buf + 4) (by omega) (by omega),
    h24 (buf + 1) (by omega) (by omega), h24 (buf + 5) (by omega) (by omega),
    h32 (buf + 8) (by omega) (by omega), h32 (buf + 12) (by omega) (by omega)]

/-- What is found of the boot record depends on its bytes only. -/
lemma mbrFound_congr (h : ∀ a, InMbr a → m' a = m a) : mbrFound m' ctx = mbrFound m ctx := by
  have hread : mbrRead m' 0 = mbrRead m 0 := by
    refine congrArg₂ Mbr.mk ?_ (funext fun i => ?_)
    · exact readPu32_mix rfl fun a ha hb => Or.inl (h a (Or.inl (by omega)))
    · split_ifs with hi
      · exact mbrPartRead_congr fun a ha hb => h a (Or.inr (by omega))
      · rfl
  rw [mbrFound, mbrFound, mbrIsPresent_congr h, hread]

/-- One damaged byte does not keep the GPT from being loaded. -/
lemma HoldsGpt.damage (hv : ctx.Valid) (hs : sys.Serves ctx) (h : HoldsGpt sys m ctx O) (q : ℕ)
    (v : UInt8) (schem₀ : Schem) :
    (schemLoadGpt sys (Function.update m q v) schem₀ ctx).1 = .ok ∧
      O.SameGpt (schemLoadGpt sys (Function.update m q v) schem₀ ctx).2.1 := by
  obtain ⟨h0, h1, h2, h3, h4⟩ := hv.layout
  have hcnt := h.ok.cnt
  have hoff1 := off_one ctx
  have hoff2 := off_savedPrim_table O ctx
  have hoff3 := off_imgLastLba hv
  have hoff4 := off_savedSec_table hv O
  have hm : ∀ a, a ≠ q → Function.update m q v a = m a := fun a ha => Function.update_of_ne ha v m
  have hsurv := h.sec.damage hv hs (by rw [savedSec_cnt]; omega) q v
  by_cases hq : q < ctx.secTabOff
  · -- the backup is as it was
    have hsec : CopyAt sys (Function.update m q v) ctx (imgLastLba ctx) (savedSec O ctx)
        (savedTable O) :=
      h.sec.congr (fun a ha _ => hm a (by omega)) fun a ha _ => hm a (by omega)
    rcases h.prim.damage hv hs (by rw [savedPrim_cnt]; omega) q v with hl | hl | hl
    · obtain ⟨hres, hsame⟩ := schemLoadGpt_prim schem₀ hl hsurv.not_fatal
      rw [hsame]
      exact ⟨hres, schemOfCopy_savedPrim O schem₀ ctx⟩
    · exact load_of_sec hv hs (by rw [hl]; decide) (by rw [hl]; decide) hsec schem₀
    · exact load_of_sec hv hs (by rw [hl]; decide) (by rw [hl]; decide) hsec schem₀
  · -- the primary copy is as it was
    have hprim : CopyAt sys (Function.update m q v) ctx 1 (savedPrim O ctx) (savedTable O) :=
      h.prim.congr (fun a _ ha => hm a (by omega))
        fun a _ ha => hm a (by rw [savedPrim_cnt] at ha; omega)
    exact load_of_prim hv hs hprim hsurv.not_fatal schem₀

/-- Beside a GPT that has been loaded there is a protective MBR. -/
lemma LoadSpec.prot (h : LoadSpec sys m ctx sc) (hg : sc.schemGpt ≠ none) :
    ∀ mbr, sc.schemMbr = some mbr → schemMbrIsProt mbr = true := by
  intro mbr hm
  rcases h.schemMbr with ⟨hno, -⟩ | ⟨gpt, mbr', -, hm', hkind⟩
  · exact absurd (h.schemGpt.trans hno) hg
  · obtain rfl := Option.some.inj (hm.symm.trans hm')
    rcases hkind with ⟨-, hp⟩ | ⟨s, r, rfl, -⟩
    · exact hp
    · rfl

/-! ## A load and a save -/

/-- The image can be loaded, with the GPT `O` and the protective MBR `mbr`. -/
structure Loads (sys : Sys) (m : Image) (ctx : ImgCtx) (mbr O : Schem) : Prop where
  mbr : ∃ mbr', mbrFound m ctx = some mbr' ∧ mbr.MbrAgain mbr' ∧ schemMbrIsProt mbr' = true
  gpt : ∃ gpt', gptFound sys m ctx = some gpt' ∧ O.SameGpt gpt'

/-- What is loaded is what is there. -/
lemma Loads.schemes (hv : ctx.Valid) (hs : sys.Serves ctx) (h : Loads sys m ctx mbr O)
    (sc₁ : SchemCtx) (r : Rng) :
    let l := schemCtxLoad sys m sc₁ ctx r
    l.res = .ok ∧ (∃ mbr', l.sc.schemMbr = some mbr' ∧ mbr.MbrAgain mbr') ∧
      ∃ gpt', l.sc.schemGpt = some gpt' ∧ O.SameGpt gpt' := by
  obtain ⟨⟨mbr', hm, hmagain, hprot⟩, gpt', hg, hsame⟩ := h
  obtain ⟨hres, hgpt, hmbr⟩ := schemCtxLoad_found hv hs sc₁ r (by rw [gptFound_ok hg]; decide)
  exact ⟨hres, ⟨mbr', (hmbr (Or.inr ⟨mbr', hm, hprot⟩)).trans hm, hmagain⟩,
    gpt', hgpt.trans hg, hsame⟩

/-- A context with these schemes is loaded again. -/
lemma Loads.again (hv : ctx.Valid) (hs : sys.Serves ctx) (h : Loads sys m ctx mbr gpt.cut)
    (hm : sc.schemMbr = some mbr) (hg : sc.schemGpt = some gpt) (hfits : gpt.GptFits)
    (sc₁ : SchemCtx) (r : Rng) :
    (schemCtxLoad sys m sc₁ ctx r).res = .ok ∧ sc.Again (schemCtxLoad sys m sc₁ ctx r).sc := by
  obtain ⟨hres, ⟨mbr', hm', hmagain⟩, gpt', hg', hsame⟩ := h.schemes hv hs sc₁ r
  refine ⟨hres, ⟨?_, ?_, ?_, ?_⟩⟩
  · rw [schemCtxGetType, schemCtxGetType, hg, hg']
    rfl
  · intro g hgs
    obtain rfl := Option.some.inj (hg.symm.trans hgs)
    exact ⟨gpt', hg', hsame.again hfits⟩
  · exact fun hn => absurd (hg.symm.trans hn) (by simp)
  · intro mb hms _
    obtain rfl := Option.some.inj (hm.symm.trans hms)
    exact ⟨mbr', hm', hmagain⟩

/-- What is loaded is saved with the stores of the schemes that are there. -/
lemma Loads.save (hv : ctx.Valid) (hs : sys.Serves ctx) (h : Loads sys m ctx mbr O)
    (sc₁ : SchemCtx) (r : Rng)
    (hsave : (schemCtxSave sys' (schemCtxLoad sys m sc₁ ctx r).sc ctx).res = .ok) :
    (schemCtxSave sys' (schemCtxLoad sys m sc₁ ctx r).sc ctx).stores =
      mbrWrite 0 (mbrFromSchem mbr Mbr.zero ctx) ++ saveStores O ctx := by
  obtain ⟨hres, ⟨mbr', hm, hmagain⟩, gpt', hg, hsame⟩ := h.schemes hv hs sc₁ r
  have hkeeps : (schemCtxLoad sys m sc₁ ctx r).sc.KeepsMbr :=
    (schemCtxLoad_spec hv hs sc₁ r hres).hasMbr
  obtain ⟨hstores, hok⟩ :=
    schemCtxSave_stores_gpt (schemCtxLoad_wellFormed hres) hkeeps hm hg hsave
  rw [hsame.schemSaveGpt_eq] at hstores hok
  rw [hstores, hmagain.mbrFromSchem_eq, ((schemSaveGpt_spec sys' O ctx).2 hok).1]

section Save

variable (hv : ctx.Valid) (hs : sys.Serves ctx) (hpg : sys'.pgSz = sys.pgSz)
  (hp : p.Savable) (hsave : (schemCtxSave sys' p.sc ctx).res = .ok)
include hp hsave

/-- The stores of a save of a GPT with its MBR. -/
lemma Prog.Savable.stores_gpt (hm : p.sc.schemMbr = some mbr) (hg : p.sc.schemGpt = some gpt) :
    (schemCtxSave sys' p.sc ctx).stores =
      mbrWrite 0 (mbrFromSchem mbr Mbr.zero ctx) ++ saveStores gpt.cut ctx := by
  obtain ⟨hstores, hok⟩ := schemCtxSave_stores_gpt hp.wellFormed.sc hp.keepsMbr hm hg hsave
  have hfits : gpt.GptFits := hp.storable .gpt gpt hg
  rw [← schemSaveGpt_cut hfits] at hstores hok
  rw [hstores, ((schemSaveGpt_spec sys' gpt.cut ctx).2 hok).1]

include hv hs hpg

/-- One damaged byte behind the boot record does not matter. -/
lemma Prog.Savable.loads_damaged (hm : p.sc.schemMbr = some mbr) (hprot : schemMbrIsProt mbr = true)
    (hg : p.sc.schemGpt = some gpt) {q : ℕ} (hq : ¬ InMbr q) (v : UInt8) :
    Loads sys (Function.update (stores p.img (schemCtxSave sys' p.sc ctx).stores) q v) ctx mbr
      gpt.cut := by
  obtain ⟨mbr', hfound, hmagain⟩ :=
    mbrFound_of_ctxSave hv hp.wellFormed.sc hp.storable hsave hm p.img
  have hgpt := (hp.holds_write hv hpg hsave hg).damage hv hs q v (schemNew .gpt)
  refine ⟨⟨mbr', ?_, hmagain, hmagain.prot (hp.storable .mbr mbr hm) hprot⟩, _,
    if_pos hgpt.1, hgpt.2⟩
  rw [← hfound]
  refine mbrFound_congr fun a ha => ?_
  have hne : a ≠ q := by
    rintro rfl
    exact hq ha
  rw [Function.update_of_ne hne]

omit hpg

end Save

/-- **A save puts back what has been damaged.**  At a prompt of a session with a GPT and a
protective MBR, save; then change any one byte behind the boot record.  The image can be loaded
still, with the context that has been saved; and a save of what has been loaded puts the byte
back, if it belongs to what is saved, and changes no other byte. -/
theorem save_restores (hctx : imgCtxValidate ctx = .ok) (hs : sys.Serves ctx)
    (hal : 1 ≤ ctx.align.toNat) (m : Image) (sc : SchemCtx) (r : Rng)
    (hload : (schemCtxLoad sys m sc ctx r).res = .ok) (inp : Input) (fuel : ℕ)
    (plats : List Sys) {p : Prog}
    (hp : AtPrompt fuel ctx plats (startProg (schemCtxLoad sys m sc ctx r) inp m) p)
    (hpg : sys'.pgSz = sys.pgSz) (hsave : (schemCtxSave sys' p.sc ctx).res = .ok)
    (hgpt : p.sc.schemGpt ≠ none)
    (hprot : ∀ mbr, p.sc.schemMbr = some mbr → schemMbrIsProt mbr = true) {q : ℕ}
    (hq : ¬ InMbr q) (v : UInt8) (sc₁ : SchemCtx) (r₁ : Rng) :
    let m₁ := stores p.img (schemCtxSave sys' p.sc ctx).stores
    let l := schemCtxLoad sys (Function.update m₁ q v) sc₁ ctx r₁
    l.res = .ok ∧ p.sc.Again l.sc ∧ ∀ sys₂, (schemCtxSave sys₂ l.sc ctx).res = .ok →
      ∀ b, b ≠ q ∨ (∃ s ∈ (schemCtxSave sys' p.sc ctx).stores, s.1 = q) →
        stores (Function.update m₁ q v) (schemCtxSave sys₂ l.sc ctx).stores b = m₁ b := by
  intro m₁ l
  have hv := (imgCtxValidate_ok_iff ctx).1 hctx
  have hsavable : p.Savable := hp.savable hv hal (.start hv hs hload inp)
  obtain ⟨gpt, hg⟩ := Option.ne_none_iff_exists'.1 hgpt
  obtain ⟨mbr, hm⟩ := Option.ne_none_iff_exists'.1 (hsavable.wellFormed.sc.mbr_of_gpt hgpt)
  have hloads := hsavable.loads_damaged hv hs hpg hsave hm (hprot mbr hm) hg hq v
  obtain ⟨hres, hagain⟩ := hloads.again hv hs hm hg (hsavable.storable .gpt gpt hg) sc₁ r₁
  refine ⟨hres, hagain, fun sys₂ hsave₂ b hb => ?_⟩
  have hstores := hsavable.stores_gpt hsave hm hg
  rw [hstores] at hb
  rw [hloads.save hv hs sc₁ r₁ hsave₂]
  refine stores_again ?_ (fun c hc => Function.update_of_ne hc v m₁) hb
  rw [hstores]

/-- What is loaded of the image with the small GPT can be saved, and its MBR is protective. -/
lemma smallGptImage_save {sc : SchemCtx}
    (hsc : sc = (schemCtxLoad plainSys smallGptImage schemCtxInit smallCtx zeroRng).sc) :
    (∃ gpt, sc.schemGpt = some gpt) ∧ (schemCtxSave plainSys sc smallCtx).res = .ok ∧
      ∀ mbr, sc.schemMbr = some mbr → schemMbrIsProt mbr = true := by
  have hv := (imgCtxValidate_ok_iff smallCtx).1 smallCtx_valid
  have hs : plainSys.Serves smallCtx := smallCtx_serves
  obtain ⟨hload, -, N, hN, hcnt⟩ := smallGptImage_load
  have hwf := schemCtxLoad_wellFormed hload
  have hspec := schemCtxLoad_spec hv hs _ _ hload
  rw [← hsc] at hN hwf hspec
  refine ⟨⟨N, hN⟩, schemCtxSave_of_serves hv hs rfl hwf fun gpt hg => ?_,
    hspec.prot (by simp [hN])⟩
  obtain rfl := Option.some.inj (hN.symm.trans hg)
  rw [hcnt]
  decide

/-- The first byte of the primary header, changed and put back. -/
theorem save_restores_small :
    let p := startProg (schemCtxLoad plainSys smallGptImage schemCtxInit smallCtx zeroRng) []
      smallGptImage
    let m₁ := stores p.img (schemCtxSave plainSys p.sc smallCtx).stores
    let l := schemCtxLoad plainSys (Function.update m₁ 512 0) schemCtxInit smallCtx zeroRng
    l.res = .ok ∧ p.sc.Again l.sc ∧ ∀ sys₂, (schemCtxSave sys₂ l.sc smallCtx).res = .ok →
      ∀ b, b ≠ 512 ∨ (∃ s ∈ (schemCtxSave plainSys p.sc smallCtx).stores, s.1 = 512) →
        stores (Function.update m₁ 512 0) (schemCtxSave sys₂ l.sc smallCtx).stores b = m₁ b := by
  obtain ⟨hload, -⟩ := smallGptImage_load
  intro p
  have hp : AtPrompt 0 smallCtx [] p p := .refl
  obtain ⟨⟨N, hN⟩, hsave, hprot⟩ := smallGptImage_save (startProg_sc _ _ _ : p.sc = _)
  have hgpt : p.sc.schemGpt ≠ none := by
    rw [hN]
    exact Option.some_ne_none _
  have hq : ¬ InMbr 512 := by simp [InMbr]
  exact save_restores smallCtx_valid smallCtx_serves (by decide) smallGptImage
    schemCtxInit zeroRng hload [] 0 [] hp rfl hsave hgpt hprot hq 0
    schemCtxInit zeroRng

end Partman

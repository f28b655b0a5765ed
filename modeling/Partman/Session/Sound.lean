/-
# Images in order

An image is in order if it can be loaded, with schemes in which every partition has its own
place between the usable sectors.  An image of zeros is in order, and a session leaves an
image in order that has been in order before, whatever is typed.
-/
import Partman.Session.Whole

namespace Partman

open Lib

variable {sys sys' : Sys} {ctx : ImgCtx} {fuel : ℕ} {plats : List Sys} {m : Image}
  {sc : SchemCtx} {p p₀ : Prog} {schem schem' N : Schem}

/-! ## Schemes that are loaded again -/

/-- What has the bounds of a scheme that is in order, and of its partitions at most those
that are used, with their ranges, is in order. -/
lemma Schem.Inv.again (h : schem.Inv) (hframe : schem.SameFrame schem')
    (hused : ∀ i ∈ schem'.usedSet, i ∈ schem.usedSet ∧
      (schem'.table i).startLba = (schem.table i).startLba ∧
      (schem'.table i).endLba = (schem.table i).endLba) : schem'.Inv := by
  rw [Schem.Inv, hframe.firstUsableLba, hframe.lastUsableLba]
  exact h.anti (fun i hi => (hused i hi).1) (fun i hi => by rw [(hused i hi).2.1])
    fun i hi => by rw [(hused i hi).2.2]

lemma Schem.Fits.again (h : schem.Fits ctx) (hframe : schem.SameFrame schem') :
    schem'.Fits ctx := by
  obtain ⟨h1, h2, h3, h4⟩ := h
  rw [← hframe.lastUsableLba] at h1 h2
  rw [← hframe.firstUsableLba] at h1
  rw [← hframe.partCnt] at h4
  exact ⟨h1, h2, h3, h4⟩

lemma Schem.GptAgain.frame (h : schem.GptAgain schem') (hf : schem.funcs = .gpt)
    (hf' : schem'.funcs = .gpt) : schem.SameFrame schem' :=
  ⟨hf'.trans hf.symm, h.firstUsableLba, h.lastUsableLba, h.partCnt⟩

lemma Schem.GptAgain.inv (h : schem.GptAgain schem') (hf : schem.funcs = .gpt)
    (hf' : schem'.funcs = .gpt) (hinv : schem.Inv) : schem'.Inv := by
  refine hinv.again (h.frame hf hf') fun i hi => ?_
  rw [Schem.mem_usedSet, h.partCnt, Schem.partIsUsed, hf'] at hi
  have hu : schemPartIsUsedGpt (schem.table i) = true := (h.used i hi.1).symm.trans hi.2
  obtain ⟨-, -, hs, he, -, -⟩ := h.part i hi.1 hu
  refine ⟨Schem.mem_usedSet.2 ⟨hi.1, ?_⟩, hs, he⟩
  rw [Schem.partIsUsed, hf]
  exact hu

lemma Schem.MbrAgain.inv (h : schem.MbrAgain schem') (hframe : schem.SameFrame schem')
    (hf : schem.funcs = .mbr) (hinv : schem.Inv) : schem'.Inv := by
  refine hinv.again hframe fun i hi => ?_
  rw [Schem.mem_usedSet, h.partCnt, Schem.partIsUsed, hframe.funcs, hf] at hi
  have hu : schemPartIsUsedMbr (schem.table i) = true := (h.used i hi.1).symm.trans hi.2
  obtain ⟨-, -, hs, he⟩ := h.part i hi.1 hu
  refine ⟨Schem.mem_usedSet.2 ⟨hi.1, ?_⟩, hs, he⟩
  rw [Schem.partIsUsed, hf]
  exact hu

/-- The bounds of an MBR that is found are those of a new one. -/
lemma mbrFound_frame (h : mbrFound m ctx = some schem) (r : Rng) :
    (schemNewInit .mbr ctx r).1.SameFrame schem := by
  rw [mbrFound] at h
  split_ifs at h
  obtain rfl := Option.some.inj h
  exact ⟨rfl, rfl, rfl, rfl⟩

/-- The MBR of a context that has been saved is found again. -/
lemma mbrFound_of_ctxSave (hv : ctx.Valid) (hwf : sc.WellFormed) (hst : sc.Storable)
    (hsave : (schemCtxSave sys sc ctx).res = .ok) (hm : sc.schemMbr = some schem) (m : Image) :
    ∃ mbr, mbrFound (stores m (schemCtxSave sys sc ctx).stores) ctx = some mbr ∧
      schem.MbrAgain mbr := by
  obtain ⟨hops, hstores⟩ := schemCtxSave_ok hsave
  rw [hstores, saving_mbr_stores hwf hm (hops .mbr (Or.inl rfl)).2, stores_append, stores_append]
  exact mbrFound_of_save hv (hst .mbr schem hm) _ _ fun s hs => mem_saving_gpt hv hwf.funcs.2 hs

/-! ## Headers over the boot record -/

lemma InMbr.lt {a : ℕ} (h : InMbr a) : a < 512 := by
  rcases h with ⟨-, ha⟩ | ⟨-, ha⟩ <;> omega

/-- No entry of a table that a save has written lies over the boot record. -/
lemma clearOfMbr_of_copies (hv : ctx.Valid)
    (hprim : HdrAt m ctx 1 (savedPrim schem ctx))
    (hsec : HdrAt m ctx (imgLastLba ctx) (savedSec schem ctx)) : ClearOfMbr m ctx := by
  obtain ⟨h1, h2, h3, h4, h5⟩ := hv.layout
  have hlow : 512 ≤ ctx.primHdrOff := h1
  have htab : ∀ lba, 512 ≤ ctx.off lba → ctx.off lba ≤ ctx.imgSz.toNat → ∀ i es k,
      ¬ InMbr ((lbaToByte ctx lba).toNat + entOff i es + k) := by
    intro lba hge hle i es k hin
    have hlt := hin.lt
    rw [toNat_lbaToByte_off hle] at hlt
    omega
  rintro lba (rfl | rfl) hdr hhdr a ⟨i, hi, k, hk, rfl⟩
  · obtain rfl := hprim.unique hhdr
    have hoff := off_savedPrim_table schem ctx
    exact htab _ (by omega) (by omega) i _ k
  · obtain rfl := hsec.unique hhdr
    have hoff := off_savedSec_table hv schem
    exact htab _ (by omega) (by omega) i _ k

/-! ## The copies that a save leaves -/

/-- The image holds both copies of the GPT `O`. -/
structure HoldsGpt (sys : Sys) (m : Image) (ctx : ImgCtx) (O : Schem) : Prop where
  ok : O.GptOk
  prim : CopyAt sys m ctx 1 (savedPrim O ctx) (savedTable O)
  sec : CopyAt sys m ctx (imgLastLba ctx) (savedSec O ctx) (savedTable O)

/-- What a save that succeeds leaves. -/
lemma Prog.Savable.holds_write (hv : ctx.Valid) (hpg : sys'.pgSz = sys.pgSz)
    (hp : p.Savable) (hsave : (schemCtxSave sys' p.sc ctx).res = .ok)
    (hN : p.sc.schemGpt = some N) :
    HoldsGpt sys (stores p.img (schemCtxSave sys' p.sc ctx).stores) ctx N.cut := by
  obtain ⟨hops, hstores⟩ := schemCtxSave_ok hsave
  have hfits : N.GptFits := hp.storable .gpt N hN
  have hok := (hops .gpt (Or.inr rfl)).2
  rw [saving_gpt hN (hp.wellFormed.sc.funcs.2 N hN).1, ← schemSaveGpt_cut hfits] at hok
  rw [hstores, stores_append, saving_gpt hN (hp.wellFormed.sc.funcs.2 N hN).1,
    ← schemSaveGpt_cut hfits]
  obtain ⟨hprim, hsec⟩ := copies_of_schemSaveGpt hv hpg hfits.cut_ok hok
    (stores p.img ((removal sys' p.sc ctx .mbr).2 ++ (removal sys' p.sc ctx .gpt).2 ++
      (saving sys' p.sc ctx .mbr).2))
  exact ⟨hfits.cut_ok, hprim, hsec⟩

/-- What is loaded from the copies. -/
lemma HoldsGpt.loads (hv : ctx.Valid) (hs : sys.Serves ctx) (h : HoldsGpt sys m ctx O)
    (schem₀ : Schem) : (schemLoadGpt sys m schem₀ ctx).1 = .ok ∧
      O.SameGpt (schemLoadGpt sys m schem₀ ctx).2.1 := by
  have hsec := (h.sec.loaded hv hs GptHdr.zero gptTableZero).res
  exact load_of_prim hv hs h.prim (by rw [loadCopy, hsec]; decide) schem₀

/-! ## Images in order -/

/-- What a load of an image in order leaves. -/
structure SchemCtx.InOrder (sc : SchemCtx) (ctx : ImgCtx) : Prop where
  good : sc.Good ctx
  framed : sc.Framed ctx

/-- An image in order. -/
structure ImgInOrder (sys : Sys) (ctx : ImgCtx) (m : Image) : Prop where
  clear : ClearOfMbr m ctx
  load : ∀ sc r, (schemCtxLoad sys m sc ctx r).res = .ok
  inOrder : ∀ sc r, (schemCtxLoad sys m sc ctx r).sc.InOrder ctx

/-- An image of zeros is in order. -/
lemma imgInOrder_of_zero (hv : ctx.Valid) (hs : sys.Serves ctx) (hm : ∀ a, m a = 0) :
    ImgInOrder sys ctx m := by
  have hpres : mbrIsPresent m 0 = false := by
    simp only [mbrIsPresent, readPu16, hm]
    decide
  have hl : ∀ sc r, ∃ reads, schemCtxLoad sys m sc ctx r = ⟨.ok, schemCtxInit, r, reads⟩ :=
    schemCtxLoad_nothing hv hs hpres
      (schemLoadGpt_of_zero hv hs (fun a _ => hm a) _)
  have hno : ∀ t schem, schemCtxInit.schemes t ≠ some schem := by
    rintro (_ | _ | _) schem <;> simp [schemCtxInit, SchemCtx.schemes]
  refine ⟨fun lba _ hdr hhdr => absurd hhdr (not_hdrAt_of_zero (hm (ctx.off lba)) hdr),
    fun sc r => ?_, fun sc r => ?_⟩ <;> obtain ⟨reads, hl⟩ := hl sc r <;> rw [hl]
  exact ⟨fun t schem h => absurd h (hno t schem), fun t schem h => absurd h (hno t schem)⟩

section Save

variable (hv : ctx.Valid) (hs : sys.Serves ctx) (hpg : sys'.pgSz = sys.pgSz)
  (hp : p.Kept sys ctx) (hsave : (schemCtxSave sys' p.sc ctx).res = .ok)
include hv hs hpg hp hsave

/-- No header of an image that has been saved has entries over the boot record. -/
lemma clearOfMbr_of_save :
    ClearOfMbr (stores p.img (schemCtxSave sys' p.sc ctx).stores) ctx := by
  cases hg : p.sc.schemGpt with
  | none =>
    refine hp.clear_write hv hs hsave ?_
    simp [schemCtxSave_inImg hsave, hg]
  | some gpt =>
    obtain ⟨-, hprim, hsec⟩ := hp.holds_write hv hpg hsave hg
    exact clearOfMbr_of_copies hv hprim.toHdrAt hsec.toHdrAt

/-- What is loaded of an image that has been saved is in order, if what was saved is. -/
lemma SchemCtx.InOrder.reload (hal : 1 ≤ ctx.align.toNat)
    (himg : ctx.secs + ctx.align.toNat < 2 ^ 63) (hord : p.sc.InOrder ctx) (sc₁ : SchemCtx)
    (r : Rng) : (schemCtxLoad sys (stores p.img (schemCtxSave sys' p.sc ctx).stores) sc₁ ctx
      r).sc.InOrder ctx := by
  obtain ⟨hres, hagain⟩ := hp.reload hv hs hpg hsave sc₁ r
  have hspec := schemCtxLoad_spec hv hs sc₁ r hres
  have hwf := hp.wellFormed.sc
  have hwf' := schemCtxLoad_wellFormed hres
  have hfound := fun (mbr : Schem) (hm : p.sc.schemMbr = some mbr) =>
    mbrFound_of_ctxSave hv hwf hp.storable hsave hm p.img
  generalize stores p.img (schemCtxSave sys' p.sc ctx).stores = m' at *
  generalize (schemCtxLoad sys m' sc₁ ctx r).sc = sc' at *
  -- an MBR that is found
  have hmbr : ∀ mbr', mbrFound m' ctx = some mbr' → p.sc.schemMbr ≠ none →
      (mbr'.Inv ∧ mbr'.Fits ctx) ∧ (schemNewInit .mbr ctx zeroRng).1.SameFrame mbr' := by
    intro mbr' hm' hne
    obtain ⟨mbr, hm⟩ := Option.ne_none_iff_exists'.1 hne
    obtain ⟨mbr'', hm'', hmagain⟩ := hfound mbr hm
    obtain rfl := Option.some.inj (hm''.symm.trans hm')
    have hnew := mbrFound_frame hm' zeroRng
    have hold := hord.framed .mbr mbr hm
    have hframe : mbr.SameFrame mbr'' := ⟨hnew.funcs.trans hold.funcs.symm,
      hnew.firstUsableLba.trans hold.firstUsableLba.symm,
      hnew.lastUsableLba.trans hold.lastUsableLba.symm, hnew.partCnt.trans hold.partCnt.symm⟩
    obtain ⟨hinv, hfits⟩ := hord.good .mbr mbr hm
    exact ⟨⟨hmagain.inv hframe (hwf.funcs.1 mbr hm) hinv, hfits.again hframe⟩, hnew⟩
  have hall : ∀ t schem', sc'.schemes t = some schem' →
      (schem'.Inv ∧ schem'.Fits ctx) ∧ (schemNewInit t ctx zeroRng).1.SameFrame schem' := by
    intro t schem' hs'
    cases t with
    | gpt =>
      cases hg : p.sc.schemGpt with
      | none => exact absurd ((hagain.noGpt hg).symm.trans hs') (by simp)
      | some gpt =>
        obtain ⟨gpt', hg', hgagain⟩ := hagain.gpt gpt hg
        obtain rfl := Option.some.inj (hg'.symm.trans hs')
        have hf := (hwf.funcs.2 gpt hg).1
        have hf' := (hwf'.funcs.2 gpt' hg').1
        obtain ⟨hinv, hfits⟩ := hord.good .gpt gpt hg
        exact ⟨⟨hgagain.inv hf hf' hinv, hfits.again (hgagain.frame hf hf')⟩,
          (hord.framed .gpt gpt hg).trans (hgagain.frame hf hf')⟩
    | mbr =>
      rcases hspec.schemMbr with ⟨hno, he⟩ | ⟨gpt, mbr, hg, he, hkind⟩
      · refine hmbr schem' (he.symm.trans hs') fun hn => ?_
        -- without an MBR nothing has been saved, and nothing is found
        have hgno : p.sc.schemGpt = none := by
          cases hg : p.sc.schemGpt with
          | none => rfl
          | some gpt =>
            obtain ⟨gpt', hg', -⟩ := hagain.gpt gpt hg
            exact absurd (hg'.symm.trans (hspec.schemGpt.trans hno)) (by simp)
        have htype := hagain.type
        have hs'' : sc'.schemMbr = some schem' := hs'
        simp [schemCtxGetType, hn, hgno, hagain.noGpt hgno, hs''] at htype
      · obtain rfl := Option.some.inj (he.symm.trans hs')
        rcases hkind with ⟨hm, -⟩ | ⟨s, r, rfl, hf⟩
        · refine hmbr mbr hm (hwf.mbr_of_gpt fun hn => ?_)
          exact absurd ((hagain.noGpt hn).symm.trans (hspec.schemGpt.trans hg)) (by simp)
        · exact ⟨schemMbrSetProt_good (schemInitMbr_good hv hal himg s r).2, ⟨hf, rfl, rfl, rfl⟩⟩
    | cnt => exact absurd hs' (by simp [SchemCtx.schemes])
  exact ⟨fun t schem' hs' => (hall t schem' hs').1, fun t schem' hs' => (hall t schem' hs').2⟩

end Save

/-! ## Sessions -/

/-- What holds at every prompt of a session on an image in order. -/
structure Prog.Sound (sys : Sys) (ctx : ImgCtx) (p : Prog) : Prop where
  kept : p.Kept sys ctx
  inOrder : p.sc.InOrder ctx
  img : ImgInOrder sys ctx p.img

/-- A session starts so. -/
lemma ImgInOrder.start (hv : ctx.Valid) (hs : sys.Serves ctx) (h : ImgInOrder sys ctx m)
    (sc : SchemCtx) (r : Rng) (inp : Input) :
    (startProg (schemCtxLoad sys m sc ctx r) inp m).Sound sys ctx :=
  ⟨.start hv hs (h.load sc r) h.clear inp, h.inOrder sc r, h⟩

lemma Prog.Sound.readLine (hp : p.Sound sys ctx) : p.readLine.Sound sys ctx :=
  ⟨hp.kept.readLine, hp.inOrder, hp.img⟩

section Session

variable (hv : ctx.Valid) (hal : 1 ≤ ctx.align.toNat) (himg : ctx.secs + ctx.align.toNat < 2 ^ 63)
  (hs : sys.Serves ctx)
include hv hal himg hs

/-- **One command.** -/
lemma Prog.Sound.action (hpg : sys'.pgSz = sys.pgSz) (hp : p.Sound sys ctx) {sym : Char}
    {a : Action} (h : actionHandle fuel sys' ctx p sym = some a) (hres : a.res = .cont) :
    a.prog.Sound sys ctx := by
  have hspec := (actionHandle_spec h).1
  have hkept := hp.kept.action hv hal hs hpg h hres
  have hgood := hspec.good hv hal himg hp.inOrder.good
  have hframed := hspec.framed hp.inOrder.framed
  refine ⟨hkept, ⟨hgood, hframed⟩, ?_⟩
  by_cases hw : sym = 'w'
  · subst hw
    obtain ⟨hsave, -, himg'⟩ := actionHandle_write h hres
    rw [himg']
    have hload := hp.kept.reload hv hs hpg hsave
    have hord := SchemCtx.InOrder.reload hv hs hpg hp.kept hsave hal himg hp.inOrder
    exact ⟨clearOfMbr_of_save hv hs hpg hp.kept hsave, fun sc r => (hload sc r).1, hord⟩
  · rw [(actionHandle_sameDisk hw h).img]
    exact hp.img

lemma AtPrompt.sound (hplats : ∀ s ∈ plats, s.pgSz = sys.pgSz)
    (h : AtPrompt fuel ctx plats p₀ p) (h0 : p₀.Sound sys ctx) : p.Sound sys ctx :=
  h.invariant (fun _ hsys' _ _ _ hp ha hres =>
    hp.readLine.action hv hal himg hs (hplats _ hsys') ha hres) h0

/-- **A session on an image in order succeeds**, on a platform that serves the image and
flushes it, and leaves the image in order. -/
lemma Prog.Sound.session (hfuel : 2 ^ 65 ≤ fuel) (h0 : p₀.Sound sys ctx)
    (hcur : p₀.schemCurT = schemCtxGetType p₀.sc)
    (hplats : ∀ s ∈ plats, s.pgSz = sys.pgSz ∧ s.Serves ctx ∧ s.fsyncOk = true)
    (hlong : p₀.inp.length < plats.length) :
    ∃ p, AtPrompt fuel ctx plats p₀ p ∧ p.Sound sys ctx ∧
      routineStart fuel ctx plats p₀ = some (.ok, p.readLine) := by
  obtain ⟨res, q, hrun⟩ := routineStart_total hv hal himg hfuel h0.inOrder.good hlong
  have hloop := hrun
  rw [routineStart, ← hcur] at hloop
  obtain ⟨p, hp, sys', hsys', hlast⟩ := exists_lastPass hloop
  have hsound := AtPrompt.sound hv hal himg hs (fun s hs => (hplats s hs).1) hp h0
  cases hlast with
  | eof _ => exact ⟨p, hp, hsound, hrun⟩
  | quit _ => exact ⟨p, hp, hsound, hrun⟩
  | failed _ hsave =>
    obtain ⟨-, hserves, hsync⟩ := hplats sys' hsys'
    have hok := schemCtxSave_of_serves hv hserves hsync hsound.kept.wellFormed.sc fun gpt hg => by
      have hcnt : gpt.partCnt = gptMaxPartCnt := (hsound.inOrder.framed .gpt gpt hg).partCnt
      rw [hcnt]
      decide
    exact absurd (hok.symm.trans hsave) (by decide)

end Session

/-! ## An image with a small GPT -/

/-- The image of zeros, once the small GPT has been saved. -/
def smallGptImage : Image := stores zeroImage (schemSaveGpt plainSys smallGpt smallCtx).2

lemma smallGptImage_holds : HoldsGpt plainSys smallGptImage smallCtx smallGpt := by
  have hv := (imgCtxValidate_ok_iff smallCtx).1 smallCtx_valid
  have hsave : (schemSaveGpt plainSys smallGpt smallCtx).1 = .ok := by
    rw [smallGpt_saved smallCtx_valid (by decide)]
  have hpg : plainSys.pgSz = plainSys.pgSz := rfl
  obtain ⟨hprim, hsec⟩ := copies_of_schemSaveGpt hv hpg smallGpt_ok hsave zeroImage
  exact ⟨smallGpt_ok, hprim, hsec⟩

lemma smallGptImage_clear : ClearOfMbr smallGptImage smallCtx :=
  clearOfMbr_of_copies ((imgCtxValidate_ok_iff smallCtx).1 smallCtx_valid)
    smallGptImage_holds.prim.toHdrAt smallGptImage_holds.sec.toHdrAt

/-- A load of that image finds the GPT. -/
lemma smallGptImage_load :
    let l := schemCtxLoad plainSys smallGptImage schemCtxInit smallCtx zeroRng
    l.res = .ok ∧ l.sc.inImgGpt = true ∧ ∃ N, l.sc.schemGpt = some N ∧ N.partCnt = 128 := by
  have hv := (imgCtxValidate_ok_iff smallCtx).1 smallCtx_valid
  have hs : plainSys.Serves smallCtx := smallCtx_serves
  obtain ⟨hres, hsame⟩ := smallGptImage_holds.loads hv hs (schemNew .gpt)
  have hload : (schemCtxLoad plainSys smallGptImage schemCtxInit smallCtx zeroRng).res = .ok := by
    rw [schemCtxLoad_ok_iff hv hs, hres]
    decide
  have hspec := schemCtxLoad_spec hv hs _ _ hload
  obtain ⟨N, hN, hcnt⟩ : ∃ N, gptFound plainSys smallGptImage smallCtx = some N ∧
      N.partCnt = 128 := ⟨_, if_pos hres, hsame.partCnt⟩
  exact ⟨hload, hspec.inImgGpt.trans (Option.isSome_iff_exists.2 ⟨N, hN⟩), N,
    hspec.schemGpt.trans hN, hcnt⟩

end Partman

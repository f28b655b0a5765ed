/-
# Images that grow

A run of the program may ask for a larger image than it finds.  The backup of a GPT is then no
longer at the end of the image; the load finds it all the same, from the primary copy, and the
next save writes it to the new end.
-/
import Partman.Session.Program
import Partman.Session.Repair

namespace Partman

open Lib

variable {sys sys' : Sys} {ctx ctx' : ImgCtx} {fuel : ℕ} {plats : List Sys} {m m' : Image}
  {lba : Plba} {hdr : GptHdr} {table : GptTable} {mbr gpt O : Schem}

/-- The image context `ctx'` is of an image that is not shorter, with sectors of the same size. -/
structure ImgCtx.GrowsTo (ctx ctx' : ImgCtx) : Prop where
  secSz : ctx'.secSz = ctx.secSz
  imgSz : ctx.imgSz.toNat ≤ ctx'.imgSz.toNat

namespace ImgCtx.GrowsTo

variable (hgrow : ctx.GrowsTo ctx')
include hgrow

lemma off (lba : Plba) : ctx'.off lba = ctx.off lba := by
  rw [ImgCtx.off, ImgCtx.off, ImgCtx.sec, ImgCtx.sec, hgrow.secSz]

lemma inside {cnt : Plba} (h : ctx.Inside lba cnt) : ctx'.Inside lba cnt := by
  rw [ImgCtx.Inside, ImgCtx.sec, hgrow.secSz]
  exact h.trans hgrow.imgSz

lemma tableSzSecs (hdr : GptHdr) : gptTableSzSecs ctx' hdr = gptTableSzSecs ctx hdr := by
  rw [gptTableSzSecs, gptTableSzSecs, byteToLba, byteToLba, hgrow.secSz]

end ImgCtx.GrowsTo

/-- A copy stays where it is. -/
lemma CopyAt.grow (hv : ctx.Valid) (hgrow : ctx.GrowsTo ctx')
    (h : CopyAt sys m ctx lba hdr table) (hm : ∀ a < ctx.imgSz.toNat, m' a = m a) :
    CopyAt sys m' ctx' lba hdr table := by
  have hsec := hv.sec_bounds.1
  have hlen := (tableSzSecs_mul hv h.cnt h.entrySz).1
  have hin : ctx.off lba + ctx.sec ≤ ctx.imgSz.toNat := by
    have := h.inside
    rwa [ImgCtx.Inside, UInt64.toNat_one, Nat.add_mul, Nat.one_mul] at this
  have htab : ctx.off hdr.partTableLba + (gptTableSzSecs ctx hdr).toNat * ctx.sec ≤
      ctx.imgSz.toNat := by
    have := h.tableInside
    rwa [TableInside, ImgCtx.Inside, Nat.add_mul] at this
  have h' : CopyAt sys m' ctx lba hdr table :=
    h.congr (fun a _ ha => hm a (by omega)) fun a _ ha => hm a (by omega)
  refine ⟨⟨?_, ?_, h'.valid⟩, hgrow.inside h'.inside, h'.cnt, h'.entrySz, ?_, ?_, fun i hi => ?_,
    h'.tableValid⟩
  · rw [hgrow.off]
    exact h'.present
  · rw [hgrow.off]
    exact h'.read
  · rw [TableInside, hgrow.tableSzSecs]
    exact hgrow.inside h'.tableInside
  · have hwin := h'.window
    rw [TableWindow, Sys.Window, ImgCtx.sec] at hwin ⊢
    rwa [hgrow.tableSzSecs, hgrow.secSz]
  · rw [hgrow.off]
    exact h'.entries i hi

/-- The primary copy leads to the backup, wherever the end of the image is. -/
lemma HoldsGpt.loads_grown (hv : ctx.Valid) (hv' : ctx'.Valid) (hs' : sys.Serves ctx')
    (hgrow : ctx.GrowsTo ctx') (h : HoldsGpt sys m ctx O)
    (hm : ∀ a < ctx.imgSz.toNat, m' a = m a) (schem₀ : Schem) :
    (schemLoadGpt sys m' schem₀ ctx').1 = .ok ∧
      O.SameGpt (schemLoadGpt sys m' schem₀ ctx').2.1 := by
  have hprim := (h.prim.grow hv hgrow hm).loaded hv' hs' GptHdr.zero gptTableZero
  have hsec := (h.sec.grow hv hgrow hm).loaded hv' hs' GptHdr.zero gptTableZero
  have hres : (loadCopy sys m' ctx' (savedPrim O ctx).altLba).res = .ok := by
    rw [savedPrim_altLba]
    exact hsec.res
  obtain ⟨hok, hsame⟩ := schemLoadGpt_prim schem₀ hprim (by rw [hres]; decide)
  rw [hsame]
  exact ⟨hok, schemOfCopy_savedPrim O schem₀ ctx⟩

/-- An MBR does not depend on the size of the image, but for its last usable sector. -/
lemma mbrFound_grown (h : mbrFound m ctx = some mbr) (hm : ∀ a, InMbr a → m' a = m a) :
    ∃ mbr', mbrFound m' ctx' = some mbr' ∧ mbr.MbrAgain mbr' ∧
      schemMbrIsProt mbr' = schemMbrIsProt mbr := by
  rw [← mbrFound_congr hm, mbrFound] at h
  split_ifs at h with hpres
  obtain rfl := Option.some.inj h
  exact ⟨_, if_pos hpres, ⟨rfl, rfl, fun _ _ => rfl, fun _ _ _ => ⟨rfl, rfl, rfl, rfl⟩⟩, rfl⟩

lemma Schem.MbrAgain.trans {schem schem' schem'' : Schem} (h : schem.MbrAgain schem')
    (h' : schem'.MbrAgain schem'') : schem.MbrAgain schem'' := by
  refine ⟨h'.idI.trans h.idI, h'.partCnt.trans h.partCnt, fun i hi => ?_, fun i hi hu => ?_⟩
  · exact (h'.used i (by rwa [h.partCnt])).trans (h.used i hi)
  · obtain ⟨htype, hboot, hstart, hend⟩ := h.part i hi hu
    obtain ⟨htype', hboot', hstart', hend'⟩ :=
      h'.part i (by rwa [h.partCnt]) ((h.used i hi).trans hu)
    exact ⟨htype'.trans htype, hboot'.trans hboot, hstart'.trans hstart, hend'.trans hend⟩

/-- A save of what is loaded leaves both copies, where the image context has them. -/
lemma Loads.holds (hv : ctx.Valid) (hs : sys.Serves ctx) (hpg : sys'.pgSz = sys.pgSz)
    (hO : O.GptOk) (h : Loads sys m ctx mbr O) (sc₁ : SchemCtx) (r : Rng)
    (hsave : (schemCtxSave sys' (schemCtxLoad sys m sc₁ ctx r).sc ctx).res = .ok) :
    HoldsGpt sys (stores m (schemCtxSave sys' (schemCtxLoad sys m sc₁ ctx r).sc ctx).stores) ctx
      O := by
  obtain ⟨hres, ⟨mbr', hm, -⟩, gpt', hg, hsame⟩ := h.schemes hv hs sc₁ r
  have hkeeps : (schemCtxLoad sys m sc₁ ctx r).sc.KeepsMbr :=
    (schemCtxLoad_spec hv hs sc₁ r hres).hasMbr
  obtain ⟨hstores, hok⟩ :=
    schemCtxSave_stores_gpt (schemCtxLoad_wellFormed hres) hkeeps hm hg hsave
  rw [hsame.schemSaveGpt_eq] at hstores hok
  rw [hstores, stores_append]
  obtain ⟨hprim, hsec⟩ := copies_of_schemSaveGpt hv hpg hO hok
    (stores m (mbrWrite 0 (mbrFromSchem mbr' Mbr.zero ctx)))
  exact ⟨hO, hprim, hsec⟩

/-- **An image that grows keeps its GPT.**  At a prompt of a session with a GPT and a protective
MBR, save and end.  A later run of the program that extends the image, to any size, finds the
context that has been saved; and a save of it leaves both copies of the same GPT, the backup
at the new end of the image. -/
theorem load_of_grown (hctx : imgCtxValidate ctx = .ok) (hs : sys.Serves ctx)
    (hal : 1 ≤ ctx.align.toNat) (m : Image) (sc : SchemCtx) (r : Rng)
    (hload : (schemCtxLoad sys m sc ctx r).res = .ok) (inp : Input) (fuel : ℕ)
    (plats : List Sys) {p : Prog}
    (hp : AtPrompt fuel ctx plats (startProg (schemCtxLoad sys m sc ctx r) inp m) p)
    (hpg : sys'.pgSz = sys.pgSz) (hsave : (schemCtxSave sys' p.sc ctx).res = .ok)
    (hg : p.sc.schemGpt = some gpt)
    (hprot : ∀ mbr, p.sc.schemMbr = some mbr → schemMbrIsProt mbr = true)
    {host : Host} {argv : List (List Char)} {opts : PartmanOpts} {file file₁ : ImgFile}
    (himg : file.img = stores p.img (schemCtxSave sys' p.sc ctx).stores)
    (hsz : file.sz = ctx.imgSz.toNat) (hboot : Boots host argv opts ctx' file file₁)
    (hsys : host.sys = sys) (hs' : sys.Serves ctx') (hsecSz : ctx'.secSz = ctx.secSz) :
    (host.load ctx' file₁).res = .ok ∧ p.sc.Again (host.load ctx' file₁).sc ∧
      ∀ sys₂, sys₂.pgSz = sys.pgSz →
        (schemCtxSave sys₂ (host.load ctx' file₁).sc ctx').res = .ok →
        HoldsGpt sys (stores file₁.img
          (schemCtxSave sys₂ (host.load ctx' file₁).sc ctx').stores) ctx' gpt.cut := by
  have hv := (imgCtxValidate_ok_iff ctx).1 hctx
  have hsavable : p.Savable := hp.savable hv hal (.start hv hs hload inp)
  obtain ⟨mbr, hm⟩ :=
    Option.ne_none_iff_exists'.1 (hsavable.wellFormed.sc.mbr_of_gpt (by simp [hg]))
  obtain ⟨hgrows, hctx', hok'⟩ := hboot.spec
  have hv' := (imgCtxValidate_ok_iff ctx').1 hok'
  -- the file has kept its bytes, and is not shorter
  have hbytes : file₁.sz = file.sz ∨ file.sz < file₁.sz := by
    cases hgrows with
    | same => exact Or.inl rfl
    | more hlt hsz' _ => exact Or.inr (by omega)
  have hkeep : ∀ a < ctx.imgSz.toNat, file₁.img a =
      stores p.img (schemCtxSave sys' p.sc ctx).stores a := by
    intro a ha
    rw [hgrows.img_eq (by omega), if_pos (by omega), himg]
  have hgrow : ctx.GrowsTo ctx' := by
    have := file₁.sz_lt
    refine ⟨hsecSz, ?_⟩
    rw [hctx', imgInitCtx_imgSz, toNat_ofNat_of_lt (by omega)]
    omega
  have hlow : ∀ a, InMbr a → a < ctx.imgSz.toNat := by
    intro a ha
    have hlt := ha.lt
    have hsize := hv.size
    omega
  -- what the later run finds
  obtain ⟨mbr₁, hm₁, hmagain₁⟩ :=
    mbrFound_of_ctxSave hv hsavable.wellFormed.sc hsavable.storable hsave hm p.img
  obtain ⟨mbr₂, hm₂, hmagain₂, hp₂⟩ : ∃ mbr', mbrFound file₁.img ctx' = some mbr' ∧
      mbr₁.MbrAgain mbr' ∧ schemMbrIsProt mbr' = schemMbrIsProt mbr₁ :=
    mbrFound_grown hm₁ fun a ha => hkeep a (hlow a ha)
  have hloads := (hsavable.holds_write hv hpg hsave hg).loads_grown hv hv' hs' hgrow hkeep
    (schemNew .gpt)
  have hfits := hsavable.storable .gpt gpt hg
  have hmfits := hsavable.storable .mbr mbr hm
  have hL : Loads sys file₁.img ctx' mbr gpt.cut := by
    refine ⟨⟨mbr₂, hm₂, hmagain₁.trans hmagain₂, ?_⟩, _, if_pos hloads.1, hloads.2⟩
    exact hp₂.trans (hmagain₁.prot hmfits (hprot mbr hm))
  subst hsys
  obtain ⟨hres, hagain⟩ := hL.again hv' hs' hm hg hfits schemCtxInit host.rng
  exact ⟨hres, hagain, fun sys₂ hpg₂ hsave₂ =>
    hL.holds hv' hs' hpg₂ hfits.cut_ok schemCtxInit host.rng hsave₂⟩

/-- A run that asks for twice the size of a small file. -/
def grownHost (file : ImgFile) : Host := { smallHost with openImg := fun _ => some file }

def grownArgv : List (List Char) :=
  ["partman".toList, "--min=2097152".toList, "disk.img".toList]

def grownOpts : PartmanOpts :=
  { optsInitDefault with imgSz := 2097152, imgName := "disk.img".toList }

def grownCtx : ImgCtx := imgCtxInit 2097152

/-- A file of the size of the small image. -/
def smallFile (img : Image) : ImgFile := ⟨1048576, img, by decide⟩

lemma smallFile_img (img : Image) : (smallFile img).img = img := rfl

lemma grownHost_boots (img : Image) : Boots (grownHost (smallFile img)) grownArgv grownOpts
    grownCtx (smallFile img) ((smallFile img).writeZero 2097151 (by decide)) := by
  refine ⟨by decide, rfl, ?_⟩
  have hext : (smallFile img).extend (grownHost (smallFile img)) grownOpts =
      some ((smallFile img).writeZero 2097151 (by decide)) := by
    rw [ImgFile.extend]
    exact dif_pos (show (grownOpts.imgSz - 1).toNat + 1 < 2 ^ 63 by decide)
  have hsz : ((smallFile img).writeZero 2097151 (by decide)).sz = 2097152 :=
    show max 1048576 (2097151 + 1) = 2097152 by decide
  have hctx : imgInitCtx grownOpts 2097152 = grownCtx := by decide
  have hvalid : imgCtxValidate grownCtx = .ok := by decide
  have hless : ¬ UInt64.ofNat (smallFile img).sz ≥ grownOpts.imgSz :=
    show ¬ UInt64.ofNat 1048576 ≥ 2097152 by decide
  have hseek : ¬ (!(grownHost (smallFile img)).seekEnd) = true := show ¬ (!true) = true by decide
  rw [imgInit, if_neg hseek, if_neg hless, hext]
  simp only [imgInitLabel, hsz, hctx, hvalid, if_true]

/-- The image with the small GPT, saved and extended. -/
theorem load_of_grown_small :
    let p := startProg (schemCtxLoad plainSys smallGptImage schemCtxInit smallCtx zeroRng) []
      smallGptImage
    let file := smallFile (stores p.img (schemCtxSave plainSys p.sc smallCtx).stores)
    let file₁ := file.writeZero 2097151 (by decide)
    let l := (grownHost file).load grownCtx file₁
    l.res = .ok ∧ p.sc.Again l.sc ∧ ∃ gpt, p.sc.schemGpt = some gpt ∧
      ∀ sys₂, sys₂.pgSz = plainSys.pgSz → (schemCtxSave sys₂ l.sc grownCtx).res = .ok →
        HoldsGpt plainSys (stores file₁.img (schemCtxSave sys₂ l.sc grownCtx).stores) grownCtx
          gpt.cut := by
  obtain ⟨hload, -⟩ := smallGptImage_load
  intro p file file₁
  obtain ⟨⟨N, hN⟩, hsave, hprot⟩ := smallGptImage_save (startProg_sc _ _ _ : p.sc = _)
  have hboot : Boots (grownHost file) grownArgv grownOpts grownCtx file file₁ := grownHost_boots _
  have hsz : file.sz = smallCtx.imgSz.toNat := show 1048576 = smallCtx.imgSz.toNat by decide
  have himg : file.img = stores p.img (schemCtxSave plainSys p.sc smallCtx).stores :=
    smallFile_img _
  have hsys : (grownHost file).sys = plainSys := rfl
  have hsecSz : grownCtx.secSz = smallCtx.secSz := rfl
  have hp : AtPrompt 0 smallCtx [] p p := .refl
  have hs' : plainSys.Serves grownCtx := plainSys_serves (by decide)
  obtain ⟨hres, hagain, hholds⟩ := load_of_grown smallCtx_valid
    smallCtx_serves (by decide) smallGptImage schemCtxInit zeroRng
    hload [] 0 [] hp rfl hsave hN hprot
    himg hsz hboot hsys hs' hsecSz
  exact ⟨hres, hagain, N, hN, hholds⟩

end Partman

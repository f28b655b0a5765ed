/-
# What is listed after a save

The command `p` shows the scheme that is in memory.  After a save and a new load it shows the
same text again, unless the type of a used partition of a GPT has been typed in with a minus
sign: of such a type the image keeps the last eight digits of the first field only.
-/
import Partman.Session.Repair
import Partman.Text.Report

namespace Partman

open Lib

variable {sys sys' : Sys} {ctx : ImgCtx} {plats : List Sys} {p : Prog} {schem schem' : Schem}

/-- What the command `p` prints. -/
def Prog.listing (imgName : List Char) (ctx : ImgCtx) (p : Prog) : List Char :=
  pmPrintScheme imgName (p.sc.schemes p.schemCurT) ctx

/-- The types of the used partitions have first fields of 32 bits. -/
def Schem.TypesFit (schem : Schem) : Prop :=
  ∀ i < schem.partCnt.toNat, schemPartIsUsedGpt (schem.table i) = true →
    (schem.table i).typeGuid.timeLo.toNat < 2 ^ 32

lemma Schem.Formed.listable {t : SchemType} (h : schem.Formed t) (ht : t ≠ .cnt) :
    schem.Listable := by
  cases t with
  | mbr => exact .mbr h.type h.funcs
  | gpt => exact .gpt h.type h.funcs
  | cnt => exact absurd rfl ht

/-- The schemes of a context can be listed. -/
lemma SchemCtx.WellFormed.listable {sc : SchemCtx} (h : sc.WellFormed) (t : SchemType) :
    ∀ schem, sc.schemes t = some schem → schem.Listable := by
  intro schem hs
  refine (h.formed t schem hs).listable ?_
  rintro rfl
  exact absurd hs (by simp [SchemCtx.schemes])

/-- A type is as it was once its first field is cut off, if it has been short. -/
lemma Guid.cut_eq_iff (guid : Guid) : guid.cut = guid ↔ guid.timeLo.toNat < 2 ^ 32 := by
  have hcut := toNat_cut_timeLo guid
  constructor
  · intro h
    rw [← h, hcut]
    exact Nat.mod_lt _ (by decide)
  · intro h
    rw [Nat.mod_eq_of_lt h, UInt64.toNat_inj] at hcut
    show { guid with timeLo := guid.cut.timeLo } = guid
    rw [hcut]

/-- The GPT that is loaded is listed as the one that was saved, if the types fit. -/
lemma Schem.SameGpt.gptListed_iff (h : schem.GptFits) (hsame : schem.cut.SameGpt schem') :
    schem.GptListed schem' ↔ schem.TypesFit := by
  have hagain := hsame.again h
  have hpart : ∀ i < schem.partCnt.toNat, schemPartIsUsedGpt (schem.table i) = true →
      (schem'.table i).typeGuid = (schem.table i).typeGuid.cut ∧
        (schem'.table i).uniqueGuid = (schem.table i).uniqueGuid := by
    intro i hi hu
    have hcut : schemPartIsUsedGpt (schem.cut.table i) = true :=
      (schemPartIsUsedGpt_cut (h.entry i)).trans hu
    rw [hsame.table i hi, SchemPart.asGpt, if_pos hcut]
    exact ⟨rfl, rfl⟩
  constructor
  · intro hlisted i hi hu
    exact (Guid.cut_eq_iff _).1 ((hpart i hi hu).1.symm.trans (hlisted.part i hi hu).1)
  · intro hfit
    refine ⟨hsame.idGuid, hagain.partCnt, hagain.used, fun i hi hu => ?_⟩
    obtain ⟨htype, hunique⟩ := hpart i hi hu
    have hpart' := hagain.part i hi hu
    exact ⟨htype.trans ((Guid.cut_eq_iff _).2 (hfit i hi hu)), hunique, hpart'.startLba,
      hpart'.endLba⟩

/-- What the loop shows when it starts. -/
lemma Prog.listing_eq (imgName : List Char) (ctx : ImgCtx)
    (hcur : p.schemCurT = schemCtxGetType p.sc) :
    p.listing imgName ctx = pmPrintScheme imgName
      (match p.sc.schemGpt with | some gpt => some gpt | none => p.sc.schemMbr) ctx := by
  rw [Prog.listing, hcur, schemCtxGetType]
  cases hg : p.sc.schemGpt with
  | some gpt => simp [SchemCtx.schemes, hg]
  | none =>
    cases hm : p.sc.schemMbr with
    | some mbr => simp [SchemCtx.schemes, hm]
    | none => simp [SchemCtx.schemes]

/-- **The listing after a save.**  At every prompt of a session that is not inside the protective
MBR: save, and start the program again.  What it lists then is the text that was listed before,
if and only if no used partition of a GPT has a type whose first field is longer than 32 bits.
Where there is no GPT to save, no header of the image that was loaded may lie over the boot
record. -/
theorem listing_of_reload (hctx : imgCtxValidate ctx = .ok) (hs : sys.Serves ctx)
    (hal : 1 ≤ ctx.align.toNat) (m : Image) (sc : SchemCtx) (r : Rng)
    (hload : (schemCtxLoad sys m sc ctx r).res = .ok) (inp : Input) (fuel : ℕ)
    (plats : List Sys) (hplats : ∀ s ∈ plats, s.pgSz = sys.pgSz)
    (hp : AtPrompt fuel ctx plats (startProg (schemCtxLoad sys m sc ctx r) inp m) p)
    (hclear : p.sc.schemGpt = none → ClearOfMbr m ctx)
    (hcur : p.schemCurT = schemCtxGetType p.sc) (hpg : sys'.pgSz = sys.pgSz)
    (hsave : (schemCtxSave sys' p.sc ctx).res = .ok) (imgName : List Char) (sc₁ : SchemCtx)
    (r₁ : Rng) (inp₁ : Input) :
    let m₁ := stores p.img (schemCtxSave sys' p.sc ctx).stores
    let l := schemCtxLoad sys m₁ sc₁ ctx r₁
    l.res = .ok ∧ ((startProg l inp₁ m₁).listing imgName ctx = p.listing imgName ctx ↔
      ∀ gpt, p.sc.schemGpt = some gpt → gpt.TypesFit) := by
  intro m₁ l
  have hv := (imgCtxValidate_ok_iff ctx).1 hctx
  have hsavable : p.Savable := hp.savable hv hal (.start hv hs hload inp)
  obtain ⟨hres, hagain⟩ := hp.reload hv hal hs hload hplats hclear hpg hsave sc₁ r₁
  refine ⟨hres, ?_⟩
  have hold := hsavable.wellFormed.sc.listable
  have hnew := (schemCtxLoad_wellFormed hres).listable
  rw [Prog.listing_eq imgName ctx (startProg_cur l inp₁ m₁), startProg_sc,
    Prog.listing_eq imgName ctx hcur]
  cases hg : p.sc.schemGpt with
  | none =>
    have hgno : l.sc.schemGpt = none := hagain.noGpt hg
    have hsame : SameListing p.sc.schemMbr l.sc.schemMbr := by
      cases hm : p.sc.schemMbr with
      | none =>
        rw [hagain.noMbr hg hm]
        exact .none
      | some mbr =>
        obtain ⟨mbr', hm', hmagain⟩ := hagain.mbr mbr hm (Or.inl hg)
        rw [hm']
        exact .mbr (hsavable.wellFormed.sc.formed .mbr mbr hm).type
          ((schemCtxLoad_wellFormed hres).formed .mbr mbr' hm').type hmagain
    simp only [hgno]
    exact iff_of_true (pmPrintScheme_congr imgName ctx (hold .mbr) (hnew .mbr) hsame)
      (fun _ h => absurd h (by simp))
  | some gpt =>
    obtain ⟨hgres, hsame⟩ := (hsavable.holds_write hv hpg hsave hg).loads hv hs (schemNew .gpt)
    obtain ⟨gpt', hg', hsame⟩ : ∃ gpt', l.sc.schemGpt = some gpt' ∧ gpt.cut.SameGpt gpt' :=
      ⟨_, (schemCtxLoad_spec hv hs sc₁ r₁ hres).schemGpt.trans (if_pos hgres), hsame⟩
    have htype := (hsavable.wellFormed.sc.formed .gpt gpt hg).type
    have hlisted := hsame.gptListed_iff (hsavable.storable .gpt gpt hg)
    have ho := hold .gpt
    have ho' := hnew .gpt
    rw [SchemCtx.schemes, hg] at ho
    rw [SchemCtx.schemes, hg'] at ho'
    simp only [hg']
    constructor
    · rintro h g ⟨⟩
      cases sameListing_of_pmPrintScheme ho ho' h.symm with
      | mbr type => exact absurd (type.symm.trans htype) (by decide)
      | gpt _ _ listed => exact hlisted.1 listed
    · intro h
      exact pmPrintScheme_congr imgName ctx ho ho'
        (.gpt htype hsame.type (hlisted.2 (h gpt rfl)))

/-- The types that are loaded fit. -/
lemma Schem.SameGpt.typesFit (h : schem.SameGpt schem') (hok : schem.GptOk) : schem'.TypesFit := by
  intro i hi hu
  rw [h.partCnt] at hi
  rw [h.table i hi, schemPartIsUsedGpt_asGpt] at hu
  rw [h.table i hi, SchemPart.asGpt, if_pos hu]
  exact (hok.entries i hi hu).typeGuid

/-- The image with the small GPT is listed in the same way once it is saved. -/
theorem listing_of_reload_small :
    let p := startProg (schemCtxLoad plainSys smallGptImage schemCtxInit smallCtx zeroRng) []
      smallGptImage
    let m₁ := stores p.img (schemCtxSave plainSys p.sc smallCtx).stores
    let l := schemCtxLoad plainSys m₁ schemCtxInit smallCtx zeroRng
    (startProg l [] m₁).listing "disk.img".toList smallCtx =
      p.listing "disk.img".toList smallCtx := by
  obtain ⟨hload, -⟩ := smallGptImage_load
  have hv := (imgCtxValidate_ok_iff smallCtx).1 smallCtx_valid
  have hs : plainSys.Serves smallCtx := smallCtx_serves
  obtain ⟨hres, hsame⟩ := smallGptImage_holds.loads hv hs (schemNew .gpt)
  obtain ⟨N, hN, hfits⟩ : ∃ N, gptFound plainSys smallGptImage smallCtx = some N ∧ N.TypesFit :=
    ⟨_, if_pos hres, hsame.typesFit smallGpt_ok⟩
  have hspec := schemCtxLoad_spec hv hs schemCtxInit zeroRng hload
  intro p
  have hp : AtPrompt 0 smallCtx [] p p := .refl
  have hcur : p.schemCurT = schemCtxGetType p.sc := startProg_cur _ _ _
  obtain ⟨-, hsave, -⟩ := smallGptImage_save (startProg_sc _ _ _ : p.sc = _)
  have hfit : ∀ gpt, p.sc.schemGpt = some gpt → gpt.TypesFit := by
    intro gpt hg
    have hsc : p.sc = (schemCtxLoad plainSys smallGptImage schemCtxInit smallCtx zeroRng).sc :=
      startProg_sc _ _ _
    rw [hsc, hspec.schemGpt, hN] at hg
    exact Option.some.inj hg ▸ hfits
  exact (listing_of_reload smallCtx_valid hs (by decide) smallGptImage schemCtxInit zeroRng hload
    [] 0 [] (by simp) hp (fun _ => smallGptImage_clear) hcur rfl hsave "disk.img".toList
    schemCtxInit zeroRng []).2.2 hfit

end Partman

/-
# Saving and loading again

What a save writes of a scheme that fits on the disk is what a load finds there.  The GPT
comes back with the bytes of its identifiers, the MBR with its four entries.  A GPT that
the context no longer has is not found again, unless the image has a header that was not
accepted and whose table reaches into the boot record.
-/
import Partman.Disk.Flags
import Partman.Disk.Recovery
import Partman.Edit.Allocated
import Partman.Edit.Storable

namespace Partman

open Lib

variable {sys sys' : Sys} {ctx : ImgCtx} {m : Image} {schem schem' : Schem} {sc sc₀ : SchemCtx}

/-! ## What the disk keeps of an identifier -/

/-- The identifier with its first field cut off to 32 bits. -/
def Guid.cut (guid : Guid) : Guid := { guid with timeLo := guid.timeLo &&& 0xFFFFFFFF }

lemma toNat_cut_timeLo (guid : Guid) : guid.cut.timeLo.toNat = guid.timeLo.toNat % 2 ^ 32 := by
  rw [Guid.cut, UInt64.toNat_and]
  exact Nat.and_two_pow_sub_one_eq_mod _ 32

lemma guidBytes_cut (guid : Guid) : guidBytes guid.cut = guidBytes guid := by
  have h : leBytes 4 guid.cut.timeLo.toNat = leBytes 4 guid.timeLo.toNat := by
    rw [toNat_cut_timeLo]
    exact leBytes_mod 4 _
  rw [guidBytes, h]
  rfl

lemma foldl_or_eq_zero {α : Type*} (f : α → UInt64) (l : List α) (a : UInt64) :
    l.foldl (fun flag i => flag ||| f i) a = 0 ↔
      a = 0 ∧ l.foldl (fun flag i => flag ||| f i) 0 = 0 := by
  induction l generalizing a with
  | nil => simp
  | cons i l ih =>
    rw [List.foldl_cons, List.foldl_cons, ih (a ||| f i), ih (0 ||| f i)]
    simp only [UInt64.or_eq_zero_iff, true_and, and_assoc]

/-- An identifier is zero if its first field is and the rest is. -/
lemma guidIsZero_iff (guid : Guid) : guidIsZero guid = true ↔
    guid.timeLo = 0 ∧ guidIsZero { guid with timeLo := 0 } = true := by
  simp only [guidIsZero, beq_iff_eq]
  rw [foldl_or_eq_zero, foldl_or_eq_zero _ _ (0 ||| _ ||| _ ||| _ ||| _)]
  simp only [UInt64.or_eq_zero_iff, true_and, and_assoc]

/-- Cutting off keeps whether a type is the one of an unused partition. -/
lemma guidIsZero_cut {guid : Guid} (h : guid.LowZero) : guidIsZero guid.cut = guidIsZero guid := by
  have hlo : guid.cut.timeLo = 0 ↔ guid.timeLo = 0 := by
    rw [eq_zero_iff_toNat, toNat_cut_timeLo]
    exact ⟨h, fun h0 => by rw [h0]; rfl⟩
  rw [Bool.eq_iff_iff, guidIsZero_iff, guidIsZero_iff guid, hlo]
  rfl

/-! ## What the disk keeps of a GPT -/

/-- The entry with its type cut off. -/
def SchemPart.cut (part : SchemPart) : SchemPart := { part with typeGuid := part.typeGuid.cut }

/-- The scheme with the types of its entries cut off. -/
def Schem.cut (schem : Schem) : Schem := { schem with table := fun i => (schem.table i).cut }

lemma schemPartIsUsedGpt_cut {part : SchemPart} (h : part.GptFits) :
    schemPartIsUsedGpt part.cut = schemPartIsUsedGpt part :=
  congrArg not (guidIsZero_cut h.typeGuid)

lemma entHead_cut (part : SchemPart) :
    entHead (gptPartFromSchem part.cut) = entHead (gptPartFromSchem part) := by
  have h : guidBytes (gptPartFromSchem part.cut).typeGuid =
      guidBytes (gptPartFromSchem part).typeGuid := guidBytes_cut part.typeGuid
  simp only [entHead, h]
  rfl

lemma gptPartEntWrite_cut (buf : ℕ) (part : SchemPart) :
    gptPartEntWrite buf (gptPartFromSchem part.cut) =
      gptPartEntWrite buf (gptPartFromSchem part) := by
  have h : guidBytes (gptPartFromSchem part.cut).typeGuid =
      guidBytes (gptPartFromSchem part).typeGuid := guidBytes_cut part.typeGuid
  simp only [gptPartEntWrite, guidWrite_eq, h]
  rfl

/-- Where two entries are saved alike before and after cutting off, so are the tables. -/
lemma savedTable_cut {α : Type*} (f : GptPartEnt → α)
    (hf : ∀ part, f (gptPartFromSchem part.cut) = f (gptPartFromSchem part))
    (h : schem.GptFits) (i : ℕ) : f (savedTable schem.cut i) = f (savedTable schem i) := by
  have hused : schemPartIsUsedGpt (schem.cut.table i) = schemPartIsUsedGpt (schem.table i) :=
    schemPartIsUsedGpt_cut (h.entry i)
  simp only [savedTable, gptTableFromSchem, hused, show schem.cut.partCnt = schem.partCnt from rfl]
  split_ifs
  · exact hf _
  · rfl

lemma savedPrim_cut (h : schem.GptFits) (ctx : ImgCtx) :
    savedPrim schem.cut ctx = savedPrim schem ctx := by
  have hcrc : gptTableCrcCreate (gptTableFromSchem schem.cut gptTableZero) schem.partCnt =
      gptTableCrcCreate (gptTableFromSchem schem gptTableZero) schem.partCnt := by
    rw [gptTableCrcCreate_eq, gptTableCrcCreate_eq]
    refine congrArg crc32Of (List.flatMap_congr fun i _ => ?_)
    refine savedTable_cut entStream (fun part => ?_) h i
    simp only [entStream, entHead_cut]
    rfl
  unfold savedPrim gptFromSchem gptRestore
  simp only [Gpt.zero, Bool.false_eq_true, if_false]
  rw [show schem.cut.partCnt = schem.partCnt from rfl, hcrc]
  simp only [Schem.cut]

lemma savedSec_cut (h : schem.GptFits) (ctx : ImgCtx) :
    savedSec schem.cut ctx = savedSec schem ctx := by
  rw [savedSec_eq, savedSec_eq, savedPrim_cut h]

lemma gptPairSave_cut (h : schem.GptFits) (sys : Sys) (hdr : GptHdr) (ctx : ImgCtx) :
    gptPairSave sys hdr (savedTable schem.cut) ctx =
      gptPairSave sys hdr (savedTable schem) ctx := by
  have htab : ∀ buf len entrySz, gptTableWrite buf (savedTable schem.cut) len entrySz =
      gptTableWrite buf (savedTable schem) len entrySz := by
    intro buf len entrySz
    refine List.flatMap_congr fun i _ => ?_
    exact savedTable_cut (gptPartEntWrite _) (fun part => gptPartEntWrite_cut _ part) h i
  unfold gptPairSave
  simp only [htab]

/-- **A save does not see what is cut off.** -/
lemma schemSaveGpt_cut (h : schem.GptFits) (sys : Sys) (ctx : ImgCtx) :
    schemSaveGpt sys schem.cut ctx = schemSaveGpt sys schem ctx := by
  rw [schemSaveGpt_eq, schemSaveGpt_eq, savedPrim_cut h, savedSec_cut h, gptPairSave_cut h,
    gptPairSave_cut h]

lemma Schem.GptFits.cut_ok (h : schem.GptFits) : schem.cut.GptOk := by
  refine ⟨h.cnt, h.idGuid, fun i _ _ => ?_⟩
  have hentry := h.entry i
  refine ⟨⟨?_, hentry.uniqueGuid, hentry.name⟩, hentry.chained⟩
  show (schem.table i).typeGuid.cut.timeLo.toNat < 2 ^ 32
  rw [toNat_cut_timeLo]
  omega

/-! ## The GPT -/

/-- The entry `part'` has what is compared of the used entry `part` of a GPT. -/
structure SchemPart.SameGptPart (part part' : SchemPart) : Prop where
  typeGuid : guidBytes part'.typeGuid = guidBytes part.typeGuid
  uniqueGuid : guidBytes part'.uniqueGuid = guidBytes part.uniqueGuid
  startLba : part'.startLba = part.startLba
  endLba : part'.endLba = part.endLba
  attr : part'.attr = part.attr
  name : part'.name = part.name

/-- The scheme `schem'` is the GPT `schem`, with identifiers compared by their bytes. -/
structure Schem.GptAgain (schem schem' : Schem) : Prop where
  idGuid : guidBytes schem'.idGuid = guidBytes schem.idGuid
  firstUsableLba : schem'.firstUsableLba = schem.firstUsableLba
  lastUsableLba : schem'.lastUsableLba = schem.lastUsableLba
  partCnt : schem'.partCnt = schem.partCnt
  used : ∀ i < schem.partCnt.toNat,
    schemPartIsUsedGpt (schem'.table i) = schemPartIsUsedGpt (schem.table i)
  part : ∀ i < schem.partCnt.toNat, schemPartIsUsedGpt (schem.table i) = true →
    (schem.table i).SameGptPart (schem'.table i)

lemma schemPartIsUsedGpt_asGpt (part : SchemPart) :
    schemPartIsUsedGpt part.asGpt = schemPartIsUsedGpt part := by
  rw [SchemPart.asGpt]
  split
  · rfl
  · next h =>
    rw [Bool.not_eq_true] at h
    rw [h, schemPartIsUsedGpt, SchemPart.zero, guidIsZero_zero]
    rfl

lemma Schem.SameGpt.again (h : schem.GptFits) (hsame : schem.cut.SameGpt schem') :
    schem.GptAgain schem' := by
  have hused : ∀ i < schem.partCnt.toNat,
      schemPartIsUsedGpt (schem'.table i) = schemPartIsUsedGpt (schem.table i) := by
    intro i hi
    rw [hsame.table i hi, schemPartIsUsedGpt_asGpt]
    exact schemPartIsUsedGpt_cut (h.entry i)
  refine ⟨congrArg guidBytes hsame.idGuid, hsame.firstUsableLba, hsame.lastUsableLba,
    hsame.partCnt, hused, fun i hi hu => ?_⟩
  have hcut : schemPartIsUsedGpt (schem.cut.table i) = true :=
    (schemPartIsUsedGpt_cut (h.entry i)).trans hu
  rw [hsame.table i hi, SchemPart.asGpt, if_pos hcut]
  exact ⟨guidBytes_cut _, rfl, rfl, rfl, rfl, rfl⟩

/-- **A GPT that has been saved is found again.** -/
lemma gptFound_of_save (hv : ctx.Valid) (hs : sys.Serves ctx) (hpg : sys'.pgSz = sys.pgSz)
    (h : schem.GptFits) (hok : (schemSaveGpt sys' schem ctx).1 = .ok) (m : Image) :
    ∃ gpt, gptFound sys (stores m (schemSaveGpt sys' schem ctx).2) ctx = some gpt ∧
      schem.GptAgain gpt := by
  rw [← schemSaveGpt_cut h] at hok ⊢
  obtain ⟨hprim, hsec⟩ := copies_of_schemSaveGpt hv hpg h.cut_ok hok m
  have hsec' : (loadCopy sys (stores m (schemSaveGpt sys' schem.cut ctx).2) ctx
      (imgLastLba ctx)).res = .ok := (hsec.loaded hv hs _ _).res
  obtain ⟨hres, hsame⟩ := load_of_prim hv hs hprim (by rw [hsec']; decide) (schemNew .gpt)
  exact ⟨_, if_pos hres, hsame.again h⟩

/-! ## The MBR -/

/-- The scheme `schem'` is the MBR `schem`. -/
structure Schem.MbrAgain (schem schem' : Schem) : Prop where
  idI : schem'.idI = schem.idI
  partCnt : schem'.partCnt = schem.partCnt
  used : ∀ i < schem.partCnt.toNat,
    schemPartIsUsedMbr (schem'.table i) = schemPartIsUsedMbr (schem.table i)
  part : ∀ i < schem.partCnt.toNat, schemPartIsUsedMbr (schem.table i) = true →
    (schem'.table i).typeI = (schem.table i).typeI ∧
      (schem'.table i).bootInd = (schem.table i).bootInd ∧
      (schem'.table i).startLba = (schem.table i).startLba ∧
      (schem'.table i).endLba = (schem.table i).endLba

/-- What is read of an entry, but for its addresses. -/
lemma mbrPartRead_of_holds {o : ℕ} {part : MbrPart} (h : Holds m o (mbrPartBytes part))
    (hstart : part.startLba.toNat < 2 ^ 32) (hsz : part.szLba.toNat < 2 ^ 32) :
    (mbrPartRead m o).bootInd = part.bootInd ∧ (mbrPartRead m o).type = part.type ∧
      (mbrPartRead m o).startLba = part.startLba ∧ (mbrPartRead m o).szLba = part.szLba := by
  simp only [mbrPartBytes, holds_append, List.length_append, length_leBytes,
    List.length_singleton, Nat.reduceAdd] at h
  obtain ⟨⟨⟨⟨⟨hboot, -⟩, htype⟩, -⟩, hstart'⟩, hsz'⟩ := h
  exact ⟨hboot.1, htype.1, readPu32_of_holds hstart' hstart, readPu32_of_holds hsz' hsz⟩

/-- The entry that is made of the bytes of a saved one. -/
lemma mbrToSchem_of_holds (h : schem.MbrFits) {i : ℕ} (hi : i < 4)
    (hm : Holds m (446 + 16 * i) (mbrPartBytes ((mbrFromSchem schem Mbr.zero ctx).partitions i))) :
    (schemPartIsUsedMbr (schem.table i) = true ∧
        (mbrToSchem (schemNew .mbr) (mbrRead m 0) ctx).table i =
          { SchemPart.zero with
            typeI := (schem.table i).typeI
            startLba := (schem.table i).startLba
            endLba := (schem.table i).endLba
            bootInd := (schem.table i).bootInd }) ∨
      (schemPartIsUsedMbr (schem.table i) = false ∧
        (mbrToSchem (schemNew .mbr) (mbrRead m 0) ctx).table i = SchemPart.zero) := by
  have hread : (mbrRead m 0).partitions i = mbrPartRead m (446 + 16 * i) := by
    simp only [mbrRead, hi, if_true, Nat.zero_add]
  have hcnt : i < mbrMaxPartCnt.toNat := hi
  have hentry := h.entry i
  by_cases hu : schemPartIsUsedMbr (schem.table i) = true
  · have hfrom : (mbrFromSchem schem Mbr.zero ctx).partitions i =
        mbrPartFromSchem (schem.table i) ctx := by
      simp only [mbrFromSchem, h.cnt]
      exact if_pos ⟨hi, hu⟩
    rw [hfrom] at hm
    obtain ⟨hboot, htype, hstart, hsz⟩ := mbrPartRead_of_holds hm hentry.startLba hentry.szLba
    have hused : mbrIsPartUsed (mbrPartRead m (446 + 16 * i)) = true := by
      rw [mbrIsPartUsed, htype]
      exact hu
    refine Or.inl ⟨hu, ?_⟩
    simp only [mbrToSchem, mbrInitSchem, hread]
    rw [if_pos ⟨hcnt, hused⟩, mbrPartToSchem, hboot, htype, hstart, hsz]
    have hend : (schem.table i).startLba +
        ((schem.table i).endLba - (schem.table i).startLba + 1) - 1 = (schem.table i).endLba := by
      grind
    simp only [mbrPartFromSchem, hend]
  · have hfrom : (mbrFromSchem schem Mbr.zero ctx).partitions i = ⟨0, 0, 0, 0, 0, 0⟩ := by
      simp only [mbrFromSchem]
      exact if_neg fun hc => hu hc.2
    rw [hfrom] at hm
    obtain ⟨-, htype, -, -⟩ := mbrPartRead_of_holds hm (by decide) (by decide)
    have hused : mbrIsPartUsed (mbrPartRead m (446 + 16 * i)) = false := by
      rw [mbrIsPartUsed, htype]
      rfl
    refine Or.inr ⟨by simpa using hu, ?_⟩
    simp only [mbrToSchem, mbrInitSchem, hread, hused, Bool.false_eq_true, and_false, if_false]
    rfl

/-- **An MBR that has been saved is found again**, wherever its bytes are still there. -/
lemma mbrFound_of_holds (h : schem.MbrFits)
    (hsig : Holds m 440 (leBytes 4 (mbrFromSchem schem Mbr.zero ctx).diskSig.toNat))
    (htail : Holds m 446 (mbrTail (mbrFromSchem schem Mbr.zero ctx))) :
    ∃ mbr, mbrFound m ctx = some mbr ∧ schem.MbrAgain mbr := by
  obtain ⟨hparts, -⟩ := holds_mbrTail htail
  have hcnt := h.cnt
  refine ⟨_, if_pos (mbrIsPresent_of_holds htail), readPu32_of_holds hsig h.idI,
    UInt64.toNat_inj.1 hcnt.symm, fun i hi => ?_, fun i hi hu => ?_⟩
  · rcases mbrToSchem_of_holds h (by omega) (hparts i (by omega)) with ⟨hu, he⟩ | ⟨hu, he⟩
    · rw [he]
      rfl
    · rw [he, hu]
      rfl
  · rcases mbrToSchem_of_holds h (by omega) (hparts i (by omega)) with ⟨-, he⟩ | ⟨hn, -⟩
    · rw [he]
      exact ⟨rfl, rfl, rfl, rfl⟩
    · exact absurd (hu.symm.trans hn) (by decide)

/-- Nothing that is stored behind the boot record disturbs it. -/
lemma mbrFound_of_save (hv : ctx.Valid) (h : schem.MbrFits) (m : Image) (ss : List Store)
    (hss : ∀ s ∈ ss, ctx.primHdrOff ≤ s.1) :
    ∃ mbr, mbrFound (stores (stores m (mbrWrite 0 (mbrFromSchem schem Mbr.zero ctx))) ss) ctx =
      some mbr ∧ schem.MbrAgain mbr := by
  have hsec : 512 ≤ ctx.primHdrOff := hv.layout.1
  obtain ⟨hsig, htail⟩ := holds_mbrWrite m (mbrFromSchem schem Mbr.zero ctx)
  refine mbrFound_of_holds h (hsig.stores fun s hs => ?_) (htail.stores fun s hs => ?_)
  · have := hss s hs
    rw [length_leBytes]
    omega
  · have := hss s hs
    rw [length_mbrTail]
    omega

/-! ## Contexts -/

/-- The context `sc'` has the schemes of `sc` again.  An MBR beside a GPT is compared only
if its first entry is protective. -/
structure SchemCtx.Again (sc sc' : SchemCtx) : Prop where
  type : schemCtxGetType sc' = schemCtxGetType sc
  gpt : ∀ gpt, sc.schemGpt = some gpt → ∃ gpt', sc'.schemGpt = some gpt' ∧ gpt.GptAgain gpt'
  noGpt : sc.schemGpt = none → sc'.schemGpt = none
  mbr : ∀ mbr, sc.schemMbr = some mbr → sc.schemGpt = none ∨ schemMbrIsProt mbr = true →
    ∃ mbr', sc'.schemMbr = some mbr' ∧ mbr.MbrAgain mbr'

lemma Schem.MbrAgain.prot (h : schem.MbrFits) (hagain : schem.MbrAgain schem')
    (hp : schemMbrIsProt schem = true) : schemMbrIsProt schem' = true := by
  have hcnt := h.cnt
  have htype : (schem.table 0).typeI = mbrPartTypeProt := eq_of_beq hp
  have hused : schemPartIsUsedMbr (schem.table 0) = true := by
    rw [schemPartIsUsedMbr, htype]
    decide
  rw [schemMbrIsProt, schemMbrPartIsProt, (hagain.part 0 (by omega) hused).1]
  exact hp

/-- A load that does not meet a fatal error leaves what it has found, with a protective MBR
beside a GPT. -/
lemma schemCtxLoad_found (hv : ctx.Valid) (hs : sys.Serves ctx) (sc : SchemCtx) (r : Rng)
    (hnf : (schemLoadGpt sys m (schemNew .gpt) ctx).1 ≠ .fatal) :
    (schemCtxLoad sys m sc ctx r).res = .ok ∧
      (schemCtxLoad sys m sc ctx r).sc.schemGpt = gptFound sys m ctx ∧
      (gptFound sys m ctx = none ∨ (∃ mbr, mbrFound m ctx = some mbr ∧ schemMbrIsProt mbr = true) →
        (schemCtxLoad sys m sc ctx r).sc.schemMbr = mbrFound m ctx) := by
  have hok := (schemCtxLoad_ok_iff hv hs sc r).2 hnf
  refine ⟨hok, (schemCtxLoad_spec hv hs sc r hok).schemGpt, ?_⟩
  rw [schemCtxLoad_eq hv hs sc r hnf]
  rcases schemCtxCheckProt_cases ctx _ with ⟨he, -⟩ | ⟨mbr, hmbr, hgpt, he⟩ <;> rw [he]
  · exact fun _ => rfl
  · -- the MBR is replaced only if it is not protective
    rintro (hg | ⟨mbr', hm, hp⟩)
    · exact absurd hg hgpt
    · rcases hmbr with ⟨hno, -⟩ | ⟨hm', hp'⟩
      · exact absurd (hm.symm.trans hno) (by simp)
      · obtain rfl := Option.some.inj (hm.symm.trans hm')
        exact absurd (hp.symm.trans hp') (by decide)

lemma gptFound_ok {gpt : Schem} (h : gptFound sys m ctx = some gpt) :
    (schemLoadGpt sys m (schemNew .gpt) ctx).1 = .ok := by
  rw [gptFound] at h
  split_ifs at h with hok
  exact hok

lemma gptFound_none (h : (schemLoadGpt sys m (schemNew .gpt) ctx).1 = .notFound) :
    gptFound sys m ctx = none := by
  rw [gptFound, if_neg (by rw [h]; decide)]

/-- What a save that succeeds has done. -/
lemma schemCtxSave_ok (h : (schemCtxSave sys sc ctx).res = .ok) :
    (∀ t, t = .mbr ∨ t = .gpt → (removal sys sc ctx t).1 = .ok ∧ (saving sys sc ctx t).1 = .ok) ∧
      (schemCtxSave sys sc ctx).stores = (removal sys sc ctx .mbr).2 ++
        (removal sys sc ctx .gpt).2 ++ (saving sys sc ctx .mbr).2 ++
        (saving sys sc ctx .gpt).2 := by
  rw [schemCtxSave_eq] at h ⊢
  split_ifs at h ⊢ with h1 h2 h3 h4
  refine ⟨?_, rfl⟩
  rintro t (rfl | rfl)
  · exact ⟨pres_ok_of_ne h1, pres_ok_of_ne h3⟩
  · exact ⟨pres_ok_of_ne h2, pres_ok_of_ne h4⟩

lemma LoadSpec.hasMbr (h : LoadSpec sys m ctx sc) (hf : sc.inImgMbr = true) :
    sc.schemMbr ≠ none := by
  rw [h.inImgMbr, Option.isSome_iff_ne_none] at hf
  rcases h.schemMbr with ⟨-, he⟩ | ⟨gpt, mbr, -, he, -⟩
  · rwa [he]
  · rw [he]
    exact Option.some_ne_none _

/-- The stores of a save of the MBR that succeeds. -/
lemma saving_mbr_stores (hwf : sc.WellFormed) (hm : sc.schemMbr = some schem)
    (hok : (saving sys sc ctx .mbr).1 = .ok) :
    (saving sys sc ctx .mbr).2 = mbrWrite 0 (mbrFromSchem schem Mbr.zero ctx) := by
  rw [saving_mbr hm (hwf.formed .mbr schem hm).funcs] at hok ⊢
  exact mbrSave_ok hok

/-- Where no GPT is found, a context without one is loaded if its MBR is found again. -/
lemma again_of_notFound (hv : ctx.Valid) (hs : sys.Serves ctx) (hg : sc.schemGpt = none)
    (hno : ∀ schem, (schemLoadGpt sys m schem ctx).1 = .notFound)
    (hmbr : Option.Rel Schem.MbrAgain sc.schemMbr (mbrFound m ctx)) (sc₁ : SchemCtx) (r : Rng) :
    (schemCtxLoad sys m sc₁ ctx r).res = .ok ∧ sc.Again (schemCtxLoad sys m sc₁ ctx r).sc := by
  have hgno : gptFound sys m ctx = none := gptFound_none (hno _)
  obtain ⟨hres, hgpt, hmb⟩ := schemCtxLoad_found hv hs sc₁ r (by rw [hno]; decide)
  rw [hgno] at hgpt
  replace hmb := hmb (Or.inl hgno)
  refine ⟨hres, ⟨?_, fun gpt hgs => ?_, fun _ => hgpt, fun mbr hm _ => ?_⟩⟩
  · rw [schemCtxGetType, schemCtxGetType, hgpt, hmb, hg, isSome_of_rel hmbr]
  · exact absurd (hg.symm.trans hgs) (by simp)
  · rw [hm, ← hmb] at hmbr
    generalize (schemCtxLoad sys m sc₁ ctx r).sc.schemMbr = found at hmbr
    cases hmbr with
    | some hagain => exact ⟨_, rfl, hagain⟩

section Reload

variable (hv : ctx.Valid) (hs : sys.Serves ctx) (hwf : sc.WellFormed) (hst : sc.Storable)
  (hsave : (schemCtxSave sys' sc ctx).res = .ok)
  (hrem : sc.inImgMbr = true → sc.schemMbr ≠ none)
include hv hs hwf hst hsave hrem

/-- A context with a GPT is loaded again. -/
lemma schemCtxLoad_of_save_gpt (hpg : sys'.pgSz = sys.pgSz) {gpt : Schem}
    (hg : sc.schemGpt = some gpt) (m : Image) (sc₁ : SchemCtx) (r : Rng) :
    let l := schemCtxLoad sys (stores m (schemCtxSave sys' sc ctx).stores) sc₁ ctx r
    l.res = .ok ∧ sc.Again l.sc := by
  obtain ⟨mbr, hm⟩ := Option.ne_none_iff_exists'.1 (hwf.mbr_of_gpt (by simp [hg]))
  obtain ⟨hops, hstores⟩ := schemCtxSave_ok hsave
  have hgf : gpt.GptFits := hst .gpt gpt hg
  have hmf : mbr.MbrFits := hst .mbr mbr hm
  have hokG := (hops .gpt (Or.inr rfl)).2
  have hsavG : saving sys' sc ctx .gpt = schemSaveGpt sys' gpt ctx :=
    saving_gpt hg (hwf.formed .gpt gpt hg).funcs
  have hremM : removal sys' sc ctx .mbr = (.ok, []) := if_neg fun hc => hrem hc.1 hc.2
  have hremG : removal sys' sc ctx .gpt = (.ok, []) :=
    if_neg fun hc => absurd (hg.symm.trans hc.2) (by simp)
  rw [hsavG] at hokG
  rw [hstores, hremM, hremG, saving_mbr_stores hwf hm (hops .mbr (Or.inl rfl)).2, hsavG,
    List.nil_append, List.nil_append, stores_append]
  obtain ⟨mbr', hm', hmagain⟩ := mbrFound_of_save hv hmf m (schemSaveGpt sys' gpt ctx).2
    fun s hs => mem_saving_gpt hv (fun g hg' => by
      obtain rfl := Option.some.inj (hg.symm.trans hg')
      exact ⟨(hwf.formed .gpt gpt hg).funcs, hgf.cnt⟩) (by rwa [hsavG])
  obtain ⟨gpt', hg', hgagain⟩ := gptFound_of_save hv hs hpg hgf hokG
    (stores m (mbrWrite 0 (mbrFromSchem mbr Mbr.zero ctx)))
  generalize stores (stores m (mbrWrite 0 (mbrFromSchem mbr Mbr.zero ctx)))
    (schemSaveGpt sys' gpt ctx).2 = m' at hm' hg' ⊢
  obtain ⟨hres, hgpt, hmbr⟩ := schemCtxLoad_found hv hs sc₁ r
    (by rw [gptFound_ok hg']; decide)
  refine ⟨hres, ⟨?_, fun g hgs => ?_, fun hn => ?_, fun b hb hor => ?_⟩⟩
  · rw [schemCtxGetType, schemCtxGetType, hgpt, hg', hg]
    rfl
  · obtain rfl := Option.some.inj (hg.symm.trans hgs)
    exact ⟨gpt', hgpt.trans hg', hgagain⟩
  · exact absurd (hg.symm.trans hn) (by simp)
  · obtain rfl := Option.some.inj (hm.symm.trans hb)
    have hp : schemMbrIsProt mbr = true := hor.resolve_left (by simp [hg])
    exact ⟨mbr', (hmbr (Or.inr ⟨mbr', hm', hmagain.prot hmf hp⟩)).trans hm', hmagain⟩

/-- A context without a GPT is loaded again, if behind the removal none is found and the
MBR does not bring one back. -/
lemma schemCtxLoad_of_save_mbr (hg : sc.schemGpt = none) {m : Image}
    (hmbr : sc.schemMbr = none → mbrIsPresent m 0 = false)
    (hnone : ∀ schem, (schemLoadGpt sys (stores m (removal sys' sc ctx .gpt).2) schem ctx).1 =
      .notFound)
    (hclear : sc.schemMbr ≠ none → ClearOfMbr (stores m (removal sys' sc ctx .gpt).2) ctx)
    (sc₁ : SchemCtx) (r : Rng) :
    let l := schemCtxLoad sys (stores m (schemCtxSave sys' sc ctx).stores) sc₁ ctx r
    l.res = .ok ∧ sc.Again l.sc := by
  obtain ⟨hops, hstores⟩ := schemCtxSave_ok hsave
  have hremM : removal sys' sc ctx .mbr = (.ok, []) := if_neg fun hc => hrem hc.1 hc.2
  rw [hstores, hremM, saving_none .gpt hg, List.append_nil, List.nil_append, stores_append]
  rcases hm : sc.schemMbr with _ | mbr
  · -- there is nothing to save, and nothing to find
    rw [saving_none .mbr hm, stores_nil]
    refine again_of_notFound hv hs hg hnone ?_ sc₁ r
    have hno : mbrFound (stores m (removal sys' sc ctx .gpt).2) ctx = none := by
      rw [mbrFound, not_present_of_stores hv (fun s hs => mem_removal_gpt hv hs) (hmbr hm)]
      rfl
    rw [hm, hno]
    exact .none
  · have hmf : mbr.MbrFits := hst .mbr mbr hm
    have hgone : GptGone sys (stores m (removal sys' sc ctx .gpt).2) ctx :=
      ⟨hnone, hclear (by simp [hm])⟩
    rw [saving_mbr_stores hwf hm (hops .mbr (Or.inl rfl)).2]
    obtain ⟨mbr', hm', hmagain⟩ := mbrFound_of_save hv hmf
      (stores m (removal sys' sc ctx .gpt).2) [] (by simp)
    rw [stores_nil] at hm'
    have hgone' : GptGone sys (stores (stores m (removal sys' sc ctx .gpt).2)
        (mbrWrite 0 (mbrFromSchem mbr Mbr.zero ctx))) ctx := by
      refine hgone.congr hv fun a ha => stores_of_forall_ne (fun s hs => ?_) _
      rintro rfl
      exact ha (mem_mbrWrite hs)
    refine again_of_notFound hv hs hg hgone'.notFound ?_ sc₁ r
    rw [hm, hm']
    exact .some hmagain

end Reload

/-! ## Runs -/

/-- **Saving and loading again over whole runs.**  Load an image, edit by any sequence of
commands on any input, and save: a load of the resulting image succeeds and finds the
context that was saved.  Where only an MBR is saved and no GPT had been found, no header of
the image may count bytes of the boot record among the entries of its table. -/
theorem schemCtxLoad_of_run (hctx : imgCtxValidate ctx = .ok) (hs : sys.Serves ctx)
    (hal : 1 ≤ ctx.align.toNat) (m : Image) (sc : SchemCtx) (r : Rng)
    (hload : (schemCtxLoad sys m sc ctx r).res = .ok) (inp : Input) (fuel : ℕ)
    (cmds : List (Sys × Char)) (hcmds : ∀ c ∈ cmds, c.2 ≠ 'w') {p : Prog}
    (hrun : runActions fuel ctx (startProg (schemCtxLoad sys m sc ctx r) inp m) cmds = some p)
    (hpg : sys'.pgSz = sys.pgSz) (hsave : (schemCtxSave sys' p.sc ctx).res = .ok)
    (hclear : schemCtxGetType p.sc = .mbr → p.sc.inImgGpt = false → ClearOfMbr m ctx)
    (sc₁ : SchemCtx) (r₁ : Rng) :
    let l := schemCtxLoad sys (stores p.img (schemCtxSave sys' p.sc ctx).stores) sc₁ ctx r₁
    l.res = .ok ∧ p.sc.Again l.sc := by
  have hv := (imgCtxValidate_ok_iff ctx).1 hctx
  have hspec := schemCtxLoad_spec hv hs sc r hload
  have hstart : (startProg (schemCtxLoad sys m sc ctx r) inp m).Unsaved
      (schemCtxLoad sys m sc ctx r).sc m := by
    rw [startProg]
    exact ⟨schemCtxLoad_wellFormed hload, hspec.storable hv, rfl, rfl, id⟩
  have hp := runActions_unsaved hv hal cmds hcmds hstart hrun
  have hinM : p.sc.inImgMbr = (schemCtxLoad sys m sc ctx r).sc.inImgMbr := congrFun hp.inImg .mbr
  have hinG : p.sc.inImgGpt = (schemCtxLoad sys m sc ctx r).sc.inImgGpt := congrFun hp.inImg .gpt
  have hrem : p.sc.inImgMbr = true → p.sc.schemMbr ≠ none :=
    fun hf => hp.hasMbr (hspec.hasMbr (hinM.symm.trans hf))
  rw [hp.img]
  cases hg : p.sc.schemGpt with
  | some gpt =>
    exact schemCtxLoad_of_save_gpt hv hs hp.wellFormed hp.storable hsave hrem hpg hg m sc₁ r₁
  | none =>
    -- either the GPT that was found is removed, or none was found
    have hcase : GptGone sys (stores m (removal sys' p.sc ctx .gpt).2) ctx ∨
        (p.sc.inImgGpt = false ∧ removal sys' p.sc ctx .gpt = (.ok, [])) := by
      have hokG := ((schemCtxSave_ok hsave).1 .gpt (Or.inr rfl)).1
      by_cases hf : p.sc.inImgGpt = true
      · have he : removal sys' p.sc ctx .gpt = schemRemoveGpt sys' ctx := if_pos ⟨hf, hg⟩
        rw [he] at hokG ⊢
        exact Or.inl (gptGone_of_remove hv hs hokG m)
      · exact Or.inr ⟨by simpa using hf, if_neg fun hc => hf hc.1⟩
    refine schemCtxLoad_of_save_mbr hv hs hp.wellFormed hp.storable hsave hrem hg (fun hm => ?_)
      ?_ (fun hm => ?_) sc₁ r₁
    · refine hspec.not_present ?_
      rw [← hinM]
      by_contra hf
      exact hrem (by simpa using hf) hm
    · rcases hcase with hgone | ⟨hf, he⟩
      · exact hgone.notFound
      · rw [he]
        exact hspec.notFound (hinG.symm.trans hf)
    · rcases hcase with hgone | ⟨hf, he⟩
      · exact hgone.clear
      · obtain ⟨mbr, hm⟩ := Option.ne_none_iff_exists'.1 hm
        rw [he]
        refine hclear ?_ hf
        rw [schemCtxGetType, hg, hm]
        rfl

/-! ## A new MBR on a small image -/

/-- A load that finds nothing. -/
lemma schemCtxLoad_nothing (hv : ctx.Valid) (hs : sys.Serves ctx)
    (hm : mbrIsPresent m 0 = false)
    (hg : (schemLoadGpt sys m (schemNew .gpt) ctx).1 = .notFound) (sc : SchemCtx) (r : Rng) :
    ∃ reads, schemCtxLoad sys m sc ctx r = ⟨.ok, schemCtxInit, r, reads⟩ := by
  have hno : mbrFound m ctx = none := by
    rw [mbrFound, hm]
    rfl
  rw [schemCtxLoad_eq hv hs sc r (by rw [hg]; decide), hno, gptFound_none hg]
  exact ⟨_, rfl⟩

/-- The context of a new MBR without entries. -/
def newMbrCtx : SchemCtx := (schemCtxNew schemCtxInit smallCtx .mbr zeroRng).2.1

/-- Its save writes a boot record of zeros. -/
lemma newMbrCtx_save : (schemCtxSave plainSys newMbrCtx smallCtx).res = .ok ∧
    (schemCtxSave plainSys newMbrCtx smallCtx).stores = mbrWrite 0 Mbr.zero := by
  have hv := (imgCtxValidate_ok_iff _).1 smallCtx_valid
  have hs : plainSys.Serves smallCtx := plainSys_serves (by decide)
  have hzero : mbrFromSchem (schemInitMbr (schemNew .mbr) smallCtx zeroRng).1 Mbr.zero smallCtx =
      Mbr.zero := by
    rw [mbrFromSchem, Mbr.mk.injEq]
    refine ⟨by decide, funext fun i => if_neg ?_⟩
    rintro ⟨-, hu⟩
    exact absurd (show schemPartIsUsedMbr SchemPart.zero = true from hu) (by decide)
  have hsav : saving plainSys newMbrCtx smallCtx .mbr = (.ok, mbrWrite 0 Mbr.zero) := by
    rw [← hzero, ← mbrSave_of_serves hv hs]
    rfl
  have hrem : ∀ t, removal plainSys newMbrCtx smallCtx t = (.ok, []) := by
    intro t
    cases t <;> rfl
  have hsavG : saving plainSys newMbrCtx smallCtx .gpt = (.ok, []) := rfl
  rw [schemCtxSave_eq, hrem, hrem, hsav, hsavG]
  exact ⟨rfl, by simp⟩

/-- A new MBR on an image of zeros is found again. -/
theorem schemCtxLoad_of_run_small :
    let l := schemCtxLoad plainSys (stores zeroImage
      (schemCtxSave plainSys newMbrCtx smallCtx).stores) schemCtxInit smallCtx zeroRng
    l.res = .ok ∧ newMbrCtx.Again l.sc := by
  have hv := (imgCtxValidate_ok_iff _).1 smallCtx_valid
  have hs : plainSys.Serves smallCtx := plainSys_serves (by decide)
  obtain ⟨reads, hl⟩ := schemCtxLoad_nothing hv hs (m := zeroImage) rfl
    (schemLoadGpt_of_zero hv hs (fun _ _ => rfl) _) schemCtxInit zeroRng
  have hclear : ClearOfMbr zeroImage smallCtx :=
    fun lba _ hdr hhdr => absurd hhdr (not_hdrAt_of_zero rfl hdr)
  exact schemCtxLoad_of_run smallCtx_valid hs (by decide) zeroImage
    schemCtxInit zeroRng (by rw [hl]) [] 0 [(plainSys, 'o')] (by decide)
    (p := ⟨newMbrCtx, .mbr, [], (schemNewInit .mbr smallCtx zeroRng).2, zeroImage⟩)
    (by rw [hl]; rfl) (show plainSys.pgSz = plainSys.pgSz from rfl) newMbrCtx_save.1
    (fun _ _ => hclear) schemCtxInit zeroRng

/-! ## A header over the boot record -/

/-- A header whose table of four entries begins at the boot record, up to its checksum. -/
def hiddenHdr₀ : GptHdr where
  rev := gptHdrRev
  hdrSz := gptHdrSz
  hdrCrc32 := 0
  myLba := 1
  altLba := 2047
  firstUsableLba := 34
  lastUsableLba := 2014
  diskGuid := Guid.zero
  partTableLba := 0
  partTableEntryCnt := 4
  partEntrySz := gptPartEntSz
  partTableCrc32 := gptTableCrcCreate gptTableZero 4

/-- The header with its checksum. -/
def hiddenHdr : GptHdr := { hiddenHdr₀ with hdrCrc32 := gptHdrCrcCreate hiddenHdr₀ }

/-- The small image with the header and nothing else. -/
def hiddenBase : Image := stores zeroImage (storeAt 512 (hdrBytes hiddenHdr))

/-- The same with a disk signature, which the checksum of the table does not allow for. -/
def hiddenImage : Image := Function.update hiddenBase 440 1

lemma hiddenHdr_bounded : hiddenHdr.Bounded where
  rev := show gptHdrRev.toNat < 2 ^ 32 by decide
  hdrSz := show gptHdrSz.toNat < 2 ^ 32 by decide
  hdrCrc32 := gptHdrCrcCreate_lt hiddenHdr₀
  diskGuid := show Guid.zero.timeLo.toNat < 2 ^ 32 by decide
  partTableEntryCnt := show (4 : UInt64).toNat < 2 ^ 32 by decide
  partEntrySz := show gptPartEntSz.toNat < 2 ^ 32 by decide
  partTableCrc32 := gptTableCrcCreate_lt _ _

lemma hiddenHdr_ok : CopyOk plainSys smallCtx hiddenHdr gptTableZero where
  bounded := hiddenHdr_bounded
  crc := (gptHdrCrcCreate_setCrc hiddenHdr₀ _).symm
  inside := inside_one ((imgCtxValidate_ok_iff _).1 smallCtx_valid)
  cnt := show (4 : UInt64).toNat ≤ 128 by decide
  entrySz := rfl
  tableInside := by
    show smallCtx.Inside 0 (byteToLba smallCtx (4 * gptPartEntSz) true)
    rw [ImgCtx.Inside]
    decide
  window := by
    have hv := (imgCtxValidate_ok_iff _).1 smallCtx_valid
    have hcnt : hiddenHdr.partTableEntryCnt = 4 := rfl
    rw [tableWindow_iff hv _ (by rw [hcnt]; decide) rfl, hcnt]
    exact Or.inl (by decide)
  codable := fun _ _ => zero_codable
  tableCrc := rfl

lemma entPacked_zero : entPacked GptPartEnt.zero = List.replicate 93 0 := by decide

/-- Where the header is there and the entries are zero, the copy is. -/
lemma hidden_copyAt {m : Image} (hhdr : Holds m 512 (hdrBytes hiddenHdr))
    (hzero : ∀ a < 477, m a = 0) : CopyAt plainSys m smallCtx 1 hiddenHdr gptTableZero := by
  refine hiddenHdr_ok.copyAt hhdr fun i hi => ?_
  have hlt : i < 4 := hi
  rw [show smallCtx.off hiddenHdr.partTableLba = 0 from rfl, gptTableZero, entPacked_zero,
    holds_replicate]
  exact fun a _ h2 => hzero a (by omega)

lemma hiddenBase_holds : Holds hiddenBase 512 (hdrBytes hiddenHdr) := holds_stores_storeAt _ _ _

/-- Everything but the header is zero. -/
lemma hiddenBase_zero {a : ℕ} (ha : a < 512 ∨ 604 ≤ a) : hiddenBase a = 0 := by
  refine stores_of_forall_ne (fun s hs => ?_) zeroImage
  have := mem_storeAt_hdrBytes hs
  omega

lemma hiddenImage_zero {a : ℕ} (ha : a ≠ 440 ∧ (a < 512 ∨ 604 ≤ a)) : hiddenImage a = 0 := by
  rw [hiddenImage, Function.update_of_ne ha.1, hiddenBase_zero ha.2]

/-- The image after the save of a new MBR: the disk signature is gone. -/
lemma hiddenImage_saved : Holds (stores hiddenImage (mbrWrite 0 Mbr.zero)) 512
      (hdrBytes hiddenHdr) ∧
    (∀ a < 477, stores hiddenImage (mbrWrite 0 Mbr.zero) a = 0) ∧
    ∀ a, 604 ≤ a → stores hiddenImage (mbrWrite 0 Mbr.zero) a = 0 := by
  have hout : ∀ a, ¬ InMbr a → stores hiddenImage (mbrWrite 0 Mbr.zero) a = hiddenBase a := by
    intro a ha
    rw [stores_of_forall_ne (fun s hs => ?_) hiddenImage]
    · refine Function.update_of_ne ?_ _ _
      rintro rfl
      exact ha (Or.inl (by decide))
    · rintro rfl
      exact ha (mem_mbrWrite hs)
  obtain ⟨hsig, htail⟩ := holds_mbrWrite hiddenImage Mbr.zero
  have hsig' : leBytes 4 Mbr.zero.diskSig.toNat = List.replicate 4 0 := by decide
  have htail' : mbrTail Mbr.zero = List.replicate 64 0 ++ leBytes 2 mbrBootSig.toNat := by decide
  rw [hsig', holds_replicate] at hsig
  rw [htail', holds_append, holds_replicate] at htail
  refine ⟨hiddenBase_holds.congr fun a h1 _ => hout a ?_, fun a ha => ?_, fun a ha => ?_⟩
  · rintro (h | h) <;> omega
  · by_cases hin : InMbr a
    · rcases hin with ⟨h1, h2⟩ | ⟨h1, -⟩
      · exact hsig a h1 h2
      · exact htail.1 a h1 (by omega)
    · rw [hout a hin, hiddenBase_zero (Or.inl (by omega))]
  · rw [hout a (by rintro (h | h) <;> omega), hiddenBase_zero (Or.inr ha)]

/-- At the last sector there is no header, as long as the sector is zero. -/
lemma hidden_sec {m : Image} (hzero : ∀ a, 604 ≤ a → m a = 0) :
    (loadCopy plainSys m smallCtx (imgLastLba smallCtx)).res = .hdrInv := by
  have hv := (imgCtxValidate_ok_iff _).1 smallCtx_valid
  have hoff : 604 ≤ smallCtx.off (imgLastLba smallCtx) := by decide
  exact gptPairLoad_hdrInv hv (plainSys_serves (by decide)) (imgLastLba_inside hv)
    (not_hdrAt_of_zero (hzero _ hoff))

/-- With the disk signature the copy is given up. -/
lemma hiddenImage_prim : (loadCopy plainSys hiddenImage smallCtx 1).res = .hdrInv ∨
    (loadCopy plainSys hiddenImage smallCtx 1).res = .tableInv := by
  have hv := (imgCtxValidate_ok_iff _).1 smallCtx_valid
  have hs : plainSys.Serves smallCtx := plainSys_serves (by decide)
  have hcopy := hidden_copyAt hiddenBase_holds fun a ha => hiddenBase_zero (Or.inl (by omega))
  refine (hcopy.damage hv hs (Or.inr (by decide)) 440 1).resolve_left fun hl => ?_
  -- the last entry would have a name of one character
  have hhdr : HdrAt hiddenImage smallCtx 1 hiddenHdr := by
    have hoff : smallCtx.off 1 = 512 := rfl
    refine hcopy.toHdrAt.congr ?_ ?_ <;>
      exact loadAt_update_of_lt hiddenBase 1 (Or.inl (by omega))
  obtain ⟨-, -, htab⟩ := gptPairLoad_table hv hs hcopy.inside hhdr hcopy.cnt hcopy.tableInside
    hcopy.window GptHdr.zero gptTableZero
  have hthree : (3 : ℕ) < hiddenHdr.partTableEntryCnt.toNat := show 3 < (4 : UInt64).toNat by decide
  have hent := hl.tableEq 3 hthree
  rw [loadCopy, ← hiddenImage, htab, tableOf_of_lt hcopy.cnt hcopy.entrySz hthree] at hent
  have hname : (readPu16 hiddenImage 440).toUInt64 = 0 := congrArg (fun e => e.name 0) hent
  have h0 : hiddenImage 440 = 1 := Function.update_self _ _ _
  have h1 : hiddenImage 441 = 0 := hiddenImage_zero (by decide)
  simp only [readPu16, h0, h1] at hname
  exact absurd hname (by decide)

lemma hiddenImage_notFound (schem : Schem) :
    (schemLoadGpt plainSys hiddenImage schem smallCtx).1 = .notFound := by
  have hsec : (loadCopy plainSys hiddenImage smallCtx (imgLastLba smallCtx)).res = .hdrInv :=
    hidden_sec fun a ha => hiddenImage_zero ⟨by omega, Or.inr ha⟩
  refine schemLoadGpt_notFound schem ?_ ?_ (by rw [hsec]; decide) (by rw [hsec]; decide)
  all_goals
    rcases hiddenImage_prim with h | h <;> rw [h] <;> decide

/-- **A new MBR may bring a GPT back.**  The load of the image finds nothing; a new MBR is
made and saved, and with its disk signature of zero the hidden table passes its check. -/
theorem schemCtxLoad_of_run_hidden :
    (schemCtxLoad plainSys hiddenImage schemCtxInit smallCtx zeroRng).res = .ok ∧
    ∃ p, runActions 0 smallCtx (startProg
        (schemCtxLoad plainSys hiddenImage schemCtxInit smallCtx zeroRng) [] hiddenImage)
        [(plainSys, 'o')] = some p ∧
      (schemCtxSave plainSys p.sc smallCtx).res = .ok ∧ schemCtxGetType p.sc = .mbr ∧
      let l := schemCtxLoad plainSys
        (stores p.img (schemCtxSave plainSys p.sc smallCtx).stores) schemCtxInit smallCtx zeroRng
      l.res = .ok ∧ schemCtxGetType l.sc = .gpt := by
  have hv := (imgCtxValidate_ok_iff _).1 smallCtx_valid
  have hs : plainSys.Serves smallCtx := plainSys_serves (by decide)
  have hpres : mbrIsPresent hiddenImage 0 = false := by
    have h0 : hiddenImage 510 = 0 := hiddenImage_zero (by decide)
    have h1 : hiddenImage 511 = 0 := hiddenImage_zero (by decide)
    simp only [mbrIsPresent, readPu16, h0, h1]
    decide
  obtain ⟨reads, hl⟩ := schemCtxLoad_nothing hv hs hpres (hiddenImage_notFound _) schemCtxInit
    zeroRng
  rw [hl]
  refine ⟨rfl, ⟨newMbrCtx, .mbr, [], (schemNewInit .mbr smallCtx zeroRng).2, hiddenImage⟩, rfl,
    newMbrCtx_save.1, rfl, ?_⟩
  rw [newMbrCtx_save.2]
  obtain ⟨hhdr, hlow, hhigh⟩ := hiddenImage_saved
  generalize stores hiddenImage (mbrWrite 0 Mbr.zero) = m' at hhdr hlow hhigh
  have hload : Loaded (loadCopy plainSys m' smallCtx 1) hiddenHdr gptTableZero :=
    (hidden_copyAt hhdr hlow).loaded hv hs _ _
  have hfound := (schemLoadGpt_prim (schemNew .gpt) hload (by
    rw [show hiddenHdr.altLba = imgLastLba smallCtx from rfl, hidden_sec hhigh]
    decide)).1
  obtain ⟨hres, hgpt, -⟩ := schemCtxLoad_found hv hs schemCtxInit zeroRng
    (by rw [hfound]; decide)
  refine ⟨hres, ?_⟩
  rw [schemCtxGetType, hgpt, gptFound, if_pos hfound]
  rfl

end Partman

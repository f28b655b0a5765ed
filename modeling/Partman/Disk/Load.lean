/-
# Loading a GPT from its two copies

The primary copy wins; without it the secondary one is taken from the last sector.  What
the unified structure receives depends only on four fields of the header and on the
entries that the header counts.
-/
import Partman.Disk.Copy

namespace Partman

open Lib

variable {sys : Sys} {ctx : ImgCtx} {m : Image} {hdr : GptHdr} {table : GptTable}

/-- The scheme that a copy stands for. -/
def schemOfCopy (schem : Schem) (hdr : GptHdr) (table : GptTable) : Schem :=
  gptToSchem schem ⟨hdr, table, hdr, table⟩

/-- Only four fields of the header and the counted entries matter. -/
lemma gptToSchem_congr {schem : Schem} {gpt gpt' : Gpt}
    (hcnt : gpt.hdrPrim.partTableEntryCnt = gpt'.hdrPrim.partTableEntryCnt)
    (hguid : gpt.hdrPrim.diskGuid = gpt'.hdrPrim.diskGuid)
    (hfirst : gpt.hdrPrim.firstUsableLba = gpt'.hdrPrim.firstUsableLba)
    (hlast : gpt.hdrPrim.lastUsableLba = gpt'.hdrPrim.lastUsableLba)
    (htab : ∀ i < gpt.hdrPrim.partTableEntryCnt.toNat, gpt.tablePrim i = gpt'.tablePrim i) :
    gptToSchem schem gpt = gptToSchem schem gpt' := by
  have htable : (gptToSchem schem gpt).table = (gptToSchem schem gpt').table := by
    funext i
    simp only [gptToSchem, ← hcnt]
    split
    · next hi => rw [htab i hi]
    · rfl
  simp only [gptToSchem, Schem.mk.injEq, true_and, and_true]
  exact ⟨hguid, hfirst, hlast, hcnt, htable⟩

/-- The load of the copy whose header is at the given sector. -/
def loadCopy (sys : Sys) (m : Image) (ctx : ImgCtx) (lba : Plba) : GptPairLoad :=
  gptPairLoad sys m GptHdr.zero gptTableZero ctx lba

/-- The sector of the secondary header that `gpt_load` tries. -/
def secLba (sys : Sys) (m : Image) (ctx : ImgCtx) : Plba := gptLbaSec ctx (loadCopy sys m ctx 1)

/-- The structure that the two loads have filled. -/
def loadedGpt (prim sec : GptPairLoad) : Gpt := ⟨prim.hdr, prim.table, sec.hdr, sec.table⟩

/-- `gpt_load` by the results of the two loads. -/
lemma gptLoad_eq (sys : Sys) (m : Image) (ctx : ImgCtx) : gptLoad sys m Gpt.zero ctx =
    if (loadCopy sys m ctx 1).res = .fatal then
      (.fatal,
        ⟨(loadCopy sys m ctx 1).hdr, (loadCopy sys m ctx 1).table, GptHdr.zero, gptTableZero⟩,
        (loadCopy sys m ctx 1).reads)
    else if (loadCopy sys m ctx (secLba sys m ctx)).res = .fatal then
      (.fatal, loadedGpt (loadCopy sys m ctx 1) (loadCopy sys m ctx (secLba sys m ctx)),
        (loadCopy sys m ctx 1).reads ++ (loadCopy sys m ctx (secLba sys m ctx)).reads)
    else
      ((gptLoadPair ctx (loadCopy sys m ctx 1).res (loadCopy sys m ctx (secLba sys m ctx)).res
          (loadedGpt (loadCopy sys m ctx 1) (loadCopy sys m ctx (secLba sys m ctx)))).1,
        (gptLoadPair ctx (loadCopy sys m ctx 1).res (loadCopy sys m ctx (secLba sys m ctx)).res
          (loadedGpt (loadCopy sys m ctx 1) (loadCopy sys m ctx (secLba sys m ctx)))).2,
        (loadCopy sys m ctx 1).reads ++ (loadCopy sys m ctx (secLba sys m ctx)).reads) := rfl

lemma gptLoadPair_ok_ok (ctx : ImgCtx) (gpt : Gpt) :
    gptLoadPair ctx .ok .ok gpt = (.ok, gpt) := rfl

lemma gptLoadPair_ok_bad {res : GptPairLoadRes} (h : res ≠ .ok) (gpt : Gpt) :
    gptLoadPair ctx .ok res gpt =
      (.ok, gptRestore gpt (gpt.hdrPrim.altLba - gptTableSzSecs ctx gpt.hdrPrim) false) := by
  simp [gptLoadPair, h]

lemma gptLoadPair_bad_ok {res : GptPairLoadRes} (h : res ≠ .ok) (gpt : Gpt) :
    gptLoadPair ctx res .ok gpt = (.ok, gptRestore gpt (gpt.hdrSec.altLba + 1) true) := by
  simp [gptLoadPair, h]

lemma gptLoadPair_bad_bad {res res' : GptPairLoadRes} (h : res ≠ .ok) (h' : res' ≠ .ok)
    (gpt : Gpt) : gptLoadPair ctx res res' gpt = (.notFound, gpt) := by
  simp [gptLoadPair, h, h']

lemma secLba_of_ok (h : (loadCopy sys m ctx 1).res = .ok) :
    secLba sys m ctx = (loadCopy sys m ctx 1).hdr.altLba := by
  rw [secLba, gptLbaSec, if_pos h]

lemma secLba_of_not_ok (h : (loadCopy sys m ctx 1).res ≠ .ok) :
    secLba sys m ctx = imgLastLba ctx := by
  rw [secLba, gptLbaSec, if_neg h]

lemma schemLoadGpt_fatal_prim (schem : Schem) (hp : (loadCopy sys m ctx 1).res = .fatal) :
    (schemLoadGpt sys m schem ctx).1 = .fatal := by
  rw [schemLoadGpt]
  simp [gptLoad_eq, hp]

lemma schemLoadGpt_fatal_sec (schem : Schem)
    (hsec : (loadCopy sys m ctx (secLba sys m ctx)).res = .fatal) :
    (schemLoadGpt sys m schem ctx).1 = .fatal := by
  by_cases hp : (loadCopy sys m ctx 1).res = .fatal
  · exact schemLoadGpt_fatal_prim schem hp
  · rw [schemLoadGpt, gptLoad_eq, if_neg hp, if_pos hsec]
    rfl

/-- A load that is not fatal has met neither of the two fatal errors. -/
lemma schemLoadGpt_not_fatal {schem : Schem} (h : (schemLoadGpt sys m schem ctx).1 ≠ .fatal) :
    (loadCopy sys m ctx 1).res ≠ .fatal ∧
      (loadCopy sys m ctx (secLba sys m ctx)).res ≠ .fatal :=
  ⟨mt (schemLoadGpt_fatal_prim schem) h, mt (schemLoadGpt_fatal_sec schem) h⟩

/-- A primary copy that loads decides, as long as the secondary load is not fatal. -/
lemma schemLoadGpt_prim (schem : Schem) (hp : Loaded (loadCopy sys m ctx 1) hdr table)
    (hsec : (loadCopy sys m ctx hdr.altLba).res ≠ .fatal) :
    (schemLoadGpt sys m schem ctx).1 = .ok ∧
      (schemLoadGpt sys m schem ctx).2.1 = schemOfCopy schem hdr table := by
  have hview : ∀ gpt : Gpt, gpt.hdrPrim = (loadCopy sys m ctx 1).hdr →
      gpt.tablePrim = (loadCopy sys m ctx 1).table →
      gptToSchem schem gpt = schemOfCopy schem hdr table := by
    intro gpt h1 h2
    rw [hp.hdrEq] at h1
    refine gptToSchem_congr (by rw [h1]) (by rw [h1]) (by rw [h1]) (by rw [h1]) fun i hi => ?_
    rw [h1] at hi
    rw [h2, hp.tableEq i hi]
  have hpf : (loadCopy sys m ctx 1).res ≠ .fatal := by
    rw [hp.res]
    decide
  rw [schemLoadGpt, gptLoad_eq, if_neg hpf, secLba_of_ok hp.res, hp.hdrEq, if_neg hsec, hp.res]
  by_cases hs : (loadCopy sys m ctx hdr.altLba).res = .ok
  · rw [hs]
    exact ⟨rfl, hview _ rfl rfl⟩
  · -- the secondary copy is replaced by one that nothing reads
    rw [gptLoadPair_ok_bad hs]
    exact ⟨rfl, hview _ rfl rfl⟩

/-- Without a primary copy the one at the last sector is restored. -/
lemma schemLoadGpt_sec (schem : Schem) (hp : (loadCopy sys m ctx 1).res ≠ .ok)
    (hpf : (loadCopy sys m ctx 1).res ≠ .fatal)
    (hs : Loaded (loadCopy sys m ctx (imgLastLba ctx)) hdr table) :
    (schemLoadGpt sys m schem ctx).1 = .ok ∧
      (schemLoadGpt sys m schem ctx).2.1 = schemOfCopy schem hdr table := by
  have hsf : (loadCopy sys m ctx (imgLastLba ctx)).res ≠ .fatal := by
    rw [hs.res]
    decide
  -- the restored header differs only in its places and its checksum
  have hview : ∀ lba, gptToSchem schem (gptRestore
      (loadedGpt (loadCopy sys m ctx 1) (loadCopy sys m ctx (imgLastLba ctx))) lba true) =
      schemOfCopy schem hdr table := by
    intro lba
    have hhdr : (gptRestore (loadedGpt (loadCopy sys m ctx 1)
        (loadCopy sys m ctx (imgLastLba ctx))) lba true).hdrPrim = gptRestoreHdr hdr lba := by
      rw [← hs.hdrEq]
      rfl
    refine gptToSchem_congr (by rw [hhdr]; rfl) (by rw [hhdr]; rfl) (by rw [hhdr]; rfl)
      (by rw [hhdr]; rfl) fun i hi => ?_
    rw [hhdr] at hi
    have htab : (gptRestore (loadedGpt (loadCopy sys m ctx 1)
        (loadCopy sys m ctx (imgLastLba ctx))) lba true).tablePrim i =
        (loadCopy sys m ctx (imgLastLba ctx)).table i := by
      have hlt : i < (loadCopy sys m ctx (imgLastLba ctx)).hdr.partTableEntryCnt.toNat := by
        rw [hs.hdrEq]
        exact hi
      simp [gptRestore, gptRestoreTable, loadedGpt, hlt]
    rw [htab, hs.tableEq i hi]
  rw [schemLoadGpt]
  rw [gptLoad_eq, if_neg hpf, secLba_of_not_ok hp, if_neg hsf, hs.res, gptLoadPair_bad_ok hp]
  exact ⟨rfl, hview _⟩

/-- The scheme of a load that succeeds comes from the primary copy, or without it from the
one at the last sector. -/
lemma schemLoadGpt_cases {schem : Schem} (h : (schemLoadGpt sys m schem ctx).1 = .ok) :
    ((loadCopy sys m ctx 1).res = .ok ∧ (schemLoadGpt sys m schem ctx).2.1 =
        schemOfCopy schem (loadCopy sys m ctx 1).hdr (loadCopy sys m ctx 1).table) ∨
      ((loadCopy sys m ctx 1).res ≠ .ok ∧ (loadCopy sys m ctx (imgLastLba ctx)).res = .ok ∧
        (schemLoadGpt sys m schem ctx).2.1 = schemOfCopy schem
          (loadCopy sys m ctx (imgLastLba ctx)).hdr
          (loadCopy sys m ctx (imgLastLba ctx)).table) := by
  obtain ⟨hpf, hsf⟩ := schemLoadGpt_not_fatal (by rw [h]; decide)
  by_cases hp : (loadCopy sys m ctx 1).res = .ok
  · rw [secLba_of_ok hp] at hsf
    exact Or.inl ⟨hp, (schemLoadGpt_prim schem ⟨hp, rfl, fun _ _ => rfl⟩ hsf).2⟩
  · rw [secLba_of_not_ok hp] at hsf
    by_cases hs : (loadCopy sys m ctx (imgLastLba ctx)).res = .ok
    · exact Or.inr ⟨hp, hs, (schemLoadGpt_sec schem hp hpf ⟨hs, rfl, fun _ _ => rfl⟩).2⟩
    · rw [schemLoadGpt] at h
      rw [gptLoad_eq, if_neg hpf, secLba_of_not_ok hp, if_neg hsf, gptLoadPair_bad_bad hp hs] at h
      exact absurd h (by simp)

/-- Neither copy loads, and neither load is fatal. -/
lemma schemLoadGpt_notFound (schem : Schem) (hp : (loadCopy sys m ctx 1).res ≠ .ok)
    (hpf : (loadCopy sys m ctx 1).res ≠ .fatal)
    (hs : (loadCopy sys m ctx (imgLastLba ctx)).res ≠ .ok)
    (hsf : (loadCopy sys m ctx (imgLastLba ctx)).res ≠ .fatal) :
    (schemLoadGpt sys m schem ctx).1 = .notFound := by
  rw [schemLoadGpt]
  rw [gptLoad_eq, if_neg hpf, secLba_of_not_ok hp, if_neg hsf, gptLoadPair_bad_bad hp hs]
  rfl

end Partman

/-
# Saving and loading a whole context

A save of a context goes through four operations, any of which may end it, and a load
makes at most one scheme of each type.  Both are brought into the form that the
statements about runs use: the flags, the schemes and the stores of every outcome.
-/
import Partman.Disk.Reads
import Partman.Disk.Remove

namespace Partman

open Lib

variable {sys : Sys} {ctx : ImgCtx} {m m' : Image} {sc : SchemCtx} {lba : Plba}

/-! ## Saving -/

/-- The removal of a scheme that is in the image and not in the context. -/
def removal (sys : Sys) (sc : SchemCtx) (ctx : ImgCtx) (t : SchemType) : Pres × List Store :=
  if sc.schemesInImg t = true ∧ sc.schemes t = none then funcsRemove t sys ctx else (.ok, [])

/-- The save of a scheme that is in the context. -/
def saving (sys : Sys) (sc : SchemCtx) (ctx : ImgCtx) (t : SchemType) : Pres × List Store :=
  match sc.schemes t with
  | none => (.ok, [])
  | some schem => funcsSave schem.funcs sys schem ctx

lemma saving_none (t : SchemType) (h : sc.schemes t = none) :
    saving sys sc ctx t = (.ok, []) := by
  rw [saving, h]

lemma saving_mbr {mbr : Schem} (h : sc.schemMbr = some mbr) (hf : mbr.funcs = .mbr) :
    saving sys sc ctx .mbr = mbrSave sys (mbrFromSchem mbr Mbr.zero ctx) ctx := by
  simp only [saving, SchemCtx.schemes, h, hf]
  rfl

lemma saving_gpt {gpt : Schem} (h : sc.schemGpt = some gpt) (hf : gpt.funcs = .gpt) :
    saving sys sc ctx .gpt = schemSaveGpt sys gpt ctx := by
  simp only [saving, SchemCtx.schemes, h, hf]
  rfl

lemma schemCtxRemoveOne_eq (sys : Sys) (ctx : ImgCtx) {t : SchemType} (s : CtxSave)
    (hs : s.res = .ok) : schemCtxRemoveOne sys ctx t s =
      ⟨(removal sys s.sc ctx t).1,
        if (removal sys s.sc ctx t).1 = .fail then s.sc else s.sc.setInImg t false,
        s.stores ++ (removal sys s.sc ctx t).2⟩ := by
  obtain ⟨res, sc, ss⟩ := s
  obtain rfl : res = .ok := hs
  have hself : sc.schemesInImg t = false → sc.setInImg t false = sc := by
    obtain ⟨M, G, mf, gf⟩ := sc
    intro h
    cases t with
    | mbr =>
      obtain rfl : mf = false := h
      rfl
    | gpt =>
      obtain rfl : gf = false := h
      rfl
    | cnt => rfl
  rw [schemCtxRemoveOne, removal]
  cases hf : sc.schemesInImg t with
  | false => simp [hself hf]
  | true =>
    cases hsch : sc.schemes t with
    | some schem => simp
    | none =>
      rcases hr : funcsRemove t sys ctx with ⟨_ | _, ss'⟩ <;> simp

lemma schemCtxSaveOne_eq (sys : Sys) (ctx : ImgCtx) {t : SchemType} (s : CtxSave)
    (hs : s.res = .ok) : schemCtxSaveOne sys ctx t s =
      ⟨(saving sys s.sc ctx t).1,
        if (saving sys s.sc ctx t).1 = .fail ∨ s.sc.schemes t = none then s.sc
          else s.sc.setInImg t true,
        s.stores ++ (saving sys s.sc ctx t).2⟩ := by
  obtain ⟨res, sc, ss⟩ := s
  obtain rfl : res = .ok := hs
  rw [schemCtxSaveOne, saving]
  cases hsch : sc.schemes t with
  | none => simp
  | some schem =>
    rcases hr : funcsSave schem.funcs sys schem ctx with ⟨_ | _, ss'⟩ <;> simp [hr]

/-- **What a save of a context does**: it stops at the first operation that fails. -/
lemma schemCtxSave_eq (sys : Sys) (sc : SchemCtx) (ctx : ImgCtx) : schemCtxSave sys sc ctx =
    if (removal sys sc ctx .mbr).1 = .fail then ⟨.fail, sc, (removal sys sc ctx .mbr).2⟩
    else if (removal sys sc ctx .gpt).1 = .fail then
      ⟨.fail, { sc with inImgMbr := false },
        (removal sys sc ctx .mbr).2 ++ (removal sys sc ctx .gpt).2⟩
    else if (saving sys sc ctx .mbr).1 = .fail then
      ⟨.fail, { sc with inImgMbr := false, inImgGpt := false },
        (removal sys sc ctx .mbr).2 ++ (removal sys sc ctx .gpt).2 ++ (saving sys sc ctx .mbr).2⟩
    else if (saving sys sc ctx .gpt).1 = .fail then
      ⟨.fail, { sc with inImgMbr := sc.schemMbr.isSome, inImgGpt := false },
        (removal sys sc ctx .mbr).2 ++ (removal sys sc ctx .gpt).2 ++ (saving sys sc ctx .mbr).2 ++
          (saving sys sc ctx .gpt).2⟩
    else
      ⟨imgCtxSync sys,
        { sc with inImgMbr := sc.schemMbr.isSome, inImgGpt := sc.schemGpt.isSome },
        (removal sys sc ctx .mbr).2 ++ (removal sys sc ctx .gpt).2 ++ (saving sys sc ctx .mbr).2 ++
          (saving sys sc ctx .gpt).2⟩ := by
  have hok : ∀ {p : Pres}, p ≠ .fail → p = .ok := by
    intro p hp
    cases p with
    | fail => exact absurd rfl hp
    | ok => rfl
  -- neither resetting nor setting a flag changes what the later operations do
  have hrem : removal sys { sc with inImgMbr := false } ctx .gpt = removal sys sc ctx .gpt := rfl
  have hsav : ∀ a b t, saving sys { sc with inImgMbr := a, inImgGpt := b } ctx t =
      saving sys sc ctx t := by
    intro a b t
    cases t <;> rfl
  unfold schemCtxSave CtxSave.andThen
  rw [schemCtxRemoveOne_eq sys ctx ⟨.ok, sc, []⟩ rfl]
  by_cases h1 : (removal sys sc ctx .mbr).1 = .fail
  · simp [h1]
  have h1' := hok h1
  simp only [h1', if_false, reduceCtorEq, List.nil_append, SchemCtx.setInImg]
  rw [schemCtxRemoveOne_eq sys ctx _ rfl]
  simp only [hrem, SchemCtx.setInImg]
  by_cases h2 : (removal sys sc ctx .gpt).1 = .fail
  · simp [h2]
  have h2' := hok h2
  simp only [h2', if_false, reduceCtorEq]
  rw [schemCtxSaveOne_eq sys ctx _ rfl]
  simp only [hsav, SchemCtx.schemes, SchemCtx.setInImg]
  by_cases h3 : (saving sys sc ctx .mbr).1 = .fail
  · simp [h3]
  have h3' := hok h3
  simp only [h3', if_false, reduceCtorEq, false_or]
  have hset : (if sc.schemMbr = none then { sc with inImgMbr := false, inImgGpt := false }
      else { sc with inImgMbr := true, inImgGpt := false }) =
      { sc with inImgMbr := sc.schemMbr.isSome, inImgGpt := false } := by
    cases sc.schemMbr <;> rfl
  rw [schemCtxSaveOne_eq sys ctx _ rfl]
  simp only [hset, hsav, SchemCtx.setInImg, SchemCtx.schemes]
  by_cases h4 : (saving sys sc ctx .gpt).1 = .fail
  · simp [h4]
  have h4' := hok h4
  simp only [h4', if_false, reduceCtorEq, false_or]
  cases hg : sc.schemGpt <;> rfl

/-! ## Loading -/

/-- The MBR that a load finds. -/
def mbrFound (m : Image) (ctx : ImgCtx) : Option Schem :=
  if mbrIsPresent m 0 then some (mbrToSchem (schemNew .mbr) (mbrRead m 0) ctx) else none

/-- The GPT that a load finds. -/
def gptFound (sys : Sys) (m : Image) (ctx : ImgCtx) : Option Schem :=
  if (schemLoadGpt sys m (schemNew .gpt) ctx).1 = .ok then
    some (schemLoadGpt sys m (schemNew .gpt) ctx).2.1
  else none

/-- What a load that succeeds leaves in the context. -/
structure LoadSpec (sys : Sys) (m : Image) (ctx : ImgCtx) (sc : SchemCtx) : Prop where
  inImgMbr : sc.inImgMbr = (mbrFound m ctx).isSome
  inImgGpt : sc.inImgGpt = (gptFound sys m ctx).isSome
  schemGpt : sc.schemGpt = gptFound sys m ctx
  not_fatal : (schemLoadGpt sys m (schemNew .gpt) ctx).1 ≠ .fatal
  /-- Beside a GPT there is a protective MBR: the one that was found, or a new one. -/
  schemMbr : (gptFound sys m ctx = none ∧ sc.schemMbr = mbrFound m ctx) ∨
    (∃ gpt mbr, gptFound sys m ctx = some gpt ∧ sc.schemMbr = some mbr ∧
      ((mbrFound m ctx = some mbr ∧ schemMbrIsProt mbr = true) ∨
        ∃ s r, mbr = schemMbrSetProt (schemInitMbr s ctx r).1 ∧ s.funcs = .mbr))

/-- One pass of the detection loop over the boot record. -/
lemma schemCtxLoadOne_mbr (hv : ctx.Valid) (hs : sys.Serves ctx) (m : Image) (sc : SchemCtx)
    (r : Rng) : schemCtxLoadOne sys m ctx .mbr ⟨.ok, schemCtxReset sc false, r, []⟩ =
      ⟨.ok, ⟨mbrFound m ctx, none, (mbrFound m ctx).isSome, false⟩, r, [⟨0, 1, mbrSz.toNat⟩]⟩ := by
  rw [schemCtxLoadOne, mbrFound]
  simp only [funcsLoad, schemLoadMbr_of_serves hv hs, byteToLba_mbrSz hv]
  cases mbrIsPresent m 0 <;> rfl

/-- One pass of the detection loop over the GPT. -/
lemma schemCtxLoadOne_gpt (sys : Sys) (m : Image) (ctx : ImgCtx) (mbr : Option Schem) (b : Pflag)
    (r : Rng) (reads : List SecRead) :
    schemCtxLoadOne sys m ctx .gpt ⟨.ok, ⟨mbr, none, b, false⟩, r, reads⟩ =
      ⟨if (schemLoadGpt sys m (schemNew .gpt) ctx).1 = .fatal then .fail else .ok,
        ⟨mbr, gptFound sys m ctx, b, (gptFound sys m ctx).isSome⟩, r,
        reads ++ (schemLoadGpt sys m (schemNew .gpt) ctx).2.2⟩ := by
  rw [schemCtxLoadOne, gptFound]
  simp only [funcsLoad]
  rcases h : schemLoadGpt sys m (schemNew .gpt) ctx with ⟨_ | _ | _, schem, reads'⟩ <;> rfl

lemma gptFound_funcs {schem : Schem} (h : gptFound sys m ctx = some schem) :
    schem.funcs = .gpt := by
  rw [gptFound] at h
  split_ifs at h with hok
  obtain rfl := Option.some.inj h
  rw [schemLoadGpt]
  rcases gptLoad sys m Gpt.zero ctx with ⟨res, gpt, reads⟩
  simp only
  split_ifs <;> rfl

lemma mbrFound_funcs {schem : Schem} (h : mbrFound m ctx = some schem) : schem.funcs = .mbr := by
  rw [mbrFound] at h
  split_ifs at h
  obtain rfl := Option.some.inj h
  rfl

/-- A load of a context succeeds unless the load of the GPT is fatal. -/
lemma schemCtxLoad_eq (hv : ctx.Valid) (hs : sys.Serves ctx) (sc : SchemCtx) (r : Rng)
    (hnf : (schemLoadGpt sys m (schemNew .gpt) ctx).1 ≠ .fatal) :
    schemCtxLoad sys m sc ctx r = schemCtxCheckProt ctx
      ⟨.ok, ⟨mbrFound m ctx, gptFound sys m ctx, (mbrFound m ctx).isSome,
        (gptFound sys m ctx).isSome⟩, r,
        [⟨0, 1, mbrSz.toNat⟩] ++ (schemLoadGpt sys m (schemNew .gpt) ctx).2.2⟩ := by
  rw [schemCtxLoad]
  simp [schemCtxLoadOne_mbr hv hs, schemCtxLoadOne_gpt, hnf]

lemma schemCtxLoad_ok_iff (hv : ctx.Valid) (hs : sys.Serves ctx) (sc : SchemCtx) (r : Rng) :
    (schemCtxLoad sys m sc ctx r).res = .ok ↔
      (schemLoadGpt sys m (schemNew .gpt) ctx).1 ≠ .fatal := by
  constructor
  · intro h hf
    rw [schemCtxLoad] at h
    simp [schemCtxLoadOne_mbr hv hs, schemCtxLoadOne_gpt, hf] at h
  · intro hnf
    rw [schemCtxLoad_eq hv hs sc r hnf, schemCtxCheckProt_res]

/-- **What a load of a context leaves.** -/
lemma schemCtxLoad_spec (hv : ctx.Valid) (hs : sys.Serves ctx) (sc : SchemCtx) (r : Rng)
    (h : (schemCtxLoad sys m sc ctx r).res = .ok) :
    LoadSpec sys m ctx (schemCtxLoad sys m sc ctx r).sc := by
  have hnf := (schemCtxLoad_ok_iff hv hs sc r).1 h
  rw [schemCtxLoad_eq hv hs sc r hnf]
  rcases schemCtxCheckProt_cases ctx _ with ⟨he, hkind⟩ | ⟨mbr, hmbr, hgpt, he⟩ <;> rw [he]
  · refine ⟨rfl, rfl, rfl, hnf, ?_⟩
    rcases hg : gptFound sys m ctx with _ | gpt
    · exact Or.inl ⟨rfl, rfl⟩
    · obtain ⟨mbr, hm, hp⟩ := hkind.resolve_left (by simp [hg])
      exact Or.inr ⟨gpt, mbr, rfl, hm, Or.inl ⟨hm, hp⟩⟩
  · obtain ⟨gpt, hg⟩ := Option.ne_none_iff_exists'.1 hgpt
    refine ⟨rfl, rfl, rfl, hnf, Or.inr ⟨gpt, _, hg, rfl, Or.inr ⟨mbr, r, rfl, ?_⟩⟩⟩
    rcases hmbr with ⟨-, rfl⟩ | ⟨hm, -⟩
    · rfl
    · exact mbrFound_funcs hm

/-! ## An image without a GPT -/

/-- The headers of the GPT lie behind the boot record. -/
lemma hdr_outside_mbr (hv : ctx.Valid) (hlba : lba = 1 ∨ lba = imgLastLba ctx) {a : ℕ}
    (ha : ctx.off lba ≤ a) : ¬ InMbr a := by
  obtain ⟨h0, h1, h2, h3, h4⟩ := hv.layout
  have hsec : ctx.primHdrOff = ctx.sec := rfl
  have hoff : 512 ≤ ctx.off lba := by
    rcases hlba with rfl | rfl
    · rw [off_one]
      omega
    · rw [off_imgLastLba hv]
      omega
  rintro (h | h) <;> omega

lemma schemLoadGpt_of_zero (hv : ctx.Valid) (hs : sys.Serves ctx)
    (hzero : ∀ a, ¬ InMbr a → m a = 0) (schem : Schem) :
    (schemLoadGpt sys m schem ctx).1 = .notFound :=
  schemLoadGpt_of_no_hdr hv hs
    (not_hdrAt_of_zero (hzero _ (hdr_outside_mbr hv (Or.inl rfl) le_rfl)))
    (not_hdrAt_of_zero (hzero _ (hdr_outside_mbr hv (Or.inr rfl) le_rfl))) schem

/-- Where all is zero behind the boot record, a load finds at most an MBR. -/
lemma schemCtxLoad_of_zero (hv : ctx.Valid) (hs : sys.Serves ctx)
    (hzero : ∀ a, ¬ InMbr a → m a = 0) (sc : SchemCtx) (r : Rng) :
    (schemCtxLoad sys m sc ctx r).res = .ok ∧ (schemCtxLoad sys m sc ctx r).sc =
      ⟨mbrFound m ctx, none, (mbrFound m ctx).isSome, false⟩ := by
  have hgpt := schemLoadGpt_of_zero hv hs hzero (schemNew .gpt)
  have hnone : gptFound sys m ctx = none := by
    rw [gptFound, if_neg (by rw [hgpt]; decide)]
  constructor
  · rw [schemCtxLoad_ok_iff hv hs, hgpt]
    decide
  · rw [schemCtxLoad_eq hv hs _ _ (by rw [hgpt]; decide), hnone]
    rfl

end Partman

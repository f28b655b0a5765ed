/-
# The presence flags over runs of saves

A flag that is zero promises that its scheme is not in the image.  A save resets the flag
of a scheme that it is about to overwrite, so the promise only survives the saves that
get as far as setting it again; and it survives the writes to the boot record only if no
header of the image counts those bytes as a table.
-/
import Partman.Disk.Context
import Partman.Disk.Damage

namespace Partman

open Lib

variable {sys sys₁ : Sys} {ctx : ImgCtx} {m m' : Image} {lba : Plba} {hdr : GptHdr} {sc : SchemCtx}

/-! ## What a load depends on -/

/-- The bytes of the entries that a load of this header reads. -/
def InTable (ctx : ImgCtx) (hdr : GptHdr) (a : ℕ) : Prop :=
  ∃ i < hdr.partTableEntryCnt.toNat, ∃ k < 93,
    a = (lbaToByte ctx hdr.partTableLba).toNat + entOff i hdr.partEntrySz + k

/-- The load of a copy depends on its header and on the entries that are read. -/
lemma loadCopy_congr (sys : Sys) (hin : ctx.Inside lba 1)
    (hhdr : ∀ a, ctx.off lba ≤ a → a < ctx.off lba + 92 → m' a = m a)
    (htab : ∀ hdr, HdrAt m ctx lba hdr → ∀ a, InTable ctx hdr a → m' a = m a) :
    loadCopy sys m' ctx lba = loadCopy sys m ctx lba := by
  have hoff := hin.toNat_off
  have h8 : loadAt m' (ctx.off lba) 8 = loadAt m (ctx.off lba) 8 :=
    loadAt_congr fun a h1 h2 => hhdr a h1 (by omega)
  have hpres := gptIsPresent_congr h8
  unfold loadCopy gptPairLoad
  rcases mapSecs_cases sys ctx lba 1 with hmap | hmap
  · simp only [hmap]
  simp only [hmap, hoff, hpres]
  by_cases hp : gptIsPresent m (ctx.off lba) = true
  · obtain ⟨hdr, hdef⟩ : ∃ hdr, gptHdrRead m (ctx.off lba) = hdr := ⟨_, rfl⟩
    have hread : gptHdrRead m' (ctx.off lba) = hdr := by
      rw [← hdef]
      exact (gptHdrRead_congr hp (loadAt_congr fun a h1 h2 => hhdr a h1 (by omega))
        (loadAt_congr fun a h1 h2 => hhdr a (by omega) (by omega))).2
    simp only [hread, hdef]
    by_cases hval : gptHdrIsValid hdr lba = true
    · have htab' := htab hdr ⟨hp, hdef, hval⟩
      have htable : gptTableRead m' (lbaToByte ctx hdr.partTableLba).toNat gptTableZero
          hdr.partTableEntryCnt hdr.partEntrySz =
          gptTableRead m (lbaToByte ctx hdr.partTableLba).toNat gptTableZero
            hdr.partTableEntryCnt hdr.partEntrySz := by
        funext i
        simp only [gptTableRead]
        split_ifs with hi
        · refine gptPartEntRead_congr fun a h1 h2 => htab' a ?_
          exact ⟨i, by omega, a - ((lbaToByte ctx hdr.partTableLba).toNat +
            entOff i hdr.partEntrySz), by omega, by omega⟩
        · rfl
      have hpair : gptPairLoadTable sys m' ctx hdr gptTableZero =
          gptPairLoadTable sys m ctx hdr gptTableZero := by
        unfold gptPairLoadTable
        rcases mapSecs_cases sys ctx hdr.partTableLba (gptTableSzSecs ctx hdr) with hm | hm
        · simp only [hm]
        · simp only [hm, htable]
      simp only [hpair]
    · simp [hval]
  · simp [hp]

/-- When a load finds no GPT. -/
lemma schemLoadGpt_notFound_iff (schem : Schem) :
    (schemLoadGpt sys m schem ctx).1 = .notFound ↔
      ((loadCopy sys m ctx 1).res ≠ .ok ∧ (loadCopy sys m ctx 1).res ≠ .fatal) ∧
        ((loadCopy sys m ctx (imgLastLba ctx)).res ≠ .ok ∧
          (loadCopy sys m ctx (imgLastLba ctx)).res ≠ .fatal) := by
  constructor
  · intro h
    obtain ⟨hpf, hsf⟩ := schemLoadGpt_not_fatal (by rw [h]; decide)
    rw [schemLoadGpt, gptLoad_eq, if_neg hpf, if_neg hsf] at h
    by_cases hp : (loadCopy sys m ctx 1).res = .ok
    · by_cases hs : (loadCopy sys m ctx (secLba sys m ctx)).res = .ok
      · simp [hp, hs, gptLoadPair_ok_ok] at h
      · simp [hp, gptLoadPair_ok_bad hs] at h
    · rw [secLba_of_not_ok hp] at h hsf
      refine ⟨⟨hp, hpf⟩, fun hs => ?_, hsf⟩
      simp [hs, gptLoadPair_bad_ok hp] at h
  · rintro ⟨⟨h1, h2⟩, h3, h4⟩
    exact schemLoadGpt_notFound schem h1 h2 h3 h4

/-! ## The GPT that is not there -/

/-- No accepted header at the sectors of the two headers counts bytes of the boot record
among its entries. -/
def ClearOfMbr (m : Image) (ctx : ImgCtx) : Prop :=
  ∀ lba, lba = 1 ∨ lba = imgLastLba ctx →
    ∀ hdr, HdrAt m ctx lba hdr → ∀ a, InTable ctx hdr a → ¬ InMbr a

/-- No load finds a GPT, and writing a boot record does not change that. -/
structure GptGone (sys : Sys) (m : Image) (ctx : ImgCtx) : Prop where
  notFound : ∀ schem, (schemLoadGpt sys m schem ctx).1 = .notFound
  clear : ClearOfMbr m ctx

/-- A change of the boot record leaves the loads of both copies as they were. -/
lemma loadCopy_of_mbr (hv : ctx.Valid) (sys : Sys) (hclear : ClearOfMbr m ctx)
    (hm : ∀ a, ¬ InMbr a → m' a = m a) (hlba : lba = 1 ∨ lba = imgLastLba ctx) :
    loadCopy sys m' ctx lba = loadCopy sys m ctx lba :=
  loadCopy_congr sys (lba_inside hv hlba) (fun a ha _ => hm a (hdr_outside_mbr hv hlba ha))
    fun hdr hhdr a ha => hm a (hclear lba hlba hdr hhdr a ha)

lemma ClearOfMbr.congr (hv : ctx.Valid) (hclear : ClearOfMbr m ctx)
    (hm : ∀ a, ¬ InMbr a → m' a = m a) : ClearOfMbr m' ctx := by
  intro lba hlba hdr hhdr
  refine hclear lba hlba hdr (hhdr.congr ?_ ?_)
  · exact loadAt_congr fun a h1 _ => (hm a (hdr_outside_mbr hv hlba h1)).symm
  · exact loadAt_congr fun a h1 _ => (hm a (hdr_outside_mbr hv hlba (by omega))).symm

lemma GptGone.congr (hv : ctx.Valid) (h : GptGone sys m ctx) (hm : ∀ a, ¬ InMbr a → m' a = m a) :
    GptGone sys m' ctx := by
  refine ⟨fun schem => ?_, h.clear.congr hv hm⟩
  rw [schemLoadGpt_notFound_iff, loadCopy_of_mbr hv sys h.clear hm (Or.inl rfl),
    loadCopy_of_mbr hv sys h.clear hm (Or.inr rfl), ← schemLoadGpt_notFound_iff schem]
  exact h.notFound schem

/-- After a removal the GPT is gone. -/
lemma gptGone_of_remove (hv : ctx.Valid) (hs : sys.Serves ctx)
    (hok : (schemRemoveGpt sys₁ ctx).1 = .ok) (m : Image) :
    GptGone sys (stores m (schemRemoveGpt sys₁ ctx).2) ctx := by
  refine ⟨schemLoadGpt_of_remove hv hs hok m, fun lba hlba hdr hhdr => ?_⟩
  obtain ⟨hprim, hsec⟩ := no_hdr_of_remove hv hok m
  rcases hlba with rfl | rfl
  · exact absurd hhdr (hprim hdr)
  · exact absurd hhdr (hsec hdr)

/-! ## One save -/

/-- What the flags promise, with what is known of the schemes of a context. -/
structure FlagInv (sys : Sys) (ctx : ImgCtx) (sc : SchemCtx) (m : Image) : Prop where
  funcsMbr : ∀ mbr, sc.schemMbr = some mbr → mbr.funcs = .mbr
  funcsGpt : ∀ gpt, sc.schemGpt = some gpt → gpt.funcs = .gpt ∧ gpt.partCnt.toNat ≤ 128
  mbr : sc.inImgMbr = false → mbrIsPresent m 0 = false
  gpt : sc.inImgGpt = false → ∀ schem, (schemLoadGpt sys m schem ctx).1 = .notFound

/-- An operation of a save that fails has stored nothing. -/
structure FailsClean (sys : Sys) (sc : SchemCtx) (ctx : ImgCtx) : Prop where
  removal : ∀ t, (removal sys sc ctx t).1 = .fail → (removal sys sc ctx t).2 = []
  saving : ∀ t, (saving sys sc ctx t).1 = .fail → (saving sys sc ctx t).2 = []

/-- A save that resets a flag gets as far as setting it again, and does not claim to remove
an MBR. -/
structure KeepsFlags (sys : Sys) (sc : SchemCtx) (ctx : ImgCtx) : Prop where
  mbrRemoved : sc.inImgMbr = true → sc.schemMbr = none → (removal sys sc ctx .mbr).1 = .fail
  mbrSaved : sc.inImgMbr = true → sc.schemMbr ≠ none →
    (removal sys sc ctx .gpt).1 = .ok ∧ (saving sys sc ctx .mbr).1 = .ok
  gptSaved : sc.inImgGpt = true → sc.schemGpt ≠ none → (removal sys sc ctx .mbr).1 = .fail ∨
    ((saving sys sc ctx .mbr).1 = .ok ∧ (saving sys sc ctx .gpt).1 = .ok)

lemma pres_ok_of_ne {p : Pres} (h : p ≠ .fail) : p = .ok := by
  cases p with
  | fail => exact absurd rfl h
  | ok => rfl

/-- A removal of the MBR that does not fail has nothing to remove. -/
lemma KeepsFlags.no_removal (h : KeepsFlags sys₁ sc ctx)
    (hok : (removal sys₁ sc ctx .mbr).1 ≠ .fail) :
    removal sys₁ sc ctx .mbr = (.ok, []) ∧ (sc.schemMbr = none → sc.inImgMbr = false) := by
  have hnone : ¬ (sc.inImgMbr = true ∧ sc.schemMbr = none) := fun hc =>
    hok (h.mbrRemoved hc.1 hc.2)
  refine ⟨if_neg hnone, fun hsch => ?_⟩
  by_contra hf
  exact hnone ⟨by simpa using hf, hsch⟩

/-- The stores of a save of the MBR go to the boot record. -/
lemma mem_saving_mbr (hf : ∀ mbr, sc.schemMbr = some mbr → mbr.funcs = .mbr) {s : Store}
    (hs : s ∈ (saving sys₁ sc ctx .mbr).2) : InMbr s.1 := by
  cases hm : sc.schemMbr with
  | none => simp [saving_none .mbr hm] at hs
  | some mbr =>
    rw [saving_mbr hm (hf mbr hm)] at hs
    rcases mbrSave_cases sys₁ (mbrFromSchem mbr Mbr.zero ctx) ctx with e | e
    · simp [e] at hs
    · rw [e] at hs
      exact mem_mbrWrite hs

/-- The stores of a save of the GPT go behind the boot record. -/
lemma mem_saving_gpt (hv : ctx.Valid)
    (hf : ∀ gpt, sc.schemGpt = some gpt → gpt.funcs = .gpt ∧ gpt.partCnt.toNat ≤ 128) {s : Store}
    (hs : s ∈ (saving sys₁ sc ctx .gpt).2) : ctx.primHdrOff ≤ s.1 := by
  obtain ⟨h0, h1, h2, h3, h4⟩ := hv.layout
  cases hg : sc.schemGpt with
  | none => simp [saving_none .gpt hg] at hs
  | some gpt =>
    obtain ⟨hfuncs, hcnt⟩ := hf gpt hg
    rw [saving_gpt hg hfuncs] at hs
    have := mem_saveStores hv hcnt ((schemSaveGpt_spec sys₁ gpt ctx).1.subset hs)
    omega

/-- Stores outside of the boot record leave a missing MBR missing. -/
lemma not_present_of_stores (hv : ctx.Valid) {ss : List Store}
    (hss : ∀ s ∈ ss, ctx.primHdrOff ≤ s.1) (h : mbrIsPresent m 0 = false) :
    mbrIsPresent (stores m ss) 0 = false := by
  rw [mbrIsPresent_congr fun a ha => stores_of_forall_ne (fun s hs => ?_) m]
  · exact h
  · have hsec : 512 ≤ ctx.primHdrOff := hv.layout.1
    have := hss s hs
    rcases ha with ha | ha <;> omega

/-- The stores of a removal of the GPT go behind the boot record. -/
lemma mem_removal_gpt (hv : ctx.Valid) {s : Store} (hs : s ∈ (removal sys₁ sc ctx .gpt).2) :
    ctx.primHdrOff ≤ s.1 := by
  obtain ⟨h0, h1, h2, h3, h4⟩ := hv.layout
  rw [removal] at hs
  split_ifs at hs
  · have := mem_schemRemoveGpt hv hs
    omega
  · simp at hs

/-- Behind the removal of the GPT there is none, unless one is about to be overwritten. -/
lemma FlagInv.notFound_of_removal (hv : ctx.Valid) (hs : sys.Serves ctx)
    (h : FlagInv sys ctx sc m) (hok : (removal sys₁ sc ctx .gpt).1 ≠ .fail)
    (hnone : sc.inImgGpt = true → sc.schemGpt = none) (schem : Schem) :
    (schemLoadGpt sys (stores m (removal sys₁ sc ctx .gpt).2) schem ctx).1 = .notFound := by
  by_cases hf : sc.inImgGpt = true
  · have hrem : removal sys₁ sc ctx .gpt = schemRemoveGpt sys₁ ctx := if_pos ⟨hf, hnone hf⟩
    rw [hrem] at hok ⊢
    exact (gptGone_of_remove hv hs (pres_ok_of_ne hok) m).notFound schem
  · have hrem : removal sys₁ sc ctx .gpt = (.ok, []) := if_neg fun hc => hf hc.1
    rw [hrem]
    exact h.gpt (by simpa using hf) schem

/-- The removal of the GPT leaves no header over the boot record, if there was none before. -/
lemma clear_of_removal (hv : ctx.Valid) (hs : sys.Serves ctx)
    (hok : (removal sys₁ sc ctx .gpt).1 ≠ .fail)
    (hnone : sc.inImgGpt = true → sc.schemGpt = none)
    (hclear : sc.inImgGpt = false → ClearOfMbr m ctx) :
    ClearOfMbr (stores m (removal sys₁ sc ctx .gpt).2) ctx := by
  by_cases hf : sc.inImgGpt = true
  · have hrem : removal sys₁ sc ctx .gpt = schemRemoveGpt sys₁ ctx := if_pos ⟨hf, hnone hf⟩
    rw [hrem] at hok ⊢
    exact (gptGone_of_remove hv hs (pres_ok_of_ne hok) m).clear
  · have hrem : removal sys₁ sc ctx .gpt = (.ok, []) := if_neg fun hc => hf hc.1
    rw [hrem]
    exact hclear (by simpa using hf)

/-- A boot record that is written does not bring a GPT back. -/
lemma notFound_of_saving_mbr (hv : ctx.Valid)
    (hf : ∀ mbr, sc.schemMbr = some mbr → mbr.funcs = .mbr)
    (hnone : ∀ schem, (schemLoadGpt sys m schem ctx).1 = .notFound)
    (hclear : sc.schemMbr ≠ none → ClearOfMbr m ctx) (schem : Schem) :
    (schemLoadGpt sys (stores m (saving sys₁ sc ctx .mbr).2) schem ctx).1 = .notFound := by
  by_cases hM : sc.schemMbr = none
  · rw [saving_none .mbr hM]
    exact hnone schem
  · have hgone : GptGone sys m ctx := ⟨hnone, hclear hM⟩
    refine (hgone.congr hv fun a ha => stores_of_forall_ne (fun s hs => ?_) _).notFound schem
    rintro rfl
    exact ha (mem_saving_mbr hf hs)

/-- A save that writes a boot record, and no GPT beside it, meets no header over the boot record
if the flag of the GPT is zero. -/
def WritesClear (sys : Sys) (sc : SchemCtx) (ctx : ImgCtx) (m : Image) : Prop :=
  sc.schemMbr ≠ none → sc.schemGpt = none ∨ (saving sys sc ctx .gpt).1 = .fail →
    sc.inImgGpt = false → ClearOfMbr m ctx

/-- **A save keeps the promise of the flags**, if no flag that it resets stays so. -/
theorem FlagInv.save (hv : ctx.Valid) (hs : sys.Serves ctx) (h : FlagInv sys ctx sc m)
    (hclean : FailsClean sys₁ sc ctx) (hkeeps : KeepsFlags sys₁ sc ctx)
    (hclear : WritesClear sys₁ sc ctx m) :
    FlagInv sys ctx (schemCtxSave sys₁ sc ctx).sc
      (stores m (schemCtxSave sys₁ sc ctx).stores) := by
  have hremG : ∀ s ∈ (removal sys₁ sc ctx .gpt).2, ctx.primHdrOff ≤ s.1 :=
    fun s hs => mem_removal_gpt hv hs
  -- what the MBR overwrites does not bring a GPT back
  have hgoneM : (removal sys₁ sc ctx .gpt).1 ≠ .fail → (sc.inImgGpt = true → sc.schemGpt = none) →
      sc.schemGpt = none ∨ (saving sys₁ sc ctx .gpt).1 = .fail → ∀ schem, (schemLoadGpt sys
        (stores (stores m (removal sys₁ sc ctx .gpt).2) (saving sys₁ sc ctx .mbr).2) schem ctx).1 =
          .notFound := by
    intro hok hnone hno
    exact notFound_of_saving_mbr hv h.funcsMbr (h.notFound_of_removal hv hs hok hnone)
      fun hM => clear_of_removal hv hs hok hnone (hclear hM hno)
  rw [schemCtxSave_eq]
  by_cases h1 : (removal sys₁ sc ctx .mbr).1 = .fail
  · rw [if_pos h1, hclean.removal _ h1]
    exact h
  obtain ⟨hrem, hMnone⟩ := hkeeps.no_removal h1
  have hmbr : ¬ ((removal sys₁ sc ctx .gpt).1 = .ok ∧ (saving sys₁ sc ctx .mbr).1 = .ok) →
      mbrIsPresent m 0 = false := by
    intro hno
    refine h.mbr ?_
    by_contra hf
    exact hno (hkeeps.mbrSaved (by simpa using hf) fun hM => hf (hMnone hM))
  have hgpt : ¬ ((saving sys₁ sc ctx .mbr).1 = .ok ∧ (saving sys₁ sc ctx .gpt).1 = .ok) →
      sc.inImgGpt = true → sc.schemGpt = none := by
    intro hno hf
    by_contra hG
    rcases hkeeps.gptSaved hf hG with e | e
    · exact h1 e
    · exact hno e
  rw [if_neg h1, hrem]
  by_cases h2 : (removal sys₁ sc ctx .gpt).1 = .fail
  · rw [if_pos h2, hclean.removal _ h2]
    exact ⟨h.funcsMbr, h.funcsGpt, fun _ => hmbr fun hc => by simp [h2] at hc, h.gpt⟩
  rw [if_neg h2]
  by_cases h3 : (saving sys₁ sc ctx .mbr).1 = .fail
  · rw [if_pos h3, hclean.saving _ h3, List.append_nil]
    refine ⟨h.funcsMbr, h.funcsGpt, fun _ => ?_, fun _ => ?_⟩
    · exact not_present_of_stores hv hremG (hmbr fun hc => by simp [h3] at hc)
    · exact h.notFound_of_removal hv hs h2 (hgpt fun hc => by simp [h3] at hc)
  rw [if_neg h3]
  -- without an MBR in the context there is none in the image
  have hmbr' : sc.schemMbr.isSome = false → mbrIsPresent
      (stores m ((removal sys₁ sc ctx .gpt).2 ++ (saving sys₁ sc ctx .mbr).2)) 0 = false := by
    intro hM
    have hM' : sc.schemMbr = none := by simpa using hM
    rw [saving_none .mbr hM', List.append_nil]
    exact not_present_of_stores hv hremG (h.mbr (hMnone hM'))
  by_cases h4 : (saving sys₁ sc ctx .gpt).1 = .fail
  · rw [if_pos h4, hclean.saving _ h4, List.append_nil]
    refine ⟨h.funcsMbr, h.funcsGpt, hmbr', fun _ => ?_⟩
    rw [List.nil_append, stores_append]
    exact hgoneM h2 (hgpt fun hc => by simp [h4] at hc) (Or.inr h4)
  · rw [if_neg h4]
    refine ⟨h.funcsMbr, h.funcsGpt, fun hM => ?_, fun hG => ?_⟩
    · rw [List.nil_append, stores_append]
      exact not_present_of_stores hv (fun s hs => mem_saving_gpt hv h.funcsGpt hs) (hmbr' hM)
    · have hG' : sc.schemGpt = none := by simpa using hG
      rw [saving_none .gpt hG', List.append_nil, List.nil_append, stores_append]
      exact hgoneM h2 (fun _ => hG') (Or.inl hG')

/-! ## Runs -/

/-- The calls that change the flags, the schemes or the image. -/
inductive FlagOp
  | new (t : SchemType) (r : Rng)
  | save (sys : Sys)

/-- The context and the image under it. -/
structure Held where
  sc : SchemCtx
  img : Image

/-- The effect of one call. -/
def FlagOp.step (ctx : ImgCtx) (st : Held) : FlagOp → Held
  | .new t r => ⟨(schemCtxNew st.sc ctx t r).2.1, st.img⟩
  | .save sys =>
    ⟨(schemCtxSave sys st.sc ctx).sc, stores st.img (schemCtxSave sys st.sc ctx).stores⟩

/-- The effect of a sequence of calls. -/
def runFlagOps (ctx : ImgCtx) (st : Held) (ops : List FlagOp) : Held :=
  ops.foldl (FlagOp.step ctx) st

/-- What is asked of a call: an operation that fails has stored nothing, no flag that is reset
stays so, and a boot record is not written under a header. -/
def FlagOp.Kept (ctx : ImgCtx) (st : Held) : FlagOp → Prop
  | .new _ _ => True
  | .save sys => FailsClean sys st.sc ctx ∧ KeepsFlags sys st.sc ctx ∧
      WritesClear sys st.sc ctx st.img

/-- The same of every call of a sequence, at the state that it meets. -/
def AllKept (ctx : ImgCtx) : Held → List FlagOp → Prop
  | _, [] => True
  | st, op :: ops => op.Kept ctx st ∧ AllKept ctx (op.step ctx st) ops

lemma schemInitGpt_cnt (schem : Schem) (ctx : ImgCtx) (r : Rng) :
    (schemInitGpt schem ctx r).1.funcs = schem.funcs ∧
      (schemInitGpt schem ctx r).1.partCnt.toNat ≤ 128 :=
  ⟨rfl, show gptMaxPartCnt.toNat ≤ 128 by decide⟩

/-- Making new schemes leaves the flags and the image alone. -/
lemma FlagInv.new (h : FlagInv sys ctx sc m) (t : SchemType) (r : Rng) :
    FlagInv sys ctx (schemCtxNew sc ctx t r).2.1 m := by
  cases t with
  | mbr =>
    refine ⟨fun mbr hm => ?_, fun gpt hg => ?_, h.mbr, h.gpt⟩
    · obtain rfl := Option.some.inj hm
      rfl
    · exact absurd hg (Option.some_ne_none _).symm
  | gpt =>
    refine ⟨fun mbr hm => ?_, fun gpt hg => ?_, h.mbr, h.gpt⟩
    · obtain rfl := Option.some.inj hm
      rfl
    · obtain rfl := Option.some.inj hg
      exact schemInitGpt_cnt (schemNew .gpt) ctx r
  | cnt =>
    exact ⟨fun mbr hm => absurd hm (Option.some_ne_none _).symm,
      fun gpt hg => absurd hg (Option.some_ne_none _).symm, h.mbr, h.gpt⟩

lemma FlagInv.step (hv : ctx.Valid) (hs : sys.Serves ctx) {st : Held}
    (h : FlagInv sys ctx st.sc st.img) {op : FlagOp} (hk : op.Kept ctx st) :
    FlagInv sys ctx (op.step ctx st).sc (op.step ctx st).img := by
  cases op with
  | new t r => exact h.new t r
  | save sys₁ =>
    simp only [FlagOp.step]
    exact h.save hv hs hk.1 hk.2.1 hk.2.2

lemma FlagInv.run (hv : ctx.Valid) (hs : sys.Serves ctx) {st : Held}
    (h : FlagInv sys ctx st.sc st.img) {ops : List FlagOp} (hk : AllKept ctx st ops) :
    FlagInv sys ctx (runFlagOps ctx st ops).sc (runFlagOps ctx st ops).img := by
  induction ops generalizing st with
  | nil => exact h
  | cons op ops ih => exact ih (h.step hv hs hk.1) hk.2

/-- A GPT that has been loaded has at most 128 entries. -/
lemma gptFound_cnt (hv : ctx.Valid) (hs : sys.Serves ctx) {gpt : Schem}
    (h : gptFound sys m ctx = some gpt) : gpt.partCnt.toNat ≤ 128 := by
  rw [gptFound] at h
  split_ifs at h with hok
  obtain rfl := Option.some.inj h
  rcases schemLoadGpt_cases hok with ⟨hp, he⟩ | ⟨-, hsec, he⟩ <;> rw [he]
  · exact (Passes.of_ok hv hs (inside_one hv) hp).cnt
  · exact (Passes.of_ok hv hs (imgLastLba_inside hv) hsec).cnt

/-- A flag of the MBR that a load leaves zero says that there is none. -/
lemma LoadSpec.not_present (h : LoadSpec sys m ctx sc) (hf : sc.inImgMbr = false) :
    mbrIsPresent m 0 = false := by
  rw [h.inImgMbr, mbrFound] at hf
  split_ifs at hf with hp
  · simp at hf
  · simpa using hp

/-- A flag of the GPT that a load leaves zero says that no load finds one. -/
lemma LoadSpec.notFound (h : LoadSpec sys m ctx sc) (hf : sc.inImgGpt = false) (schem : Schem) :
    (schemLoadGpt sys m schem ctx).1 = .notFound := by
  rw [h.inImgGpt, gptFound] at hf
  have hnf := h.not_fatal
  have hno : (schemLoadGpt sys m (schemNew .gpt) ctx).1 = .notFound := by
    split_ifs at hf with hok
    · simp at hf
    · cases he : (schemLoadGpt sys m (schemNew .gpt) ctx).1 with
      | ok => exact absurd he hok
      | notFound => rfl
      | fatal => exact absurd he hnf
  rw [schemLoadGpt_notFound_iff] at hno ⊢
  exact hno

/-- After a load the flags are right. -/
lemma LoadSpec.flagInv (hv : ctx.Valid) (hs : sys.Serves ctx) (h : LoadSpec sys m ctx sc) :
    FlagInv sys ctx sc m := by
  refine ⟨fun mbr hm => ?_, fun gpt hg => ?_, h.not_present, h.notFound⟩
  · rcases h.schemMbr with ⟨-, he⟩ | ⟨gpt, mbr', -, he, hkind⟩
    · rw [he] at hm
      exact mbrFound_funcs hm
    · rw [he] at hm
      obtain rfl := Option.some.inj hm
      rcases hkind with ⟨hfound, -⟩ | ⟨s, r, rfl, hfuncs⟩
      · exact mbrFound_funcs hfound
      · exact hfuncs
  · rw [h.schemGpt] at hg
    exact ⟨gptFound_funcs hg, gptFound_cnt hv hs hg⟩

/-- Where the flag of a scheme is zero, a load does not find it. -/
lemma FlagInv.notFound (hv : ctx.Valid) (hs : sys.Serves ctx) (h : FlagInv sys ctx sc m)
    {t : SchemType} (ht : t ≠ .cnt) (hf : sc.schemesInImg t = false) (schem : Schem) :
    (funcsLoad t sys m schem ctx).1 = .notFound := by
  cases t with
  | mbr =>
    simp only [funcsLoad, schemLoadMbr_of_serves hv hs, h.mbr hf]
    rfl
  | gpt => exact h.gpt hf schem
  | cnt => exact absurd rfl ht

/-- A save that succeeds leaves the flags of exactly the schemes of the context. -/
lemma schemCtxSave_flags (h : (schemCtxSave sys₁ sc ctx).res = .ok) {t : SchemType}
    (hnone : sc.schemes t = none) : (schemCtxSave sys₁ sc ctx).sc.schemesInImg t = false := by
  rw [schemCtxSave_eq] at h ⊢
  split_ifs at h ⊢
  cases t with
  | mbr => simpa [SchemCtx.schemesInImg, SchemCtx.schemes] using hnone
  | gpt => simpa [SchemCtx.schemesInImg, SchemCtx.schemes] using hnone
  | cnt => rfl

/-- **The flags do not promise too much** after a load and any sequence of calls in which no
flag that is reset stays so, and no boot record is written under a header: a scheme whose flag
is zero is not found, and a further save that succeeds leaves no scheme behind that the
context does not have. -/
theorem flags_of_run (hctx : imgCtxValidate ctx = .ok) (hs : sys.Serves ctx) (m : Image)
    (sc : SchemCtx) (r : Rng) (hload : (schemCtxLoad sys m sc ctx r).res = .ok)
    (ops : List FlagOp)
    (hops : AllKept ctx ⟨(schemCtxLoad sys m sc ctx r).sc, m⟩ ops) :
    let st := runFlagOps ctx ⟨(schemCtxLoad sys m sc ctx r).sc, m⟩ ops
    (∀ t, t ≠ .cnt → st.sc.schemesInImg t = false →
        ∀ schem, (funcsLoad t sys st.img schem ctx).1 = .notFound) ∧
      ∀ sys₁, (FlagOp.save sys₁).Kept ctx st → (schemCtxSave sys₁ st.sc ctx).res = .ok →
        ∀ t, t ≠ .cnt → st.sc.schemes t = none → ∀ schem, (funcsLoad t sys
          (stores st.img (schemCtxSave sys₁ st.sc ctx).stores) schem ctx).1 = .notFound := by
  have hv := (imgCtxValidate_ok_iff ctx).1 hctx
  have hinit : FlagInv sys ctx (schemCtxLoad sys m sc ctx r).sc m :=
    (schemCtxLoad_spec hv hs sc r hload).flagInv hv hs
  intro st
  have hinv : FlagInv sys ctx st.sc st.img := FlagInv.run hv hs hinit hops
  refine ⟨fun t ht hf schem => hinv.notFound hv hs ht hf schem, ?_⟩
  intro sys₁ hk hok t ht hnone schem
  exact (hinv.save hv hs hk.1 hk.2.1 hk.2.2).notFound hv hs ht (schemCtxSave_flags hok hnone) schem

/-- The flags over a new MBR and its save, on an image of zeros. -/
theorem flags_of_run_small :
    let st := runFlagOps smallCtx
      ⟨(schemCtxLoad plainSys zeroImage schemCtxInit smallCtx zeroRng).sc, zeroImage⟩
      [.new .mbr zeroRng, .save plainSys]
    (∀ t, t ≠ .cnt → st.sc.schemesInImg t = false →
        ∀ schem, (funcsLoad t plainSys st.img schem smallCtx).1 = .notFound) ∧
      ∀ sys₁, (FlagOp.save sys₁).Kept smallCtx st → (schemCtxSave sys₁ st.sc smallCtx).res = .ok →
        ∀ t, t ≠ .cnt → st.sc.schemes t = none → ∀ schem, (funcsLoad t plainSys
          (stores st.img (schemCtxSave sys₁ st.sc smallCtx).stores) schem smallCtx).1 =
            .notFound := by
  have hv := (imgCtxValidate_ok_iff _).1 smallCtx_valid
  have hs : plainSys.Serves smallCtx := smallCtx_serves
  have hno : ∀ lba hdr, ¬ HdrAt zeroImage smallCtx lba hdr := fun _ => not_hdrAt_of_zero rfl
  obtain ⟨hload, hsc⟩ := schemCtxLoad_of_zero hv hs (m := zeroImage) (fun _ _ => rfl)
    schemCtxInit zeroRng
  refine flags_of_run smallCtx_valid hs zeroImage _ _ hload _ ⟨trivial,
    ⟨?_, ?_, fun _ _ _ lba _ hdr hhdr => absurd hhdr (hno lba hdr)⟩, trivial⟩
  · -- nothing is removed, and the save of the MBR is granted
    rw [hsc]
    refine ⟨fun t ht => ?_, fun t ht => ?_⟩
    · cases t <;> rfl
    · cases t with
      | mbr =>
        have hok : (saving plainSys (schemCtxNew ⟨none, none, false, false⟩ smallCtx .mbr
            zeroRng).2.1 smallCtx .mbr).1 = .ok := by
          show (mbrSave plainSys _ smallCtx).1 = .ok
          rw [mbrSave_of_serves hv hs]
        exact absurd (ht.symm.trans hok) (by decide)
      | gpt => rfl
      | cnt => rfl
  · rw [hsc]
    exact ⟨fun h => absurd h (by decide), fun h => absurd h (by decide),
      fun h => absurd h (by decide)⟩

/-- A platform that grants no mapping. -/
def deadSys : Sys := { plainSys with mapOk := fun _ _ => false }

/-- An image with an MBR without entries. -/
def mbrImage : Image := stores zeroImage (mbrWrite 0 Mbr.zero)

/-- A save that is refused everything resets the flag of the MBR that is still there. -/
theorem flags_of_refused_save :
    (schemCtxLoad plainSys mbrImage schemCtxInit smallCtx zeroRng).res = .ok ∧
    let s := schemCtxSave deadSys
      (schemCtxLoad plainSys mbrImage schemCtxInit smallCtx zeroRng).sc smallCtx
    s.stores = [] ∧ s.sc.schemesInImg .mbr = false ∧
      ∀ schem, (funcsLoad .mbr plainSys (stores mbrImage s.stores) schem smallCtx).1 = .ok := by
  have hv := (imgCtxValidate_ok_iff _).1 smallCtx_valid
  have hs : plainSys.Serves smallCtx := smallCtx_serves
  have hkeep : ∀ a, ¬ InMbr a → mbrImage a = 0 := by
    intro a ha
    refine stores_of_forall_ne (fun s hs => ?_) zeroImage
    rintro rfl
    exact ha (mem_mbrWrite hs)
  obtain ⟨hres, hsc⟩ := schemCtxLoad_of_zero hv hs hkeep schemCtxInit zeroRng
  have hpres : mbrIsPresent mbrImage 0 = true := mbrIsPresent_stores _ _
  obtain ⟨mbr, hmbr⟩ : ∃ mbr, mbrFound mbrImage smallCtx = some mbr := ⟨_, if_pos hpres⟩
  have hfuncs := mbrFound_funcs hmbr
  rw [hmbr, Option.isSome_some] at hsc
  have hsave : schemCtxSave deadSys ⟨some mbr, none, true, false⟩ smallCtx =
      ⟨.fail, ⟨some mbr, none, false, false⟩, []⟩ := by
    have hrem : removal deadSys ⟨some mbr, none, true, false⟩ smallCtx .mbr = (.ok, []) :=
      if_neg fun h => Option.some_ne_none _ h.2
    have hrem' : removal deadSys ⟨some mbr, none, true, false⟩ smallCtx .gpt = (.ok, []) := rfl
    have hsav : saving deadSys ⟨some mbr, none, true, false⟩ smallCtx .mbr = (.fail, []) := by
      simp only [saving, SchemCtx.schemes, hfuncs, funcsSave, schemSaveMbr]
      rfl
    rw [schemCtxSave_eq, hrem, hrem', hsav]
    rfl
  refine ⟨hres, ?_⟩
  rw [hsc, hsave]
  refine ⟨rfl, rfl, fun schem => ?_⟩
  simp only [funcsLoad, stores_nil, schemLoadMbr_of_serves hv hs, hpres, if_true]

end Partman

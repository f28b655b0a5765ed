/-
# Sessions on images of any content

Nothing is asked of the partitions that a load finds: they may overlap, be empty or lie outside
of the image.  A session makes no two partitions meet that have not met before, and it leaves
the entries alone that it does not edit.
-/
import Partman.Session.Whole

namespace Partman

open Lib

variable {sys sys' : Sys} {ctx : ImgCtx} {fuel : ℕ} {plats : List Sys} {m : Image}
  {sc sc' : SchemCtx} {p p₀ : Prog} {schem : Schem} {t : SchemType}

/-! ## Partitions that meet -/

/-- The layout of the scheme of this type, if there is one. -/
def SchemCtx.layout (sc : SchemCtx) (t : SchemType) : ℕ → Option (ℕ × ℕ) :=
  match sc.schemes t with
  | some schem => schem.layout
  | none => fun _ => none

lemma SchemCtx.layout_of_some (h : sc.schemes t = some schem) : sc.layout t = schem.layout := by
  rw [SchemCtx.layout, h]

lemma SchemCtx.layout_congr (h : sc'.schemes t = sc.schemes t) : sc'.layout t = sc.layout t := by
  rw [SchemCtx.layout, SchemCtx.layout, h]

lemma disjoint_of_not_overlaps {part : SchemPart} {startLba endLba : Plba}
    (h : partOverlaps part startLba endLba = false) :
    Disjoint (Set.Icc startLba.toNat endLba.toNat) part.sectors := by
  simp only [partOverlaps, Bool.or_eq_false_iff, Bool.and_eq_false_iff, decide_eq_false_iff_not,
    ge_iff_le, gt_iff_lt, UInt64.le_iff_toNat_le, UInt64.lt_iff_toNat_lt] at h
  rw [Set.disjoint_left]
  rintro s ⟨h1, h2⟩ ⟨h3, h4⟩
  omega

/-- The range of an entry that has been edited is the old one, or it meets no other. -/
lemma PartChange.apart (hcnt : schem.partCnt.toNat < 2 ^ 63) {i : Pu32}
    (hi : i.toNat < schem.partCnt.toNat) {part : SchemPart} (h : PartChange ctx schem i part)
    (hu : schem.partIsUsed part = true) :
    schem.layout i.toNat = some (part.startLba.toNat, part.endLba.toNat) ∨
      ∀ j r, j ≠ i.toNat → schem.layout j = some r →
        Disjoint (Set.Icc part.startLba.toNat part.endLba.toNat) (Set.Icc r.1 r.2) := by
  cases h with
  | delete => exact absurd hu (by simp [partIsUsed_zero])
  | boot _ hused => exact Or.inl (Schem.layout_of_used ⟨hi, hused⟩)
  | typeMbr _ _ hused => exact Or.inl (Schem.layout_of_used ⟨hi, hused⟩)
  | typeGpt _ _ _ _ hused => exact Or.inl (Schem.layout_of_used ⟨hi, hused⟩)
  | keep _ hused => exact Or.inl (Schem.layout_of_used ⟨hi, hused⟩)
  | alter part startLba endLba _ _ _ hfree =>
    refine Or.inr fun j r hj hr => ?_
    obtain ⟨hused, rfl⟩ := Schem.layout_some hr
    exact disjoint_of_not_overlaps
      (no_overlap_of_neg hcnt hfree j hused.1 ((considers_iff rfl hused.1).2 ⟨hj, hused⟩))

lemma Schem.layout_of_zero {i : ℕ} (h : schem.table i = SchemPart.zero) :
    schem.layout i = none :=
  if_neg fun hu => by simp [h, partIsUsed_zero] at hu

/-- In new schemes there is one partition at most. -/
lemma schemCtxNew_single (sc : SchemCtx) (ctx : ImgCtx) (u t : SchemType) (r : Rng) {i : ℕ}
    (hi : i ≠ 0) : (schemCtxNew sc ctx u r).2.1.layout t i = none := by
  cases u <;> cases t <;> try rfl
  · exact Schem.layout_of_zero rfl
  · exact Schem.layout_of_zero (schemMbrSetProt_table_of_ne _ hi)
  · exact Schem.layout_of_zero rfl

/-- No command makes partitions meet. -/
lemma ActionSpec.meets {a : Action} {L₀ : SchemType → ℕ → Option (ℕ × ℕ)}
    (hp : p.sc.WellFormed) (hmeets : ∀ t, MeetsFrom (L₀ t) (p.sc.layout t))
    (h : ActionSpec sys ctx p a) (t : SchemType) : MeetsFrom (L₀ t) (a.prog.sc.layout t) := by
  -- the scheme of one type changes
  have hset : ∀ {u : SchemType} {schem : Schem}, MeetsFrom (L₀ u) schem.layout →
      MeetsFrom (L₀ t) ((p.sc.setSchem u (some schem)).layout t) := by
    intro u schem hu
    rcases eq_or_ne t u with rfl | htu
    · cases t with
      | cnt => exact hmeets .cnt
      | mbr => exact hu
      | gpt => exact hu
    · rw [SchemCtx.layout_congr (schemes_setSchem_of_ne _ htu)]
      exact hmeets t
  cases h with
  | keep hsc =>
    rw [hsc]
    exact hmeets t
  | edit schem schem' e hcur hspec hsc =>
    have hold := hmeets p.schemCurT
    rw [SchemCtx.layout_of_some hcur] at hold
    rw [hsc]
    cases e with
    | refused why =>
      rw [show schem' = schem from hspec]
      exact hset hold
    | accepted i =>
      obtain ⟨hi, part, hpart, rfl⟩ := hspec
      have hcnt : schem.partCnt.toNat < 2 ^ 63 := by
        have hform := hp.formed _ schem hcur
        have := hform.partCnt
        rw [hform.tableLen] at this
        refine this.trans_lt ?_
        cases p.schemCurT <;> decide
      refine hset ?_
      rw [Schem.layout_setPart hi]
      refine hold.update fun r hr => ?_
      split_ifs at hr with hu
      obtain rfl := Option.some.inj hr
      exact hpart.apart hcnt hi hu
  | new u _ hsc =>
    rw [hsc]
    exact .single fun i hi => schemCtxNew_single p.sc ctx u t p.rng hi
  | resetProt mbr hmbr hsc =>
    rw [hsc]
    exact hset (.single fun i hi => Schem.layout_of_zero (schemMbrSetProt_table_of_ne _ hi))
  | write hsc =>
    rw [hsc, SchemCtx.layout_congr (congrFun (schemCtxSave_schemes sys p.sc ctx) t)]
    exact hmeets t

/-- The current scheme of a context that is loaded again has the same layout. -/
lemma SchemCtx.Again.layout_eq (h : sc.Again sc') (hwf : sc.WellFormed) (hwf' : sc'.WellFormed) :
    sc'.layout (schemCtxGetType sc') = sc.layout (schemCtxGetType sc) := by
  cases hs : sc.schemes (schemCtxGetType sc) with
  | some schem =>
    obtain ⟨schem', hs', hlay⟩ := h.layout hwf hwf' hs
    rw [SchemCtx.layout_of_some hs, SchemCtx.layout_of_some hs', hlay]
  | none =>
    have ht : schemCtxGetType sc = .cnt := by
      obtain hsel | ⟨ht, -⟩ := selected_of_getType (p := ⟨sc, schemCtxGetType sc, [], zeroRng,
        zeroImage⟩) rfl
      exacts [absurd hs hsel, ht]
    rw [h.type, ht]
    rfl

/-- **No partitions are made to meet.**  On an image that loads, whatever its partitions are, on
any input and any platform: wherever two partitions share a sector at a prompt, the load has
found both of them with the same ranges.  So does, for the scheme that is current then, a load
after a save that succeeds; where there is no GPT to save, if no header of the image that was
loaded at first lies over the boot record. -/
theorem meets_of_prompt (hctx : imgCtxValidate ctx = .ok) (hs : sys.Serves ctx)
    (hal : 1 ≤ ctx.align.toNat) (m : Image) (sc : SchemCtx) (r : Rng)
    (hload : (schemCtxLoad sys m sc ctx r).res = .ok) (inp : Input) (fuel : ℕ)
    (plats : List Sys) (hplats : ∀ s ∈ plats, s.pgSz = sys.pgSz) {p : Prog}
    (hp : AtPrompt fuel ctx plats (startProg (schemCtxLoad sys m sc ctx r) inp m) p) :
    (∀ t, MeetsFrom ((schemCtxLoad sys m sc ctx r).sc.layout t) (p.sc.layout t)) ∧
    ∀ sys', sys'.pgSz = sys.pgSz → (p.sc.schemGpt = none → ClearOfMbr m ctx) →
      (schemCtxSave sys' p.sc ctx).res = .ok → ∀ sc₁ r₁,
      let l := schemCtxLoad sys (stores p.img (schemCtxSave sys' p.sc ctx).stores) sc₁ ctx r₁
      l.res = .ok ∧ schemCtxGetType l.sc = schemCtxGetType p.sc ∧
        MeetsFrom ((schemCtxLoad sys m sc ctx r).sc.layout (schemCtxGetType l.sc))
          (l.sc.layout (schemCtxGetType l.sc)) := by
  have hv := (imgCtxValidate_ok_iff ctx).1 hctx
  have hmeets : ∀ t, MeetsFrom ((schemCtxLoad sys m sc ctx r).sc.layout t) (p.sc.layout t) := by
    refine hp.invariant (P := fun p => ∀ t,
      MeetsFrom ((schemCtxLoad sys m sc ctx r).sc.layout t) (p.sc.layout t)) ?_ fun t => .refl _
    intro sys' _ p a hhead hp ha _
    exact (actionHandle_spec ha).1.meets (p := p.readLine)
      (AtPrompt.wellFormed hhead (startProg_wellFormed hload inp m)).sc hp
  refine ⟨hmeets, fun sys' hpg hclear hsave sc₁ r₁ => ?_⟩
  have hsavable : p.Savable := hp.savable hv hal (.start hv hs hload inp)
  obtain ⟨hres, hagain⟩ := hp.reload hv hal hs hload hplats hclear hpg hsave sc₁ r₁
  refine ⟨hres, hagain.type, ?_⟩
  rw [hagain.layout_eq hsavable.wellFormed.sc (schemCtxLoad_wellFormed hres), hagain.type]
  exact hmeets _

/-- A boot record with two partitions that share sectors. -/
def crossedMbr : Mbr where
  diskSig := 0
  partitions i :=
    if i = 0 then ⟨0, 0, 0x83, 0, 100, 100⟩
    else if i = 1 then ⟨0, 0, 0x83, 0, 150, 100⟩
    else ⟨0, 0, 0, 0, 0, 0⟩

def crossedImage : Image := stores zeroImage (mbrWrite 0 crossedMbr)

/-- The scheme that is found there. -/
def crossed : Schem := mbrToSchem (schemNew .mbr) (mbrRead crossedImage 0) smallCtx

lemma crossedImage_zero {b : ℕ} (h : ¬ InMbr b) : crossedImage b = 0 := by
  refine stores_of_forall_ne (fun s hs => ?_) zeroImage
  rintro rfl
  exact h (mem_mbrWrite hs)

lemma crossedImage_clear : ClearOfMbr crossedImage smallCtx := by
  rintro lba (rfl | rfl) hdr hhdr <;>
    exact absurd hhdr (not_hdrAt_of_zero (crossedImage_zero (by unfold InMbr; decide)) hdr)

lemma crossedImage_load :
    (schemCtxLoad plainSys crossedImage schemCtxInit smallCtx zeroRng).res = .ok ∧
      (schemCtxLoad plainSys crossedImage schemCtxInit smallCtx zeroRng).sc =
        ⟨some crossed, none, true, false⟩ := by
  have hv := (imgCtxValidate_ok_iff _).1 smallCtx_valid
  obtain ⟨hres, hsc⟩ := schemCtxLoad_of_zero hv smallCtx_serves
    (fun _ => crossedImage_zero) schemCtxInit zeroRng
  have hfound : mbrFound crossedImage smallCtx = some crossed :=
    if_pos (mbrIsPresent_stores _ _)
  rw [hfound] at hsc
  exact ⟨hres, hsc⟩

/-- The second partition is deleted. -/
def crossedInput : Input := [.line ['d', '\n'], numLine 2]

lemma crossed_delete {l : CtxLoad} (hl : l.sc = ⟨some crossed, none, true, false⟩) :
    ∃ a, actionHandle 0 plainSys smallCtx (startProg l crossedInput crossedImage).readLine 'd' =
        some a ∧ a.res = .cont ∧ a.edit = some (.accepted 1) ∧
      a.prog.sc = ⟨some (crossed.setPart 1 SchemPart.zero), none, true, false⟩ := by
  obtain ⟨res, sc, r, reads⟩ := l
  obtain rfl : sc = _ := hl
  have hline : Types (decimal 2 ++ ['\n']) (1 + 1) := types_numLine (n := 2) (by decide)
  have hdel : pmPartDelete ⟨crossed, [numLine 2], r⟩ =
      (.accepted 1, ⟨crossed.setPart 1 SchemPart.zero, [], r⟩) :=
    pmPartDelete_typed [] r (by decide) (by decide) hline
  refine ⟨⟨⟨⟨some (crossed.setPart 1 SchemPart.zero), none, true, false⟩, .mbr, [], r,
    crossedImage⟩, .cont, some (.accepted 1)⟩, ?_, rfl, rfl, rfl⟩
  have hact : actionHandle 0 plainSys smallCtx (startProg
      ⟨res, ⟨some crossed, none, true, false⟩, r, reads⟩ crossedInput crossedImage).readLine 'd' =
        actionEdit (startProg ⟨res, ⟨some crossed, none, true, false⟩, r, reads⟩ crossedInput
          crossedImage).readLine fun ed => some (pmPartDelete ed) := rfl
  rw [hact, actionEdit]
  show Option.map _ (some (pmPartDelete ⟨crossed, [numLine 2], r⟩)) = _
  rw [hdel]
  rfl

/-- Where two partitions meet, one of them is deleted. -/
theorem meets_of_prompt_small : ∃ p : Prog,
    (schemCtxLoad plainSys crossedImage schemCtxInit smallCtx zeroRng).sc.layout .mbr 0 =
      some (100, 199) ∧
    (schemCtxLoad plainSys crossedImage schemCtxInit smallCtx zeroRng).sc.layout .mbr 1 =
      some (150, 249) ∧ p.sc.layout .mbr 1 = none ∧
    (∀ t, MeetsFrom
      ((schemCtxLoad plainSys crossedImage schemCtxInit smallCtx zeroRng).sc.layout t)
      (p.sc.layout t)) ∧
    ∀ sys', sys'.pgSz = plainSys.pgSz → (schemCtxSave sys' p.sc smallCtx).res = .ok → ∀ sc₁ r₁,
      let l := schemCtxLoad plainSys (stores p.img (schemCtxSave sys' p.sc smallCtx).stores) sc₁
        smallCtx r₁
      l.res = .ok ∧ schemCtxGetType l.sc = schemCtxGetType p.sc ∧
        MeetsFrom ((schemCtxLoad plainSys crossedImage schemCtxInit smallCtx zeroRng).sc.layout
          (schemCtxGetType l.sc)) (l.sc.layout (schemCtxGetType l.sc)) := by
  obtain ⟨hload, hsc⟩ := crossedImage_load
  obtain ⟨a, ha, hres, -, hasc⟩ := crossed_delete hsc
  have hp : AtPrompt 0 smallCtx [plainSys] (startProg
      (schemCtxLoad plainSys crossedImage schemCtxInit smallCtx zeroRng) crossedInput crossedImage)
        a.prog := by
    refine .single ⟨plainSys, by simp, ?_⟩
    have hpass : routinePass 0 smallCtx plainSys (startProg
        (schemCtxLoad plainSys crossedImage schemCtxInit smallCtx zeroRng) crossedInput
          crossedImage) = (actionHandle 0 plainSys smallCtx (startProg
        (schemCtxLoad plainSys crossedImage schemCtxInit smallCtx zeroRng) crossedInput
          crossedImage).readLine 'd').map Action.pass := rfl
    rw [hpass, ha, Option.map_some, Action.pass, hres]
  obtain ⟨hmeets, hreload⟩ := meets_of_prompt smallCtx_valid smallCtx_serves (by decide)
    crossedImage schemCtxInit zeroRng hload crossedInput 0 [plainSys] (by simp) hp
  refine ⟨a.prog, ?_, ?_, ?_, hmeets,
    fun sys' hpg hsave => hreload sys' hpg (fun _ => crossedImage_clear) hsave⟩
  · rw [hsc]
    decide
  · rw [hsc]
    decide
  · rw [hasc]
    decide

/-! ## Entries that are left alone -/

/-- The states in which no command so far has edited the entry `i` of the scheme of type `t`,
or has replaced the scheme. -/
inductive Spares (fuel : ℕ) (ctx : ImgCtx) (plats : List Sys) (t : SchemType) (i : ℕ)
    (p₀ : Prog) : Prog → Prop
  | start : Spares fuel ctx plats t i p₀ p₀
  | pass {p : Prog} {sys : Sys} {a : Action} (h : Spares fuel ctx plats t i p₀ p)
      (hsys : sys ∈ plats)
      (ha : actionHandle fuel sys ctx p.readLine (lineSym p.inp) = some a)
      (hres : a.res = .cont) (hnew : lineSym p.inp ≠ 'o' ∧ lineSym p.inp ≠ 'g')
      (hedit : p.schemCurT = t → ∀ k, a.edit = some (.accepted k) → i ≠ k.toNat) :
      Spares fuel ctx plats t i p₀ a.prog

/-- The entry `i` of the current scheme, of type `t`, is the one of `schem₀`. -/
structure SchemCtx.Spared (t : SchemType) (i : ℕ) (schem₀ : Schem) (sc : SchemCtx) : Prop where
  type : schemCtxGetType sc = t
  scheme : ∃ schem, sc.schemes t = some schem ∧ schem₀.SameFrame schem ∧
    schem.table i = schem₀.table i

lemma SchemCtx.Spared.congr {i : ℕ} {schem₀ : Schem} (h : sc.Spared t i schem₀)
    (heq : sc'.schemes = sc.schemes) : sc'.Spared t i schem₀ := by
  refine ⟨?_, heq ▸ h.scheme⟩
  have hgpt : sc'.schemGpt = sc.schemGpt := congrFun heq .gpt
  have hmbr : sc'.schemMbr = sc.schemMbr := congrFun heq .mbr
  rw [← h.type, schemCtxGetType, schemCtxGetType, hgpt, hmbr]

lemma schemCtxGetType_setSchem (h : sc.schemes t ≠ none) (schem : Schem) :
    schemCtxGetType (sc.setSchem t (some schem)) = schemCtxGetType sc := by
  cases t with
  | cnt => rfl
  | mbr =>
    have hmbr : sc.schemMbr.isSome = true := Option.isSome_iff_ne_none.2 h
    simp [schemCtxGetType, SchemCtx.setSchem, hmbr]
  | gpt =>
    have hgpt : sc.schemGpt.isSome = true := Option.isSome_iff_ne_none.2 h
    simp [schemCtxGetType, SchemCtx.setSchem, hgpt]

/-- A scheme is replaced by one with the same entry `i`, if it is the current one. -/
lemma SchemCtx.Spared.setSchem {i : ℕ} {schem₀ schem schem' : Schem} {u : SchemType}
    (h : sc.Spared t i schem₀) (hu : sc.schemes u = some schem)
    (hsame : u = t → schem.SameFrame schem' ∧ schem'.table i = schem.table i) :
    (sc.setSchem u (some schem')).Spared t i schem₀ := by
  refine ⟨(schemCtxGetType_setSchem (by simp [hu]) schem').trans h.type, ?_⟩
  obtain ⟨schem₁, hs, hframe, htable⟩ := h.scheme
  rcases eq_or_ne u t with rfl | hut
  · obtain rfl := Option.some.inj (hu.symm.trans hs)
    obtain ⟨hframe', htable'⟩ := hsame rfl
    refine ⟨schem', schemes_setSchem_self _ ?_, hframe.trans hframe', htable'.trans htable⟩
    rintro rfl
    exact Option.some_ne_none _ hu.symm
  · exact ⟨schem₁, (schemes_setSchem_of_ne _ hut.symm).trans hs, hframe, htable⟩

lemma Spares.savable {i : ℕ} (hv : ctx.Valid) (hal : 1 ≤ ctx.align.toNat)
    (h : Spares fuel ctx plats t i p₀ p) (h0 : p₀.Savable) : p.Savable := by
  induction h with
  | start => exact h0
  | pass _ _ ha hres _ _ ih => exact ih.readLine.action hv hal ha hres

lemma Spares.kept {i : ℕ} (hv : ctx.Valid) (hal : 1 ≤ ctx.align.toNat) (hs : sys.Serves ctx)
    (hplats : ∀ s ∈ plats, s.pgSz = sys.pgSz) (h : Spares fuel ctx plats t i p₀ p)
    (h0 : p₀.Kept sys ctx) : p.Kept sys ctx := by
  induction h with
  | start => exact h0
  | pass _ hsys ha hres _ _ ih => exact ih.readLine.action hv hal hs (hplats _ hsys) ha hres

/-- The entry `part'` has what a scheme of type `t` stores of the entry `part`. -/
def SchemPart.Same (t : SchemType) (part part' : SchemPart) : Prop :=
  match t with
  | .gpt => part.SameGptPart part'
  | _ => part'.typeI = part.typeI ∧ part'.bootInd = part.bootInd ∧
      part'.startLba = part.startLba ∧ part'.endLba = part.endLba

/-- An entry of the current scheme is found again. -/
lemma SchemCtx.Again.same {i : ℕ} (h : sc.Again sc') (hwf : sc.WellFormed)
    (hwf' : sc'.WellFormed) (htype : schemCtxGetType sc = t) (hs : sc.schemes t = some schem)
    (hi : i < schem.partCnt.toNat) :
    ∃ schem', sc'.schemes t = some schem' ∧
      schem'.partIsUsed (schem'.table i) = schem.partIsUsed (schem.table i) ∧
      (schem.partIsUsed (schem.table i) = true → (schem.table i).Same t (schem'.table i)) := by
  cases t with
  | cnt => exact absurd hs (by simp [SchemCtx.schemes])
  | gpt =>
    obtain ⟨schem', hs', hagain⟩ := h.gpt schem hs
    have hf := (hwf.formed .gpt schem hs).funcs
    have hf' := (hwf'.formed .gpt schem' hs').funcs
    refine ⟨schem', hs', ?_, fun hu => hagain.part i hi ?_⟩
    · simp only [Schem.partIsUsed, hf, hf']
      exact hagain.used i hi
    · simpa only [Schem.partIsUsed, hf] using hu
  | mbr =>
    have hgpt : sc.schemGpt = none := by
      rw [schemCtxGetType] at htype
      split_ifs at htype with hg
      simpa using hg
    obtain ⟨schem', hs', hagain⟩ := h.mbr schem hs (Or.inl hgpt)
    have hf := (hwf.formed .mbr schem hs).funcs
    have hf' := (hwf'.formed .mbr schem' hs').funcs
    refine ⟨schem', hs', ?_, fun hu => hagain.part i hi ?_⟩
    · simp only [Schem.partIsUsed, hf, hf']
      exact hagain.used i hi
    · simpa only [Schem.partIsUsed, hf] using hu

end Partman

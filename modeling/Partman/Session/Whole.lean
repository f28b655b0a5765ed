/-
# From what is typed in to what is found again

A session on a platform that serves the image can make a new scheme, draw any layout in it
and write it; the next session then finds a scheme of that type with that layout.
-/
import Partman.Session.Layouts

namespace Partman

open Lib

variable {sys sys' : Sys} {ctx : ImgCtx} {fuel : ℕ} {plats : List Sys} {m : Image}
  {sc : SchemCtx} {p p₀ : Prog} {schem : Schem}

/-! ## Saves that succeed -/

lemma gptEraseAt_of_serves (hv : ctx.Valid) (hs : sys.Serves ctx) {lba : Plba}
    (hin : ctx.Inside lba 1) : (gptEraseAt sys ctx lba).1 = .ok := by
  rw [gptEraseAt, mapSecs_of_serves hv hs hin (window_one sys ctx lba)]
  exact unmapSecs_of_serves hv hs hin (window_one sys ctx lba)

lemma schemRemoveGpt_of_serves (hv : ctx.Valid) (hs : sys.Serves ctx) :
    (schemRemoveGpt sys ctx).1 = .ok := by
  have hprim := gptEraseAt_of_serves hv hs (inside_one hv)
  have hsec := gptEraseAt_of_serves hv hs (imgLastLba_inside hv)
  rw [schemRemoveGpt_eq]
  generalize gptEraseAt sys ctx 1 = r at hprim
  obtain ⟨res, ss⟩ := r
  obtain rfl : res = .ok := hprim
  exact hsec

lemma removal_of_serves (hv : ctx.Valid) (hs : sys.Serves ctx) {t : SchemType} (ht : t ≠ .cnt) :
    (removal sys sc ctx t).1 ≠ .fail := by
  rw [removal]
  split_ifs
  · cases t with
    | mbr => simp [funcsRemove, schemRemoveMbr, mbrSave_of_serves hv hs]
    | gpt => simp [funcsRemove, schemRemoveGpt_of_serves hv hs]
    | cnt => exact absurd rfl ht
  · simp

/-- On a platform that serves the image and flushes it, a save succeeds, unless a GPT without
entries is to be written. -/
lemma schemCtxSave_of_serves (hv : ctx.Valid) (hs : sys.Serves ctx) (hsync : sys.fsyncOk = true)
    (hwf : sc.WellFormed) (hcnt : ∀ gpt, sc.schemGpt = some gpt → gpt.partCnt ≠ 0) :
    (schemCtxSave sys sc ctx).res = .ok := by
  have hsavM : (saving sys sc ctx .mbr).1 ≠ .fail := by
    cases hm : sc.schemMbr with
    | none => simp [saving_none .mbr hm]
    | some mbr => simp [saving_mbr hm (hwf.funcs.1 mbr hm), mbrSave_of_serves hv hs]
  have hsavG : (saving sys sc ctx .gpt).1 ≠ .fail := by
    cases hg : sc.schemGpt with
    | none => simp [saving_none .gpt hg]
    | some gpt =>
      obtain ⟨hfuncs, hle⟩ := hwf.funcs.2 gpt hg
      rw [saving_gpt hg hfuncs, schemSaveGpt_of_serves hv hs hle
        ((tableWindow_iff hv sys hle rfl).2 (Or.inl (hcnt gpt hg)))
        ((tableWindow_iff hv sys hle rfl).2 (Or.inl (hcnt gpt hg)))]
      simp
  rw [schemCtxSave_eq, if_neg (removal_of_serves hv hs (by decide)),
    if_neg (removal_of_serves hv hs (by decide)), if_neg hsavM, if_neg hsavG]
  exact if_pos hsync

/-! ## The layout that is found again -/

lemma Schem.GptAgain.layout {schem' : Schem} (h : schem.GptAgain schem')
    (hf : schem.funcs = .gpt) (hf' : schem'.funcs = .gpt) : schem'.layout = schem.layout := by
  funext i
  by_cases hi : i < schem.partCnt.toNat
  · rw [Schem.layout, Schem.layout, h.partCnt, Schem.partIsUsed, Schem.partIsUsed, hf, hf']
    simp only [h.used i hi]
    by_cases hu : schemPartIsUsedGpt (schem.table i) = true
    · obtain ⟨-, -, hs, he, -, -⟩ := h.part i hi hu
      rw [if_pos ⟨hi, hu⟩, if_pos ⟨hi, hu⟩, hs, he]
    · rw [if_neg (fun hc => hu hc.2), if_neg (fun hc => hu hc.2)]
  · rw [Schem.layout, Schem.layout, h.partCnt, if_neg (fun hc => hi hc.1),
      if_neg (fun hc => hi hc.1)]

lemma Schem.MbrAgain.layout {schem' : Schem} (h : schem.MbrAgain schem')
    (hf : schem.funcs = .mbr) (hf' : schem'.funcs = .mbr) : schem'.layout = schem.layout := by
  funext i
  by_cases hi : i < schem.partCnt.toNat
  · rw [Schem.layout, Schem.layout, h.partCnt, Schem.partIsUsed, Schem.partIsUsed, hf, hf']
    simp only [h.used i hi]
    by_cases hu : schemPartIsUsedMbr (schem.table i) = true
    · obtain ⟨-, -, hs, he⟩ := h.part i hi hu
      rw [if_pos ⟨hi, hu⟩, if_pos ⟨hi, hu⟩, hs, he]
    · rw [if_neg (fun hc => hu hc.2), if_neg (fun hc => hu hc.2)]
  · rw [Schem.layout, Schem.layout, h.partCnt, if_neg (fun hc => hi hc.1),
      if_neg (fun hc => hi hc.1)]

/-- Where a context is loaded again, the scheme of its type has the same layout. -/
lemma SchemCtx.Again.layout {sc' : SchemCtx} (h : sc.Again sc') (hwf : sc.WellFormed)
    (hwf' : sc'.WellFormed) (hs : sc.schemes (schemCtxGetType sc) = some schem) :
    ∃ schem', sc'.schemes (schemCtxGetType sc') = some schem' ∧ schem'.layout = schem.layout := by
  rw [h.type]
  cases hg : sc.schemGpt with
  | some gpt =>
    have ht : schemCtxGetType sc = .gpt := by simp [schemCtxGetType, hg]
    rw [ht] at hs ⊢
    obtain rfl := Option.some.inj (hg.symm.trans hs)
    obtain ⟨gpt', hg', hagain⟩ := h.gpt gpt hg
    exact ⟨gpt', hg', hagain.layout (hwf.funcs.2 gpt hg).1 (hwf'.funcs.2 gpt' hg').1⟩
  | none =>
    cases hm : sc.schemMbr with
    | none => simp [schemCtxGetType, hg, hm, SchemCtx.schemes] at hs
    | some mbr =>
      have ht : schemCtxGetType sc = .mbr := by simp [schemCtxGetType, hg, hm]
      rw [ht] at hs ⊢
      obtain rfl := Option.some.inj (hm.symm.trans hs)
      obtain ⟨mbr', hm', hagain⟩ := h.mbr mbr hm (Or.inl hg)
      exact ⟨mbr', hm', hagain.layout (hwf.funcs.1 mbr hm) (hwf'.funcs.1 mbr' hm')⟩

/-! ## The session -/

/-- The line that makes a new scheme. -/
def newLine (t : SchemType) : Fgets :=
  match t with
  | .mbr => .line ['o', '\n']
  | _ => .line ['g', '\n']

lemma routinePass_new {t : SchemType} (ht : t ≠ .cnt) (sys : Sys) (ctx : ImgCtx) (fuel : ℕ)
    (rest : Input) (hinp : p.inp = newLine t :: rest) :
    routinePass fuel ctx sys p = some (.again { p with
      sc := (schemCtxNew p.sc ctx t p.rng).2.1, rng := (schemCtxNew p.sc ctx t p.rng).2.2,
      schemCurT := t, inp := rest }) := by
  obtain ⟨sc, cur, inp, rng, m⟩ := p
  obtain rfl : inp = _ := hinp
  cases t with
  | mbr => rfl
  | gpt => rfl
  | cnt => exact absurd rfl ht

/-- From every load the loop gives, on lines that can be typed in, a state with a scheme of any
type and any layout. -/
lemma exists_drawn_of_load (hv : ctx.Valid) (hal : 1 ≤ ctx.align.toNat)
    (himg : ctx.secs + ctx.align.toNat < 2 ^ 63) (hfuel : 2 ^ 65 ≤ fuel) (sys : Sys)
    (l : CtxLoad) (m : Image) {t : SchemType} (ht : t ≠ .cnt) {L : ℕ → Option (ℕ × ℕ)} {r : Rng}
    (hL : (schemNewInit t ctx r).1.Holds L) :
    ∃ lines, TypedIn lines ∧ ∀ rest, ∃ p schem,
      AtPrompt fuel ctx [sys] (startProg l (lines ++ rest) m) p ∧ p.sc.Framed ctx ∧
      schemCtxGetType p.sc = t ∧ p.sc.schemes t = some schem ∧ p.inp = rest ∧
      schem.layout = L := by
  have hL' : (schemNewInit t ctx l.rng).1.Holds L :=
    (schemNewInit_frame t ctx r l.rng).holds_iff.2 hL
  obtain ⟨lines, htyped, hlines⟩ := exists_drawn_of_new hv hal himg hfuel l.sc ht l.rng
    (schemCtxNew l.sc ctx t l.rng).2.2 m sys hL'
  refine ⟨newLine t :: lines, ?_, fun rest => ?_⟩
  · cases t with
    | mbr => exact .cons (l := ['o']) (by decide) (by decide) htyped
    | gpt => exact .cons (l := ['g']) (by decide) (by decide) htyped
    | cnt => exact absurd rfl ht
  · obtain ⟨p, schem, hat, hsc, hframed, hinp, hlay⟩ := hlines rest
    refine ⟨p, schem, .head ⟨sys, by simp, routinePass_new ht sys ctx fuel _ rfl⟩ hat, hframed,
      ?_, ?_, hinp, hlay⟩
    · rw [hsc]
      cases t with
      | mbr => rfl
      | gpt => rfl
      | cnt => exact absurd rfl ht
    · rw [hsc, schemes_setSchem_self _ ht]

/-- The lines that write the schemes and end the session. -/
def saveLines : Input := [.line ['w', '\n'], .line ['q', '\n']]

lemma typedIn_saveLines : TypedIn saveLines :=
  .cons (l := ['w']) (by decide) (by decide) (.cons (l := ['q']) (by decide) (by decide) .nil)

/-- The state is written, and the session ends. -/
lemma AtPrompt.save_quit {l : CtxLoad} {lines : Input}
    (hat : AtPrompt fuel ctx [sys] (startProg l lines m) p) (hinp : p.inp = saveLines)
    (hsave : (schemCtxSave sys p.sc ctx).res = .ok) : ∃ n q,
      routineStart fuel ctx (List.replicate n sys) (startProg l lines m) = some (.ok, q) ∧
      q.img = stores p.img (schemCtxSave sys p.sc ctx).stores := by
  have hw : routinePass fuel ctx sys p =
      some (.again (actionWrite sys ctx p.readLine).prog) := by
    refine routinePass_write ?_ ?_ hsave <;> rw [hinp] <;> rfl
  have hq : routinePass fuel ctx sys (actionWrite sys ctx p.readLine).prog =
      some (.exit (.ok, (actionWrite sys ctx p.readLine).prog.readLine)) := by
    have hrest : (actionWrite sys ctx p.readLine).prog.inp = [.line ['q', '\n']] := by
      rw [actionWrite, Prog.readLine, hinp]
      rfl
    generalize (actionWrite sys ctx p.readLine).prog = q at hrest
    obtain ⟨sc, cur, inp, rng, img⟩ := q
    obtain rfl : inp = _ := hrest
    rfl
  obtain ⟨n, hn⟩ := AtHead.loop_eq hat
  refine ⟨n + 2, (actionWrite sys ctx p.readLine).prog.readLine, ?_,
    actionWrite_img sys ctx p.readLine⟩
  have hstart : routineStart fuel ctx (List.replicate n sys ++ [sys, sys])
      (startProg l lines m) = loop (routinePass fuel ctx) (List.replicate n sys ++ [sys, sys])
        (startProg l lines m) := rfl
  rw [List.replicate_add, show List.replicate 2 sys = [sys, sys] from rfl, hstart, hn,
    loop_again hw, loop_exit hq]

/-- A session on lines that can be typed in, from every load whose flags are right. -/
lemma exists_session_of_kept (hv : ctx.Valid) (hs : sys.Serves ctx) (hsync : sys.fsyncOk = true)
    (hal : 1 ≤ ctx.align.toNat) (himg : ctx.secs + ctx.align.toNat < 2 ^ 63)
    (hfuel : 2 ^ 65 ≤ fuel) {l : CtxLoad} (hkept : ∀ inp, (startProg l inp m).Kept sys ctx)
    {t : SchemType} (ht : t ≠ .cnt) {L : ℕ → Option (ℕ × ℕ)} {r : Rng}
    (hL : (schemNewInit t ctx r).1.Holds L) :
    ∃ lines, TypedIn lines ∧ ∃ n q, routineStart fuel ctx (List.replicate n sys)
        (startProg l lines m) = some (.ok, q) ∧
      ∀ sc₁ r₁, (schemCtxLoad sys q.img sc₁ ctx r₁).res = .ok ∧
        schemCtxGetType (schemCtxLoad sys q.img sc₁ ctx r₁).sc = t ∧
        ∃ schem, (schemCtxLoad sys q.img sc₁ ctx r₁).sc.schemes t = some schem ∧
          schem.layout = L := by
  obtain ⟨lines, htyped, hlines⟩ := exists_drawn_of_load hv hal himg hfuel sys l m ht hL
  obtain ⟨p, schem, hat, hframed, htype, hsc, hinp, hlay⟩ := hlines saveLines
  have hkept' := hat.kept hv hal hs (by simp) (hkept _)
  have hsave : (schemCtxSave sys p.sc ctx).res = .ok := by
    refine schemCtxSave_of_serves hv hs hsync hkept'.wellFormed.sc fun gpt hg => ?_
    have hcnt : gpt.partCnt = gptMaxPartCnt := (hframed .gpt gpt hg).partCnt
    rw [hcnt]
    decide
  obtain ⟨n, q, hrun, hqimg⟩ := hat.save_quit hinp hsave
  refine ⟨_, htyped.append typedIn_saveLines, n, q, hrun, fun sc₁ r₁ => ?_⟩
  rw [hqimg]
  -- what is written is loaded again
  obtain ⟨hres, hagain⟩ := hkept'.reload hv hs rfl hsave sc₁ r₁
  obtain ⟨schem', hs', hlay'⟩ := hagain.layout hkept'.wellFormed.sc
    (schemCtxLoad_wellFormed hres) (htype.symm ▸ hsc)
  have htype' := hagain.type.trans htype
  exact ⟨hres, htype', schem', htype' ▸ hs', hlay'.trans hlay⟩

/-- **From what is typed in to what is found again.**  On an image that loads, and whose headers
do not lie over the boot record, there is for each type and every layout between the usable
sectors of a new scheme of that type an input on which the session ends without an error and
leaves an image from which any later load succeeds, with a scheme of that type and that layout
as the current one. -/
theorem exists_session_of_layout (hctx : imgCtxValidate ctx = .ok) (hs : sys.Serves ctx)
    (hsync : sys.fsyncOk = true) (hal : 1 ≤ ctx.align.toNat)
    (himg : ctx.imgSz.toNat / ctx.secSz.toNat + ctx.align.toNat < 2 ^ 63)
    (hfuel : 2 ^ 65 ≤ fuel) (m : Image) (sc : SchemCtx) (r : Rng)
    (hload : (schemCtxLoad sys m sc ctx r).res = .ok) (hclear : ClearOfMbr m ctx)
    {t : SchemType} (ht : t ≠ .cnt) (L : ℕ → Option (ℕ × ℕ))
    (hL : (schemNewInit t ctx r).1.Holds L) :
    ∃ lines n q, routineStart fuel ctx (List.replicate n sys)
        (startProg (schemCtxLoad sys m sc ctx r) lines m) = some (.ok, q) ∧
      ∀ sc₁ r₁, (schemCtxLoad sys q.img sc₁ ctx r₁).res = .ok ∧
        schemCtxGetType (schemCtxLoad sys q.img sc₁ ctx r₁).sc = t ∧
        ∃ schem, (schemCtxLoad sys q.img sc₁ ctx r₁).sc.schemes t = some schem ∧
          schem.layout = L := by
  have hv := (imgCtxValidate_ok_iff ctx).1 hctx
  obtain ⟨lines, -, hrun⟩ := exists_session_of_kept hv hs hsync hal himg hfuel
    (fun inp => .start hv hs hload hclear inp) ht hL
  exact ⟨lines, hrun⟩

/-- The two partitions, drawn on the image of zeros. -/
theorem exists_session_of_layout_small : ∃ lines n q,
    routineStart (2 ^ 65) smallCtx (List.replicate n plainSys) (startProg
      (schemCtxLoad plainSys zeroImage schemCtxInit smallCtx zeroRng) lines zeroImage) =
        some (.ok, q) ∧
    ∀ sc₁ r₁, (schemCtxLoad plainSys q.img sc₁ smallCtx r₁).res = .ok ∧
      schemCtxGetType (schemCtxLoad plainSys q.img sc₁ smallCtx r₁).sc = .gpt ∧
      ∃ schem, (schemCtxLoad plainSys q.img sc₁ smallCtx r₁).sc.schemes .gpt = some schem ∧
        schem.layout = twoRanges :=
  exists_session_of_layout smallCtx_valid smallCtx_serves rfl (by decide) (by decide)
    le_rfl zeroImage schemCtxInit zeroRng schemCtxLoad_zeroImage.1 zeroImage_clear (by decide)
    twoRanges (twoRanges_holds (by decide))

end Partman

/-
# What a session touches, and that it ends

Whatever is loaded and whatever is typed in, a save stores to the boot record, to the two
headers and to the two tables of a GPT, and to nothing else of the image; and from a context
whose schemes are in order every session comes to its end, since each pass of the loop reads
a line.
-/
import Partman.Session.Restart

namespace Partman

open Lib

variable {sys : Sys} {ctx : ImgCtx} {fuel : ℕ} {plats : List Sys} {m : Image}
  {sc : SchemCtx} {p p₀ : Prog}

/-! ## The bytes that are stored -/

/-- The bytes of the image that the program may store: the disk signature, the partitions and
the boot signature of the boot record, two headers, and two tables of 128 entries. -/
def InAreas (ctx : ImgCtx) (a : ℕ) : Prop :=
  InMbr a ∨ a ∈ Set.Ico ctx.primHdrOff (ctx.primHdrOff + 92) ∨
    a ∈ Set.Ico ctx.primTabOff (ctx.primTabOff + 16384) ∨
    a ∈ Set.Ico ctx.secTabOff (ctx.secTabOff + 16384) ∨
    a ∈ Set.Ico ctx.secHdrOff (ctx.secHdrOff + 92)

lemma InAreas.lt_imgSz (hv : ctx.Valid) {a : ℕ} (h : InAreas ctx a) : a < ctx.imgSz.toNat := by
  obtain ⟨h0, h1, h2, h3, h4⟩ := hv.layout
  have hprim : ctx.primHdrOff = ctx.sec := rfl
  rcases h with (⟨-, h⟩ | ⟨-, h⟩) | ⟨-, h⟩ | ⟨-, h⟩ | ⟨-, h⟩ | ⟨-, h⟩ <;> omega

lemma InAreas.of_saveStores (hv : ctx.Valid) {schem : Schem} (hcnt : schem.partCnt.toNat ≤ 128)
    {s : Store} (hs : s ∈ saveStores schem ctx) : InAreas ctx s.1 := by
  rcases mem_saveStores hv hcnt hs with (⟨h1, h2⟩ | ⟨h1, h2⟩) | ⟨h1, h2⟩ | ⟨h1, h2⟩
  · exact Or.inr (Or.inr (Or.inr (Or.inr ⟨h1, h2⟩)))
  · exact Or.inr (Or.inr (Or.inr (Or.inl ⟨h1, by omega⟩)))
  · exact Or.inr (Or.inl ⟨h1, h2⟩)
  · exact Or.inr (Or.inr (Or.inl ⟨h1, by omega⟩))

/-- A removal stores in the areas. -/
lemma removal_inAreas (hv : ctx.Valid) {t : SchemType} {s : Store}
    (hs : s ∈ (removal sys sc ctx t).2) : InAreas ctx s.1 := by
  rw [removal] at hs
  split_ifs at hs
  · cases t with
    | mbr =>
      refine Or.inl ?_
      rcases mbrSave_cases sys Mbr.zero ctx with h | h
      · simp [funcsRemove, schemRemoveMbr, h] at hs
      · rw [funcsRemove, schemRemoveMbr, h] at hs
        exact mem_mbrWrite hs
    | gpt =>
      rcases mem_schemRemoveGpt hv hs with ⟨h1, h2⟩ | ⟨h1, h2⟩
      · exact Or.inr (Or.inl ⟨h1, by omega⟩)
      · exact Or.inr (Or.inr (Or.inr (Or.inr ⟨h1, by omega⟩)))
    | cnt => simp [funcsRemove] at hs
  · simp at hs

/-- A save of a scheme stores in the areas. -/
lemma saving_inAreas (hv : ctx.Valid) (hwf : sc.WellFormed) {t : SchemType} {s : Store}
    (hs : s ∈ (saving sys sc ctx t).2) : InAreas ctx s.1 := by
  cases t with
  | mbr => exact Or.inl (mem_saving_mbr hwf.funcs.1 hs)
  | gpt =>
    cases hg : sc.schemGpt with
    | none => simp [saving_none .gpt hg] at hs
    | some gpt =>
      obtain ⟨hfuncs, hcnt⟩ := hwf.funcs.2 gpt hg
      rw [saving_gpt hg hfuncs] at hs
      exact .of_saveStores hv hcnt ((schemSaveGpt_spec sys gpt ctx).1.subset hs)
  | cnt => simp [saving, SchemCtx.schemes] at hs

/-- A save stores in the areas, also where it fails. -/
lemma schemCtxSave_inAreas (hv : ctx.Valid) (hwf : sc.WellFormed) {s : Store}
    (hs : s ∈ (schemCtxSave sys sc ctx).stores) : InAreas ctx s.1 := by
  rw [schemCtxSave_eq] at hs
  split_ifs at hs <;> simp only [List.mem_append] at hs
  · exact removal_inAreas hv hs
  · exact hs.elim (removal_inAreas hv) (removal_inAreas hv)
  · exact hs.elim (fun hs => hs.elim (removal_inAreas hv) (removal_inAreas hv))
      (saving_inAreas hv hwf)
  all_goals
    exact hs.elim (fun hs => hs.elim (fun hs => hs.elim (removal_inAreas hv)
      (removal_inAreas hv)) (saving_inAreas hv hwf)) (saving_inAreas hv hwf)

/-- A command leaves every byte outside of the areas. -/
lemma actionHandle_outside (hv : ctx.Valid) (hp : p.WellFormed) {sym : Char} {a : Action}
    (h : actionHandle fuel sys ctx p sym = some a) {b : ℕ} (hb : ¬ InAreas ctx b) :
    a.prog.img b = p.img b := by
  by_cases hw : sym = 'w'
  · subst hw
    obtain rfl : actionWrite sys ctx p = a := Option.some.inj h
    refine stores_of_forall_ne (fun s hs => ?_) p.img
    rintro rfl
    exact hb (schemCtxSave_inAreas hv hp.sc hs)
  · rw [(actionHandle_sameDisk hw h).img]

/-- A well-formed context stays well formed over the session. -/
lemma AtPrompt.wellFormed (h : AtPrompt fuel ctx plats p₀ p) (h0 : p₀.WellFormed) :
    p.WellFormed :=
  h.invariant (fun _ _ _ _ _ hp ha _ => actionHandle_wellFormed hp.readLine ha) h0

lemma AtPrompt.outside (hv : ctx.Valid) (h : AtPrompt fuel ctx plats p₀ p)
    (h0 : p₀.WellFormed) {b : ℕ} (hb : ¬ InAreas ctx b) : p.img b = p₀.img b := by
  refine h.invariant (P := fun p => p.img b = p₀.img b) (fun sys _ p a hhead hp ha _ => ?_) rfl
  exact (actionHandle_outside hv (AtPrompt.wellFormed hhead h0).readLine ha hb).trans hp

@[simp] lemma startProg_sc (l : CtxLoad) (inp : Input) (m : Image) :
    (startProg l inp m).sc = l.sc := rfl

lemma startProg_cur (l : CtxLoad) (inp : Input) (m : Image) :
    (startProg l inp m).schemCurT = schemCtxGetType (startProg l inp m).sc := rfl

lemma startProg_wellFormed {r : Rng} (hload : (schemCtxLoad sys m sc ctx r).res = .ok)
    (inp : Input) (m' : Image) : (startProg (schemCtxLoad sys m sc ctx r) inp m').WellFormed :=
  ⟨schemCtxLoad_wellFormed hload, selected_of_getType (startProg_cur _ inp m')⟩

/-- Whichever way a session ends, it leaves all other bytes alone. -/
lemma routineStart_frame (hv : ctx.Valid) (h0 : p₀.WellFormed)
    (hcur : p₀.schemCurT = schemCtxGetType p₀.sc) {res : Pres} {q : Prog}
    (hrun : routineStart fuel ctx plats p₀ = some (res, q)) {b : ℕ} (hb : ¬ InAreas ctx b) :
    q.img b = p₀.img b := by
  rw [routineStart, ← hcur] at hrun
  obtain ⟨p, hp, sys', -, hlast⟩ := exists_lastPass hrun
  have himg : p.img b = p₀.img b := AtPrompt.outside hv hp h0 hb
  cases hlast with
  | eof _ => exact himg
  | quit _ => exact himg
  | failed hsym _ =>
    have hact : actionHandle fuel sys' ctx p.readLine 'w' =
      some (actionWrite sys' ctx p.readLine) := rfl
    exact (actionHandle_outside hv (AtPrompt.wellFormed hp h0).readLine hact hb).trans himg

/-- **What a session leaves alone.**  After a load, on any platform and any input, every store
of every save of the session goes to the boot record, the headers and the tables, whatever
the schemes say of where their tables and partitions lie; so all other bytes of the image are
as they were when the session ends or fails, and the image never grows. -/
theorem routineStart_outside (hctx : imgCtxValidate ctx = .ok) (m : Image) (sc : SchemCtx)
    (r : Rng) (hload : (schemCtxLoad sys m sc ctx r).res = .ok) (inp : Input) (fuel : ℕ)
    (plats : List Sys) :
    (∀ p, AtPrompt fuel ctx plats (startProg (schemCtxLoad sys m sc ctx r) inp m) p →
      (∀ b, ¬ InAreas ctx b → p.img b = m b) ∧
      ∀ sys', ∀ s ∈ (schemCtxSave sys' p.sc ctx).stores,
        InAreas ctx s.1 ∧ s.1 < ctx.imgSz.toNat) ∧
    ∀ res q, routineStart fuel ctx plats (startProg (schemCtxLoad sys m sc ctx r) inp m) =
      some (res, q) → ∀ b, ¬ InAreas ctx b → q.img b = m b := by
  have hv := (imgCtxValidate_ok_iff ctx).1 hctx
  have h0 := startProg_wellFormed hload inp m
  refine ⟨fun p hp => ⟨fun b hb => hp.outside hv h0 hb, fun sys' s hs => ?_⟩, ?_⟩
  · have hin := schemCtxSave_inAreas hv (hp.wellFormed h0).sc hs
    exact ⟨hin, hin.lt_imgSz hv⟩
  · intro res q hrun b hb
    exact routineStart_frame hv h0 (startProg_cur _ inp m) hrun hb

/-- The session that makes a new MBR, at its prompts and at its end. -/
theorem routineStart_outside_small :
    (∀ p, AtPrompt 0 smallCtx [plainSys, plainSys, plainSys] (startProg
        (schemCtxLoad plainSys zeroImage schemCtxInit smallCtx zeroRng) newMbrInput zeroImage) p →
      (∀ b, ¬ InAreas smallCtx b → p.img b = zeroImage b) ∧
      ∀ sys', ∀ s ∈ (schemCtxSave sys' p.sc smallCtx).stores,
        InAreas smallCtx s.1 ∧ s.1 < smallCtx.imgSz.toNat) ∧
    ∃ q, routineStart 0 smallCtx [plainSys, plainSys, plainSys] (startProg
        (schemCtxLoad plainSys zeroImage schemCtxInit smallCtx zeroRng) newMbrInput zeroImage) =
      some (.ok, q) ∧ q.img = mbrImage ∧ ∀ b, ¬ InAreas smallCtx b → q.img b = zeroImage b := by
  obtain ⟨q, hrun, himg⟩ := newMbr_session
  obtain ⟨hprompt, hend⟩ := routineStart_outside smallCtx_valid zeroImage schemCtxInit zeroRng
    schemCtxLoad_zeroImage.1 newMbrInput 0 [plainSys, plainSys, plainSys]
  exact ⟨hprompt, q, hrun, himg, hend .ok q hrun⟩

/-! ## The end of a session -/

/-- How a session ends. -/
inductive Ends (fuel : ℕ) (ctx : ImgCtx) (plats : List Sys) (p₀ : Prog) : Pres → Prog → Prop
  | eof {p : Prog} (hp : AtPrompt fuel ctx plats p₀ p) (hres : (scanChar p.inp).1 = .eof) :
      Ends fuel ctx plats p₀ .ok p.readLine
  | quit {p : Prog} (hp : AtPrompt fuel ctx plats p₀ p) (hsym : lineSym p.inp = 'q') :
      Ends fuel ctx plats p₀ .ok p.readLine
  | failed {p : Prog} {sys : Sys} (hp : AtPrompt fuel ctx plats p₀ p) (hsys : sys ∈ plats)
      (hsym : lineSym p.inp = 'w') (hsave : (schemCtxSave sys p.sc ctx).res = .fail) :
      Ends fuel ctx plats p₀ .fail (actionWrite sys ctx p.readLine).prog

/-- From a context whose schemes are in order the loop returns. -/
lemma routineStart_total (hv : ctx.Valid) (hal : 1 ≤ ctx.align.toNat)
    (himg : ctx.secs + ctx.align.toNat < 2 ^ 63) (hfuel : 2 ^ 65 ≤ fuel) (hgood : p₀.sc.Good ctx)
    (hplats : p₀.inp.length < plats.length) :
    ∃ res q, routineStart fuel ctx plats p₀ = some (res, q) := by
  have hstep : ∀ sys ∈ plats, ∀ p : Prog, p.sc.Good ctx →
      ∃ x, routinePass fuel ctx sys p = some x ∧
        ∀ p', x = .again p' → p'.sc.Good ctx ∧ p'.inp.length < p.inp.length := by
    intro sys _ p hp
    have hp' : p.readLine.sc.Good ctx := hp
    obtain ⟨x, hx⟩ := exists_routinePass (actionHandle_total hfuel hp' sys (lineSym p.inp))
    refine ⟨x, hx, ?_⟩
    rintro p' rfl
    obtain ⟨hshort, a, ha, -, rfl⟩ := routinePass_again hx
    exact ⟨(actionHandle_spec ha).1.good hv hal himg hp', hshort⟩
  obtain ⟨⟨res, q⟩, hrun⟩ := exists_loop (μ := fun p => p.inp.length)
    (s := { p₀ with schemCurT := schemCtxGetType p₀.sc }) hstep hgood hplats
  exact ⟨res, q, hrun⟩

/-- **Every session ends.**  From a context whose schemes are in order, with an input of any
finite length, the loop returns after at most one pass more than there are lines: at the end
of the input or by `q`, or with a failure that is the failure of a save. -/
theorem exists_routineStart (hctx : imgCtxValidate ctx = .ok) (hal : 1 ≤ ctx.align.toNat)
    (himg : ctx.imgSz.toNat / ctx.secSz.toNat + ctx.align.toNat < 2 ^ 63) {fuel : ℕ}
    (hfuel : 2 ^ 65 ≤ fuel) (p₀ : Prog) (hgood : p₀.sc.Good ctx) (plats : List Sys)
    (hplats : p₀.inp.length < plats.length) :
    ∃ res q, routineStart fuel ctx plats p₀ = some (res, q) ∧
      Ends fuel ctx plats { p₀ with schemCurT := schemCtxGetType p₀.sc } res q := by
  have hv := (imgCtxValidate_ok_iff ctx).1 hctx
  obtain ⟨res, q, hrun⟩ := routineStart_total hv hal himg hfuel hgood hplats
  refine ⟨res, q, hrun, ?_⟩
  obtain ⟨p, hp, sys, hsys, hlast⟩ := exists_lastPass hrun
  cases hlast with
  | eof hres => exact .eof hp hres
  | quit hsym => exact .quit hp hsym
  | failed hsym hsave => exact .failed hp hsys hsym hsave

/-- A session that adds a partition to a new GPT. -/
theorem exists_routineStart_small : ∃ res q,
    routineStart (2 ^ 65) smallCtx (List.replicate 6 plainSys)
      ⟨(schemCtxNew schemCtxInit smallCtx .gpt zeroRng).2.1, .gpt,
        [.line ['n'], .line [], .line [], .line [], .line ['w']], zeroRng, zeroImage⟩ =
      some (res, q) ∧
    Ends (2 ^ 65) smallCtx (List.replicate 6 plainSys)
      ⟨(schemCtxNew schemCtxInit smallCtx .gpt zeroRng).2.1, .gpt,
        [.line ['n'], .line [], .line [], .line [], .line ['w']], zeroRng, zeroImage⟩ res q :=
  exists_routineStart smallCtx_valid (by decide) (by decide) le_rfl _
    (schemCtxNew_good ((imgCtxValidate_ok_iff _).1 smallCtx_valid) (by decide) (by decide) _ _ _)
    _ (by simp)

end Partman

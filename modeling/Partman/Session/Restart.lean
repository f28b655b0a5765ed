/-
# What the next session finds

At every prompt the flags of the context say exactly which schemes a load of the image finds,
and the image is the one that the session has begun with or what its last command `w` has
written.  So a session that comes to its end leaves an image whose load gives back the
context of that command.
-/
import Partman.Session.Durable

namespace Partman

open Lib

variable {sys : Sys} {ctx : ImgCtx} {fuel : ℕ} {plats : List Sys} {m : Image}
  {sc : SchemCtx} {p p₀ : Prog}

/-! ## The flags -/

/-- At a prompt a flag says whether the scheme is found. -/
lemma Prog.Kept.load (hv : ctx.Valid) (hs : sys.Serves ctx) (hp : p.Kept sys ctx)
    {t : SchemType} (ht : t ≠ .cnt) : (funcsLoad t sys p.img (schemNew t) ctx).1 =
      if p.sc.schemesInImg t = true then .ok else .notFound := by
  split_ifs with hf
  · cases t with
    | mbr =>
      have hpres := hp.found.mbr hf
      simp [funcsLoad, schemLoadMbr_of_serves hv hs, hpres]
    | gpt => exact hp.found.gpt hf
    | cnt => exact absurd rfl ht
  · exact hp.flags.notFound hv hs ht (by simpa using hf) _

/-- **The flags are exact at every prompt.**  After a load of an image whose headers do not lie
over the boot record, and any commands on any input, a scheme is found in the image if its flag
is set, and it is not found if it is not set.  No save of a session removes an MBR. -/
theorem funcsLoad_of_prompt (hctx : imgCtxValidate ctx = .ok) (hs : sys.Serves ctx)
    (hal : 1 ≤ ctx.align.toNat) (m : Image) (sc : SchemCtx) (r : Rng)
    (hload : (schemCtxLoad sys m sc ctx r).res = .ok) (hclear : ClearOfMbr m ctx) (inp : Input)
    (fuel : ℕ) (plats : List Sys) (hplats : ∀ s ∈ plats, s.pgSz = sys.pgSz) {p : Prog}
    (hp : AtPrompt fuel ctx plats (startProg (schemCtxLoad sys m sc ctx r) inp m) p) :
    (∀ t, t ≠ .cnt → (funcsLoad t sys p.img (schemNew t) ctx).1 =
      if p.sc.schemesInImg t = true then .ok else .notFound) ∧
    ∀ sys', removal sys' p.sc ctx .mbr = (.ok, []) := by
  have hv := (imgCtxValidate_ok_iff ctx).1 hctx
  have hkept := hp.kept hv hal hs hplats (.start hv hs hload hclear inp)
  exact ⟨fun t ht => hkept.load hv hs ht, fun sys' => if_neg fun h => hkept.keepsMbr h.1 h.2⟩

/-! ## A session on a small image -/

/-- The lines of a session that makes a new MBR, writes it and ends. -/
def newMbrInput : Input := [.line ['o'], .line ['w'], .line ['q']]

/-- A pass that saves and goes on. -/
lemma routinePass_write (hline : (scanChar p.inp).1 = .ok) (hsym : (scanChar p.inp).2.1 = 'w')
    (hsave : (schemCtxSave sys p.sc ctx).res = .ok) :
    routinePass fuel ctx sys p = some (.again (actionWrite sys ctx p.readLine).prog) := by
  have hact : actionHandle fuel sys ctx p.readLine 'w' = some (actionWrite sys ctx p.readLine) :=
    rfl
  rw [routinePass]
  simp only [scanChar_rest, hline, hsym, reduceCtorEq, if_false, ne_eq, not_true_eq_false]
  rw [← Prog.readLine, hact, Option.map_some, Action.pass]
  simp [actionWrite, hsave, actionRes]

/-- What the first two passes leave. -/
lemma newMbr_atPrompt {l : CtxLoad} (hl : l.sc = schemCtxInit ∧ l.rng = zeroRng) :
    ∃ p, routinePass 0 smallCtx plainSys (startProg l newMbrInput zeroImage) = some (.again p) ∧
      routinePass 0 smallCtx plainSys p =
        some (.again (actionWrite plainSys smallCtx p.readLine).prog) ∧
      p.sc = newMbrCtx ∧ p.img = zeroImage ∧ p.inp = [.line ['w'], .line ['q']] := by
  obtain ⟨res, sc, r, reads⟩ := l
  obtain ⟨rfl, rfl⟩ := hl
  refine ⟨⟨newMbrCtx, .mbr, [.line ['w'], .line ['q']], _, zeroImage⟩, rfl, ?_, rfl, rfl, rfl⟩
  exact routinePass_write rfl rfl newMbrCtx_save.1

/-- A load of the image of zeros finds nothing. -/
lemma schemCtxLoad_zeroImage :
    let l := schemCtxLoad plainSys zeroImage schemCtxInit smallCtx zeroRng
    l.res = .ok ∧ l.sc = schemCtxInit ∧ l.rng = zeroRng := by
  have hv := (imgCtxValidate_ok_iff _).1 smallCtx_valid
  have hs : plainSys.Serves smallCtx := smallCtx_serves
  obtain ⟨reads, hl⟩ := schemCtxLoad_nothing hv hs (m := zeroImage) rfl
    (schemLoadGpt_of_zero hv hs (fun _ _ => rfl) _) schemCtxInit zeroRng
  rw [hl]
  exact ⟨rfl, rfl, rfl⟩

lemma zeroImage_clear : ClearOfMbr zeroImage smallCtx :=
  fun _ _ hdr hhdr => absurd hhdr (not_hdrAt_of_zero rfl hdr)

/-- Behind the save the MBR is found and the GPT is not. -/
theorem funcsLoad_of_prompt_small : ∃ p : Prog, p.sc.inImgMbr = true ∧ p.sc.inImgGpt = false ∧
    (∀ t, t ≠ .cnt → (funcsLoad t plainSys p.img (schemNew t) smallCtx).1 =
      if p.sc.schemesInImg t = true then .ok else .notFound) ∧
    ∀ sys', removal sys' p.sc smallCtx .mbr = (.ok, []) := by
  obtain ⟨hload, hl⟩ := schemCtxLoad_zeroImage
  obtain ⟨p, hfirst, hsecond, hsc, -, -⟩ := newMbr_atPrompt hl
  have hsave : (schemCtxSave plainSys p.sc smallCtx).res = .ok := by
    rw [hsc]
    exact newMbrCtx_save.1
  refine ⟨(actionWrite plainSys smallCtx p.readLine).prog, ?_, ?_, ?_⟩
  · rw [actionWrite, Prog.readLine_sc, schemCtxSave_inImg hsave, hsc]
    rfl
  · rw [actionWrite, Prog.readLine_sc, schemCtxSave_inImg hsave, hsc]
    rfl
  · exact funcsLoad_of_prompt smallCtx_valid smallCtx_serves (by decide) zeroImage
      schemCtxInit zeroRng hload zeroImage_clear newMbrInput 0 [plainSys] (by simp)
      (.tail (.single ⟨plainSys, by simp, hfirst⟩) ⟨plainSys, by simp, hsecond⟩)

/-! ## The last save -/

/-- The context that the last command `w` has written, if there was one. -/
inductive LastSaved (fuel : ℕ) (ctx : ImgCtx) (plats : List Sys) (p₀ : Prog) :
    Option SchemCtx → Prog → Prop
  | start : LastSaved fuel ctx plats p₀ none p₀
  | other {o : Option SchemCtx} {p : Prog} {sys : Sys} {a : Action}
      (h : LastSaved fuel ctx plats p₀ o p) (hsys : sys ∈ plats)
      (ha : actionHandle fuel sys ctx p.readLine (lineSym p.inp) = some a)
      (hres : a.res = .cont) (hsym : lineSym p.inp ≠ 'w') :
      LastSaved fuel ctx plats p₀ o a.prog
  | save {o : Option SchemCtx} {p : Prog} {sys : Sys} {a : Action}
      (h : LastSaved fuel ctx plats p₀ o p) (hsys : sys ∈ plats)
      (ha : actionHandle fuel sys ctx p.readLine (lineSym p.inp) = some a)
      (hres : a.res = .cont) (hsym : lineSym p.inp = 'w') :
      LastSaved fuel ctx plats p₀ (some p.sc) a.prog

/-- What a load of the image finds, after the last save. -/
def LoadsLast (sys : Sys) (ctx : ImgCtx) (m₀ m : Image) : Option SchemCtx → Prop
  | none => m = m₀
  | some sc => ∀ sc₁ r, (schemCtxLoad sys m sc₁ ctx r).res = .ok ∧
      sc.Again (schemCtxLoad sys m sc₁ ctx r).sc

/-- The image holds what the last save has written. -/
lemma LastSaved.loads (hv : ctx.Valid) (hal : 1 ≤ ctx.align.toNat) (hs : sys.Serves ctx)
    (hplats : ∀ s ∈ plats, s.pgSz = sys.pgSz) (h0 : p₀.Kept sys ctx) {o : Option SchemCtx}
    (h : LastSaved fuel ctx plats p₀ o p) :
    p.Kept sys ctx ∧ LoadsLast sys ctx p₀.img p.img o := by
  induction h with
  | start => exact ⟨h0, rfl⟩
  | other _ hsys ha hres hsym ih =>
    obtain ⟨hkept, hlast⟩ := ih
    refine ⟨hkept.readLine.action hv hal hs (hplats _ hsys) ha hres, ?_⟩
    rwa [(actionHandle_sameDisk hsym ha).img]
  | @save _ p sys' a _ hsys ha hres hsym ih =>
    obtain ⟨hkept, -⟩ := ih
    refine ⟨hkept.readLine.action hv hal hs (hplats _ hsys) ha hres, fun sc₁ r => ?_⟩
    rw [hsym] at ha
    obtain ⟨hsave, -, himg⟩ := actionHandle_write ha hres
    rw [himg]
    exact hkept.reload hv hs (hplats _ hsys) hsave sc₁ r

/-- The session that makes a new MBR, writes it and ends. -/
lemma newMbr_session : ∃ q,
    routineStart 0 smallCtx [plainSys, plainSys, plainSys] (startProg
      (schemCtxLoad plainSys zeroImage schemCtxInit smallCtx zeroRng) newMbrInput zeroImage) =
        some (.ok, q) ∧ q.img = mbrImage := by
  obtain ⟨-, hl⟩ := schemCtxLoad_zeroImage
  obtain ⟨p, hfirst, hsecond, hsc, himg, hinp⟩ := newMbr_atPrompt hl
  have hquit : ∀ q : Prog, q.inp = [.line ['q']] →
      routinePass 0 smallCtx plainSys q = some (.exit (.ok, q.readLine)) := by
    rintro ⟨sc, cur, inp, r, m⟩ rfl
    rfl
  refine ⟨(actionWrite plainSys smallCtx p.readLine).prog.readLine, ?_, ?_⟩
  · rw [routineStart]
    refine (loop_again hfirst).trans ((loop_again hsecond).trans (loop_exit (hquit _ ?_)))
    rw [actionWrite, Prog.readLine, hinp]
    rfl
  · rw [Prog.readLine_img, actionWrite, Prog.readLine_img, himg, Prog.readLine_sc, hsc,
      newMbrCtx_save.2]
    rfl

end Partman

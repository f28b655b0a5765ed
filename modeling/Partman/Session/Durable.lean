/-
# Sessions and the disk

A session is the user interface loop from a load on.  It goes on after a save only if the
save has succeeded, and the context of a session that has found or saved an MBR always has
one.  So a session never removes an MBR, the flags are right at every prompt, and what a
save has left is what the next load finds.
-/
import Partman.Edit.Reload
import Partman.Session.Passes

namespace Partman

open Lib

variable {sys sys' : Sys} {ctx : ImgCtx} {fuel : ℕ} {plats : List Sys} {m : Image}
  {sc : SchemCtx} {p p₀ : Prog}

/-! ## States at the prompt -/

/-- The states in which the loop prompts for a command. -/
def AtPrompt (fuel : ℕ) (ctx : ImgCtx) (plats : List Sys) : Prog → Prog → Prop :=
  AtHead (routinePass fuel ctx) plats

/-- What every command keeps that does not end the session holds at every prompt. -/
lemma AtPrompt.invariant {P : Prog → Prop}
    (hstep : ∀ sys ∈ plats, ∀ p a, AtPrompt fuel ctx plats p₀ p → P p →
      actionHandle fuel sys ctx p.readLine (lineSym p.inp) = some a → a.res = .cont → P a.prog)
    (h : AtPrompt fuel ctx plats p₀ p) (h0 : P p₀) : P p := by
  refine AtHead.invariant (fun sys hsys s s' hhead hs hpass => ?_) h h0
  obtain ⟨-, a, ha, hres, rfl⟩ := routinePass_again hpass
  exact hstep sys hsys s a hhead hs ha hres

/-- The last pass of a session. -/
inductive LastPass (sys : Sys) (ctx : ImgCtx) (p : Prog) : Pres → Prog → Prop
  | eof (hres : (scanChar p.inp).1 = .eof) : LastPass sys ctx p .ok p.readLine
  | quit (hsym : lineSym p.inp = 'q') : LastPass sys ctx p .ok p.readLine
  | failed (hsym : lineSym p.inp = 'w') (hsave : (schemCtxSave sys p.sc ctx).res = .fail) :
      LastPass sys ctx p .fail (actionWrite sys ctx p.readLine).prog

/-- A session ends in a last pass. -/
lemma exists_lastPass {res : Pres} {q : Prog}
    (h : loop (routinePass fuel ctx) plats p₀ = some (res, q)) :
    ∃ p, AtPrompt fuel ctx plats p₀ p ∧ ∃ sys ∈ plats, LastPass sys ctx p res q := by
  obtain ⟨p, hp, sys, hsys, hpass⟩ := exists_exit_of_loop h
  refine ⟨p, hp, sys, hsys, ?_⟩
  generalize hx : Pass.exit (res, q) = x at hpass
  cases routinePass_spec hpass with
  | eof hres =>
    obtain ⟨rfl, rfl⟩ := Prod.mk.inj (Pass.exit.inj hx)
    exact .eof hres
  | command a _ ha =>
    rw [Action.pass] at hx
    cases actionHandle_stops ha with
    | cont hres _ => simp [hres] at hx
    | quit hsym hprog hres =>
      simp only [hres] at hx
      obtain ⟨rfl, rfl⟩ := Prod.mk.inj (Pass.exit.inj hx)
      rw [hprog]
      exact .quit hsym
    | failed hsym hact hsave hres =>
      simp only [hres] at hx
      obtain ⟨rfl, rfl⟩ := Prod.mk.inj (Pass.exit.inj hx)
      rw [hact]
      exact .failed hsym hsave

/-! ## What a session keeps -/

/-- A context that has no MBR has not found or saved one. -/
def SchemCtx.KeepsMbr (sc : SchemCtx) : Prop := sc.inImgMbr = true → sc.schemMbr ≠ none

/-- The schemes whose flags are set are found. -/
structure FlagsFound (sys : Sys) (ctx : ImgCtx) (sc : SchemCtx) (m : Image) : Prop where
  mbr : sc.inImgMbr = true → mbrIsPresent m 0 = true
  gpt : sc.inImgGpt = true → (schemLoadGpt sys m (schemNew .gpt) ctx).1 = .ok

/-- What holds at every prompt, whatever the image is. -/
structure Prog.Savable (p : Prog) : Prop where
  wellFormed : p.WellFormed
  storable : p.sc.Storable
  keepsMbr : p.sc.KeepsMbr

/-- What holds at every prompt besides, if no header of the image lies over the boot record. -/
structure Prog.Kept (sys : Sys) (ctx : ImgCtx) (p : Prog) : Prop extends p.Savable where
  flags : FlagInv sys ctx p.sc p.img
  found : FlagsFound sys ctx p.sc p.img
  clear : p.sc.inImgGpt = false → ClearOfMbr p.img ctx

/-- In a well-formed context the schemes are what the flags ask of them. -/
lemma SchemCtx.WellFormed.funcs (h : sc.WellFormed) :
    (∀ mbr, sc.schemMbr = some mbr → mbr.funcs = .mbr) ∧
      ∀ gpt, sc.schemGpt = some gpt → gpt.funcs = .gpt ∧ gpt.partCnt.toNat ≤ 128 := by
  refine ⟨fun mbr hm => (h.formed .mbr mbr hm).funcs, fun gpt hg => ?_⟩
  have hform := h.formed .gpt gpt hg
  exact ⟨hform.funcs, le_of_le_of_eq hform.partCnt hform.tableLen⟩

/-- A save that succeeds leaves no flag reset, and does not remove an MBR. -/
lemma FlagInv.of_save (hv : ctx.Valid) (hs : sys.Serves ctx) (h : FlagInv sys ctx sc m)
    (hmbr : sc.KeepsMbr) (hclear : sc.inImgGpt = false → ClearOfMbr m ctx)
    (hsave : (schemCtxSave sys' sc ctx).res = .ok) :
    FlagInv sys ctx (schemCtxSave sys' sc ctx).sc
      (stores m (schemCtxSave sys' sc ctx).stores) := by
  have hops := (schemCtxSave_ok hsave).1
  have hcnt : removal sys' sc ctx .cnt = (.ok, []) ∧ saving sys' sc ctx .cnt = (.ok, []) :=
    ⟨rfl, rfl⟩
  have hne : ∀ t, (removal sys' sc ctx t).1 ≠ .fail ∧ (saving sys' sc ctx t).1 ≠ .fail := by
    intro t
    cases t with
    | mbr => simp [hops .mbr (Or.inl rfl)]
    | gpt => simp [hops .gpt (Or.inr rfl)]
    | cnt => simp [hcnt]
  refine h.save hv hs ⟨fun t hf => absurd hf (hne t).1, fun t hf => absurd hf (hne t).2⟩ ?_
    fun _ _ => hclear
  exact ⟨fun hf hn => absurd hn (hmbr hf), fun _ _ => ⟨(hops .gpt (Or.inr rfl)).1,
    (hops .mbr (Or.inl rfl)).2⟩, fun _ _ => Or.inr ⟨(hops .mbr (Or.inl rfl)).2,
    (hops .gpt (Or.inr rfl)).2⟩⟩

/-- The flags after a save that succeeds. -/
lemma schemCtxSave_inImg (hsave : (schemCtxSave sys sc ctx).res = .ok) :
    (schemCtxSave sys sc ctx).sc =
      { sc with inImgMbr := sc.schemMbr.isSome, inImgGpt := sc.schemGpt.isSome } := by
  rw [schemCtxSave_eq] at hsave ⊢
  split_ifs at hsave ⊢
  rfl

/-- An MBR that has been saved is there. -/
lemma mbrIsPresent_of_save (hv : ctx.Valid) (hwf : sc.WellFormed)
    (hsave : (schemCtxSave sys sc ctx).res = .ok) (hm : sc.schemMbr ≠ none) (m : Image) :
    mbrIsPresent (stores m (schemCtxSave sys sc ctx).stores) 0 = true := by
  obtain ⟨mbr, hm⟩ := Option.ne_none_iff_exists'.1 hm
  obtain ⟨hops, hstores⟩ := schemCtxSave_ok hsave
  rw [hstores, saving_mbr_stores hwf hm (hops .mbr (Or.inl rfl)).2, stores_append, stores_append]
  -- what the GPT stores lies behind the boot record
  rw [mbrIsPresent_congr fun a ha => stores_of_forall_ne (fun s hs => ?_) _]
  · exact mbrIsPresent_stores _ _
  · have hlow : 512 ≤ ctx.primHdrOff := hv.layout.1
    have hoff := mem_saving_gpt hv hwf.funcs.2 hs
    rcases ha with ha | ha <;> omega

/-- What a save that succeeds leaves of a context with a GPT is loaded again. -/
lemma Prog.Savable.reload_gpt (hv : ctx.Valid) (hs : sys.Serves ctx) (hpg : sys'.pgSz = sys.pgSz)
    (hp : p.Savable) (hsave : (schemCtxSave sys' p.sc ctx).res = .ok) (hg : p.sc.schemGpt ≠ none)
    (sc₁ : SchemCtx) (r : Rng) :
    let l := schemCtxLoad sys (stores p.img (schemCtxSave sys' p.sc ctx).stores) sc₁ ctx r
    l.res = .ok ∧ p.sc.Again l.sc := by
  obtain ⟨gpt, hg⟩ := Option.ne_none_iff_exists'.1 hg
  exact schemCtxLoad_of_save_gpt hv hs hp.wellFormed.sc hp.storable hsave hp.keepsMbr hpg hg p.img
    sc₁ r

section Save

variable (hv : ctx.Valid) (hs : sys.Serves ctx) (hpg : sys'.pgSz = sys.pgSz)
  (hp : p.Kept sys ctx) (hsave : (schemCtxSave sys' p.sc ctx).res = .ok)
include hv hs hp hsave

/-- A save that removes a GPT, or finds none, leaves no header over the boot record. -/
lemma Prog.Kept.clear_removal (hg : p.sc.schemGpt = none) :
    ClearOfMbr (stores p.img (removal sys' p.sc ctx .gpt).2) ctx := by
  have hok := ((schemCtxSave_ok hsave).1 .gpt (Or.inr rfl)).1
  exact clear_of_removal hv hs (by simp [hok]) (fun _ => hg) hp.clear

/-- Nor does the boot record that it writes then. -/
lemma Prog.Kept.clear_write (hf : (schemCtxSave sys' p.sc ctx).sc.inImgGpt = false) :
    ClearOfMbr (stores p.img (schemCtxSave sys' p.sc ctx).stores) ctx := by
  have hg : p.sc.schemGpt = none := by simpa [schemCtxSave_inImg hsave] using hf
  obtain ⟨-, hstores⟩ := schemCtxSave_ok hsave
  have hremM : removal sys' p.sc ctx .mbr = (.ok, []) := if_neg fun hc => hp.keepsMbr hc.1 hc.2
  rw [hstores, hremM, saving_none .gpt hg, List.append_nil, List.nil_append, stores_append]
  refine (hp.clear_removal hv hs hsave hg).congr hv fun a ha =>
    stores_of_forall_ne (fun s hs => ?_) _
  rintro rfl
  exact ha (mem_saving_mbr hp.wellFormed.sc.funcs.1 hs)

include hpg

/-- What a save that succeeds leaves is loaded again. -/
lemma Prog.Kept.reload (sc₁ : SchemCtx) (r : Rng) :
    let l := schemCtxLoad sys (stores p.img (schemCtxSave sys' p.sc ctx).stores) sc₁ ctx r
    l.res = .ok ∧ p.sc.Again l.sc := by
  by_cases hg : p.sc.schemGpt = none
  · have hok := ((schemCtxSave_ok hsave).1 .gpt (Or.inr rfl)).1
    refine schemCtxLoad_of_save_mbr hv hs hp.wellFormed.sc hp.storable hsave hp.keepsMbr hg
      (fun hm => hp.flags.mbr ?_) (hp.flags.notFound_of_removal hv hs (by simp [hok]) fun _ => hg)
      (fun _ => hp.clear_removal hv hs hsave hg) sc₁ r
    by_contra hf
    exact hp.keepsMbr (by simpa using hf) hm
  · exact hp.toSavable.reload_gpt hv hs hpg hsave hg sc₁ r

/-- Behind a save that succeeds the flags are right. -/
lemma Prog.Kept.write :
    let s := schemCtxSave sys' p.sc ctx
    FlagInv sys ctx s.sc (stores p.img s.stores) ∧
      FlagsFound sys ctx s.sc (stores p.img s.stores) := by
  refine ⟨hp.flags.of_save hv hs hp.keepsMbr hp.clear hsave, ?_⟩
  refine ⟨fun hf => ?_, fun hf => ?_⟩ <;>
    simp only [schemCtxSave_inImg hsave, Option.isSome_iff_ne_none] at hf
  · exact mbrIsPresent_of_save hv hp.wellFormed.sc hsave hf p.img
  · -- the load of the saved image has found a GPT
    obtain ⟨gpt, hg⟩ := Option.ne_none_iff_exists'.1 hf
    obtain ⟨hres, hagain⟩ := hp.reload hv hs hpg hsave schemCtxInit p.rng
    obtain ⟨gpt', hg', -⟩ := hagain.gpt gpt hg
    exact gptFound_ok ((schemCtxLoad_spec hv hs _ _ hres).schemGpt.symm.trans hg')

end Save

/-- Only a context without a GPT needs more of the image. -/
lemma Prog.Savable.reload (hv : ctx.Valid) (hs : sys.Serves ctx) (hpg : sys'.pgSz = sys.pgSz)
    (hp : p.Savable) (hkept : p.sc.schemGpt = none → p.Kept sys ctx)
    (hsave : (schemCtxSave sys' p.sc ctx).res = .ok) (sc₁ : SchemCtx) (r : Rng) :
    let l := schemCtxLoad sys (stores p.img (schemCtxSave sys' p.sc ctx).stores) sc₁ ctx r
    l.res = .ok ∧ p.sc.Again l.sc := by
  by_cases hg : p.sc.schemGpt = none
  · exact (hkept hg).reload hv hs hpg hsave sc₁ r
  · exact hp.reload_gpt hv hs hpg hsave hg sc₁ r

/-- **One command**, whatever the image is. -/
lemma Prog.Savable.action (hv : ctx.Valid) (hal : 1 ≤ ctx.align.toNat) (hp : p.Savable)
    {sym : Char} {a : Action} (h : actionHandle fuel sys' ctx p sym = some a)
    (hres : a.res = .cont) : a.prog.Savable := by
  have hspec := (actionHandle_spec h).1
  refine ⟨actionHandle_wellFormed hp.wellFormed h,
    hspec.storable hv hal hp.wellFormed.sc hp.storable, fun hf => ?_⟩
  by_cases hw : sym = 'w'
  · subst hw
    obtain ⟨hsave, hsc, -⟩ := actionHandle_write h hres
    simp only [hsc, schemCtxSave_inImg hsave] at hf ⊢
    exact Option.isSome_iff_ne_none.1 hf
  · have hinM : a.prog.sc.inImgMbr = p.sc.inImgMbr :=
      congrFun (actionHandle_sameDisk hw h).inImg .mbr
    exact hspec.hasMbr (hp.keepsMbr (hinM.symm.trans hf))

/-- **One command.** -/
lemma Prog.Kept.action (hv : ctx.Valid) (hal : 1 ≤ ctx.align.toNat) (hs : sys.Serves ctx)
    (hpg : sys'.pgSz = sys.pgSz) (hp : p.Kept sys ctx) {sym : Char} {a : Action}
    (h : actionHandle fuel sys' ctx p sym = some a) (hres : a.res = .cont) :
    a.prog.Kept sys ctx := by
  have hsavable := hp.toSavable.action hv hal h hres
  suffices hflags : FlagInv sys ctx a.prog.sc a.prog.img ∧ FlagsFound sys ctx a.prog.sc a.prog.img ∧
      (a.prog.sc.inImgGpt = false → ClearOfMbr a.prog.img ctx) from
    ⟨hsavable, hflags.1, hflags.2.1, hflags.2.2⟩
  by_cases hw : sym = 'w'
  · subst hw
    obtain ⟨hsave, hsc, himg⟩ := actionHandle_write h hres
    obtain ⟨hflags, hfound⟩ := hp.write hv hs hpg hsave
    rw [hsc, himg]
    exact ⟨hflags, hfound, hp.clear_write hv hs hsave⟩
  · have hdisk := actionHandle_sameDisk hw h
    have hinM : a.prog.sc.inImgMbr = p.sc.inImgMbr := congrFun hdisk.inImg .mbr
    have hinG : a.prog.sc.inImgGpt = p.sc.inImgGpt := congrFun hdisk.inImg .gpt
    obtain ⟨hM, hG⟩ := hsavable.wellFormed.sc.funcs
    rw [hdisk.img]
    refine ⟨⟨hM, hG, ?_, ?_⟩, ⟨?_, ?_⟩, ?_⟩
    · rw [hinM]
      exact hp.flags.mbr
    · rw [hinG]
      exact hp.flags.gpt
    · rw [hinM]
      exact hp.found.mbr
    · rw [hinG]
      exact hp.found.gpt
    · rw [hinG]
      exact hp.clear

/-- What is left of the input is of no account. -/
lemma Prog.Savable.readLine (hp : p.Savable) : p.readLine.Savable :=
  ⟨hp.wellFormed.readLine, hp.storable, hp.keepsMbr⟩

lemma Prog.Kept.readLine (hp : p.Kept sys ctx) : p.readLine.Kept sys ctx :=
  ⟨hp.toSavable.readLine, hp.flags, hp.found, hp.clear⟩

/-- What a load leaves. -/
lemma Prog.Savable.start (hv : ctx.Valid) (hs : sys.Serves ctx) {r : Rng}
    (hload : (schemCtxLoad sys m sc ctx r).res = .ok) (inp : Input) :
    (startProg (schemCtxLoad sys m sc ctx r) inp m).Savable := by
  have hspec := schemCtxLoad_spec hv hs sc r hload
  exact ⟨⟨schemCtxLoad_wellFormed hload, selected_of_getType rfl⟩, hspec.storable hv,
    hspec.hasMbr⟩

lemma Prog.Kept.start (hv : ctx.Valid) (hs : sys.Serves ctx) {r : Rng}
    (hload : (schemCtxLoad sys m sc ctx r).res = .ok) (hclear : ClearOfMbr m ctx) (inp : Input) :
    (startProg (schemCtxLoad sys m sc ctx r) inp m).Kept sys ctx := by
  have hspec := schemCtxLoad_spec hv hs sc r hload
  refine ⟨.start hv hs hload inp, hspec.flagInv hv hs, ⟨fun hf => ?_, fun hf => ?_⟩,
    fun _ => hclear⟩
  · obtain ⟨mbr, hm⟩ := Option.isSome_iff_exists.1 (hspec.inImgMbr.symm.trans hf)
    rw [mbrFound] at hm
    split_ifs at hm with hpres
    exact hpres
  · obtain ⟨gpt, hg⟩ := Option.isSome_iff_exists.1 (hspec.inImgGpt.symm.trans hf)
    exact gptFound_ok hg

/-- **What a load leaves is kept at every prompt.** -/
theorem AtPrompt.savable (hv : ctx.Valid) (hal : 1 ≤ ctx.align.toNat)
    (h : AtPrompt fuel ctx plats p₀ p) (h0 : p₀.Savable) : p.Savable :=
  h.invariant (fun _ _ _ _ _ hp ha hres => hp.readLine.action hv hal ha hres) h0

/-- So are the flags, if no header of the image lies over the boot record. -/
theorem AtPrompt.kept (hv : ctx.Valid) (hal : 1 ≤ ctx.align.toNat) (hs : sys.Serves ctx)
    (hplats : ∀ s ∈ plats, s.pgSz = sys.pgSz) (h : AtPrompt fuel ctx plats p₀ p)
    (h0 : p₀.Kept sys ctx) : p.Kept sys ctx :=
  h.invariant (fun _ hsys' _ _ _ hp ha hres =>
    hp.readLine.action hv hal hs (hplats _ hsys') ha hres) h0

/-- **What is saved at a prompt is loaded again.**  Only a context without a GPT leaves it to the
image that no header lies over the boot record. -/
theorem AtPrompt.reload (hv : ctx.Valid) (hal : 1 ≤ ctx.align.toNat) (hs : sys.Serves ctx)
    {r : Rng} (hload : (schemCtxLoad sys m sc ctx r).res = .ok) {inp : Input}
    (hplats : ∀ s ∈ plats, s.pgSz = sys.pgSz)
    (hp : AtPrompt fuel ctx plats (startProg (schemCtxLoad sys m sc ctx r) inp m) p)
    (hclear : p.sc.schemGpt = none → ClearOfMbr m ctx) (hpg : sys'.pgSz = sys.pgSz)
    (hsave : (schemCtxSave sys' p.sc ctx).res = .ok) (sc₁ : SchemCtx) (r₁ : Rng) :
    let l := schemCtxLoad sys (stores p.img (schemCtxSave sys' p.sc ctx).stores) sc₁ ctx r₁
    l.res = .ok ∧ p.sc.Again l.sc := by
  have hsavable : p.Savable := hp.savable hv hal (.start hv hs hload inp)
  exact hsavable.reload hv hs hpg
    (fun hg => hp.kept hv hal hs hplats (.start hv hs hload (hclear hg) inp)) hsave sc₁ r₁

end Partman

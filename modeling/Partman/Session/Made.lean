/-
# The GPT of a file that only the program has written

What is true of every new GPT, and is kept by every command and by a save with the load after it,
is true of every GPT that is ever found on a file of zeros that is worked on by one run after
another.  So all identifiers there are random ones of version 4, and no partition has a name or
an attribute.
-/
import Partman.Session.Program

namespace Partman

open Lib

variable {sys sys' : Sys} {ctx : ImgCtx} {fuel : ℕ} {host : Host} {opts : PartmanOpts}
  {argv : List (List Char)} {file file₁ : ImgFile} {plats : List Sys} {p p₀ : Prog}
  {schem schem' : Schem}

/-! ## Properties that are kept -/

/-- New GPTs have the property, no command takes it away, and an image keeps it. -/
structure GptKept (ctx : ImgCtx) (P : Schem → Prop) : Prop where
  new : ∀ schem r, P (schemInitGpt schem ctx r).1
  change : ∀ schem (i : Pu32) part, schem.funcs = .gpt → P schem → PartChange ctx schem i part →
    P (schem.setPart i.toNat part)
  again : ∀ schem schem', P schem → schem.GptAgain schem' → P schem'

variable {P : Schem → Prop}

/-- The GPT of the context has the property. -/
def SchemCtx.GptHas (sc : SchemCtx) (P : Schem → Prop) : Prop :=
  ∀ gpt, sc.schemGpt = some gpt → P gpt

/-- The GPT that is found on the image has the property. -/
def ImgGptHas (sys : Sys) (ctx : ImgCtx) (m : Image) (P : Schem → Prop) : Prop :=
  ∀ gpt, gptFound sys m ctx = some gpt → P gpt

/-- Putting a scheme into its slot. -/
lemma SchemCtx.GptHas.setSchem {sc : SchemCtx} (h : sc.GptHas P) {t : SchemType}
    (hs : t = .gpt → P schem) : (sc.setSchem t (some schem)).GptHas P := by
  intro gpt hg
  cases t with
  | mbr => exact h gpt hg
  | gpt =>
    obtain rfl := Option.some.inj hg
    exact hs rfl
  | cnt => exact h gpt hg

lemma GptKept.ctxNew (hP : GptKept ctx P) (sc : SchemCtx) (t : SchemType) (r : Rng) :
    (schemCtxNew sc ctx t r).2.1.GptHas P := by
  intro gpt hg
  cases t with
  | mbr => exact absurd hg (by simp [schemCtxNew, schemCtxReset])
  | gpt =>
    obtain rfl := Option.some.inj hg
    exact hP.new _ _
  | cnt => exact absurd hg (by simp [schemCtxNew, schemCtxReset])

/-- One command keeps the property in the context. -/
lemma GptKept.action (hP : GptKept ctx P) {a : Action} (hwf : p.sc.WellFormed)
    (hp : p.sc.GptHas P) (h : ActionSpec sys ctx p a) : a.prog.sc.GptHas P := by
  cases h with
  | keep hsc => rwa [hsc]
  | edit schem schem' e hcur hspec hsc =>
    rw [hsc]
    refine hp.setSchem fun ht => ?_
    rw [ht] at hcur
    cases e with
    | refused why =>
      obtain rfl : schem' = schem := hspec
      exact hp _ hcur
    | accepted i =>
      obtain ⟨-, part, hpart, rfl⟩ := hspec
      exact hP.change schem i part (hwf.formed .gpt schem hcur).funcs (hp schem hcur) hpart
  | new t _ hsc =>
    rw [hsc]
    exact hP.ctxNew _ _ _
  | resetProt mbr _ hsc =>
    rw [hsc]
    exact hp.setSchem (t := .mbr) fun h => absurd h (by decide)
  | write hsc =>
    rw [hsc]
    intro gpt hg
    have hsame := congrFun (schemCtxSave_schemes sys p.sc ctx) .gpt
    exact hp gpt (hsame.symm.trans hg)

/-- A load finds what is on the image. -/
lemma ImgGptHas.load (hv : ctx.Valid) (hs : sys.Serves ctx) {m : Image} (h : ImgGptHas sys ctx m P)
    (sc : SchemCtx) (r : Rng) (hload : (schemCtxLoad sys m sc ctx r).res = .ok) :
    (schemCtxLoad sys m sc ctx r).sc.GptHas P := by
  intro gpt hg
  exact h gpt ((schemCtxLoad_spec hv hs sc r hload).schemGpt.symm.trans hg)

/-- Nothing is found on an image of zeros. -/
lemma imgGptHas_of_zero (hv : ctx.Valid) (hs : sys.Serves ctx) {m : Image} (hm : ∀ a, m a = 0)
    (P : Schem → Prop) : ImgGptHas sys ctx m P := by
  intro gpt hg
  have hno := schemLoadGpt_of_zero hv hs (fun a _ => hm a) (schemNew .gpt)
  rw [gptFound, if_neg (by rw [hno]; decide)] at hg
  exact absurd hg (by simp)

/-- What has been saved is found. -/
lemma GptKept.write (hP : GptKept ctx P) (hv : ctx.Valid) (hs : sys.Serves ctx)
    (hpg : sys'.pgSz = sys.pgSz) (hkept : p.Kept sys ctx) (hp : p.sc.GptHas P)
    (hsave : (schemCtxSave sys' p.sc ctx).res = .ok) :
    ImgGptHas sys ctx (stores p.img (schemCtxSave sys' p.sc ctx).stores) P := by
  intro gpt hg
  obtain ⟨hres, hagain⟩ := hkept.reload hv hs hpg hsave schemCtxInit zeroRng
  rw [← (schemCtxLoad_spec hv hs _ _ hres).schemGpt] at hg
  cases hold : p.sc.schemGpt with
  | none => exact absurd ((hagain.noGpt hold).symm.trans hg) (by simp)
  | some old =>
    obtain ⟨gpt', hg', hgagain⟩ := hagain.gpt old hold
    obtain rfl := Option.some.inj (hg'.symm.trans hg)
    exact hP.again old gpt' (hp old hold) hgagain

/-- What holds at every prompt. -/
structure Prog.Has (sys : Sys) (ctx : ImgCtx) (P : Schem → Prop) (p : Prog) : Prop where
  sc : p.sc.GptHas P
  img : ImgGptHas sys ctx p.img P

section Session

variable (hP : GptKept ctx P) (hv : ctx.Valid) (hal : 1 ≤ ctx.align.toNat) (hs : sys.Serves ctx)
include hP hv hal hs

/-- **A session keeps the property.** -/
lemma AtPrompt.has (hplats : ∀ s ∈ plats, s.pgSz = sys.pgSz) (h : AtPrompt fuel ctx plats p₀ p)
    (h₀ : p₀.Kept sys ctx) (hp₀ : p₀.Has sys ctx P) : p.Has sys ctx P := by
  refine h.invariant (fun sys' hsys' p a hp hhas ha hres => ?_) hp₀
  have hkept : p.readLine.Kept sys ctx := (hp.kept hv hal hs hplats h₀).readLine
  have hspec := (actionHandle_spec ha).1
  refine ⟨hP.action hkept.wellFormed.sc hhas.sc hspec, ?_⟩
  by_cases hw : lineSym p.inp = 'w'
  · rw [hw] at ha
    obtain ⟨hsave, -, himg⟩ := actionHandle_write ha hres
    rw [himg]
    exact hP.write hv hs (hplats _ hsys') hkept hhas.sc hsave
  · have himg := (actionHandle_sameDisk hw ha).img
    rw [himg]
    exact hhas.img

end Session

/-! ## One run after another -/

/-- A file of zeros, or one on which every GPT that is found has the property. -/
def ImgFile.Has (sys : Sys) (ctx : ImgCtx) (P : Schem → Prop) (file : ImgFile) : Prop :=
  (∀ b, file.img b = 0) ∨ file.sz = ctx.imgSz.toNat ∧ ImgGptHas sys ctx file.img P

/-- Where a run begins. -/
lemma Boots.has (hs : sys.Serves ctx) (hboot : Boots host argv opts ctx file file₁)
    (hfile : file.Has sys ctx P) : ImgGptHas sys ctx file₁.img P := by
  obtain ⟨hgrow, hctx, hok⟩ := hboot.spec
  have hv := (imgCtxValidate_ok_iff ctx).1 hok
  rcases hfile with hzero | ⟨hsz, hhas⟩
  · refine imgGptHas_of_zero hv hs (fun b => ?_) P
    cases hgrow with
    | same => exact hzero b
    | more _ _ himg => rw [himg, hzero, ite_self]
  · cases hgrow with
    | same => exact hhas
    | more hlt hsz₁ _ =>
      -- a file that has been worked on has its size
      have hlt' := file₁.sz_lt
      rw [hctx, imgInitCtx_imgSz, toNat_ofNat_of_lt (by omega)] at hsz
      omega

section Life

variable (hP : GptKept ctx P) (hs : sys.Serves ctx) (halign : ctx.align.toNat < 2 ^ 62)
  (hfuel : 2 ^ 65 ≤ fuel)
include hP hs halign hfuel

/-- One run keeps the property. -/
lemma Boots.run_has (hboot : Boots host argv opts ctx file file₁) (hhost : host.Serves sys ctx)
    (hord : file.InOrder sys ctx) (hfile : file.Has sys ctx P) {p : Prog}
    (hp : AtPrompt fuel ctx host.plats
      (startProg (host.load ctx file₁) host.inp file₁.img) p) : p.Has sys ctx P := by
  obtain ⟨-, -, hstart, -, -⟩ := hboot.run hs halign hfuel hhost hord
  obtain ⟨-, himg, -⟩ := hboot.inOrder hs hord
  obtain ⟨-, hctx, hok⟩ := hboot.spec
  have hv := (imgCtxValidate_ok_iff ctx).1 hok
  have hal : 1 ≤ ctx.align.toNat := hctx ▸ imgInitCtx_align_pos opts file₁.sz
  have hhas := hboot.has hs hfile
  refine hp.has hP hv hal hs (fun s hs => (hhost.plats s hs).1) hstart.kept ⟨?_, hhas⟩
  rw [startProg_sc, Host.load, hhost.sys_eq]
  exact hhas.load hv hs _ _ (himg.load _ _)

lemma Life.has {file₀ : ImgFile} (hzero : ∀ b, file₀.img b = 0)
    (h : Life sys ctx fuel file₀ file) : file.Has sys ctx P := by
  induction h with
  | start => exact Or.inl hzero
  | run hlife hboot hserves hmain ih =>
    have hord := hlife.inOrder hs halign hfuel hzero
    obtain ⟨p, hp, -, hrun, -⟩ := hboot.run hs halign hfuel hserves hord
    rw [hrun] at hmain
    obtain ⟨-, hfile⟩ := Outcome.mk.inj (Option.some.inj hmain)
    rw [← Option.some.inj hfile]
    exact Or.inr ⟨(hboot.inOrder hs hord).1,
      (hboot.run_has hP hs halign hfuel hserves hord ih hp).img⟩

end Life

/-! ## What the program makes -/

/-- A random identifier: of version 4, and with the variant bits that are set in it. -/
structure Guid.Random (guid : Guid) : Prop where
  version : guid.timeHiVer >>> 12 = 4
  variant : guid.clSeqHiRes >>> 5 = 6

lemma guidCreate_random (r : Rng) : (guidCreate r).1.Random := by
  have hver : ∀ x : UInt16,
      (x &&& ~~~((0xF : UInt16) <<< 12) ||| (0x4 : UInt16) <<< 12) >>> 12 = 4 := by
    intro x
    rw [UInt16.shiftRight_or, UInt16.shiftRight_and,
      show (~~~((0xF : UInt16) <<< 12)) >>> 12 = 0 by decide, UInt16.and_zero]
    decide
  have hvar : ∀ x : UInt8, (x &&& ~~~((0x7 : UInt8) <<< 5) ||| (0x6 : UInt8) <<< 5) >>> 5 = 6 := by
    intro x
    rw [UInt8.shiftRight_or, UInt8.shiftRight_and,
      show (~~~((0x7 : UInt8) <<< 5)) >>> 5 = 0 by decide, UInt8.and_zero]
    decide
  exact ⟨hver _, hvar _⟩

/-- The bytes of an identifier tell whether it is a random one. -/
lemma Guid.Random.of_bytes {guid guid' : Guid} (h : guid.Random)
    (he : guidBytes guid' = guidBytes guid) : guid'.Random := by
  obtain ⟨he, -⟩ := List.append_inj' he (by simp)
  obtain ⟨he, -⟩ := List.append_inj' he (by simp)
  obtain ⟨he, hhi⟩ := List.append_inj' he (by simp)
  obtain ⟨-, hver⟩ := List.append_inj' he (by simp)
  obtain ⟨h1, h2⟩ := h
  rw [← le16_inj hver] at h1
  rw [← List.singleton_inj.1 hhi] at h2
  exact ⟨h1, h2⟩

/-- A partition as the program makes it. -/
structure SchemPart.Made (part : SchemPart) : Prop where
  uniqueGuid : part.uniqueGuid.Random
  attr : part.attr = 0
  name : part.name = fun _ => 0

/-- A GPT as the program makes it. -/
structure Schem.Made (schem : Schem) : Prop where
  idGuid : schem.idGuid.Random
  part : ∀ i < schem.partCnt.toNat, schemPartIsUsedGpt (schem.table i) = true →
    (schem.table i).Made

lemma schemPartInitGpt_made (part : SchemPart) (r : Rng) : (schemPartInitGpt part r).1.Made :=
  ⟨guidCreate_random r, rfl, rfl⟩

/-- An entry that is used after a change is as the program makes it. -/
lemma PartChange.made {i : Pu32} {part : SchemPart} (hfuncs : schem.funcs = .gpt)
    (h : schemPartIsUsedGpt (schem.table i.toNat) = true → (schem.table i.toNat).Made)
    (hc : PartChange ctx schem i part) (hu : schemPartIsUsedGpt part = true) : part.Made := by
  have hused : ∀ part : SchemPart, schem.partIsUsed part = schemPartIsUsedGpt part := by
    intro part
    rw [Schem.partIsUsed, hfuncs]
  cases hc with
  | delete => exact absurd hu (by decide)
  | boot _ hold =>
    obtain ⟨h1, h2, h3⟩ := h (hused _ ▸ hold)
    exact ⟨h1, h2, h3⟩
  | typeMbr _ _ hold =>
    obtain ⟨h1, h2, h3⟩ := h (hused _ ▸ hold)
    exact ⟨h1, h2, h3⟩
  | typeGpt _ _ _ _ hold =>
    obtain ⟨h1, h2, h3⟩ := h (hused _ ▸ hold)
    exact ⟨h1, h2, h3⟩
  | keep _ hold => exact h (hused _ ▸ hold)
  | alter part startLba endLba hpart _ _ _ =>
    have hmade : part.Made := by
      rcases hpart with ⟨hold, rfl⟩ | ⟨-, rng, rfl⟩
      · exact h (hused _ ▸ hold)
      · rw [hfuncs]
        exact schemPartInitGpt_made (schem.table i.toNat) rng
    exact ⟨hmade.uniqueGuid, hmade.attr, hmade.name⟩

lemma made_kept (ctx : ImgCtx) : GptKept ctx Schem.Made where
  new schem r := by
    refine ⟨guidCreate_random r, fun i _ hu => ?_⟩
    have hzero : schemPartIsUsedGpt SchemPart.zero = true := hu
    exact absurd hzero (by decide)
  change schem i part hfuncs h hc := by
    refine ⟨h.idGuid, fun j hj hu => ?_⟩
    rcases eq_or_ne j i.toNat with rfl | hji
    · rw [Schem.setPart_same] at hu ⊢
      exact hc.made hfuncs (h.part _ hj) hu
    · rw [Schem.setPart_of_ne _ _ hji] at hu ⊢
      exact h.part j hj hu
  again schem schem' h hagain := by
    refine ⟨h.idGuid.of_bytes hagain.idGuid, fun i hi hu => ?_⟩
    rw [hagain.partCnt] at hi
    have hold := (hagain.used i hi).symm.trans hu
    obtain ⟨h1, h2, h3⟩ := h.part i hi hold
    have hsame := hagain.part i hi hold
    exact ⟨h1.of_bytes hsame.uniqueGuid, hsame.attr.trans h2, hsame.name.trans h3⟩

/-- **What the program makes.**  A file of zeros is given to the program again and again, with
any input each time.  At every prompt of every run the identifiers of a GPT and of its partitions
are random ones of version 4, and no partition has an attribute or a name: such a GPT is the only
one that is ever made, saved and found. -/
theorem made_of_life (hs : sys.Serves ctx) (halign : ctx.align.toNat < 2 ^ 62)
    (hfuel : 2 ^ 65 ≤ fuel) {file₀ : ImgFile} (hzero : ∀ b, file₀.img b = 0)
    (hlife : Life sys ctx fuel file₀ file) (hboot : Boots host argv opts ctx file file₁)
    (hhost : host.Serves sys ctx) {p : Prog} (hp : AtPrompt fuel ctx host.plats
      (startProg (host.load ctx file₁) host.inp file₁.img) p) {gpt : Schem}
    (hg : p.sc.schemGpt = some gpt) : gpt.Made :=
  (hboot.run_has (made_kept ctx) hs halign hfuel hhost (hlife.inOrder hs halign hfuel hzero)
    (hlife.has (made_kept ctx) hs halign hfuel hzero) hp).sc gpt hg

/-- A run on a new file that makes a GPT. -/
def gptHost : Host := { smallHost with inp := [newLine .gpt] }

/-- The GPT that is made on a new file. -/
theorem made_of_life_small : ∃ p gpt, AtPrompt (2 ^ 65) smallCtx gptHost.plats
      (startProg (gptHost.load smallCtx (emptyFile.writeZero 1048575 (by decide))) gptHost.inp
        (emptyFile.writeZero 1048575 (by decide)).img) p ∧
    p.sc.schemGpt = some gpt ∧ gpt.Made := by
  have hboot : Boots gptHost smallArgv smallOpts smallCtx emptyFile
      (emptyFile.writeZero 1048575 (by decide)) := ⟨smallHost_boots.parse, rfl, rfl⟩
  have hserves : gptHost.Serves plainSys smallCtx := ⟨rfl, smallHost_serves.plats, by decide⟩
  have hp : AtPrompt (2 ^ 65) smallCtx gptHost.plats
      (startProg (gptHost.load smallCtx (emptyFile.writeZero 1048575 (by decide))) gptHost.inp
        (emptyFile.writeZero 1048575 (by decide)).img) _ :=
    .single ⟨plainSys, List.mem_cons_self,
      routinePass_new (t := .gpt) (by decide) plainSys smallCtx (2 ^ 65) [] rfl⟩
  exact ⟨_, _, hp, rfl, made_of_life smallCtx_serves (by decide) le_rfl
    (fun _ => rfl) .start hboot hserves hp rfl⟩

end Partman

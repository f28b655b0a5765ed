/-
# Runs of the program

What a run of the program makes of the image file, whatever the options and the input are,
and a file that is worked on by one run after another.
-/
import Partman.Model.Program
import Partman.Session.Sound

namespace Partman

open Lib

variable {sys : Sys} {ctx : ImgCtx} {fuel : ℕ} {host : Host} {opts : PartmanOpts}
  {argv : List (List Char)} {file file₁ : ImgFile} {out : Outcome}

/-! ## The image file -/

/-- The file `file₁` is the file `file`, extended by zeros if it is shorter than asked for. -/
inductive ImgFile.GrowsTo (opts : PartmanOpts) (file : ImgFile) : ImgFile → Prop
  | same : GrowsTo opts file file
  | more {file₁ : ImgFile} (hlt : file.sz < opts.imgSz.toNat) (hsz : file₁.sz = opts.imgSz.toNat)
      (himg : ∀ b, file₁.img b = if b < file.sz then file.img b else 0) : GrowsTo opts file file₁

lemma ImgFile.GrowsTo.img_eq (h : file.GrowsTo opts file₁) {b : ℕ} (hb : b < file₁.sz) :
    file₁.img b = if b < file.sz then file.img b else 0 := by
  cases h with
  | same => rw [if_pos hb]
  | more _ _ himg => exact himg b

lemma extend_growsTo (hlt : file.sz < opts.imgSz.toNat) (h : file.extend host opts = some file₁) :
    file.GrowsTo opts file₁ := by
  have hpos : (opts.imgSz - 1).toNat = opts.imgSz.toNat - 1 := by
    rw [UInt64.toNat_sub_of_le _ _ (by rw [UInt64.le_iff_toNat_le, UInt64.toNat_one]; omega),
      UInt64.toNat_one]
  rw [ImgFile.extend] at h
  split_ifs at h
  obtain rfl := Option.some.inj h
  refine .more hlt ?_ fun b => ?_
  · simp only [ImgFile.writeZero, hpos]
    omega
  · simp only [ImgFile.writeZero, hpos]
    by_cases hb : b < file.sz
    · rw [if_pos ⟨hb, by omega⟩, if_pos hb]
    · rw [if_neg (fun hc => hb hc.1), if_neg hb]

lemma imgInitLabel_some (h : imgInitLabel opts file = some ctx) :
    ctx = imgInitCtx opts file.sz ∧ imgCtxValidate ctx = .ok := by
  rw [imgInitLabel] at h
  split_ifs at h with hok
  obtain rfl := Option.some.inj h
  exact ⟨rfl, hok⟩

/-- What `img_init` makes of the file and the options. -/
lemma imgInit_spec {o : Option ImgCtx} (h : imgInit host opts file = (o, file₁)) :
    file.GrowsTo opts file₁ ∧
      ∀ ctx, o = some ctx → ctx = imgInitCtx opts file₁.sz ∧ imgCtxValidate ctx = .ok := by
  rw [imgInit] at h
  by_cases hseek : host.seekEnd = true
  swap
  · rw [if_pos (by simpa using hseek)] at h
    obtain ⟨rfl, rfl⟩ := Prod.mk.inj h
    exact ⟨.same, by simp⟩
  rw [if_neg (by simpa using hseek)] at h
  by_cases hsz : UInt64.ofNat file.sz ≥ opts.imgSz
  · rw [if_pos hsz] at h
    obtain ⟨rfl, rfl⟩ := Prod.mk.inj h
    exact ⟨.same, fun ctx => imgInitLabel_some⟩
  · rw [if_neg hsz] at h
    have hlt : file.sz < opts.imgSz.toNat := by
      have hfile := file.sz_lt
      rw [ge_iff_le, UInt64.le_iff_toNat_le, toNat_ofNat_of_lt (by omega)] at hsz
      omega
    cases hext : file.extend host opts with
    | none =>
      rw [hext] at h
      obtain ⟨rfl, rfl⟩ := Prod.mk.inj h
      exact ⟨.same, by simp⟩
    | some file₂ =>
      rw [hext] at h
      obtain ⟨rfl, rfl⟩ := Prod.mk.inj h
      exact ⟨extend_growsTo hlt hext, fun ctx => imgInitLabel_some⟩

@[simp] lemma imgInitCtx_imgSz (opts : PartmanOpts) (sz : ℕ) :
    (imgInitCtx opts sz).imgSz = UInt64.ofNat sz := by
  rw [imgInitCtx]
  split_ifs <;> rfl

/-- The alignment is never zero. -/
lemma imgInitCtx_align_pos (opts : PartmanOpts) (sz : ℕ) :
    1 ≤ (imgInitCtx opts sz).align.toNat := by
  have halign : (imgInitCtx opts sz).align = if opts.align != 0 then opts.align else 2048 := by
    rw [imgInitCtx]
    split_ifs <;> rfl
  rw [halign]
  split_ifs with h
  · have hne : opts.align ≠ 0 := by simpa using h
    exact Nat.one_le_iff_ne_zero.2 fun h0 => hne (UInt64.toNat_inj.1 h0)
  · decide

/-! ## One run -/

/-- The program comes as far as the load: the file that it opens becomes `file₁`, and the
image context is `ctx`. -/
structure Boots (host : Host) (argv : List (List Char)) (opts : PartmanOpts) (ctx : ImgCtx)
    (file file₁ : ImgFile) : Prop where
  parse : optsParse argv = .ok opts
  openImg : host.openImg opts.imgName = some file
  init : imgInit host opts file = (some ctx, file₁)

/-- The load at the start of a run. -/
def Host.load (host : Host) (ctx : ImgCtx) (file : ImgFile) : CtxLoad :=
  schemCtxLoad host.sys file.img schemCtxInit ctx host.rng

/-- The ways in which a run of the program ends. -/
inductive Ran (fuel : ℕ) (host : Host) (argv : List (List Char)) : Outcome → Prop
  | unopened : Ran fuel host argv ⟨exitFailure, none⟩
  | refused {opts : PartmanOpts} {file : ImgFile} (hparse : optsParse argv = .ok opts)
      (hopen : host.openImg opts.imgName = some file) :
      Ran fuel host argv ⟨exitFailure, some (imgInit host opts file).2⟩
  | unloaded {opts : PartmanOpts} {ctx : ImgCtx} {file file₁ : ImgFile}
      (hboot : Boots host argv opts ctx file file₁) (hload : (host.load ctx file₁).res = .fail) :
      Ran fuel host argv ⟨0, some file₁⟩
  | session {opts : PartmanOpts} {ctx : ImgCtx} {file file₁ : ImgFile} {res : Pres} {q : Prog}
      (hboot : Boots host argv opts ctx file file₁) (hload : (host.load ctx file₁).res = .ok)
      (hrun : routineStart fuel ctx host.plats
        (startProg (host.load ctx file₁) host.inp file₁.img) = some (res, q)) :
      Ran fuel host argv ⟨res.toNat, some { file₁ with img := q.img }⟩

lemma main_of_boots (h : Boots host argv opts ctx file file₁) :
    main fuel host argv =
      if (host.load ctx file₁).res = .fail then some ⟨(host.load ctx file₁).res.toNat, some file₁⟩
      else (routineStart fuel ctx host.plats
        (startProg (host.load ctx file₁) host.inp file₁.img)).map fun x =>
          ⟨x.1.toNat, some { file₁ with img := x.2.img }⟩ := by
  rw [main]
  simp only [h.parse, h.openImg, h.init]
  rfl

lemma ran_of_main (h : main fuel host argv = some out) : Ran fuel host argv out := by
  cases hparse : optsParse argv with
  | error msg =>
    rw [main, hparse] at h
    obtain rfl := Option.some.inj h
    exact .unopened
  | ok opts =>
    cases hopen : host.openImg opts.imgName with
    | none =>
      rw [main, hparse] at h
      simp only [hopen] at h
      obtain rfl := Option.some.inj h
      exact .unopened
    | some file =>
      cases hinit : imgInit host opts file with
      | mk o file₁ =>
      cases o with
      | none =>
        rw [main, hparse] at h
        simp only [hopen, hinit] at h
        obtain rfl := Option.some.inj h
        have hfile : file₁ = (imgInit host opts file).2 := by rw [hinit]
        exact hfile ▸ .refused hparse hopen
      | some ctx =>
        have hboot : Boots host argv opts ctx file file₁ := ⟨hparse, hopen, hinit⟩
        rw [main_of_boots hboot] at h
        split_ifs at h with hload
        · obtain rfl := Option.some.inj h
          rw [hload]
          exact .unloaded hboot hload
        · obtain ⟨⟨res, q⟩, hrun, rfl⟩ := Option.map_eq_some_iff.1 h
          exact .session hboot (pres_ok_of_ne hload) hrun

/-- The file and the context of a run. -/
lemma Boots.spec (h : Boots host argv opts ctx file file₁) : file.GrowsTo opts file₁ ∧
    ctx = imgInitCtx opts file₁.sz ∧ imgCtxValidate ctx = .ok := by
  obtain ⟨hgrow, hctx⟩ := imgInit_spec h.init
  exact ⟨hgrow, hctx ctx rfl⟩

/-- **What a run of the program leaves alone.**  Whatever the options, the file, the input and
the platform are, and however the program ends: a file that has been opened has kept its size,
or has the size asked for; and all its bytes are those it had, behind which there are zeros, but
for the boot record, the headers and the tables. -/
theorem main_outside (fuel : ℕ) (host : Host) (argv : List (List Char)) {out : Outcome}
    (h : main fuel host argv = some out) {file' : ImgFile} (hfile : out.file = some file') :
    ∃ opts file, optsParse argv = .ok opts ∧ host.openImg opts.imgName = some file ∧
      (file'.sz = file.sz ∨ file.sz < opts.imgSz.toNat ∧ file'.sz = opts.imgSz.toNat) ∧
      ∀ b < file'.sz, ¬ InAreas (imgInitCtx opts file'.sz) b →
        file'.img b = if b < file.sz then file.img b else 0 := by
  have hsz : ∀ {opts : PartmanOpts} {file file₁ : ImgFile}, file.GrowsTo opts file₁ →
      file₁.sz = file.sz ∨ file.sz < opts.imgSz.toNat ∧ file₁.sz = opts.imgSz.toNat := by
    rintro opts file file₁ (_ | ⟨hlt, hsz⟩)
    exacts [Or.inl rfl, Or.inr ⟨hlt, hsz⟩]
  cases ran_of_main h with
  | unopened => exact absurd hfile (by simp)
  | @refused opts file hparse hopen =>
    obtain rfl := Option.some.inj hfile
    have hgrow : file.GrowsTo opts (imgInit host opts file).2 := (imgInit_spec rfl).1
    exact ⟨opts, file, hparse, hopen, hsz hgrow, fun b hb _ => hgrow.img_eq hb⟩
  | @unloaded opts ctx file file₁ hboot =>
    obtain rfl := Option.some.inj hfile
    obtain ⟨hgrow, -, -⟩ := hboot.spec
    exact ⟨opts, file, hboot.parse, hboot.openImg, hsz hgrow, fun b hb _ => hgrow.img_eq hb⟩
  | @session opts ctx file file₁ res q hboot hload hrun =>
    have hsz₁ : file'.sz = file₁.sz := by rw [← Option.some.inj hfile]
    have himg : file'.img = q.img := by rw [← Option.some.inj hfile]
    obtain ⟨hgrow, rfl, hctx⟩ := hboot.spec
    have hwf : (startProg (host.load (imgInitCtx opts file₁.sz) file₁) host.inp
        file₁.img).WellFormed := startProg_wellFormed hload host.inp file₁.img
    rw [hsz₁, himg]
    refine ⟨opts, file, hboot.parse, hboot.openImg, hsz hgrow, fun b hb hout => ?_⟩
    rw [← hgrow.img_eq hb]
    exact routineStart_frame ((imgCtxValidate_ok_iff _).1 hctx) hwf (startProg_cur _ _ _) hrun hout

/-! ## One run after another -/

/-- The platform serves the image during a run, and flushes it.  The schemes are loaded on the
platform `sys`. -/
structure Host.Serves (host : Host) (sys : Sys) (ctx : ImgCtx) : Prop where
  sys_eq : host.sys = sys
  plats : ∀ s ∈ host.plats, s.pgSz = sys.pgSz ∧ s.Serves ctx ∧ s.fsyncOk = true
  long : host.inp.length < host.plats.length

/-- The files that runs of the program make of a file, one run after another, as long as the
options and the file give the image context `ctx`. -/
inductive Life (sys : Sys) (ctx : ImgCtx) (fuel : ℕ) (file₀ : ImgFile) : ImgFile → Prop
  | start : Life sys ctx fuel file₀ file₀
  | run {host : Host} {argv : List (List Char)} {opts : PartmanOpts} {status : ℕ}
      {file file₁ file₂ : ImgFile} (h : Life sys ctx fuel file₀ file)
      (hboot : Boots host argv opts ctx file file₁) (hserves : host.Serves sys ctx)
      (hmain : main fuel host argv = some ⟨status, some file₂⟩) : Life sys ctx fuel file₀ file₂

/-- A file of zeros, or what the program has made of one. -/
structure ImgFile.InOrder (sys : Sys) (ctx : ImgCtx) (file : ImgFile) : Prop where
  outside : ∀ b, ¬ InAreas ctx b → file.img b = 0
  img : (∀ b, file.img b = 0) ∨ file.sz = ctx.imgSz.toNat ∧ ImgInOrder sys ctx file.img

/-- The context of a run tells the size of its file. -/
lemma Boots.sz (h : Boots host argv opts ctx file file₁) : file₁.sz = ctx.imgSz.toNat := by
  have := file₁.sz_lt
  rw [h.spec.2.1, imgInitCtx_imgSz, toNat_ofNat_of_lt (by omega)]

section Life

variable (hs : sys.Serves ctx) (halign : ctx.align.toNat < 2 ^ 62)
include hs

/-- Where a run begins, the image is in order. -/
lemma Boots.inOrder (hboot : Boots host argv opts ctx file file₁) (hfile : file.InOrder sys ctx) :
    file₁.sz = ctx.imgSz.toNat ∧ ImgInOrder sys ctx file₁.img ∧
      ∀ b, ¬ InAreas ctx b → file₁.img b = 0 := by
  obtain ⟨hgrow, -, hok⟩ := hboot.spec
  have hv := (imgCtxValidate_ok_iff ctx).1 hok
  have hsz := hboot.sz
  refine ⟨hsz, ?_⟩
  cases hgrow with
  | same =>
    refine ⟨?_, hfile.outside⟩
    rcases hfile.img with hzero | ⟨-, h⟩
    · exact imgInOrder_of_zero hv hs hzero
    · exact h
  | more hlt _ himg =>
    -- a file that has been worked on has its size
    have hzero : ∀ b, file₁.img b = 0 := by
      rcases hfile.img with hzero | ⟨hold, -⟩
      · intro b
        rw [himg, hzero, ite_self]
      · omega
    exact ⟨imgInOrder_of_zero hv hs hzero, fun b _ => hzero b⟩

include halign

lemma secs_add_align_lt (hv : ctx.Valid) : ctx.secs + ctx.align.toNat < 2 ^ 63 := by
  have hle := ctx.secs_mul_le
  have hsec := hv.sec_bounds.1
  have himg := hs.imgSz_lt
  have := Nat.mul_le_mul_left ctx.secs hsec
  omega

/-- **One run** on a file in order. -/
lemma Boots.run (hfuel : 2 ^ 65 ≤ fuel) (hboot : Boots host argv opts ctx file file₁)
    (hhost : host.Serves sys ctx) (hfile : file.InOrder sys ctx) :
    ∃ p, AtPrompt fuel ctx host.plats (startProg (host.load ctx file₁) host.inp file₁.img) p ∧
      (startProg (host.load ctx file₁) host.inp file₁.img).Sound sys ctx ∧
      main fuel host argv = some ⟨1, some { file₁ with img := p.img }⟩ ∧
      ImgFile.InOrder sys ctx { file₁ with img := p.img } := by
  obtain ⟨hsz, hord, hout⟩ := hboot.inOrder hs hfile
  obtain ⟨-, hctx, hok⟩ := hboot.spec
  have hv := (imgCtxValidate_ok_iff ctx).1 hok
  have hal : 1 ≤ ctx.align.toNat := hctx ▸ imgInitCtx_align_pos opts file₁.sz
  have hload : (host.load ctx file₁).res = .ok := by
    rw [Host.load, hhost.sys_eq]
    exact hord.load _ _
  have hstart : (startProg (host.load ctx file₁) host.inp file₁.img).Sound sys ctx := by
    rw [Host.load, hhost.sys_eq]
    exact hord.start hv hs _ _ _
  obtain ⟨p, hp, hsound, hrun⟩ := hstart.session hv hal (secs_add_align_lt hs halign hv) hs hfuel
    (startProg_cur _ _ _) hhost.plats hhost.long
  refine ⟨p, hp, hstart, ?_, ⟨fun b hb => ?_, Or.inr ⟨hsz, hsound.img⟩⟩⟩
  · rw [main_of_boots hboot, hload, if_neg (by decide), hrun]
    rfl
  · exact (AtPrompt.outside hv hp hstart.kept.wellFormed hb).trans (hout b hb)

/-- What runs have made of a file of zeros is in order. -/
lemma Life.inOrder (hfuel : 2 ^ 65 ≤ fuel) {file₀ : ImgFile} (hzero : ∀ b, file₀.img b = 0)
    (h : Life sys ctx fuel file₀ file) : file.InOrder sys ctx := by
  induction h with
  | start => exact ⟨fun b _ => hzero b, Or.inl hzero⟩
  | run _ hboot hserves hmain ih =>
    obtain ⟨p, -, -, hrun, hord⟩ := hboot.run hs halign hfuel hserves ih
    rw [hrun] at hmain
    obtain ⟨-, hfile⟩ := Outcome.mk.inj (Option.some.inj hmain)
    exact Option.some.inj hfile ▸ hord

end Life

/-- A new file. -/
def emptyFile : ImgFile := ⟨0, zeroImage, by decide⟩

/-- A run on a new file, with the commands `o`, `w` and `q`. -/
def smallHost : Host where
  openImg _ := some emptyFile
  seekEnd := true
  seekSet _ := true
  write _ := true
  sys := plainSys
  plats := List.replicate 4 plainSys
  rng := zeroRng
  inp := newMbrInput

def smallArgv : List (List Char) :=
  ["partman".toList, "--min=1048576".toList, "disk.img".toList]

def smallOpts : PartmanOpts :=
  { optsInitDefault with imgSz := 1048576, imgName := "disk.img".toList }

lemma smallHost_boots : Boots smallHost smallArgv smallOpts smallCtx emptyFile
    (emptyFile.writeZero 1048575 (by decide)) :=
  ⟨by decide, rfl, rfl⟩

lemma smallHost_serves : smallHost.Serves plainSys smallCtx where
  sys_eq := rfl
  plats s hs := by
    obtain rfl := List.eq_of_mem_replicate hs
    exact ⟨rfl, smallCtx_serves, rfl⟩
  long := by decide

/-- The first run on a new file extends it, and writes to the areas only. -/
theorem main_outside_small : ∃ file', main (2 ^ 65) smallHost smallArgv = some ⟨1, some file'⟩ ∧
    ∃ opts file, optsParse smallArgv = .ok opts ∧
      smallHost.openImg opts.imgName = some file ∧
      (file'.sz = file.sz ∨ file.sz < opts.imgSz.toNat ∧ file'.sz = opts.imgSz.toNat) ∧
      ∀ b < file'.sz, ¬ InAreas (imgInitCtx opts file'.sz) b →
        file'.img b = if b < file.sz then file.img b else 0 := by
  obtain ⟨p, -, -, hrun, -⟩ := smallHost_boots.run smallCtx_serves (by decide) le_rfl
    smallHost_serves ⟨fun _ _ => rfl, Or.inl fun _ => rfl⟩
  exact ⟨_, hrun, main_outside (2 ^ 65) smallHost smallArgv hrun rfl⟩

end Partman

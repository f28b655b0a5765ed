/-
# Image contexts that can be asked for

The options of the program can describe every image context that it accepts, for every image
file that is not longer than the context says.
-/
import Partman.Session.Program
import Partman.Text.Options
import Partman.Text.Typed

namespace Partman

open Lib

variable {ctx : ImgCtx} {host : Host} {opts : PartmanOpts} {argv : List (List Char)}
  {file file₁ : ImgFile} {name : List Char}

/-! ## Command lines -/

lemma isNumber_decimal (n : Pu64) : IsNumber (decimal n.toNat) n := by
  have hdigit : ∀ c ∈ decimal n.toNat, isBaseDigit 10 c = true := fun c hc =>
    isBaseDigit_ten.trans (decimal_isDigit hc)
  refine ⟨⟨[], none, [], decimal n.toNat, by simp, by simp, Or.inl rfl, decimal_ne_nil _, hdigit,
    by simp⟩, [], by simp [Numeral.text], ⟨Or.inl (by simp), by simp⟩, ?_⟩
  exact (strtoul_of_digitsVal (digitsVal_decimal n.toNat)).symm

/-- The options with their arguments in words of their own, and the name of the image file. -/
def optWords (settings : List (Char × List Char)) (name : List Char) : List (List Char) :=
  settings.flatMap (fun s => [['-', s.1], s.2]) ++ [['-', '-'], name]

lemma reads_optWords {settings : List (Char × List Char)} (name : List Char)
    (h : ∀ s ∈ settings, s.1 ∈ optStr) :
    optsTable.Reads (optWords settings name) settings [name] := by
  induction settings with
  | nil => exact .stop [name]
  | cons s settings ih =>
    have hs : optsTable.short s.1 = some s.1 := if_pos (h s List.mem_cons_self)
    have hwords : optWords (s :: settings) name =
        [['-', s.1], s.2] ++ optWords settings name := by simp [optWords]
    rw [hwords]
    exact .setting (.shortApart hs) (ih fun s hs => h s (List.mem_cons_of_mem _ hs))

/-- The options that describe an image context. -/
def ImgCtx.settings (ctx : ImgCtx) : List (Char × List Char) :=
  [('b', decimal ctx.secSz.toNat), ('m', decimal ctx.imgSz.toNat),
    ('a', decimal ctx.align.toNat), ('H', decimal ctx.hpc.toNat), ('S', decimal ctx.spt.toNat)]

/-- The options as they are set by these. -/
def ImgCtx.asked (ctx : ImgCtx) (name : List Char) : PartmanOpts :=
  { optsInitDefault with
    secSz := ctx.secSz, imgSz := ctx.imgSz, align := ctx.align, hpc := ctx.hpc, spt := ctx.spt
    imgName := name }

lemma optsParse_settings (ctx : ImgCtx) (execName name : List Char) :
    optsParse (execName :: optWords ctx.settings name) = .ok (ctx.asked name) := by
  have hbyte : ∀ i : Pu8, i = i.toUInt64.toUInt8 ∧ i.toUInt64.toNat < 256 ∧
      IsNumber (decimal i.toNat) i.toUInt64 := fun i =>
    ⟨by simp, i.toNat_lt, isNumber_decimal i.toUInt64⟩
  have hsets : SetsAll optsInitDefault ctx.settings
      { optsInitDefault with
        secSz := ctx.secSz, imgSz := ctx.imgSz, align := ctx.align, hpc := ctx.hpc
        spt := ctx.spt } := by
    refine .cons (.sectorSize (isNumber_decimal _)) (.cons (.minImgSize (isNumber_decimal _))
      (.cons (.alignment (isNumber_decimal _)) ?_))
    obtain ⟨hh, hhlt, hhnum⟩ := hbyte ctx.hpc
    obtain ⟨hs, hslt, hsnum⟩ := hbyte ctx.spt
    refine .cons (.heads hhnum hhlt) (.cons (.sectors hsnum hslt) ?_)
    rw [← hh, ← hs]
    exact .nil _
  have hscan : optsTable.scan (optWords ctx.settings name) = ⟨ctx.settings, some [name]⟩ :=
    OptTable.scan_of_reads (reads_optWords name (by simp [ImgCtx.settings, optStr]))
  simp only [optsParse, hscan, optsLoop_ok.2 hsets]
  rfl

/-! ## Image files -/

/-- The image file of this name can be opened and extended. -/
structure Host.Opens (host : Host) (name : List Char) (file : ImgFile) : Prop where
  openImg : host.openImg name = some file
  seekEnd : host.seekEnd = true
  seekSet : ∀ off, host.seekSet off = true
  write : ∀ off, host.write off = true

lemma ImgFile.GrowsTo.sz_le (h : file.GrowsTo opts file₁) : file.sz ≤ file₁.sz := by
  cases h with
  | same => exact le_rfl
  | more hlt hsz himg => omega

/-- The options are as the context, which is valid. -/
lemma imgInitCtx_asked (hv : ctx.Valid) (halign : ctx.align ≠ 0) (name : List Char) :
    imgInitCtx (ctx.asked name) ctx.imgSz.toNat = ctx := by
  have hne : ∀ {x : UInt64}, x.toNat ≠ 0 → (x != 0) = true := fun h =>
    bne_iff_ne.2 fun h0 => h (by rw [h0]; rfl)
  have hne' : ∀ {x : UInt8}, 1 ≤ x.toNat → (x != 0) = true := fun h =>
    bne_iff_ne.2 fun h0 => absurd h (by rw [h0]; decide)
  have hle : 512 ≤ ctx.secSz.toNat := hv.sec_bounds.1
  have hsec : (ctx.secSz != 0) = true := hne (by omega)
  simp only [imgInitCtx, ImgCtx.asked, hsec, bne_iff_ne.2 halign, hne' hv.hpc, hne' hv.spt.1,
    if_true, imgCtxInit, UInt64.ofNat_toNat]

lemma imgInit_asked (h : host.Opens name file) (hok : imgCtxValidate ctx = .ok)
    (halign : ctx.align ≠ 0) (hsz : file.sz ≤ ctx.imgSz.toNat) (hlt : ctx.imgSz.toNat < 2 ^ 63) :
    ∃ file₁, imgInit host (ctx.asked name) file = (some ctx, file₁) := by
  have hv := (imgCtxValidate_ok_iff ctx).1 hok
  have hlabel : ∀ {file₁ : ImgFile}, file₁.sz = ctx.imgSz.toNat →
      imgInitLabel (ctx.asked name) file₁ = some ctx := by
    intro file₁ hsz₁
    rw [imgInitLabel, hsz₁, imgInitCtx_asked hv halign]
    exact if_pos hok
  have hle : UInt64.ofNat file.sz ≥ (ctx.asked name).imgSz ↔ ctx.imgSz.toNat ≤ file.sz := by
    rw [ge_iff_le, UInt64.le_iff_toNat_le, toNat_ofNat_of_lt (by omega)]
    exact Iff.rfl
  rw [imgInit, h.seekEnd, if_neg (by decide)]
  by_cases hge : ctx.imgSz.toNat ≤ file.sz
  · rw [if_pos (hle.2 hge), hlabel (le_antisymm hsz hge)]
    exact ⟨file, rfl⟩
  · rw [if_neg (mt hle.1 hge)]
    -- the file is extended to the size of the context
    have hpos : ((ctx.asked name).imgSz - 1).toNat = ctx.imgSz.toNat - 1 :=
      toNat_sub_of_ge (by rw [UInt64.toNat_one]; exact hv.size.trans' (by decide))
    have hoff : ((ctx.asked name).imgSz - 1).toNat + 1 < 2 ^ 63 := by
      have := hv.size
      omega
    have hext : file.extend host (ctx.asked name) = some (file.writeZero _ hoff) := by
      rw [ImgFile.extend, dif_pos hoff, h.seekSet, h.write]
      rfl
    rw [hext]
    refine ⟨_, Prod.ext (hlabel ?_) rfl⟩
    simp only [ImgFile.writeZero, hpos]
    have := hv.size
    omega

/-- **The image contexts that can be asked for.**  Where the image file can be opened and
extended, there is a command line on which the program comes as far as the load with a given
image context if and only if the context is accepted, has an alignment, is not smaller than the
file and not larger than a file can be. -/
theorem boots_iff (host : Host) (name : List Char) (file : ImgFile) (ctx : ImgCtx)
    (h : host.Opens name file) :
    (∃ argv opts file₁, opts.imgName = name ∧ Boots host argv opts ctx file file₁) ↔
      imgCtxValidate ctx = .ok ∧ ctx.align ≠ 0 ∧ file.sz ≤ ctx.imgSz.toNat ∧
        ctx.imgSz.toNat < 2 ^ 63 := by
  constructor
  · rintro ⟨argv, opts, file₁, rfl, hboot⟩
    obtain ⟨hgrow, hctx, hok⟩ := hboot.spec
    have hsz := hboot.sz
    refine ⟨hok, fun h0 => ?_, hsz ▸ hgrow.sz_le, hsz ▸ file₁.sz_lt⟩
    have := imgInitCtx_align_pos opts file₁.sz
    rw [← hctx, h0] at this
    exact absurd this (by decide)
  · rintro ⟨hok, halign, hsz, hlt⟩
    obtain ⟨file₁, hinit⟩ := imgInit_asked h hok halign hsz hlt
    exact ⟨_, ctx.asked name, file₁, rfl, optsParse_settings ctx "partman".toList name, h.openImg,
      hinit⟩

/-- The small image is asked for on a new file. -/
theorem boots_iff_small : ∃ argv opts file₁, opts.imgName = "disk.img".toList ∧
    Boots smallHost argv opts smallCtx emptyFile file₁ :=
  (boots_iff smallHost "disk.img".toList emptyFile smallCtx
    ⟨rfl, rfl, fun _ => rfl, fun _ => rfl⟩).2
    ⟨smallCtx_valid, by decide, Nat.zero_le _, by decide⟩

end Partman

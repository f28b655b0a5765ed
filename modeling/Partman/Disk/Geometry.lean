/-
# The geometry of an accepted image

What `img_ctx_validate` accepts, as facts about natural numbers: the four sector sizes, the
number of whole sectors of the image, and where the two copies of a GPT are placed.
-/
import Partman.Lib.Word
import Partman.Model.Mbr
import Partman.Model.Gpt

namespace Partman

open Lib

/-- The conditions that `img_ctx_validate` checks. -/
structure ImgCtx.Valid (ctx : ImgCtx) : Prop where
  sec : ctx.secSz = 512 ∨ ctx.secSz = 1024 ∨ ctx.secSz = 2048 ∨ ctx.secSz = 4096
  size : 524288 ≤ ctx.imgSz.toNat
  hpc : 1 ≤ ctx.hpc.toNat
  spt : 1 ≤ ctx.spt.toNat ∧ ctx.spt.toNat ≤ 63

/-- A sector size between the bounds whose lowest one bit is its only one. -/
lemma sector_size_cases {x : UInt64} (h1 : 512 ≤ x.toNat) (h2 : x.toNat ≤ 4096)
    (h : x &&& (x - 1) = 0) : x = 512 ∨ x = 1024 ∨ x = 2048 ∨ x = 4096 := by
  have hsub : (x - 1).toNat = x.toNat - 1 :=
    toNat_sub_of_ge (by simp only [UInt64.toNat_one]; omega)
  have hand : x.toNat &&& (x.toNat - 1) = 0 := by
    rw [← hsub, ← UInt64.toNat_and, h]
    rfl
  obtain ⟨k, hk⟩ := (Nat.and_sub_one_eq_zero_iff_isPowerOfTwo (by omega)).1 hand
  have hlo : 9 ≤ k := by
    by_contra hlt
    have := Nat.pow_le_pow_right (show 0 < 2 by decide) (show k ≤ 8 by omega)
    omega
  have hhi : k ≤ 12 := by
    by_contra hlt
    have := Nat.pow_le_pow_right (show 0 < 2 by decide) (show 13 ≤ k by omega)
    omega
  simp only [← UInt64.toNat_inj]
  have hcases : k = 9 ∨ k = 10 ∨ k = 11 ∨ k = 12 := by omega
  rcases hcases with rfl | rfl | rfl | rfl
  · exact Or.inl hk
  · exact Or.inr (Or.inl hk)
  · exact Or.inr (Or.inr (Or.inl hk))
  · exact Or.inr (Or.inr (Or.inr hk))

/-- `img_ctx_validate` accepts exactly the contexts that meet the conditions. -/
theorem imgCtxValidate_ok_iff (ctx : ImgCtx) : imgCtxValidate ctx = .ok ↔ ctx.Valid := by
  unfold imgCtxValidate
  constructor
  · intro h
    split_ifs at h with hsz hsec hhpc hspt
    simp only [Bool.or_eq_true, decide_eq_true_eq, not_or, bne_iff_ne, ne_eq, not_not,
      gt_iff_lt, UInt64.not_lt, UInt8.not_lt, UInt64.le_iff_toNat_le,
      UInt8.le_iff_toNat_le] at hsz hsec hhpc hspt
    exact ⟨sector_size_cases hsec.1.1 hsec.1.2 hsec.2, hsz, hhpc, hspt⟩
  · intro h
    have hsz : ¬ ctx.imgSz < imgMinSz := UInt64.not_lt.2 (UInt64.le_iff_toNat_le.2 h.size)
    have hhpc : ¬ ctx.hpc < 1 := UInt8.not_lt.2 (UInt8.le_iff_toNat_le.2 h.hpc)
    have hspt1 : ¬ ctx.spt < 1 := UInt8.not_lt.2 (UInt8.le_iff_toNat_le.2 h.spt.1)
    have hspt2 : ¬ ctx.spt > 63 := UInt8.not_lt.2 (UInt8.le_iff_toNat_le.2 h.spt.2)
    have hsec : (ctx.secSz < 512 || ctx.secSz > 4096 || ctx.secSz &&& (ctx.secSz - 1) != 0)
        = false := by
      rcases h.sec with e | e | e | e <;> rw [e] <;> decide
    simp [hsz, hsec, hhpc, hspt1, hspt2]

namespace ImgCtx

/-- The sector size. -/
def sec (ctx : ImgCtx) : ℕ := ctx.secSz.toNat

/-- The number of whole sectors of the image. -/
def secs (ctx : ImgCtx) : ℕ := ctx.imgSz.toNat / ctx.secSz.toNat

/-- The number of sectors of a table of 128 entries. -/
def tableSecs (ctx : ImgCtx) : ℕ := 16384 / ctx.secSz.toNat

variable {ctx : ImgCtx}

lemma Valid.sec_cases (h : ctx.Valid) :
    ctx.sec = 512 ∨ ctx.sec = 1024 ∨ ctx.sec = 2048 ∨ ctx.sec = 4096 := by
  rcases h.sec with e | e | e | e <;> simp [ImgCtx.sec, e]

lemma Valid.sec_bounds (h : ctx.Valid) : 512 ≤ ctx.sec ∧ ctx.sec ≤ 4096 := by
  rcases h.sec_cases with e | e | e | e <;> omega

lemma Valid.sec_pos (h : ctx.Valid) : 0 < ctx.sec := by
  have := h.sec_bounds
  omega

lemma Valid.tableSecs_mul (h : ctx.Valid) : ctx.tableSecs * ctx.sec = 16384 := by
  rcases h.sec_cases with e | e | e | e <;> unfold tableSecs <;> unfold ImgCtx.sec at * <;> rw [e]

lemma Valid.tableSecs_bounds (h : ctx.Valid) : 4 ≤ ctx.tableSecs ∧ ctx.tableSecs ≤ 32 := by
  rcases h.sec_cases with e | e | e | e <;> unfold tableSecs <;> unfold ImgCtx.sec at * <;>
    rw [e] <;> decide

/-- Both copies fit: the image has room for both headers, both tables and more. -/
lemma Valid.secs_bound (h : ctx.Valid) : 32 * ctx.tableSecs ≤ ctx.secs := by
  have hsz := h.size
  unfold secs tableSecs
  rcases h.sec with e | e | e | e <;> rw [e] <;> simp only [UInt64.reduceToNat] <;> omega

lemma secs_mul_le (ctx : ImgCtx) : ctx.secs * ctx.sec ≤ ctx.imgSz.toNat :=
  Nat.div_mul_le_self _ _

end ImgCtx

variable {ctx : ImgCtx}

/-! ## Positions -/

lemma toNat_byteToLba_down (ctx : ImgCtx) (bytes : Pu64) :
    (byteToLba ctx bytes false).toNat = bytes.toNat / ctx.sec := by
  simp [byteToLba, ImgCtx.sec]

/-- Rounding up, for a divisor that leaves a remainder. -/
lemma ceilDiv_of_mod_ne {b s : ℕ} (hs : 0 < s) (h : b % s ≠ 0) :
    (b + s - 1) / s = b / s + 1 := by
  have hdiv := Nat.div_add_mod b s
  have hlt := Nat.mod_lt b hs
  rw [Nat.div_eq_iff hs, Nat.add_mul, Nat.one_mul]
  rw [Nat.mul_comm] at hdiv
  omega

lemma ceilDiv_of_mod_eq {b s : ℕ} (hs : 0 < s) (h : b % s = 0) : (b + s - 1) / s = b / s := by
  have hdiv := Nat.div_add_mod b s
  rw [Nat.div_eq_iff hs]
  rw [Nat.mul_comm] at hdiv
  omega

lemma toNat_byteToLba_up (hpos : 0 < ctx.sec) {bytes : Pu64} (hb : bytes.toNat < 2 ^ 63) :
    (byteToLba ctx bytes true).toNat = (bytes.toNat + ctx.sec - 1) / ctx.sec := by
  have hsec : ctx.secSz.toNat = ctx.sec := rfl
  have hle := Nat.div_le_self bytes.toNat ctx.sec
  simp only [byteToLba, Bool.true_and]
  split
  · next hne =>
    have hne' : bytes.toNat % ctx.sec ≠ 0 := by
      intro h0
      rw [← hsec, ← UInt64.toNat_mod] at h0
      simp [eq_zero_iff_toNat.2 h0] at hne
    rw [ceilDiv_of_mod_ne hpos hne', toNat_add_of_lt, UInt64.toNat_div, hsec, UInt64.toNat_one]
    rw [UInt64.toNat_div, hsec, UInt64.toNat_one]
    omega
  · next heq =>
    have heq' : bytes.toNat % ctx.sec = 0 := by
      rw [← hsec, ← UInt64.toNat_mod]
      exact eq_zero_iff_toNat.1 (by simpa using heq)
    rw [ceilDiv_of_mod_eq hpos heq', UInt64.add_zero, UInt64.toNat_div, hsec]

lemma toNat_byteToLba_imgSz (ctx : ImgCtx) :
    (byteToLba ctx ctx.imgSz false).toNat = ctx.secs := toNat_byteToLba_down ctx _

lemma toNat_imgLastLba (h : ctx.Valid) : (imgLastLba ctx).toNat = ctx.secs - 1 := by
  have hb := h.secs_bound
  have ht := h.tableSecs_bounds
  rw [imgLastLba, toNat_sub_of_ge, toNat_byteToLba_imgSz]
  · rfl
  · rw [toNat_byteToLba_imgSz, UInt64.toNat_one]
    omega

/-- The MBR occupies one sector. -/
lemma byteToLba_mbrSz (h : ctx.Valid) : byteToLba ctx mbrSz true = 1 := by
  rcases h.sec with e | e | e | e <;> simp only [byteToLba, mbrSz, e] <;> decide

lemma toNat_tableSz (h : ctx.Valid) :
    (byteToLba ctx (gptMaxPartCnt * gptPartEntSz) true).toNat = ctx.tableSecs := by
  rcases h.sec with e | e | e | e <;>
    simp only [byteToLba, ImgCtx.tableSecs, gptMaxPartCnt, gptPartEntSz, e] <;> decide

/-- Where `gpt_calc_pos` places the two copies. -/
lemma gptCalcPos_toNat (h : ctx.Valid) :
    (gptCalcPos ctx).hdrLbaPrim.toNat = 1 ∧ (gptCalcPos ctx).hdrLbaSec.toNat = ctx.secs - 1 ∧
      (gptCalcPos ctx).tableLbaPrim.toNat = 2 ∧
      (gptCalcPos ctx).tableLbaSec.toNat = ctx.secs - 1 - ctx.tableSecs ∧
      (gptCalcPos ctx).tableSz.toNat = ctx.tableSecs := by
  have hb := h.secs_bound
  have ht := h.tableSecs_bounds
  have hlast := toNat_imgLastLba h
  refine ⟨rfl, hlast, rfl, ?_, toNat_tableSz h⟩
  have hsub : (gptCalcPos ctx).tableLbaSec
      = imgLastLba ctx - byteToLba ctx (gptMaxPartCnt * gptPartEntSz) true := rfl
  rw [hsub, toNat_sub_of_ge (by rw [hlast, toNat_tableSz h]; omega), hlast, toNat_tableSz h]

/-! ## A small image

The concrete cases of the development run on an image of one mebibyte, on a platform that
grants everything. -/

/-- 2048 sectors of 512 bytes. -/
def smallCtx : ImgCtx := imgCtxInit 1048576

/-- A platform with pages of 4096 bytes that grants everything. -/
def plainSys : Sys := ⟨4096, fun _ _ => true, fun _ _ => true, true, fun _ => 0⟩

/-- An image of zeros. -/
def zeroImage : Image := fun _ => 0

/-- A random source that returns zeros. -/
def zeroRng : Rng := ⟨fun _ => 0, 0⟩

lemma smallCtx_valid : imgCtxValidate smallCtx = .ok := by decide

lemma plainSys_serves {ctx : ImgCtx} (h : ctx.imgSz.toNat < 2 ^ 63) : plainSys.Serves ctx :=
  ⟨h, by decide, by decide, fun _ _ _ _ _ => rfl, fun _ _ _ _ => rfl⟩

lemma smallCtx_serves : plainSys.Serves smallCtx := plainSys_serves (by decide)

end Partman

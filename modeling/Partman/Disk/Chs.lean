/-
# Cylinder, head and sector addresses

A sector number is written as a number of three digits, the cylinder, the head and the
sector, and these are packed into three bytes.  The cylinder is split: its low eight bits are
the third byte, and its two high bits are put above the sector in the second.

The bytes that an MBR entry stores are right.  The program's own decoder takes the two pieces
of the cylinder for adjacent bits, so that it turns the ten bits round by two.
-/
import Partman.Disk.BootRecord
import Partman.Model.SchemCtx

namespace Partman

open Lib

variable {ctx : ImgCtx} {c h s : Pchs} {lba : Plba}

/-! ## The packed address -/

/-- Bits above those of the other word. -/
lemma toNat_or_of_lt {a b : UInt64} {k n : ℕ} (ha : a.toNat = k * 2 ^ n) (hb : b.toNat < 2 ^ n) :
    (a ||| b).toNat = a.toNat + b.toNat := by
  rw [UInt64.toNat_or, ha, ← Nat.shiftLeft_eq, ← Nat.shiftLeft_add_eq_or_of_lt hb]

/-- Shifting a masked word that stays in range. -/
lemma toNat_and_shiftLeft {a m k : UInt64} {w n : ℕ} (hm : m.toNat = 2 ^ w - 1)
    (hk : k.toNat = n) (hn : w + n < 64) :
    ((a &&& m) <<< k).toNat = a.toNat % 2 ^ w * 2 ^ n := by
  have hlt : a.toNat % 2 ^ w * 2 ^ n < 2 ^ 64 :=
    calc a.toNat % 2 ^ w * 2 ^ n < 2 ^ w * 2 ^ n :=
          Nat.mul_lt_mul_of_pos_right (Nat.mod_lt _ (Nat.two_pow_pos _)) (Nat.two_pow_pos _)
      _ = 2 ^ (w + n) := (Nat.pow_add ..).symm
      _ ≤ 2 ^ 64 := Nat.pow_le_pow_right (by decide) (by omega)
  rw [UInt64.toNat_shiftLeft, UInt64.toNat_and, hm, Nat.and_two_pow_sub_one_eq_mod, hk,
    Nat.mod_eq_of_lt (show n < 64 by omega), Nat.shiftLeft_eq, Nat.mod_eq_of_lt hlt]

/-- **The packed address as a number.** -/
lemma toNat_chsTupleToInt (c h s : Pchs) : (chsTupleToInt c h s).toNat =
    c.toNat % 256 * 65536 + c.toNat / 256 % 4 * 16384 + s.toNat % 64 * 256 + h.toNat % 256 := by
  have e1 : ((c &&& 0xFF) <<< 16).toNat = c.toNat % 256 * 65536 :=
    toNat_and_shiftLeft (w := 8) (n := 16) rfl rfl (by decide)
  have e2 : (((c >>> 8) &&& 0x3) <<< 14).toNat = c.toNat / 256 % 4 * 16384 := by
    rw [toNat_and_shiftLeft (w := 2) (n := 14) rfl rfl (by decide), UInt64.toNat_shiftRight,
      Nat.shiftRight_eq_div_pow]
    rfl
  have e3 : ((s &&& 0x3F) <<< 8).toNat = s.toNat % 64 * 256 :=
    toNat_and_shiftLeft (w := 6) (n := 8) rfl rfl (by decide)
  have e4 : (h &&& 0xFF).toNat = h.toNat % 256 := by
    rw [UInt64.toNat_and]
    exact Nat.and_two_pow_sub_one_eq_mod h.toNat 8
  rw [chsTupleToInt]
  have f1 : (((c &&& 0xFF) <<< 16) ||| (((c >>> 8) &&& 0x3) <<< 14)).toNat =
      c.toNat % 256 * 65536 + c.toNat / 256 % 4 * 16384 := by
    rw [toNat_or_of_lt (n := 16) e1 (by omega), e1, e2]
  have f2 : (((c &&& 0xFF) <<< 16) ||| (((c >>> 8) &&& 0x3) <<< 14) |||
      ((s &&& 0x3F) <<< 8)).toNat =
      c.toNat % 256 * 65536 + c.toNat / 256 % 4 * 16384 + s.toNat % 64 * 256 := by
    rw [toNat_or_of_lt (n := 14) (k := c.toNat % 256 * 4 + c.toNat / 256 % 4)
      (by rw [f1]; omega) (by omega), f1, e3]
  rw [toNat_or_of_lt (n := 8)
    (k := c.toNat % 256 * 256 + c.toNat / 256 % 4 * 64 + s.toNat % 64)
    (by rw [f2]; omega) (by omega), f2, e4]

/-- What the decoder makes of a number below `2 ^ 24`. -/
lemma toNat_chsIntToTuple (chs : Pchs) :
    (chsIntToTuple chs).1.toNat = chs.toNat / 16384 % 1024 ∧
      (chsIntToTuple chs).2.1.toNat = chs.toNat % 256 ∧
      (chsIntToTuple chs).2.2.toNat = chs.toNat / 256 % 64 := by
  have hand : ∀ (a m : UInt64) (w : ℕ), m.toNat = 2 ^ w - 1 → (a &&& m).toNat = a.toNat % 2 ^ w :=
    fun a m w hm => by rw [UInt64.toNat_and, hm, Nat.and_two_pow_sub_one_eq_mod]
  refine ⟨?_, ?_, ?_⟩
  · rw [chsIntToTuple, hand _ _ 10 rfl, UInt64.toNat_shiftRight, Nat.shiftRight_eq_div_pow]
    rfl
  · rw [chsIntToTuple, hand _ _ 8 rfl, UInt64.toNat_shiftRight, Nat.shiftRight_eq_div_pow]
    exact congrArg (· % 256) (Nat.div_one _)
  · rw [chsIntToTuple, hand _ _ 6 rfl, UInt64.toNat_shiftRight, Nat.shiftRight_eq_div_pow]
    rfl

/-! ## The digits of a sector number -/

/-- The geometries that `img_ctx_validate` accepts. -/
structure ImgCtx.Geometry (ctx : ImgCtx) : Prop where
  hpc : 1 ≤ ctx.hpc.toNat
  spt : 1 ≤ ctx.spt.toNat
  spt_le : ctx.spt.toNat ≤ 63

/-- The last sector that has an address. -/
def ImgCtx.maxChsLba (ctx : ImgCtx) : ℕ :=
  (1023 * ctx.hpc.toNat + (ctx.hpc.toNat - 1)) * ctx.spt.toNat + (ctx.spt.toNat - 1)

/-- The cylinder, head and sector name the sector number `n`. -/
def ChsNames (ctx : ImgCtx) (t : ℕ × ℕ × ℕ) (n : ℕ) : Prop :=
  t.1 ≤ 1023 ∧ t.2.1 < ctx.hpc.toNat ∧ 1 ≤ t.2.2 ∧ t.2.2 ≤ ctx.spt.toNat ∧
    (t.1 * ctx.hpc.toNat + t.2.1) * ctx.spt.toNat + (t.2.2 - 1) = n

/-- The digits of a sector number. -/
def chsDigits (ctx : ImgCtx) (n : ℕ) : ℕ × ℕ × ℕ :=
  (n / (ctx.hpc.toNat * ctx.spt.toNat), n / ctx.spt.toNat % ctx.hpc.toNat, n % ctx.spt.toNat + 1)

lemma ImgCtx.Geometry.hpc_le (_ : ctx.Geometry) : ctx.hpc.toNat ≤ 255 :=
  Nat.le_of_lt_succ ctx.hpc.toNat_lt

lemma ImgCtx.Geometry.maxChsLba_eq (hgeo : ctx.Geometry) :
    ctx.maxChsLba + 1 = 1024 * (ctx.hpc.toNat * ctx.spt.toNat) := by
  have h1 := hgeo.hpc
  have h2 := hgeo.spt
  have hsum : 1023 * ctx.hpc.toNat + (ctx.hpc.toNat - 1) + 1 = 1024 * ctx.hpc.toNat := by omega
  rw [← Nat.mul_assoc, ← hsum, Nat.succ_mul, ImgCtx.maxChsLba]
  omega

/-- **The digits name their sector.** -/
lemma chsNames_digits (hgeo : ctx.Geometry) {n : ℕ} (hn : n ≤ ctx.maxChsLba) :
    ChsNames ctx (chsDigits ctx n) n := by
  have hmax := hgeo.maxChsLba_eq
  refine ⟨?_, Nat.mod_lt _ hgeo.hpc, Nat.succ_pos _, Nat.mod_lt _ hgeo.spt, ?_⟩
  · have hpos : 0 < ctx.hpc.toNat * ctx.spt.toNat := Nat.mul_pos hgeo.hpc hgeo.spt
    exact Nat.le_of_lt_succ ((Nat.div_lt_iff_lt_mul hpos).2 (by omega))
  · show (n / (ctx.hpc.toNat * ctx.spt.toNat) * ctx.hpc.toNat +
      n / ctx.spt.toNat % ctx.hpc.toNat) * ctx.spt.toNat + (n % ctx.spt.toNat + 1 - 1) = n
    rw [Nat.mul_comm ctx.hpc.toNat, ← Nat.div_div_eq_div_mul, Nat.div_add_mod', Nat.add_sub_cancel,
      Nat.div_add_mod']

/-- Comparing two numbers by their last digit and the rest. -/
lemma digit_lex {u u' r r' d : ℕ} (hr' : r' < d) (hle : u * d + r ≤ u' * d + r') :
    u < u' ∨ u = u' ∧ r ≤ r' := by
  rcases Nat.lt_trichotomy u u' with hlt | rfl | hgt
  · exact Or.inl hlt
  · exact Or.inr ⟨rfl, by omega⟩
  · have hmul := Nat.mul_le_mul_right d hgt
    rw [Nat.succ_mul] at hmul
    omega

/-- The order of sector numbers is that of their addresses. -/
lemma ChsNames.lex_le {t t' : ℕ × ℕ × ℕ} {n n' : ℕ} (ht : ChsNames ctx t n)
    (ht' : ChsNames ctx t' n') (hle : n ≤ n') :
    t.1 < t'.1 ∨ t.1 = t'.1 ∧ (t.2.1 < t'.2.1 ∨ t.2.1 = t'.2.1 ∧ t.2.2 ≤ t'.2.2) := by
  obtain ⟨-, -, hs, -, he⟩ := ht
  obtain ⟨-, hh', hs', hle', he'⟩ := ht'
  rw [← he, ← he'] at hle
  rcases digit_lex (by omega) hle with htrack | ⟨htrack, hsec⟩
  · rcases digit_lex hh' htrack.le with hc | ⟨hc, hh⟩
    · exact Or.inl hc
    · rw [hc] at htrack
      exact Or.inr ⟨hc, Or.inl (by omega)⟩
  · rcases digit_lex hh' htrack.le with hc | ⟨hc, hh⟩
    · exact Or.inl hc
    · rw [hc] at htrack
      exact Or.inr ⟨hc, Or.inr ⟨by omega, by omega⟩⟩

/-! ## The conversion -/

lemma toNat_maxLba (hgeo : ctx.Geometry) :
    ((0x3FF * ctx.hpc.toUInt64 + (ctx.hpc.toUInt64 - 1)) * ctx.spt.toUInt64 +
      (ctx.spt.toUInt64 - 1)).toNat = ctx.maxChsLba := by
  have h1 := hgeo.hpc
  have h2 := hgeo.spt
  have h3 := hgeo.hpc_le
  have hbig := hgeo.maxChsLba_eq
  have hprod : ctx.hpc.toNat * ctx.spt.toNat ≤ 255 * 63 := Nat.mul_le_mul h3 hgeo.spt_le
  have hhpc : ctx.hpc.toUInt64.toNat = ctx.hpc.toNat := UInt8.toNat_toUInt64 _
  have hspt : ctx.spt.toUInt64.toNat = ctx.spt.toNat := UInt8.toNat_toUInt64 _
  have hcyl : (0x3FF * ctx.hpc.toUInt64).toNat = 1023 * ctx.hpc.toNat := by
    rw [toNat_mul_of_lt (by rw [hhpc, show (0x3FF : UInt64).toNat = 1023 from rfl]; omega), hhpc]
    rfl
  have hpred : (ctx.hpc.toUInt64 - 1).toNat = ctx.hpc.toNat - 1 := by
    rw [toNat_sub_of_ge (by rw [hhpc, UInt64.toNat_one]; omega), hhpc, UInt64.toNat_one]
  have hpred' : (ctx.spt.toUInt64 - 1).toNat = ctx.spt.toNat - 1 := by
    rw [toNat_sub_of_ge (by rw [hspt, UInt64.toNat_one]; omega), hspt, UInt64.toNat_one]
  have hsum : (0x3FF * ctx.hpc.toUInt64 + (ctx.hpc.toUInt64 - 1)).toNat =
      1023 * ctx.hpc.toNat + (ctx.hpc.toNat - 1) := by
    rw [toNat_add_of_lt (by rw [hcyl, hpred]; omega), hcyl, hpred]
  rw [ImgCtx.maxChsLba] at hbig ⊢
  have hmul : ((0x3FF * ctx.hpc.toUInt64 + (ctx.hpc.toUInt64 - 1)) * ctx.spt.toUInt64).toNat =
      (1023 * ctx.hpc.toNat + (ctx.hpc.toNat - 1)) * ctx.spt.toNat := by
    rw [toNat_mul_of_lt (by rw [hsum, hspt]; omega), hsum, hspt]
  rw [toNat_add_of_lt (by rw [hmul, hpred']; omega), hmul, hpred']

/-- The tuple that is packed has the digits of the number, or of the last one that has an
address. -/
lemma toNat_lbaToChsTuple (hgeo : ctx.Geometry) (protective : Pflag)
    (hno : ¬ (protective = true ∧ ctx.maxChsLba < lba.toNat)) :
    ((lbaToChsTuple ctx lba protective).1.toNat, (lbaToChsTuple ctx lba protective).2.1.toNat,
      (lbaToChsTuple ctx lba protective).2.2.toNat) =
        chsDigits ctx (min lba.toNat ctx.maxChsLba) := by
  have h2 := hgeo.spt
  have hprod : ctx.hpc.toNat * ctx.spt.toNat ≤ 255 * 63 := Nat.mul_le_mul hgeo.hpc_le hgeo.spt_le
  have hhpc : ctx.hpc.toUInt64.toNat = ctx.hpc.toNat := UInt8.toNat_toUInt64 _
  have hspt : ctx.spt.toUInt64.toNat = ctx.spt.toNat := UInt8.toNat_toUInt64 _
  have hmul : (ctx.hpc.toUInt64 * ctx.spt.toUInt64).toNat = ctx.hpc.toNat * ctx.spt.toNat := by
    rw [toNat_mul_of_lt (by rw [hhpc, hspt]; omega), hhpc, hspt]
  have hmax := toNat_maxLba hgeo
  have hif : (decide (lba > (0x3FF * ctx.hpc.toUInt64 + (ctx.hpc.toUInt64 - 1)) *
      ctx.spt.toUInt64 + (ctx.spt.toUInt64 - 1)) && protective) = false := by
    rw [Bool.eq_false_iff]
    intro hc
    rw [Bool.and_eq_true, decide_eq_true_eq, gt_iff_lt, UInt64.lt_iff_toNat_lt, hmax] at hc
    exact hno hc.symm
  have hx : (if lba > (0x3FF * ctx.hpc.toUInt64 + (ctx.hpc.toUInt64 - 1)) * ctx.spt.toUInt64 +
      (ctx.spt.toUInt64 - 1) then
        (0x3FF * ctx.hpc.toUInt64 + (ctx.hpc.toUInt64 - 1)) * ctx.spt.toUInt64 +
          (ctx.spt.toUInt64 - 1)
      else lba).toNat = min lba.toNat ctx.maxChsLba := by
    split
    · next hgt =>
      rw [gt_iff_lt, UInt64.lt_iff_toNat_lt, hmax] at hgt
      rw [hmax, min_eq_right hgt.le]
    · next hle =>
      rw [UInt64.not_lt, UInt64.le_iff_toNat_le, hmax] at hle
      rw [min_eq_left hle]
  have hsec : ∀ y : UInt64, (y % ctx.spt.toUInt64 + 1).toNat = y.toNat % ctx.spt.toNat + 1 := by
    intro y
    have hlt := Nat.mod_lt y.toNat h2
    have h4 := hgeo.spt_le
    rw [toNat_add_of_lt, UInt64.toNat_mod, hspt, UInt64.toNat_one]
    rw [UInt64.toNat_mod, hspt, UInt64.toNat_one]
    omega
  rw [lbaToChsTuple]
  simp only [hif, Bool.false_eq_true, if_false]
  rw [hsec, UInt64.toNat_mod, UInt64.toNat_div, UInt64.toNat_div, hmul, hx, hhpc, hspt]
  rfl

/-- In a protective partition, a sector that has no address has a tuple of its own. -/
lemma lbaToChsTuple_protective (hgeo : ctx.Geometry) (hlba : ctx.maxChsLba < lba.toNat) :
    lbaToChsTuple ctx lba true = (1023, 255, 63) := by
  have hgt : lba > (0x3FF * ctx.hpc.toUInt64 + (ctx.hpc.toUInt64 - 1)) * ctx.spt.toUInt64 +
      (ctx.spt.toUInt64 - 1) := by
    rw [gt_iff_lt, UInt64.lt_iff_toNat_lt, toNat_maxLba hgeo]
    exact hlba
  rw [lbaToChsTuple, if_pos (by rw [Bool.and_true]; exact decide_eq_true hgt)]

/-- **What is packed fits its fields.** -/
lemma lbaToChsTuple_fits (hgeo : ctx.Geometry) (lba : Plba) (protective : Pflag) :
    (lbaToChsTuple ctx lba protective).1.toNat < 2 ^ 10 ∧
      (lbaToChsTuple ctx lba protective).2.1.toNat < 2 ^ 8 ∧
      (lbaToChsTuple ctx lba protective).2.2.toNat < 2 ^ 6 := by
  by_cases hno : protective = true ∧ ctx.maxChsLba < lba.toNat
  · obtain ⟨rfl, hlba⟩ := hno
    rw [lbaToChsTuple_protective hgeo hlba]
    decide
  · obtain ⟨hc, hh, -, hs, -⟩ := chsNames_digits hgeo (min_le_right lba.toNat ctx.maxChsLba)
    have hhpc := hgeo.hpc_le
    have hspt := hgeo.spt_le
    simp only [← toNat_lbaToChsTuple hgeo protective hno] at hc hh hs
    omega

/-- **The conversion of a sector number** packs the digits of the number, or of the last one
that has an address. -/
lemma toNat_lbaToChs (hgeo : ctx.Geometry) (protective : Pflag)
    (hno : ¬ (protective = true ∧ ctx.maxChsLba < lba.toNat)) :
    (lbaToChs ctx lba protective).toNat =
      (chsDigits ctx (min lba.toNat ctx.maxChsLba)).1 % 256 * 65536 +
        (chsDigits ctx (min lba.toNat ctx.maxChsLba)).1 / 256 * 16384 +
        (chsDigits ctx (min lba.toNat ctx.maxChsLba)).2.2 * 256 +
        (chsDigits ctx (min lba.toNat ctx.maxChsLba)).2.1 := by
  obtain ⟨hc, hh, hs⟩ := lbaToChsTuple_fits hgeo lba protective
  rw [lbaToChs, toNat_chsTupleToInt, ← toNat_lbaToChsTuple hgeo protective hno]
  simp only
  omega

/-- In a protective partition, a sector that has no address is converted to all ones. -/
lemma lbaToChs_protective (hgeo : ctx.Geometry) (hlba : ctx.maxChsLba < lba.toNat) :
    (lbaToChs ctx lba true).toNat = 0xFFFFFF := by
  rw [lbaToChs, lbaToChsTuple_protective hgeo hlba]
  rfl

/-! ## Decoding -/

/-- What the decoder makes of the digits: it reads the high bits of the cylinder as its low
bits. -/
lemma chsIntToTuple_lbaToChs (hgeo : ctx.Geometry) (protective : Pflag)
    (hlba : lba.toNat ≤ ctx.maxChsLba) :
    (chsIntToTuple (lbaToChs ctx lba protective)).1.toNat =
        (chsDigits ctx lba.toNat).1 % 256 * 4 + (chsDigits ctx lba.toNat).1 / 256 ∧
      (chsIntToTuple (lbaToChs ctx lba protective)).2.1.toNat = (chsDigits ctx lba.toNat).2.1 ∧
      (chsIntToTuple (lbaToChs ctx lba protective)).2.2.toNat = (chsDigits ctx lba.toNat).2.2 := by
  obtain ⟨h1, h2, h3⟩ := toNat_chsIntToTuple (lbaToChs ctx lba protective)
  obtain ⟨hc, hh, -, hs, -⟩ := chsNames_digits hgeo hlba
  have hhpc := hgeo.hpc_le
  have hspt := hgeo.spt_le
  rw [h1, h2, h3, toNat_lbaToChs hgeo protective fun hno => not_lt.2 hlba hno.2,
    min_eq_left hlba]
  omega

/-- **When printing inverts encoding**: exactly on the cylinders 0, 341, 682 and 1023, whose
ten bits stay as they are when they are turned round by two. -/
theorem chsIntToTuple_lbaToChs_iff (hgeo : ctx.Geometry) (protective : Pflag)
    (hlba : lba.toNat ≤ ctx.maxChsLba) :
    ChsNames ctx ((chsIntToTuple (lbaToChs ctx lba protective)).1.toNat,
        (chsIntToTuple (lbaToChs ctx lba protective)).2.1.toNat,
        (chsIntToTuple (lbaToChs ctx lba protective)).2.2.toNat) lba.toNat ↔
      ∃ k ≤ 3, 341 * k * (ctx.hpc.toNat * ctx.spt.toNat) ≤ lba.toNat ∧
        lba.toNat < (341 * k + 1) * (ctx.hpc.toNat * ctx.spt.toNat) := by
  obtain ⟨h1, h2, h3⟩ := chsIntToTuple_lbaToChs hgeo protective hlba
  have hnames := chsNames_digits hgeo hlba
  have hcyl := hnames.1
  have hpos : 0 < ctx.hpc.toNat * ctx.spt.toNat := Nat.mul_pos hgeo.hpc hgeo.spt
  simp only [← Nat.le_div_iff_mul_le hpos, ← Nat.div_lt_iff_lt_mul hpos]
  have hdef : (chsDigits ctx lba.toNat).1 = lba.toNat / (ctx.hpc.toNat * ctx.spt.toNat) := rfl
  rw [h1, h2, h3, ← hdef]
  constructor
  · intro h
    -- the sector has only one address
    have hle := hnames.lex_le h le_rfl
    have hge := h.lex_le hnames le_rfl
    simp only at hle hge
    exact ⟨(chsDigits ctx lba.toNat).1 / 341, by omega, by omega, by omega⟩
  · rintro ⟨k, hk, hle, hlt⟩
    have he : (chsDigits ctx lba.toNat).1 % 256 * 4 + (chsDigits ctx lba.toNat).1 / 256 =
        (chsDigits ctx lba.toNat).1 := by
      omega
    rw [he]
    exact hnames

/-- A sector of cylinder 341. -/
theorem chsIntToTuple_lbaToChs_small :
    ChsNames smallCtx ((chsIntToTuple (lbaToChs smallCtx 5478170 false)).1.toNat,
        (chsIntToTuple (lbaToChs smallCtx 5478170 false)).2.1.toNat,
        (chsIntToTuple (lbaToChs smallCtx 5478170 false)).2.2.toNat) (5478170 : Plba).toNat ↔
      ∃ k ≤ 3, 341 * k * (smallCtx.hpc.toNat * smallCtx.spt.toNat) ≤ (5478170 : Plba).toNat ∧
        (5478170 : Plba).toNat < (341 * k + 1) * (smallCtx.hpc.toNat * smallCtx.spt.toNat) :=
  chsIntToTuple_lbaToChs_iff ⟨by decide, by decide, by decide⟩ false (by decide)

/-- The first sector of cylinder 1 is printed as one of cylinder 4. -/
theorem chsIntToTuple_cylinder_one :
    smallCtx.Geometry ∧ (16065 : Plba).toNat ≤ smallCtx.maxChsLba ∧
      chsIntToTuple (lbaToChs smallCtx 16065 false) = (4, 0, 1) ∧
      ¬ ChsNames smallCtx ((chsIntToTuple (lbaToChs smallCtx 16065 false)).1.toNat,
        (chsIntToTuple (lbaToChs smallCtx 16065 false)).2.1.toNat,
        (chsIntToTuple (lbaToChs smallCtx 16065 false)).2.2.toNat) (16065 : Plba).toNat := by
  refine ⟨⟨by decide, by decide, by decide⟩, by decide, by decide, ?_⟩
  rintro ⟨-, -, -, -, he⟩
  exact absurd he (by decide)

/-! ## The stored bytes -/

/-- The address in three bytes of an MBR entry: the head, then the sector and the two high bits
of the cylinder, then its low bits. -/
def chsAt (m : Image) (a : ℕ) : ℕ × ℕ × ℕ :=
  ((m (a + 1)).toNat / 64 * 256 + (m (a + 2)).toNat, (m a).toNat, (m (a + 1)).toNat % 64)

/-- One address is not after another. -/
def ChsLe (t t' : ℕ × ℕ × ℕ) : Prop :=
  t.1 < t'.1 ∨ t.1 = t'.1 ∧ (t.2.1 < t'.2.1 ∨ t.2.1 = t'.2.1 ∧ t.2.2 ≤ t'.2.2)

/-- The three bytes are the right ones for a sector: they name it, or the last sector that has
an address, and are all ones in a protective partition for a sector that has none. -/
structure ChsStored (ctx : ImgCtx) (m : Image) (a : ℕ) (lba : Plba) (isProt : Pflag) : Prop where
  marked : isProt = true → ctx.maxChsLba < lba.toNat →
    m a = 0xFF ∧ m (a + 1) = 0xFF ∧ m (a + 2) = 0xFF
  names : ¬ (isProt = true ∧ ctx.maxChsLba < lba.toNat) →
    ChsNames ctx (chsAt m a) (min lba.toNat ctx.maxChsLba)
  /-- The three values that are packed fit their fields. -/
  fields : (lbaToChsTuple ctx lba isProt).1.toNat < 2 ^ 10 ∧
    (lbaToChsTuple ctx lba isProt).2.1.toNat < 2 ^ 8 ∧
    (lbaToChsTuple ctx lba isProt).2.2.toNat < 2 ^ 6

/-- The three bytes of a packed address. -/
lemma bytes_of_digits {c h s n : ℕ} (hc : c < 1024) (hh : h < 256) (hs : s < 64)
    (hn : n = c % 256 * 65536 + c / 256 * 16384 + s * 256 + h) :
    n % 256 = h ∧ n / 256 % 256 = c / 256 * 64 + s ∧ n / 256 / 256 % 256 = c % 256 := by
  have h1 : n / 256 = c % 256 * 256 + (c / 256 * 64 + s) := by omega
  have h2 : n / 256 / 256 = c % 256 := by omega
  omega

lemma chsStored_of_holds (hgeo : ctx.Geometry) {m : Image} {a : ℕ} {isProt : Pflag}
    (hm : Holds m a (leBytes 3 (lbaToChs ctx lba isProt).toNat)) :
    ChsStored ctx m a lba isProt := by
  have hnames := chsNames_digits hgeo (min_le_right lba.toNat ctx.maxChsLba)
  simp only [leBytes_succ, leBytes_zero, holds_cons, holds_nil, and_true, Nat.add_assoc,
    Nat.reduceAdd] at hm
  obtain ⟨e0, e1, e2⟩ := hm
  refine ⟨fun hp hgt => ?_, fun hno => ?_, lbaToChsTuple_fits hgeo lba isProt⟩
  · subst hp
    rw [lbaToChs_protective hgeo hgt] at e0 e1 e2
    exact ⟨e0, e1, e2⟩
  · -- the bytes give back the digits
    have hfields : (chsDigits ctx (min lba.toNat ctx.maxChsLba)).1 < 2 ^ 10 ∧
        (chsDigits ctx (min lba.toNat ctx.maxChsLba)).2.1 < 2 ^ 8 ∧
        (chsDigits ctx (min lba.toNat ctx.maxChsLba)).2.2 < 2 ^ 6 := by
      rw [← toNat_lbaToChsTuple hgeo isProt hno]
      exact lbaToChsTuple_fits hgeo lba isProt
    obtain ⟨b0, b1, b2⟩ := bytes_of_digits hfields.1 hfields.2.1 hfields.2.2
      (toNat_lbaToChs hgeo isProt hno)
    have ht : chsAt m a = chsDigits ctx (min lba.toNat ctx.maxChsLba) := by
      rw [chsAt, e0, e1, e2]
      simp only [UInt8.toNat_ofNat', Nat.reducePow, b0, b1, b2]
      exact Prod.ext (by simp only; omega) (Prod.ext rfl (by simp only; omega))
    rwa [ht]

/-- The order of the sectors is that of the stored addresses. -/
lemma ChsStored.le (hgeo : ctx.Geometry) {m : Image} {a a' : ℕ} {lba' : Plba} {isProt : Pflag}
    (h : ChsStored ctx m a lba isProt) (h' : ChsStored ctx m a' lba' isProt) (hle : lba ≤ lba') :
    ChsLe (chsAt m a) (chsAt m a') := by
  have hle := UInt64.le_iff_toNat_le.1 hle
  have hones : ∀ b, m b = 0xFF ∧ m (b + 1) = 0xFF ∧ m (b + 2) = 0xFF →
      chsAt m b = (1023, 255, 63) := by
    rintro b ⟨e0, e1, e2⟩
    rw [chsAt, e0, e1, e2]
    rfl
  by_cases hmark' : isProt = true ∧ ctx.maxChsLba < lba'.toNat
  · rw [hones a' (h'.marked hmark'.1 hmark'.2)]
    by_cases hmark : isProt = true ∧ ctx.maxChsLba < lba.toNat
    · rw [hones a (h.marked hmark.1 hmark.2)]
      exact Or.inr ⟨rfl, Or.inr ⟨rfl, le_rfl⟩⟩
    · -- no address has the head 255
      obtain ⟨hc, hh, -, hs, -⟩ := h.names hmark
      have hhpc := hgeo.hpc_le
      simp only [ChsLe]
      omega
  · have hmark : ¬ (isProt = true ∧ ctx.maxChsLba < lba.toNat) := fun hm =>
      hmark' ⟨hm.1, lt_of_lt_of_le hm.2 hle⟩
    exact (h.names hmark).lex_le (h'.names hmark') (min_le_min_right _ hle)

/-- **The addresses that an entry stores are right**, for the first and the last sector of the
partition, and the first is not after the last. -/
theorem mbrPartWrite_chs (hgeo : ctx.Geometry) (schem : Schem) (mbr : Mbr) {i : ℕ}
    (hi : i < schem.partCnt.toNat) (hu : schemPartIsUsedMbr (schem.table i) = true)
    (hle : (schem.table i).startLba ≤ (schem.table i).endLba) (m : Image) (buf : ℕ) :
    let m' := stores m (mbrPartWrite buf ((mbrFromSchem schem mbr ctx).partitions i))
    let isProt := (schem.table i).typeI == 0xEE
    ChsStored ctx m' (buf + 1) (schem.table i).startLba isProt ∧
      ChsStored ctx m' (buf + 5) (schem.table i).endLba isProt ∧
      ChsLe (chsAt m' (buf + 1)) (chsAt m' (buf + 5)) := by
  intro m' isProt
  have hpart : (mbrFromSchem schem mbr ctx).partitions i =
      mbrPartFromSchem (schem.table i) ctx := if_pos ⟨hi, hu⟩
  have hm : Holds m' buf (mbrPartBytes (mbrPartFromSchem (schem.table i) ctx)) := by
    rw [← hpart]
    show Holds (stores m (mbrPartWrite buf _)) buf _
    rw [mbrPartWrite_eq]
    exact holds_stores_storeAt m buf _
  simp only [mbrPartBytes, holds_append, List.length_append, length_leBytes,
    List.length_singleton, Nat.reduceAdd] at hm
  obtain ⟨⟨⟨⟨⟨-, hstart⟩, -⟩, hend⟩, -⟩, -⟩ := hm
  have hs := chsStored_of_holds hgeo hstart
  have he := chsStored_of_holds hgeo hend
  exact ⟨hs, he, hs.le hgeo he hle⟩

/-- The entry of a protective MBR. -/
theorem mbrPartWrite_chs_prot :
    let schem := schemMbrSetProt (mbrInitSchem (schemNew .mbr) smallCtx)
    let m' := stores zeroImage
      (mbrPartWrite 446 ((mbrFromSchem schem Mbr.zero smallCtx).partitions 0))
    let isProt := (schem.table 0).typeI == 0xEE
    ChsStored smallCtx m' (446 + 1) (schem.table 0).startLba isProt ∧
      ChsStored smallCtx m' (446 + 5) (schem.table 0).endLba isProt ∧
      ChsLe (chsAt m' (446 + 1)) (chsAt m' (446 + 5)) :=
  mbrPartWrite_chs ⟨by decide, by decide, by decide⟩ _ _ (by decide) (by decide) (by decide) _ _

end Partman

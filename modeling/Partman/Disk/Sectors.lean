/-
# Mapping sectors

A mapping that is granted starts at the first byte of its sectors.  On a platform that
serves the image, sectors inside of it can be mapped and unmapped, with one exception: no
sectors at all, at the beginning of a page, make an empty window, which is refused.
-/
import Partman.Disk.Geometry

namespace Partman

open Lib

variable {sys : Sys} {ctx : ImgCtx} {lba cnt : Plba}

/-- The sectors lie inside the image. -/
def ImgCtx.Inside (ctx : ImgCtx) (lba cnt : Plba) : Prop :=
  (lba.toNat + cnt.toNat) * ctx.sec ≤ ctx.imgSz.toNat

/-- The window over the sectors is not empty. -/
def Sys.Window (sys : Sys) (ctx : ImgCtx) (lba cnt : Plba) : Prop :=
  0 < cnt.toNat ∨ ¬ sys.pgSz.toNat ∣ lba.toNat * ctx.sec

lemma mapSecs_some {reg : Pu64} (h : mapSecs sys ctx lba cnt = some reg) :
    reg = lbaToByte ctx lba := by
  unfold mapSecs at h
  simp only at h
  split_ifs at h
  rw [← Option.some.inj h, UInt64.add_comm, UInt64.sub_add_cancel]

/-- Mapping is granted or refused; there is nothing else to it. -/
lemma mapSecs_cases (sys : Sys) (ctx : ImgCtx) (lba cnt : Plba) :
    mapSecs sys ctx lba cnt = none ∨ mapSecs sys ctx lba cnt = some (lbaToByte ctx lba) := by
  cases h : mapSecs sys ctx lba cnt with
  | none => exact Or.inl rfl
  | some reg => exact Or.inr (by rw [mapSecs_some h])

lemma toNat_lbaToByte (h : lba.toNat * ctx.sec < 2 ^ 64) :
    (lbaToByte ctx lba).toNat = lba.toNat * ctx.sec := toNat_mul_of_lt h

lemma ImgCtx.Inside.lt (h : ctx.Inside lba cnt) :
    lba.toNat * ctx.sec < 2 ^ 64 ∧ cnt.toNat * ctx.sec < 2 ^ 64 := by
  have hsz := ctx.imgSz.toNat_lt
  unfold ImgCtx.Inside at h
  rw [Nat.add_mul] at h
  omega

/-! ## The window -/

/-- The offset of the first page of the window. -/
def winBase (sys : Sys) (ctx : ImgCtx) (lba : Plba) : Pu64 :=
  pageToByte sys (byteToPage sys (lbaToByte ctx lba) false)

/-- The bytes from the first page of the window to the end of the sectors. -/
def winBytes (sys : Sys) (ctx : ImgCtx) (lba cnt : Plba) : Pu64 :=
  lbaToByte ctx cnt + (lbaToByte ctx lba - winBase sys ctx lba)

lemma mapSecs_eq (sys : Sys) (ctx : ImgCtx) (lba cnt : Plba) : mapSecs sys ctx lba cnt =
    if sys.mmap (pageToByte sys (byteToPage sys (winBytes sys ctx lba cnt) true))
        (winBase sys ctx lba) then
      some (winBase sys ctx lba + (lbaToByte ctx lba - winBase sys ctx lba))
    else none := rfl

lemma unmapSecs_eq (sys : Sys) (reg : Pu64) (ctx : ImgCtx) (lba cnt : Plba) :
    unmapSecs sys reg ctx lba cnt =
      if sys.unmapOk (reg - (lbaToByte ctx lba - winBase sys ctx lba))
        (byteToPage sys (winBytes sys ctx lba cnt) true) then .ok else .fail := rfl

/-- The window over the sectors is not empty, wherever their offset has wrapped to. -/
def Sys.Spans (sys : Sys) (ctx : ImgCtx) (lba cnt : Plba) : Prop :=
  0 < cnt.toNat ∨ ¬ sys.pgSz.toNat ∣ (lbaToByte ctx lba).toNat

/-- The offset of the first page of the window, and the rest of the way to the sectors. -/
lemma winBase_spec (sys : Sys) (ctx : ImgCtx) (lba : Plba) :
    (winBase sys ctx lba).toNat =
        (lbaToByte ctx lba).toNat / sys.pgSz.toNat * sys.pgSz.toNat ∧
      (lbaToByte ctx lba - winBase sys ctx lba).toNat =
        (lbaToByte ctx lba).toNat % sys.pgSz.toNat := by
  have hdiv := Nat.div_add_mod (lbaToByte ctx lba).toNat sys.pgSz.toNat
  have hlt := (lbaToByte ctx lba).toNat_lt
  rw [Nat.mul_comm sys.pgSz.toNat] at hdiv
  have hpages : (byteToPage sys (lbaToByte ctx lba) false).toNat =
      (lbaToByte ctx lba).toNat / sys.pgSz.toNat := by
    simp [byteToPage]
  have hbase : (winBase sys ctx lba).toNat =
      (lbaToByte ctx lba).toNat / sys.pgSz.toNat * sys.pgSz.toNat := by
    rw [winBase, pageToByte, toNat_mul_of_lt (by rw [hpages]; omega), hpages]
  refine ⟨hbase, ?_⟩
  rw [toNat_sub_of_ge (by omega)]
  omega

/-- An empty window is refused. -/
lemma mapSecs_of_not_spans (h : ¬ sys.Spans ctx lba cnt) : mapSecs sys ctx lba cnt = none := by
  rw [Sys.Spans, not_or, not_not, Nat.dvd_iff_mod_eq_zero] at h
  obtain ⟨hcnt, hoff⟩ := h
  have hcnt' : lbaToByte ctx cnt = 0 := by
    rw [eq_zero_iff_toNat.2 (by omega : cnt.toNat = 0), lbaToByte, UInt64.zero_mul]
  have halign : lbaToByte ctx lba - winBase sys ctx lba = 0 :=
    eq_zero_iff_toNat.2 ((winBase_spec sys ctx lba).2.trans hoff)
  have h0 : winBytes sys ctx lba cnt = 0 := by
    rw [winBytes, hcnt', halign, UInt64.add_zero]
  rw [mapSecs_eq, h0]
  simp [byteToPage, pageToByte, Sys.mmap]

/-- The numbers that `map_secs` computes for sectors whose end does not wrap. -/
lemma window_spec_of_lt (sys : Sys) (h : (lba.toNat + cnt.toNat) * ctx.sec < 2 ^ 64) :
    (winBase sys ctx lba).toNat = lba.toNat * ctx.sec / sys.pgSz.toNat * sys.pgSz.toNat ∧
      (lbaToByte ctx lba - winBase sys ctx lba).toNat = lba.toNat * ctx.sec % sys.pgSz.toNat ∧
      (winBytes sys ctx lba cnt).toNat =
        cnt.toNat * ctx.sec + lba.toNat * ctx.sec % sys.pgSz.toNat := by
  rw [Nat.add_mul] at h
  have h1 : lba.toNat * ctx.sec < 2 ^ 64 := by omega
  have h2 : cnt.toNat * ctx.sec < 2 ^ 64 := by omega
  obtain ⟨hbase, halign⟩ := winBase_spec sys ctx lba
  rw [toNat_lbaToByte h1] at hbase halign
  refine ⟨hbase, halign, ?_⟩
  have hmod := Nat.mod_le (lba.toNat * ctx.sec) sys.pgSz.toNat
  rw [winBytes, toNat_add_of_lt (by rw [toNat_lbaToByte h2, halign]; omega), toNat_lbaToByte h2,
    halign]

lemma window_spec (sys : Sys) (h : ctx.Inside lba cnt) :
    (winBase sys ctx lba).toNat = lba.toNat * ctx.sec / sys.pgSz.toNat * sys.pgSz.toNat ∧
      (lbaToByte ctx lba - winBase sys ctx lba).toNat = lba.toNat * ctx.sec % sys.pgSz.toNat ∧
      (winBytes sys ctx lba cnt).toNat =
        cnt.toNat * ctx.sec + lba.toNat * ctx.sec % sys.pgSz.toNat :=
  window_spec_of_lt sys (lt_of_le_of_lt h ctx.imgSz.toNat_lt)

/-- Rounding a length up to pages. -/
lemma toNat_byteToPage_up (hpg : 0 < sys.pgSz.toNat) (bytes : Pu64) :
    (byteToPage sys bytes true).toNat =
      (bytes.toNat + sys.pgSz.toNat - 1) / sys.pgSz.toNat := by
  have hlt := bytes.toNat_lt
  have hdiv := Nat.div_add_mod bytes.toNat sys.pgSz.toNat
  simp only [byteToPage, Bool.true_and]
  split
  · next hne =>
    have hne' : bytes.toNat % sys.pgSz.toNat ≠ 0 := by
      intro h0
      rw [← UInt64.toNat_mod] at h0
      simp [eq_zero_iff_toNat.2 h0] at hne
    -- a remainder leaves room for one more page
    have hroom : bytes.toNat / sys.pgSz.toNat + 1 < 2 ^ 64 := by
      have := Nat.le_mul_of_pos_left (bytes.toNat / sys.pgSz.toNat) hpg
      omega
    rw [ceilDiv_of_mod_ne hpg hne', toNat_add_of_lt (by rwa [UInt64.toNat_div, UInt64.toNat_one]),
      UInt64.toNat_div, UInt64.toNat_one]
  · next heq =>
    have heq' : bytes.toNat % sys.pgSz.toNat = 0 := by
      rw [← UInt64.toNat_mod]
      exact eq_zero_iff_toNat.1 (by simpa using heq)
    rw [ceilDiv_of_mod_eq hpg heq', UInt64.add_zero, UInt64.toNat_div]

/-- The pages of a length reach its end, and less than a page further. -/
lemma byteToPage_up (hpg : 0 < sys.pgSz.toNat) (bytes : Pu64) :
    bytes.toNat ≤ (byteToPage sys bytes true).toNat * sys.pgSz.toNat ∧
      (byteToPage sys bytes true).toNat * sys.pgSz.toNat < bytes.toNat + sys.pgSz.toNat := by
  rw [toNat_byteToPage_up hpg]
  have hle := Nat.div_mul_le_self (bytes.toNat + sys.pgSz.toNat - 1) sys.pgSz.toNat
  have hlt := Nat.lt_div_mul_add hpg (a := bytes.toNat + sys.pgSz.toNat - 1)
  omega

/-- The length of the window is positive exactly when the window is not empty. -/
lemma window_pos (hv : ctx.Valid) : sys.Window ctx lba cnt ↔
    0 < cnt.toNat * ctx.sec + lba.toNat * ctx.sec % sys.pgSz.toNat := by
  have hsec := hv.sec_pos
  rw [Sys.Window, Nat.dvd_iff_mod_eq_zero]
  constructor
  · rintro (h | h)
    · have := Nat.mul_pos h hsec
      omega
    · omega
  · intro h
    rcases Nat.eq_zero_or_pos cnt.toNat with h0 | h0
    · rw [h0, Nat.zero_mul] at h
      exact Or.inr (by omega)
    · exact Or.inl h0

/-- The window covers the sectors and ends less than a page behind them. -/
lemma winBytes_up (hs : sys.Serves ctx) (h : ctx.Inside lba cnt) :
    (winBytes sys ctx lba cnt).toNat ≤
        (byteToPage sys (winBytes sys ctx lba cnt) true).toNat * sys.pgSz.toNat ∧
      (winBase sys ctx lba).toNat +
        (byteToPage sys (winBytes sys ctx lba cnt) true).toNat * sys.pgSz.toNat <
          ctx.imgSz.toNat + sys.pgSz.toNat := by
  obtain ⟨hbase, -, htot⟩ := window_spec sys h
  have hdiv := Nat.div_add_mod (lba.toNat * ctx.sec) sys.pgSz.toNat
  rw [Nat.mul_comm sys.pgSz.toNat] at hdiv
  unfold ImgCtx.Inside at h
  rw [Nat.add_mul] at h
  obtain ⟨hlo, hhi⟩ := byteToPage_up hs.pgSz_pos (winBytes sys ctx lba cnt)
  exact ⟨hlo, by omega⟩

/-! ## Sectors inside the image -/

/-- Sectors inside the image can be mapped. -/
lemma mapSecs_of_serves (hv : ctx.Valid) (hs : sys.Serves ctx) (h : ctx.Inside lba cnt)
    (hw : sys.Window ctx lba cnt) : mapSecs sys ctx lba cnt = some (lbaToByte ctx lba) := by
  have hpg := hs.pgSz_lt
  have hsz := hs.imgSz_lt
  obtain ⟨hbase, -, htot⟩ := window_spec sys h
  obtain ⟨hlo, hhi⟩ := winBytes_up hs h
  have hpos := (window_pos hv).1 hw
  have hlen : (pageToByte sys (byteToPage sys (winBytes sys ctx lba cnt) true)).toNat =
      (byteToPage sys (winBytes sys ctx lba cnt) true).toNat * sys.pgSz.toNat :=
    toNat_mul_of_lt (by omega)
  rw [mapSecs_eq, if_pos, UInt64.add_comm, UInt64.sub_add_cancel]
  rw [Sys.mmap, Bool.and_eq_true, bne_iff_ne]
  refine ⟨fun h0 => ?_, hs.mapOk _ _ (by omega) ?_ (by omega)⟩
  · rw [eq_zero_iff_toNat] at h0
    omega
  · rw [hbase]
    exact Nat.dvd_mul_left _ _

/-- An empty window inside the image is refused. -/
lemma mapSecs_of_not_window (h : ctx.Inside lba cnt) (hw : ¬ sys.Window ctx lba cnt) :
    mapSecs sys ctx lba cnt = none := by
  refine mapSecs_of_not_spans fun hsp => hw ?_
  rwa [Sys.Spans, toNat_lbaToByte h.lt.1] at hsp

/-- Mapped sectors can be unmapped. -/
lemma unmapSecs_of_serves (hv : ctx.Valid) (hs : sys.Serves ctx) (h : ctx.Inside lba cnt)
    (hw : sys.Window ctx lba cnt) : unmapSecs sys (lbaToByte ctx lba) ctx lba cnt = .ok := by
  obtain ⟨hbase, halign, htot⟩ := window_spec sys h
  have hoff := toNat_lbaToByte h.lt.1
  have hmod := Nat.mod_le (lba.toNat * ctx.sec) sys.pgSz.toNat
  have hdiv := Nat.div_add_mod (lba.toNat * ctx.sec) sys.pgSz.toNat
  rw [Nat.mul_comm sys.pgSz.toNat] at hdiv
  have hpos := (window_pos hv).1 hw
  have hlo := (winBytes_up hs h).1
  rw [unmapSecs_eq, if_pos]
  refine hs.unmapOk _ _ ?_ ?_
  · exact Nat.pos_of_mul_pos_right (show 0 < _ * sys.pgSz.toNat by omega)
  · rw [toNat_sub_of_ge (by omega), show (lbaToByte ctx lba).toNat -
      (lbaToByte ctx lba - winBase sys ctx lba).toNat =
        lba.toNat * ctx.sec / sys.pgSz.toNat * sys.pgSz.toNat by omega]
    exact Nat.dvd_mul_left _ _

end Partman

/-
# The windows that are mapped and unmapped

`map_secs` asks for whole pages around its sectors.  `unmap_secs` computes the same pages,
but hands their number to `munmap` as a number of bytes.  `munmap` releases the pages that
this many bytes reach, so a window is given back exactly when it is one page long.
-/
import Mathlib.Order.Interval.Set.LinearOrder
import Partman.Disk.Sectors

namespace Partman

open Lib

variable {sys : Sys} {pg : Pu64} {ctx : ImgCtx} {lba cnt : Plba}

/-- The bytes that `munmap` releases: the pages that `len` bytes reach. -/
def munmapBytes (pg addr len : ℕ) : Set ℕ := Set.Ico addr (addr + (len + pg - 1) / pg * pg)

/-- What `map_secs` maps: it asks for `len` bytes of the file from `off` on, and points at
the first byte of the sectors. -/
structure Maps (pg : Pu64) (ctx : ImgCtx) (lba cnt : Plba) (len off reg : Pu64) : Prop where
  asks : ∀ sys : Sys, sys.pgSz = pg →
    mapSecs sys ctx lba cnt = if sys.mmap len off then some reg else none
  aligned : pg.toNat ∣ off.toNat
  points : reg.toNat = lba.toNat * ctx.sec
  covers : off.toNat ≤ reg.toNat ∧ reg.toNat + cnt.toNat * ctx.sec ≤ off.toNat + len.toNat

/-- What `unmap_secs` releases of a window of `len` bytes, wherever it has been mapped: the
pages of one call of `munmap` are the window. -/
def Releases (pg : Pu64) (ctx : ImgCtx) (lba cnt : Plba) (len off reg : Pu64) : Prop :=
  ∀ base : Pu64, ∃ addr n : Pu64,
    (∀ sys : Sys, sys.pgSz = pg → unmapSecs sys (base + (reg - off)) ctx lba cnt =
      if sys.unmapOk addr n then .ok else .fail) ∧
    munmapBytes pg.toNat addr.toNat n.toNat =
      Set.Ico base.toNat (base.toNat + len.toNat)

/-- The sectors lie in one page, or a page is one byte. -/
def OnePage (pg : Pu64) (ctx : ImgCtx) (lba cnt : Plba) : Prop :=
  lba.toNat * ctx.sec % pg.toNat + cnt.toNat * ctx.sec ≤ pg.toNat ∨ pg.toNat = 1

/-- **Unmapping mirrors mapping**: what `map_secs` has mapped is what `unmap_secs` releases. -/
def UnmapMirrors (pg : Pu64) (ctx : ImgCtx) (lba cnt : Plba) : Prop :=
  ∃ len off reg, Maps pg ctx lba cnt len off reg ∧ Releases pg ctx lba cnt len off reg

/-! ## Rounding twice -/

/-- A number of pages that is rounded up to pages once more stays as it is only if it is one
at most. -/
lemma ceilDiv_eq_self_iff {q p : ℕ} (hp : 0 < p) : (q + p - 1) / p = q ↔ q ≤ 1 ∨ p = 1 := by
  constructor
  · intro h
    by_contra hlt
    rw [not_or] at hlt
    obtain ⟨a, rfl⟩ := Nat.exists_eq_add_of_le (show 2 ≤ q by omega)
    obtain ⟨b, rfl⟩ := Nat.exists_eq_add_of_le (show 2 ≤ p by omega)
    have hle := Nat.div_mul_le_self (2 + a + (2 + b) - 1) (2 + b)
    simp only [h, Nat.add_mul, Nat.mul_add] at hle
    omega
  · rintro (h | rfl)
    · rcases Nat.le_one_iff_eq_zero_or_eq_one.1 h with rfl | rfl
      · exact Nat.div_eq_of_lt (by omega)
      · rw [Nat.add_sub_cancel_left, Nat.div_self hp]
    · simp

lemma ceilDiv_le_one_iff {n p : ℕ} (hp : 0 < p) : (n + p - 1) / p ≤ 1 ↔ n ≤ p := by
  rw [← Nat.lt_succ_iff, Nat.div_lt_iff_lt_mul hp]
  omega

/-- A window of `q` pages is released by a call with the length `q` if it is one page long. -/
lemma munmapBytes_eq_iff {p base q : ℕ} (hp : 0 < p) :
    munmapBytes p base q = Set.Ico base (base + q * p) ↔ q ≤ 1 ∨ p = 1 := by
  rw [← ceilDiv_eq_self_iff hp, munmapBytes]
  constructor
  · intro h
    rcases Nat.eq_zero_or_pos q with rfl | hq
    · exact Nat.div_eq_of_lt (by omega)
    · have hpos := Nat.mul_pos hq hp
      have hend := ((Set.Ico_eq_Ico_iff (Or.inr (show base < base + q * p by omega))).1 h).2
      exact Nat.eq_of_mul_eq_mul_right hp (Nat.add_left_cancel hend)
  · intro h
    rw [h]

/-! ## The calls -/

/-- What `map_secs` asks for is determined by its answers. -/
lemma Maps.unique {len off reg len' off' reg' : Pu64} (h : Maps pg ctx lba cnt len off reg)
    (h' : Maps pg ctx lba cnt len' off' reg') (hne : len ≠ 0) : len' = len ∧ off' = off := by
  -- a platform that grants this window only
  obtain ⟨sys, hpg, hok⟩ : ∃ sys : Sys, sys.pgSz = pg ∧
      ∀ l o, sys.mmap l o = true ↔ l = len ∧ o = off := by
    refine ⟨⟨pg, fun l o => l == len && o == off, fun _ _ => true, true, fun _ => 0⟩, rfl,
      fun l o => ?_⟩
    simp only [Sys.mmap, Bool.and_eq_true, bne_iff_ne, beq_iff_eq, and_iff_right_iff_imp]
    rintro ⟨rfl, -⟩
    exact hne
  have hmap := h.asks sys hpg
  rw [if_pos ((hok _ _).2 ⟨rfl, rfl⟩), h'.asks sys hpg] at hmap
  by_contra hdiff
  rw [if_neg (fun hgrant => hdiff ((hok _ _).1 hgrant))] at hmap
  exact absurd hmap (by simp)

/-- A platform with this page size. -/
def sysOf (pg : Pu64) : Sys := { plainSys with pgSz := pg }

/-- The pages of the window. -/
def winPages (pg : Pu64) (ctx : ImgCtx) (lba cnt : Plba) : Pu64 :=
  byteToPage (sysOf pg) (winBytes (sysOf pg) ctx lba cnt) true

lemma mapSecs_asks {sys : Sys} (h : sys.pgSz = pg) (ctx : ImgCtx) (lba cnt : Plba) :
    mapSecs sys ctx lba cnt =
      if sys.mmap (pageToByte (sysOf pg) (winPages pg ctx lba cnt)) (winBase (sysOf pg) ctx lba)
        then some (lbaToByte ctx lba) else none := by
  subst h
  rw [mapSecs_eq, UInt64.add_comm, UInt64.sub_add_cancel]
  rfl

lemma unmapSecs_asks {sys : Sys} (h : sys.pgSz = pg) (base : Pu64) (ctx : ImgCtx)
    (lba cnt : Plba) :
    unmapSecs sys (base + (lbaToByte ctx lba - winBase (sysOf pg) ctx lba)) ctx lba cnt =
      if sys.unmapOk base (winPages pg ctx lba cnt) then .ok else .fail := by
  subst h
  have haddr : base + (lbaToByte ctx lba - winBase (sysOf sys.pgSz) ctx lba) -
      (lbaToByte ctx lba - winBase sys ctx lba) = base := UInt64.add_sub_cancel _ _
  rw [unmapSecs_eq, haddr]
  rfl

/-- What `unmap_secs` asks for is determined by its answers. -/
lemma unmap_unique {f : Sys → Pres} {addr n addr' n' : Pu64}
    (h : ∀ sys : Sys, sys.pgSz = pg → f sys = if sys.unmapOk addr n then .ok else .fail)
    (h' : ∀ sys : Sys, sys.pgSz = pg → f sys = if sys.unmapOk addr' n' then .ok else .fail) :
    addr' = addr ∧ n' = n := by
  let sys : Sys := ⟨pg, fun _ _ => true, fun a l => a == addr && l == n, true, fun _ => 0⟩
  have hun := (h sys rfl).symm.trans (h' sys rfl)
  by_contra hdiff
  have hno : sys.unmapOk addr' n' = false := by
    by_contra hyes
    exact hdiff (by simpa [sys] using hyes)
  have hyes : sys.unmapOk addr n = true := by simp [sys]
  rw [hno, hyes] at hun
  exact absurd hun (by decide)

/-! ## The window -/

/-- **What `map_secs` maps is right**, for every sector size and every alignment. -/
theorem maps_window (hpg : 0 < pg.toNat)
    (hb : (lba.toNat + cnt.toNat) * ctx.sec + pg.toNat < 2 ^ 63) :
    Maps pg ctx lba cnt (pageToByte (sysOf pg) (winPages pg ctx lba cnt))
        (winBase (sysOf pg) ctx lba) (lbaToByte ctx lba) ∧
      (pageToByte (sysOf pg) (winPages pg ctx lba cnt)).toNat =
        (winPages pg ctx lba cnt).toNat * pg.toNat := by
  obtain ⟨hbase, -, hbytes⟩ := @window_spec_of_lt ctx lba cnt (sysOf pg) (by omega)
  obtain ⟨hlo, hhi⟩ := @byteToPage_up (sysOf pg) hpg (winBytes (sysOf pg) ctx lba cnt)
  have hpgSz : (sysOf pg).pgSz = pg := rfl
  have hpages : byteToPage (sysOf pg) (winBytes (sysOf pg) ctx lba cnt) true =
      winPages pg ctx lba cnt := rfl
  rw [hpgSz] at hbase hbytes
  rw [hpgSz, hpages, hbytes] at hlo hhi
  have hdiv := Nat.div_add_mod (lba.toNat * ctx.sec) pg.toNat
  rw [Nat.mul_comm pg.toNat] at hdiv
  rw [Nat.add_mul] at hb
  have hreg : (lbaToByte ctx lba).toNat = lba.toNat * ctx.sec := toNat_lbaToByte (by omega)
  have hlen : (pageToByte (sysOf pg) (winPages pg ctx lba cnt)).toNat =
      (winPages pg ctx lba cnt).toNat * pg.toNat := toNat_mul_of_lt (by rw [hpgSz]; omega)
  refine ⟨⟨fun sys h => mapSecs_asks h ctx lba cnt, ?_, hreg, ?_⟩, hlen⟩
  · rw [hbase]
    exact Nat.dvd_mul_left _ _
  · rw [hbase, hreg, hlen]
    omega

lemma winPages_le_one_iff (hpg : 0 < pg.toNat)
    (hb : (lba.toNat + cnt.toNat) * ctx.sec + pg.toNat < 2 ^ 63) :
    (winPages pg ctx lba cnt).toNat ≤ 1 ↔
      lba.toNat * ctx.sec % pg.toNat + cnt.toNat * ctx.sec ≤ pg.toNat := by
  obtain ⟨-, -, hbytes⟩ := @window_spec_of_lt ctx lba cnt (sysOf pg) (by omega)
  have hpgSz : (sysOf pg).pgSz = pg := rfl
  rw [winPages, toNat_byteToPage_up hpg, hpgSz, ceilDiv_le_one_iff hpg, hbytes, hpgSz,
    Nat.add_comm]

/-- Unmapping mirrors mapping for windows of one page. -/
lemma unmapMirrors_iff_winPages (hpg : 0 < pg.toNat)
    (hb : (lba.toNat + cnt.toNat) * ctx.sec + pg.toNat < 2 ^ 63) :
    UnmapMirrors pg ctx lba cnt ↔ (winPages pg ctx lba cnt).toNat ≤ 1 ∨ pg.toNat = 1 := by
  obtain ⟨hmap, hlen⟩ := maps_window hpg hb
  constructor
  · rintro ⟨len, off, reg, hmap', hrel⟩
    by_cases h0 : pageToByte (sysOf pg) (winPages pg ctx lba cnt) = 0
    · -- an empty window has no pages
      rw [eq_zero_iff_toNat, hlen, Nat.mul_eq_zero] at h0
      omega
    · obtain ⟨rfl, rfl⟩ := hmap.unique hmap' h0
      obtain rfl : reg = lbaToByte ctx lba :=
        UInt64.toNat_inj.1 (hmap'.points.trans hmap.points.symm)
      obtain ⟨addr, n, hun, hpages⟩ := hrel 0
      obtain ⟨rfl, rfl⟩ := unmap_unique (fun sys h => unmapSecs_asks h 0 ctx lba cnt) hun
      rw [hlen] at hpages
      exact (munmapBytes_eq_iff hpg).1 hpages
  · intro h
    refine ⟨_, _, _, hmap, fun base => ⟨base, winPages pg ctx lba cnt, fun sys hsys =>
      unmapSecs_asks hsys base ctx lba cnt, ?_⟩⟩
    rw [hlen]
    exact (munmapBytes_eq_iff hpg).2 h

/-- **Where unmapping mirrors mapping**: for sectors that lie in one page. -/
theorem unmapMirrors_iff (hpg : 0 < pg.toNat)
    (hb : (lba.toNat + cnt.toNat) * ctx.sec + pg.toNat < 2 ^ 63) :
    UnmapMirrors pg ctx lba cnt ↔ OnePage pg ctx lba cnt := by
  rw [unmapMirrors_iff_winPages hpg hb, winPages_le_one_iff hpg hb, OnePage]

theorem unmapMirrors_small : UnmapMirrors 4096 smallCtx 1 1 ↔ OnePage 4096 smallCtx 1 1 :=
  unmapMirrors_iff (by decide) (by decide)

/-- Of the five pages around the primary table one is released. -/
theorem not_unmapMirrors_table : ¬ UnmapMirrors 4096 smallCtx 2 32 := by
  rw [unmapMirrors_iff_winPages (by decide) (by decide)]
  decide

end Partman

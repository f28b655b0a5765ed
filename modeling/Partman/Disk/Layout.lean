/-
# The layout of a new GPT

The sectors of the image, from the first one to the last whole one: the MBR, the primary
header and table, the usable sectors, the secondary table and header.  The positions are
computed once for creating a scheme and once for saving it, and the lengths of the tables
once more for mapping them; all of them agree.
-/
import Partman.Lib.Tiling
import Partman.Disk.Saved
import Partman.Edit.Invariant

namespace Partman

open Lib

variable {ctx : ImgCtx} {schem : Schem}

/-! ## Areas

An area is the range of its sectors, the last one excluded. -/

/-- A number of sectors from an LBA on. -/
def secsArea (lba cnt : Plba) : ℕ × ℕ := (lba.toNat, lba.toNat + cnt.toNat)

def hdrArea (hdr : GptHdr) : ℕ × ℕ := secsArea hdr.myLba 1

/-- The sectors of the table of a header, as they are mapped. -/
def tableArea (ctx : ImgCtx) (hdr : GptHdr) : ℕ × ℕ :=
  secsArea hdr.partTableLba (gptTableSzSecs ctx hdr)

def usableArea (schem : Schem) : ℕ × ℕ :=
  (schem.firstUsableLba.toNat, schem.lastUsableLba.toNat + 1)

/-- The bytes of an area. -/
def ImgCtx.bytesOf (ctx : ImgCtx) (area : ℕ × ℕ) : Set ℕ :=
  Set.Ico (area.1 * ctx.sec) (area.2 * ctx.sec)

/-- The bytes of the areas of a copy. -/
def pairBytes (ctx : ImgCtx) (hdr : GptHdr) : Set ℕ :=
  ctx.bytesOf (hdrArea hdr) ∪ ctx.bytesOf (tableArea ctx hdr)

/-- What a scheme uses when it is saved, in order. -/
def gptAreas (ctx : ImgCtx) (schem : Schem) : List (ℕ × ℕ) :=
  let gpt := gptFromSchem schem Gpt.zero ctx
  [secsArea 0 (byteToLba ctx mbrSz true), hdrArea gpt.hdrPrim, tableArea ctx gpt.hdrPrim,
    usableArea schem, tableArea ctx gpt.hdrSec, hdrArea gpt.hdrSec]

/-- A copy is saved inside its areas. -/
structure PairStays (ctx : ImgCtx) (hdr : GptHdr) (table : GptTable) : Prop where
  performed : ∀ sys : Sys, (gptPairSave sys hdr table ctx).2 <+:
    gptHdrWrite (lbaToByte ctx hdr.myLba).toNat hdr ++
      gptTableWrite (lbaToByte ctx hdr.partTableLba).toNat table hdr.partTableEntryCnt
        hdr.partEntrySz
  header : ∀ s ∈ gptHdrWrite (lbaToByte ctx hdr.myLba).toNat hdr, s.1 ∈ ctx.bytesOf (hdrArea hdr)
  table : ∀ s ∈ gptTableWrite (lbaToByte ctx hdr.partTableLba).toNat table hdr.partTableEntryCnt
    hdr.partEntrySz, s.1 ∈ ctx.bytesOf (tableArea ctx hdr)

/-- No subtraction of `gpt_calc_pos` and `schem_init_gpt` wraps, and no sum. -/
structure PosExact (ctx : ImgCtx) : Prop where
  hdrLbaSec : 1 ≤ byteToLba ctx ctx.imgSz false
  tableLbaSec : (gptCalcPos ctx).tableSz ≤ (gptCalcPos ctx).hdrLbaSec
  lastUsable : 1 ≤ (gptCalcPos ctx).tableLbaSec
  firstUsable : (gptCalcPos ctx).tableLbaPrim.toNat + (gptCalcPos ctx).tableSz.toNat < 2 ^ 64

/-- A scheme that is laid out over the whole image. -/
structure LaidOut (ctx : ImgCtx) (schem : Schem) : Prop where
  /-- The areas follow one another from the first sector to the last one. -/
  tiles : Tiles 0 (gptAreas ctx schem) ctx.secs
  disjoint : (gptAreas ctx schem).Pairwise fun a b =>
    Disjoint (Set.Ico a.1 a.2) (Set.Ico b.1 b.2)
  cover : ∀ s, (∃ a ∈ gptAreas ctx schem, s ∈ Set.Ico a.1 a.2) ↔ s < ctx.secs
  usable : schem.firstUsableLba ≤ schem.lastUsableLba
  prim : PairStays ctx (gptFromSchem schem Gpt.zero ctx).hdrPrim
    (gptFromSchem schem Gpt.zero ctx).tablePrim
  sec : PairStays ctx (gptFromSchem schem Gpt.zero ctx).hdrSec
    (gptFromSchem schem Gpt.zero ctx).tableSec
  /-- A save writes to the areas of the two copies only. -/
  saved : ∀ sys : Sys, ∀ s ∈ (schemSaveGpt sys schem ctx).2,
    s.1 ∈ pairBytes ctx (gptFromSchem schem Gpt.zero ctx).hdrSec ∪
      pairBytes ctx (gptFromSchem schem Gpt.zero ctx).hdrPrim

/-- The only partition covers what an MBR can address of the sectors behind it. -/
structure Protects (ctx : ImgCtx) (mbr : Schem) : Prop where
  prot : schemMbrIsProt mbr = true
  only : ∀ i, i ≠ 0 → schemPartIsUsedMbr (mbr.table i) = false
  start : (mbr.table 0).startLba = 1
  last : (mbr.table 0).endLba.toNat = min (ctx.secs - 1) (2 ^ 32 - 1)
  /-- The number of sectors that is stored, in 32 bits. -/
  size : (mbrPartFromSchem (mbr.table 0) ctx).szLba.toNat = min (ctx.secs - 1) (2 ^ 32 - 1)

/-! ## The copies -/

lemma mem_bytesOf_secsArea {lba cnt : Plba} {b : ℕ} : b ∈ ctx.bytesOf (secsArea lba cnt) ↔
    ctx.off lba ≤ b ∧ b < ctx.off lba + cnt.toNat * ctx.sec := by
  simp only [ImgCtx.bytesOf, secsArea, Set.mem_Ico, ImgCtx.off, Nat.add_mul]

/-- A copy inside the image with entries of 128 bytes is saved inside its areas. -/
lemma pairStays_of_inside (hv : ctx.Valid) {hdr : GptHdr} (hmy : ctx.Inside hdr.myLba 1)
    (hcnt : hdr.partTableEntryCnt.toNat ≤ 128) (hes : hdr.partEntrySz = gptPartEntSz)
    (htab : TableInside ctx hdr) (table : GptTable) : PairStays ctx hdr table where
  performed := fun sys => (gptPairSave_spec sys hdr table ctx).1
  header := fun s hs => by
    rw [hmy.toNat_off, gptHdrWrite_eq] at hs
    obtain ⟨h1, h2⟩ := mem_storeAt_hdrBytes hs
    have hsec := hv.sec_bounds.1
    rw [hdrArea, mem_bytesOf_secsArea, UInt64.toNat_one, Nat.one_mul]
    exact ⟨h1, by omega⟩
  table := fun s hs => by
    rw [ImgCtx.Inside.toNat_off htab, hes] at hs
    obtain ⟨i, hi, h1, h2⟩ := mem_gptTableWrite hcnt hs
    have hlen := (tableSzSecs_mul hv hcnt hes).1
    rw [tableArea, mem_bytesOf_secsArea]
    exact ⟨by omega, by omega⟩

lemma PairStays.mem_pairBytes {hdr : GptHdr} {table : GptTable} (h : PairStays ctx hdr table)
    {s : Store} (hs : s ∈ pairStores ctx hdr table) : s.1 ∈ pairBytes ctx hdr := by
  rcases List.mem_append.1 hs with hs | hs
  · exact Or.inl (h.header s hs)
  · exact Or.inr (h.table s hs)

/-! ## The positions -/

lemma posExact (hv : ctx.Valid) : PosExact ctx := by
  obtain ⟨-, h2, h3, h4, h5⟩ := gptCalcPos_toNat hv
  have hsecs := hv.secs_bound
  have hts := hv.tableSecs_bounds
  have himg := toNat_byteToLba_imgSz ctx
  constructor
  · rw [UInt64.le_iff_toNat_le, himg, UInt64.toNat_one]
    omega
  · rw [UInt64.le_iff_toNat_le, h2, h5]
    omega
  · rw [UInt64.le_iff_toNat_le, h4, UInt64.toNat_one]
    omega
  · omega

/-- Where the areas of a scheme lie that has the bounds of a new one. -/
lemma gptAreas_eq (hv : ctx.Valid) (hcnt : schem.partCnt = gptMaxPartCnt)
    (hfirst : schem.firstUsableLba.toNat = 2 + ctx.tableSecs)
    (hlast : schem.lastUsableLba.toNat = ctx.secs - 1 - ctx.tableSecs - 1) :
    gptAreas ctx schem =
      [(0, 1), (1, 2), (2, 2 + ctx.tableSecs),
        (2 + ctx.tableSecs, ctx.secs - 1 - ctx.tableSecs),
        (ctx.secs - 1 - ctx.tableSecs, ctx.secs - 1), (ctx.secs - 1, ctx.secs)] := by
  obtain ⟨h1, h2, h3, h4, -⟩ := gptCalcPos_toNat hv
  have hsecs := hv.secs_bound
  have hts := hv.tableSecs_bounds
  have hsz : (byteToLba ctx (schem.partCnt * gptPartEntSz) true).toNat = ctx.tableSecs := by
    rw [hcnt, toNat_tableSz hv]
  have hprim : tableArea ctx (savedPrim schem ctx) = (2, 2 + ctx.tableSecs) := by
    rw [tableArea, secsArea, savedPrim_partTableLba, h3]
    exact congrArg (fun n => (2, 2 + n)) hsz
  have hsec : tableArea ctx (savedSec schem ctx) =
      (ctx.secs - 1 - ctx.tableSecs, ctx.secs - 1) := by
    have hend : ctx.secs - 1 - ctx.tableSecs + ctx.tableSecs = ctx.secs - 1 := by omega
    rw [tableArea, secsArea, savedSec_partTableLba, h4]
    refine Prod.ext rfl (Eq.trans ?_ hend)
    exact congrArg (ctx.secs - 1 - ctx.tableSecs + ·) hsz
  have hhdr : hdrArea (savedSec schem ctx) = (ctx.secs - 1, ctx.secs) := by
    have hend : ctx.secs - 1 + 1 = ctx.secs := by omega
    rw [hdrArea, secsArea, savedSec_myLba, toNat_imgLastLba hv, UInt64.toNat_one, hend]
  have huse : usableArea schem = (2 + ctx.tableSecs, ctx.secs - 1 - ctx.tableSecs) := by
    have hend : ctx.secs - 1 - ctx.tableSecs - 1 + 1 = ctx.secs - 1 - ctx.tableSecs := by omega
    rw [usableArea, hfirst, hlast, hend]
  have hmbr : secsArea 0 (byteToLba ctx mbrSz true) = (0, 1) := by
    rw [byteToLba_mbrSz hv]
    rfl
  rw [← hmbr, ← huse, ← hsec, ← hhdr, ← hprim]
  rfl

/-- A scheme with the bounds of a new one is laid out, whatever its partitions are. -/
lemma laidOut_of_bounds (hv : ctx.Valid) (hcnt : schem.partCnt = gptMaxPartCnt)
    (hfirst : schem.firstUsableLba.toNat = 2 + ctx.tableSecs)
    (hlast : schem.lastUsableLba.toNat = ctx.secs - 1 - ctx.tableSecs - 1) :
    LaidOut ctx schem := by
  have hsecs := hv.secs_bound
  have hts := hv.tableSecs_bounds
  have hcnt' : schem.partCnt.toNat ≤ 128 := by
    rw [hcnt]
    decide
  have htiles : Tiles 0 (gptAreas ctx schem) ctx.secs := by
    rw [gptAreas_eq hv hcnt hfirst hlast]
    refine .cons ?mbr (.cons ?hdrPrim (.cons ?tablePrim (.cons ?usable (.cons ?tableSec
      (.cons ?hdrSec (.nil _))))))
    all_goals omega
  have hprim := fun table => pairStays_of_inside hv (savedPrim_inside hv schem) hcnt' rfl
    (savedPrim_tableInside hv hcnt') table
  have hsec := fun table => pairStays_of_inside hv (imgLastLba_inside hv) hcnt' rfl
    (savedSec_tableInside hv hcnt') table
  refine ⟨htiles, htiles.pairwise_disjoint, fun s => ?_, ?_, hprim _, hsec _, fun sys s hs => ?_⟩
  · rw [htiles.mem_iff, Set.mem_Ico]
    exact and_iff_right (Nat.zero_le s)
  · rw [UInt64.le_iff_toNat_le, hfirst, hlast]
    omega
  · have hs' := (schemSaveGpt_spec sys schem ctx).1.subset hs
    rcases List.mem_append.1 hs' with hs' | hs'
    · exact Or.inl ((hsec _).mem_pairBytes hs')
    · exact Or.inr ((hprim _).mem_pairBytes hs')

/-! ## The protective partition -/

lemma protects_setProt (hv : ctx.Valid) (schem : Schem) (r : Rng) :
    Protects ctx (schemMbrSetProt (schemInitMbr schem ctx r).1) := by
  have hsecs := hv.secs_bound
  have hts := hv.tableSecs_bounds
  have hfirst : (schemInitMbr schem ctx r).1.firstUsableLba = 1 := byteToLba_mbrSz hv
  have hlast : (schemInitMbr schem ctx r).1.lastUsableLba.toNat =
      min (ctx.secs - 1) (2 ^ 32 - 1) := by
    rw [min_comm]
    exact toNat_mbrLastUsable hv schem
  have hzero := schemMbrSetProt_table_zero (schemInitMbr schem ctx r).1
  have hge : (1 : UInt64).toNat ≤ (schemInitMbr schem ctx r).1.lastUsableLba.toNat := by
    rw [hlast, UInt64.toNat_one]
    omega
  refine ⟨?_, fun i hi => ?_, ?_, ?_, ?_⟩
  · rw [schemMbrIsProt, hzero]
    rfl
  · rw [schemMbrSetProt_table_of_ne _ hi]
    rfl
  · rw [hzero, hfirst]
  · rw [hzero, hlast]
  · simp only [mbrPartFromSchem, hzero, hfirst]
    have hsub := toNat_sub_of_ge hge
    rw [toNat_add_of_lt, hsub, hlast, UInt64.toNat_one]
    · omega
    · rw [hsub, UInt64.toNat_one]
      omega

/-- **A new GPT fills the image**: on every image that is accepted the areas of the scheme,
whatever partitions it is given, follow one another from the first sector to the last whole
one, a save stays inside them, and the protective partition covers what it can. -/
theorem schemCtxNewGpt_laidOut (h : imgCtxValidate ctx = .ok) (sc : SchemCtx) (r : Rng) :
    ∃ gpt mbr, (schemCtxNewGpt sc ctx r).1.schemGpt = some gpt ∧
      (schemCtxNewGpt sc ctx r).1.schemMbr = some mbr ∧ PosExact ctx ∧
      (∀ table, LaidOut ctx { gpt with table := table }) ∧ Protects ctx mbr := by
  have hv := (imgCtxValidate_ok_iff ctx).1 h
  obtain ⟨hfirst, hlast⟩ := toNat_schemInitGpt_usable hv (schemNew .gpt) r
  exact ⟨_, _, rfl, rfl, posExact hv, fun table => laidOut_of_bounds hv rfl hfirst hlast,
    protects_setProt hv _ _⟩

theorem schemCtxNewGpt_laidOut_small :
    ∃ gpt mbr, (schemCtxNewGpt schemCtxInit smallCtx zeroRng).1.schemGpt = some gpt ∧
      (schemCtxNewGpt schemCtxInit smallCtx zeroRng).1.schemMbr = some mbr ∧ PosExact smallCtx ∧
      (∀ table, LaidOut smallCtx { gpt with table := table }) ∧ Protects smallCtx mbr :=
  schemCtxNewGpt_laidOut smallCtx_valid schemCtxInit zeroRng

end Partman

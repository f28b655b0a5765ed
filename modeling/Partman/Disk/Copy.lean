/-
# One copy of a GPT on the disk

What the reader makes of one copy depends on the header, on its place, and on the table it
points at.  `CopyAt` says that the image carries a given copy, in terms of what the reader
decodes; loading it then succeeds, and goes on succeeding for as long as the bytes that
are read stay the same.
-/
import Partman.Disk.Codec
import Partman.Disk.Sectors

namespace Partman

open Lib

/-! ## Tables -/

/-- The bytes over which the checksum of a table is taken. -/
def tableStream (table : GptTable) (n : ℕ) : List UInt8 :=
  (List.range n).flatMap fun i => entStream (table i)

lemma gptTableCrcCreate_eq (table : GptTable) (len : Pu32) :
    gptTableCrcCreate table len = crc32Of (tableStream table len.toNat) := by
  simp only [gptTableCrcCreate, gptPartEntCrcCompute_eq, crc32Of, tableStream, crc32Feed,
    List.foldl_flatMap]

lemma gptTableCrcCreate_lt (table : GptTable) (len : Pu32) :
    (gptTableCrcCreate table len).toNat < 2 ^ 32 := by
  rw [gptTableCrcCreate_eq]
  exact crc32Of_lt _

lemma tableStream_congr {table table' : GptTable} {n : ℕ} (h : ∀ i < n, table i = table' i) :
    tableStream table n = tableStream table' n :=
  List.flatMap_congr fun i hi => by rw [h i (List.mem_range.1 hi)]

lemma gptTableCrcCreate_congr {table table' : GptTable} {len : Pu32}
    (h : ∀ i < len.toNat, table i = table' i) :
    gptTableCrcCreate table len = gptTableCrcCreate table' len := by
  rw [gptTableCrcCreate_eq, gptTableCrcCreate_eq, tableStream_congr h]

/-- The offset of an entry, where it does not wrap. -/
lemma entOff_of_lt {i : ℕ} {entrySz : Pu32} (hi : i < 2 ^ 64) (h : i * entrySz.toNat < 2 ^ 64) :
    entOff i entrySz = i * entrySz.toNat := by
  have h1 : (UInt64.ofNat i).toNat = i := toNat_ofNat_of_lt hi
  rw [entOff, toNat_mul_of_lt (by rwa [h1]), h1]

lemma entOff_eq {i : ℕ} (hi : i < 2 ^ 32) : entOff i gptPartEntSz = 128 * i := by
  have h2 : gptPartEntSz.toNat = 128 := rfl
  rw [entOff_of_lt (by omega) (by rw [h2]; omega), h2, Nat.mul_comm]

/-- The number of entries that are read and written. -/
lemma tableLen_min {len : Pu32} (h : len.toNat ≤ 128) :
    min len.toNat gptMaxPartCnt.toNat = len.toNat := by
  have : gptMaxPartCnt.toNat = 128 := rfl
  omega

lemma gptTableWrite_eq {len : Pu32} (h : len.toNat ≤ 128) (buf : ℕ) (table : GptTable) :
    gptTableWrite buf table len gptPartEntSz =
      (List.range len.toNat).flatMap fun i => gptPartEntWrite (buf + 128 * i) (table i) := by
  rw [gptTableWrite, tableLen_min h]
  refine List.flatMap_congr fun i hi => ?_
  rw [entOff_eq (by have := List.mem_range.1 hi; omega)]

lemma mem_gptTableWrite {len : Pu32} (h : len.toNat ≤ 128) {buf : ℕ} {table : GptTable} {s : Store}
    (hs : s ∈ gptTableWrite buf table len gptPartEntSz) :
    ∃ i < len.toNat, buf + 128 * i ≤ s.1 ∧ s.1 < buf + 128 * i + 93 := by
  rw [gptTableWrite_eq h, List.mem_flatMap] at hs
  obtain ⟨i, hi, hs⟩ := hs
  exact ⟨i, List.mem_range.1 hi, mem_gptPartEntWrite hs⟩

lemma holds_gptTableWrite {len : Pu32} (h : len.toNat ≤ 128) (m : Image) (buf : ℕ)
    (table : GptTable) : ∀ i < len.toNat,
      Holds (stores m (gptTableWrite buf table len gptPartEntSz)) (buf + 128 * i)
        (entPacked (table i)) := by
  rw [gptTableWrite_eq h]
  refine holds_flatMap (fun m i => ?_) (fun i j hij s hs => ?_) m len.toNat
  · rw [stores_gptPartEntWrite]
    exact holds_stores_storeAt _ _ _
  · have := mem_gptPartEntWrite hs
    rw [length_entPacked]
    omega

lemma gptTableRead_of_lt {m : Image} {buf : ℕ} {table : GptTable} {len : Pu32}
    (h : len.toNat ≤ 128) {i : ℕ} (hi : i < len.toNat) :
    gptTableRead m buf table len gptPartEntSz i = gptPartEntRead m (buf + 128 * i) := by
  rw [gptTableRead, tableLen_min h, if_pos hi, entOff_eq (by omega)]

/-! ## Loading one copy -/

variable {sys : Sys} {ctx : ImgCtx} {m : Image} {lba : Plba} {hdr hdr₀ : GptHdr}
  {table table₀ : GptTable}

/-- The offset of a sector. -/
def ImgCtx.off (ctx : ImgCtx) (lba : Plba) : ℕ := lba.toNat * ctx.sec

lemma ImgCtx.Inside.toNat_off {cnt : Plba} (h : ctx.Inside lba cnt) :
    (lbaToByte ctx lba).toNat = ctx.off lba := toNat_lbaToByte h.lt.1

/-- The header at a sector is accepted. -/
structure HdrAt (m : Image) (ctx : ImgCtx) (lba : Plba) (hdr : GptHdr) : Prop where
  present : gptIsPresent m (ctx.off lba) = true
  read : gptHdrRead m (ctx.off lba) = hdr
  valid : gptHdrIsValid hdr lba = true

lemma HdrAt.bounded (h : HdrAt m ctx lba hdr) : hdr.Bounded := by
  rw [← h.read]
  exact gptHdrRead_bounded _ _

lemma window_one (sys : Sys) (ctx : ImgCtx) (lba : Plba) : sys.Window ctx lba 1 :=
  Or.inl (by simp)

lemma gptPairUnmap_hdr (hv : ctx.Valid) (hs : sys.Serves ctx) (hin : ctx.Inside lba 1) :
    gptPairUnmap sys ctx (lbaToByte ctx lba) lba none = .ok := by
  rw [gptPairUnmap, unmapSecs_of_serves hv hs hin (window_one sys ctx lba)]

/-- A header that is missing or not accepted ends the load of its copy. -/
lemma gptPairLoad_hdrInv (hv : ctx.Valid) (hs : sys.Serves ctx) (hin : ctx.Inside lba 1)
    (h : ∀ hdr, ¬ HdrAt m ctx lba hdr) :
    (gptPairLoad sys m hdr₀ table₀ ctx lba).res = .hdrInv := by
  have hmap := mapSecs_of_serves hv hs hin (window_one sys ctx lba)
  have hun := gptPairUnmap_hdr hv hs hin
  have hoff := hin.toNat_off
  unfold gptPairLoad
  simp only [hmap, hoff]
  by_cases hp : gptIsPresent m (ctx.off lba) = true
  · have hnv : gptHdrIsValid (gptHdrRead m (ctx.off lba)) lba = false := by
      by_contra hval
      exact h _ ⟨hp, rfl, by simpa using hval⟩
    simp [hp, hnv, hun]
  · simp [hp, hun]

/-- The table of a header, as the reader decodes it. -/
def tableOf (m : Image) (ctx : ImgCtx) (hdr : GptHdr) (table₀ : GptTable) : GptTable :=
  gptTableRead m (ctx.off hdr.partTableLba) table₀ hdr.partTableEntryCnt hdr.partEntrySz

/-- The table of a header lies inside the image. -/
def TableInside (ctx : ImgCtx) (hdr : GptHdr) : Prop :=
  ctx.Inside hdr.partTableLba (gptTableSzSecs ctx hdr)

/-- The window over the table of a header is not empty. -/
def TableWindow (sys : Sys) (ctx : ImgCtx) (hdr : GptHdr) : Prop :=
  sys.Window ctx hdr.partTableLba (gptTableSzSecs ctx hdr)

/-- With an accepted header, the load is decided by the checksum of the table. -/
lemma gptPairLoad_table (hv : ctx.Valid) (hs : sys.Serves ctx) (hin : ctx.Inside lba 1)
    (h : HdrAt m ctx lba hdr) (hcnt : hdr.partTableEntryCnt.toNat ≤ 128)
    (htab : TableInside ctx hdr) (hwin : TableWindow sys ctx hdr) (hdr₀ : GptHdr)
    (table₀ : GptTable) :
    (gptPairLoad sys m hdr₀ table₀ ctx lba).res =
        (if gptTableIsValid hdr (tableOf m ctx hdr table₀) then .ok else .tableInv) ∧
      (gptPairLoad sys m hdr₀ table₀ ctx lba).hdr = hdr ∧
      (gptPairLoad sys m hdr₀ table₀ ctx lba).table = tableOf m ctx hdr table₀ := by
  have hmap := mapSecs_of_serves hv hs hin (window_one sys ctx lba)
  have hun := unmapSecs_of_serves hv hs hin (window_one sys ctx lba)
  have hoff := hin.toNat_off
  have hmap' := mapSecs_of_serves hv hs htab hwin
  have hun' := unmapSecs_of_serves hv hs htab hwin
  have hoff' := ImgCtx.Inside.toNat_off htab
  have hle : ¬ hdr.partTableEntryCnt > gptMaxPartCnt :=
    UInt64.not_lt.2 (UInt64.le_iff_toNat_le.2 hcnt)
  unfold gptPairLoad tableOf
  simp only [hmap, hoff, h.present, h.read, h.valid, hle, gptPairLoadTable, hmap', hoff',
    gptPairUnmap, hun, hun']
  cases gptTableIsValid hdr (gptTableRead m (ctx.off hdr.partTableLba) table₀
    hdr.partTableEntryCnt hdr.partEntrySz) <;> simp

/-- An accepted header whose table makes an empty window is fatal. -/
lemma gptPairLoad_fatal_window (hv : ctx.Valid) (hs : sys.Serves ctx) (hin : ctx.Inside lba 1)
    (h : HdrAt m ctx lba hdr) (htab : TableInside ctx hdr) (hwin : ¬ TableWindow sys ctx hdr) :
    (gptPairLoad sys m hdr₀ table₀ ctx lba).res = .fatal := by
  have hmap := mapSecs_of_serves hv hs hin (window_one sys ctx lba)
  have hun := gptPairUnmap_hdr hv hs hin
  have hoff := hin.toNat_off
  have hmap' := mapSecs_of_not_window htab hwin
  unfold gptPairLoad
  simp only [hmap, hoff, h.present, h.read, h.valid, gptPairLoadTable, hmap', hun]
  simp

/-! ## A copy on the disk -/

/-- The image carries this copy at this sector. -/
structure CopyAt (sys : Sys) (m : Image) (ctx : ImgCtx) (lba : Plba) (hdr : GptHdr)
    (table : GptTable) : Prop extends HdrAt m ctx lba hdr where
  inside : ctx.Inside lba 1
  cnt : hdr.partTableEntryCnt.toNat ≤ 128
  entrySz : hdr.partEntrySz = gptPartEntSz
  tableInside : TableInside ctx hdr
  window : TableWindow sys ctx hdr
  entries : ∀ i < hdr.partTableEntryCnt.toNat,
    gptPartEntRead m (ctx.off hdr.partTableLba + 128 * i) = table i
  tableValid : gptTableIsValid hdr table = true

lemma tableOf_of_lt (hcnt : hdr.partTableEntryCnt.toNat ≤ 128)
    (hes : hdr.partEntrySz = gptPartEntSz) {i : ℕ} (hi : i < hdr.partTableEntryCnt.toNat) :
    tableOf m ctx hdr table₀ i = gptPartEntRead m (ctx.off hdr.partTableLba + 128 * i) := by
  rw [tableOf, hes, gptTableRead_of_lt hcnt hi]

lemma gptTableIsValid_congr (h : ∀ i < hdr.partTableEntryCnt.toNat, table i = table₀ i) :
    gptTableIsValid hdr table = gptTableIsValid hdr table₀ := by
  rw [gptTableIsValid, gptTableIsValid, gptTableCrcCreate_congr h]

/-- What a load that has succeeded delivers. -/
structure Loaded (l : GptPairLoad) (hdr : GptHdr) (table : GptTable) : Prop where
  res : l.res = .ok
  hdrEq : l.hdr = hdr
  tableEq : ∀ i < hdr.partTableEntryCnt.toNat, l.table i = table i

/-- **A copy on the disk is loaded.** -/
theorem CopyAt.loaded (hv : ctx.Valid) (hs : sys.Serves ctx) (h : CopyAt sys m ctx lba hdr table)
    (hdr₀ : GptHdr) (table₀ : GptTable) :
    Loaded (gptPairLoad sys m hdr₀ table₀ ctx lba) hdr table := by
  obtain ⟨h1, h2, h3⟩ := gptPairLoad_table hv hs h.inside h.toHdrAt h.cnt h.tableInside h.window
    hdr₀ table₀
  have htab : ∀ i < hdr.partTableEntryCnt.toNat, tableOf m ctx hdr table₀ i = table i := by
    intro i hi
    rw [tableOf_of_lt h.cnt h.entrySz hi, h.entries i hi]
  refine ⟨?_, h2, fun i hi => by rw [h3, htab i hi]⟩
  rw [h1, gptTableIsValid_congr htab, h.tableValid]
  rfl

end Partman

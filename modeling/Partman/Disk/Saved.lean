/-
# What a save leaves on the disk

A save of a GPT writes the secondary copy and then the primary one, header before table.
The four pieces do not meet, so after a save that succeeds the image carries both copies.
-/
import Partman.Disk.Load

namespace Partman

open Lib

variable {sys sys' : Sys} {ctx : ImgCtx} {schem : Schem}

/-! ## Saving one copy -/

/-- The stores of one copy. -/
def pairStores (ctx : ImgCtx) (hdr : GptHdr) (table : GptTable) : List Store :=
  gptHdrWrite (lbaToByte ctx hdr.myLba).toNat hdr ++
    gptTableWrite (lbaToByte ctx hdr.partTableLba).toNat table hdr.partTableEntryCnt hdr.partEntrySz

/-- A save of one copy performs some of the stores, from the first one on; all of them if
it succeeds, and then both mappings have been granted. -/
lemma gptPairSave_spec (sys : Sys) (hdr : GptHdr) (table : GptTable) (ctx : ImgCtx) :
    (gptPairSave sys hdr table ctx).2 <+: pairStores ctx hdr table ∧
      ((gptPairSave sys hdr table ctx).1 = .ok →
        (gptPairSave sys hdr table ctx).2 = pairStores ctx hdr table ∧
        mapSecs sys ctx hdr.partTableLba (gptTableSzSecs ctx hdr) ≠ none) := by
  unfold gptPairSave pairStores
  rcases mapSecs_cases sys ctx hdr.myLba 1 with h | h
  · simp [h]
  · rcases mapSecs_cases sys ctx hdr.partTableLba (gptTableSzSecs ctx hdr) with h' | h'
    · simp [h, h']
    · simp [h, h']

/-- With everything granted the save succeeds. -/
lemma gptPairSave_of_serves (hv : ctx.Valid) (hs : sys.Serves ctx) {hdr : GptHdr}
    (hin : ctx.Inside hdr.myLba 1) (htab : TableInside ctx hdr) (hwin : TableWindow sys ctx hdr)
    (table : GptTable) :
    gptPairSave sys hdr table ctx = (.ok, pairStores ctx hdr table) := by
  unfold gptPairSave pairStores
  simp only [mapSecs_of_serves hv hs hin (window_one sys ctx _), mapSecs_of_serves hv hs htab hwin,
    gptPairUnmap, unmapSecs_of_serves hv hs hin (window_one sys ctx _),
    unmapSecs_of_serves hv hs htab hwin]

/-- A table whose window is empty is refused when the header has been written. -/
lemma gptPairSave_of_not_window (hv : ctx.Valid) (hs : sys.Serves ctx) {hdr : GptHdr}
    (hin : ctx.Inside hdr.myLba 1) (htab : TableInside ctx hdr) (hwin : ¬ TableWindow sys ctx hdr)
    (table : GptTable) :
    gptPairSave sys hdr table ctx =
      (.fail, storeAt (ctx.off hdr.myLba) (hdrBytes hdr)) := by
  have hoff := hin.toNat_off
  unfold gptPairSave
  simp only [mapSecs_of_serves hv hs hin (window_one sys ctx _),
    mapSecs_of_not_window htab hwin, gptHdrWrite_eq, hoff]

/-- A mapping that is granted has a window that is not empty. -/
lemma window_of_mapSecs (hpg : sys'.pgSz = sys.pgSz) {lba cnt : Plba} (hin : ctx.Inside lba cnt)
    (h : mapSecs sys' ctx lba cnt ≠ none) : sys.Window ctx lba cnt := by
  by_contra hw
  refine h (mapSecs_of_not_window hin fun hw' => hw ?_)
  rwa [Sys.Window, hpg] at hw'

/-! ## The two copies -/

/-- The entries that are saved: unused ones as zeros. -/
def savedTable (schem : Schem) : GptTable := gptTableFromSchem schem gptTableZero

/-- The primary header that is saved. -/
def savedPrim (schem : Schem) (ctx : ImgCtx) : GptHdr := (gptFromSchem schem Gpt.zero ctx).hdrPrim

/-- The secondary header that is saved. -/
def savedSec (schem : Schem) (ctx : ImgCtx) : GptHdr := (gptFromSchem schem Gpt.zero ctx).hdrSec

/-- All stores of a save. -/
def saveStores (schem : Schem) (ctx : ImgCtx) : List Store :=
  pairStores ctx (savedSec schem ctx) (savedTable schem) ++
    pairStores ctx (savedPrim schem ctx) (savedTable schem)

lemma savedSec_eq (schem : Schem) (ctx : ImgCtx) :
    savedSec schem ctx = gptRestoreHdr (savedPrim schem ctx) (gptCalcPos ctx).tableLbaSec := rfl

/-! The fields of the two headers that the unified structure takes over. -/

lemma savedPrim_cnt (schem : Schem) (ctx : ImgCtx) :
    (savedPrim schem ctx).partTableEntryCnt = schem.partCnt := rfl

lemma savedPrim_diskGuid (schem : Schem) (ctx : ImgCtx) :
    (savedPrim schem ctx).diskGuid = schem.idGuid := rfl

lemma savedPrim_first (schem : Schem) (ctx : ImgCtx) :
    (savedPrim schem ctx).firstUsableLba = schem.firstUsableLba := rfl

lemma savedPrim_last (schem : Schem) (ctx : ImgCtx) :
    (savedPrim schem ctx).lastUsableLba = schem.lastUsableLba := rfl

lemma savedSec_cnt (schem : Schem) (ctx : ImgCtx) :
    (savedSec schem ctx).partTableEntryCnt = schem.partCnt := rfl

lemma savedSec_diskGuid (schem : Schem) (ctx : ImgCtx) :
    (savedSec schem ctx).diskGuid = schem.idGuid := rfl

lemma savedSec_first (schem : Schem) (ctx : ImgCtx) :
    (savedSec schem ctx).firstUsableLba = schem.firstUsableLba := rfl

lemma savedSec_last (schem : Schem) (ctx : ImgCtx) :
    (savedSec schem ctx).lastUsableLba = schem.lastUsableLba := rfl

lemma savedPrim_partTableLba (schem : Schem) (ctx : ImgCtx) :
    (savedPrim schem ctx).partTableLba = (gptCalcPos ctx).tableLbaPrim := rfl

lemma savedSec_partTableLba (schem : Schem) (ctx : ImgCtx) :
    (savedSec schem ctx).partTableLba = (gptCalcPos ctx).tableLbaSec := rfl

/-- A restored header carries its own checksum. -/
lemma gptRestoreHdr_crc (hdr : GptHdr) (lba : Plba) :
    (gptRestoreHdr hdr lba).hdrCrc32 = gptHdrCrcCreate (gptRestoreHdr hdr lba) := by
  rw [gptRestoreHdr, gptHdrCrcCreate_setCrc]

lemma savedPrim_crc (schem : Schem) (ctx : ImgCtx) :
    (savedPrim schem ctx).hdrCrc32 = gptHdrCrcCreate (savedPrim schem ctx) :=
  (gptHdrCrcCreate_setCrc _ _).symm

lemma savedPrim_tableCrc (schem : Schem) (ctx : ImgCtx) :
    (savedPrim schem ctx).partTableCrc32 = gptTableCrcCreate (savedTable schem) schem.partCnt := rfl

lemma savedSec_tableCrc (schem : Schem) (ctx : ImgCtx) :
    (savedSec schem ctx).partTableCrc32 = gptTableCrcCreate (savedTable schem) schem.partCnt := rfl

lemma savedTable_of_ge {i : ℕ} (h : schem.partCnt.toNat ≤ i) :
    savedTable schem i = GptPartEnt.zero := by
  rw [savedTable, gptTableFromSchem, if_neg (by omega), gptTableZero]

lemma tableSec_eq (schem : Schem) (ctx : ImgCtx) :
    (gptFromSchem schem Gpt.zero ctx).tableSec = savedTable schem := by
  funext i
  have hdef : (gptFromSchem schem Gpt.zero ctx).tableSec i =
      if i < schem.partCnt.toNat then savedTable schem i else GptPartEnt.zero := rfl
  rw [hdef]
  split
  · rfl
  · next h => rw [savedTable_of_ge (by omega)]

/-- The secondary copy is saved first, and the primary one if that has succeeded. -/
lemma schemSaveGpt_eq (sys : Sys) (schem : Schem) (ctx : ImgCtx) : schemSaveGpt sys schem ctx =
    match gptPairSave sys (savedSec schem ctx) (savedTable schem) ctx with
    | (.fail, ss) => (.fail, ss)
    | (.ok, ss) =>
      ((gptPairSave sys (savedPrim schem ctx) (savedTable schem) ctx).1,
        ss ++ (gptPairSave sys (savedPrim schem ctx) (savedTable schem) ctx).2) := by
  rw [schemSaveGpt, gptSave, tableSec_eq]
  rfl

/-- A save performs some of its stores, from the first one on; all of them if it
succeeds. -/
lemma schemSaveGpt_spec (sys : Sys) (schem : Schem) (ctx : ImgCtx) :
    (schemSaveGpt sys schem ctx).2 <+: saveStores schem ctx ∧
      ((schemSaveGpt sys schem ctx).1 = .ok →
        (schemSaveGpt sys schem ctx).2 = saveStores schem ctx ∧
        mapSecs sys ctx (savedSec schem ctx).partTableLba
          (gptTableSzSecs ctx (savedSec schem ctx)) ≠ none ∧
        mapSecs sys ctx (savedPrim schem ctx).partTableLba
          (gptTableSzSecs ctx (savedPrim schem ctx)) ≠ none) := by
  obtain ⟨hp1, hok1⟩ := gptPairSave_spec sys (savedSec schem ctx) (savedTable schem) ctx
  obtain ⟨hp2, hok2⟩ := gptPairSave_spec sys (savedPrim schem ctx) (savedTable schem) ctx
  rw [schemSaveGpt_eq]
  rcases h : gptPairSave sys (savedSec schem ctx) (savedTable schem) ctx with ⟨_ | _, ss⟩
  · rw [h] at hp1
    exact ⟨hp1.trans (List.prefix_append _ _), by simp⟩
  · rw [h] at hok1
    obtain ⟨hss, hmap1⟩ := hok1 rfl
    replace hss : ss = pairStores ctx (savedSec schem ctx) (savedTable schem) := hss
    refine ⟨?_, fun hok => ?_⟩
    · rw [saveStores, ← hss]
      exact (List.prefix_append_right_inj _).2 hp2
    · obtain ⟨he, hmap2⟩ := hok2 hok
      exact ⟨by rw [saveStores, he, ← hss], hmap1, hmap2⟩

/-! ## Where the pieces lie -/

/-- A scheme whose fields of 32 bits are in range, with entries that can be read back. -/
structure Schem.GptOk (schem : Schem) : Prop where
  cnt : schem.partCnt.toNat ≤ 128
  idGuid : schem.idGuid.timeLo.toNat < 2 ^ 32
  entries : ∀ i < schem.partCnt.toNat, schemPartIsUsedGpt (schem.table i) = true →
    (gptPartFromSchem (schem.table i)).Codable

lemma nameChained_zero : NameChained fun _ => 0 := by
  intro k hk
  simp [nameUnit]

lemma zero_codable : GptPartEnt.zero.Codable :=
  ⟨⟨by decide, by decide, fun _ => by simp [GptPartEnt.zero]⟩, nameChained_zero⟩

lemma Schem.GptOk.codable (h : schem.GptOk) (i : ℕ) : (savedTable schem i).Codable := by
  rw [savedTable, gptTableFromSchem]
  split
  · next hi => exact h.entries i hi.1 hi.2
  · exact zero_codable

/-- The number of sectors of a table, as numbers without a bound. -/
lemma toNat_tableSzSecs (hpos : 0 < ctx.sec) {hdr : GptHdr}
    (hcnt : hdr.partTableEntryCnt.toNat ≤ 128) (hes : hdr.partEntrySz.toNat < 2 ^ 32) :
    (gptTableSzSecs ctx hdr).toNat =
      (hdr.partTableEntryCnt.toNat * hdr.partEntrySz.toNat + ctx.sec - 1) / ctx.sec := by
  have hle := Nat.mul_le_mul hcnt (Nat.le_of_lt hes)
  have hmul : (hdr.partTableEntryCnt * hdr.partEntrySz).toNat =
      hdr.partTableEntryCnt.toNat * hdr.partEntrySz.toNat := toNat_mul_of_lt (by omega)
  rw [gptTableSzSecs, toNat_byteToLba_up hpos (by rw [hmul]; omega), hmul]

lemma toNat_of_entSz {hdr : GptHdr} (hes : hdr.partEntrySz = gptPartEntSz) :
    hdr.partEntrySz.toNat = 128 := by
  rw [hes]
  rfl

/-- The table with its last sector is not longer than one with 128 entries. -/
lemma tableSzSecs_mul (hv : ctx.Valid) {hdr : GptHdr} (hcnt : hdr.partTableEntryCnt.toNat ≤ 128)
    (hes : hdr.partEntrySz = gptPartEntSz) :
    hdr.partTableEntryCnt.toNat * 128 ≤ (gptTableSzSecs ctx hdr).toNat * ctx.sec ∧
      (gptTableSzSecs ctx hdr).toNat ≤ ctx.tableSecs := by
  have hts := hv.tableSecs_mul
  have h128 := toNat_of_entSz hes
  rw [toNat_tableSzSecs hv.sec_pos hcnt (by omega), h128]
  generalize hdr.partTableEntryCnt.toNat = n at hcnt ⊢
  rcases hv.sec_cases with e | e | e | e <;> rw [e] at hts ⊢ <;> omega

namespace ImgCtx

/-- The offset of the primary header. -/
def primHdrOff (ctx : ImgCtx) : ℕ := ctx.sec

/-- The offset of the primary table. -/
def primTabOff (ctx : ImgCtx) : ℕ := 2 * ctx.sec

/-- The offset of the secondary table. -/
def secTabOff (ctx : ImgCtx) : ℕ := (ctx.secs - 1 - ctx.tableSecs) * ctx.sec

/-- The offset of the secondary header. -/
def secHdrOff (ctx : ImgCtx) : ℕ := (ctx.secs - 1) * ctx.sec

/-- The four pieces follow one another, with room for 128 entries in each table. -/
lemma Valid.layout (hv : ctx.Valid) :
    512 ≤ ctx.sec ∧ ctx.primHdrOff + ctx.sec = ctx.primTabOff ∧
      ctx.primTabOff + 16384 ≤ ctx.secTabOff ∧ ctx.secTabOff + 16384 = ctx.secHdrOff ∧
      ctx.secHdrOff + ctx.sec ≤ ctx.imgSz.toNat := by
  have hts := hv.tableSecs_mul
  have hsb := Nat.mul_le_mul_right ctx.sec hv.secs_bound
  have hle := ctx.secs_mul_le
  have hsec := hv.sec_bounds
  simp only [primHdrOff, primTabOff, secTabOff, secHdrOff, Nat.sub_mul, hts]
  rw [Nat.mul_assoc, hts] at hsb
  omega

end ImgCtx

lemma off_one (ctx : ImgCtx) : ctx.off 1 = ctx.primHdrOff := by
  rw [ImgCtx.off, UInt64.toNat_one, Nat.one_mul, ImgCtx.primHdrOff]

lemma off_savedPrim (schem : Schem) (ctx : ImgCtx) :
    ctx.off (savedPrim schem ctx).myLba = ctx.primHdrOff := by
  have : (savedPrim schem ctx).myLba.toNat = 1 := rfl
  rw [ImgCtx.off, this, Nat.one_mul, ImgCtx.primHdrOff]

lemma off_savedPrim_table (schem : Schem) (ctx : ImgCtx) :
    ctx.off (savedPrim schem ctx).partTableLba = ctx.primTabOff := rfl

lemma savedSec_myLba (schem : Schem) (ctx : ImgCtx) :
    (savedSec schem ctx).myLba = imgLastLba ctx := rfl

lemma savedPrim_altLba (schem : Schem) (ctx : ImgCtx) :
    (savedPrim schem ctx).altLba = imgLastLba ctx := rfl

lemma off_imgLastLba (hv : ctx.Valid) : ctx.off (imgLastLba ctx) = ctx.secHdrOff := by
  rw [ImgCtx.off, toNat_imgLastLba hv, ImgCtx.secHdrOff]

lemma off_savedSec_table (hv : ctx.Valid) (schem : Schem) :
    ctx.off (savedSec schem ctx).partTableLba = ctx.secTabOff := by
  rw [ImgCtx.off, savedSec_partTableLba, (gptCalcPos_toNat hv).2.2.2.1, ImgCtx.secTabOff]

/-- The stores of the table of a scheme at an offset. -/
def tableStores (schem : Schem) (off : ℕ) : List Store :=
  gptTableWrite off (savedTable schem) schem.partCnt gptPartEntSz

lemma toNat_lbaToByte_off {lba : Plba} (h : ctx.off lba ≤ ctx.imgSz.toNat) :
    (lbaToByte ctx lba).toNat = ctx.off lba :=
  toNat_lbaToByte (lt_of_le_of_lt h ctx.imgSz.toNat_lt)

/-- The four pieces of a save, in order. -/
lemma saveStores_eq (hv : ctx.Valid) (schem : Schem) :
    saveStores schem ctx =
      storeAt ctx.secHdrOff (hdrBytes (savedSec schem ctx)) ++ tableStores schem ctx.secTabOff ++
        (storeAt ctx.primHdrOff (hdrBytes (savedPrim schem ctx)) ++
          tableStores schem ctx.primTabOff) := by
  obtain ⟨-, h1, h2, h3, h4⟩ := hv.layout
  have e1 : (lbaToByte ctx (savedSec schem ctx).myLba).toNat = ctx.secHdrOff := by
    rw [savedSec_myLba, toNat_lbaToByte_off (by rw [off_imgLastLba hv]; omega), off_imgLastLba hv]
  have e2 : (lbaToByte ctx (savedSec schem ctx).partTableLba).toNat = ctx.secTabOff := by
    rw [toNat_lbaToByte_off (by rw [off_savedSec_table hv]; omega), off_savedSec_table hv]
  have e3 : (lbaToByte ctx (savedPrim schem ctx).myLba).toNat = ctx.primHdrOff := by
    rw [toNat_lbaToByte_off (by rw [off_savedPrim]; omega), off_savedPrim]
  have e4 : (lbaToByte ctx (savedPrim schem ctx).partTableLba).toNat = ctx.primTabOff := by
    rw [toNat_lbaToByte_off (by rw [off_savedPrim_table]; omega), off_savedPrim_table]
  rw [saveStores, pairStores, pairStores, gptHdrWrite_eq, gptHdrWrite_eq, e1, e2, e3, e4]
  rfl

/-! ## A copy that can be read back -/

/-- A header and a table that the reader accepts once they are on the disk. -/
structure CopyOk (sys : Sys) (ctx : ImgCtx) (hdr : GptHdr) (table : GptTable) : Prop where
  bounded : hdr.Bounded
  crc : hdr.hdrCrc32 = gptHdrCrcCreate hdr
  inside : ctx.Inside hdr.myLba 1
  cnt : hdr.partTableEntryCnt.toNat ≤ 128
  entrySz : hdr.partEntrySz = gptPartEntSz
  tableInside : TableInside ctx hdr
  window : TableWindow sys ctx hdr
  codable : ∀ i < hdr.partTableEntryCnt.toNat, (table i).Codable
  tableCrc : hdr.partTableCrc32 = gptTableCrcCreate table hdr.partTableEntryCnt

/-- A header with its own checksum is accepted once its bytes are there. -/
lemma hdrAt_of_holds {hdr : GptHdr} (hb : hdr.Bounded) (hcrc : hdr.hdrCrc32 = gptHdrCrcCreate hdr)
    {m : Image} (h : Holds m (ctx.off hdr.myLba) (hdrBytes hdr)) : HdrAt m ctx hdr.myLba hdr := by
  obtain ⟨hpres, hread⟩ := gptHdrRead_of_holds hb h
  refine ⟨hpres, hread, ?_⟩
  simp [gptHdrIsValid, ← hcrc]

lemma CopyOk.copyAt {hdr : GptHdr} {table : GptTable} (h : CopyOk sys ctx hdr table) {m : Image}
    (hhdr : Holds m (ctx.off hdr.myLba) (hdrBytes hdr))
    (hent : ∀ i < hdr.partTableEntryCnt.toNat,
      Holds m (ctx.off hdr.partTableLba + 128 * i) (entPacked (table i))) :
    CopyAt sys m ctx hdr.myLba hdr table := by
  refine ⟨hdrAt_of_holds h.bounded h.crc hhdr, h.inside, h.cnt, h.entrySz, h.tableInside, h.window,
    fun i hi => gptPartEntRead_of_holds (h.codable i hi) (hent i hi), ?_⟩
  simp [gptTableIsValid, ← h.tableCrc]

/-- Sectors up to the end of the image. -/
lemma inside_of_off {lba cnt : Plba} (h : ctx.off lba + cnt.toNat * ctx.sec ≤ ctx.imgSz.toNat) :
    ctx.Inside lba cnt := by
  rw [ImgCtx.Inside, Nat.add_mul]
  exact h

lemma tableInside_of_off (hv : ctx.Valid) {hdr : GptHdr} (hcnt : hdr.partTableEntryCnt.toNat ≤ 128)
    (hes : hdr.partEntrySz = gptPartEntSz)
    (h : ctx.off hdr.partTableLba + 16384 ≤ ctx.imgSz.toNat) : TableInside ctx hdr := by
  refine inside_of_off (le_trans (Nat.add_le_add_left ?_ _) h)
  rw [← hv.tableSecs_mul]
  exact Nat.mul_le_mul_right _ (tableSzSecs_mul hv hcnt hes).2

lemma inside_one (hv : ctx.Valid) : ctx.Inside 1 1 := by
  obtain ⟨h0, h1, h2, h3, h4⟩ := hv.layout
  refine inside_of_off ?_
  rw [off_one, UInt64.toNat_one]
  omega

lemma inside_zero (hv : ctx.Valid) : ctx.Inside 0 1 := by
  obtain ⟨h0, h1, h2, h3, h4⟩ := hv.layout
  refine inside_of_off ?_
  rw [ImgCtx.off, UInt64.toNat_zero, UInt64.toNat_one]
  omega

lemma savedPrim_inside (hv : ctx.Valid) (schem : Schem) :
    ctx.Inside (savedPrim schem ctx).myLba 1 := inside_one hv

lemma imgLastLba_inside (hv : ctx.Valid) : ctx.Inside (imgLastLba ctx) 1 := by
  obtain ⟨-, h1, h2, h3, h4⟩ := hv.layout
  refine inside_of_off ?_
  rw [off_imgLastLba hv, UInt64.toNat_one, Nat.one_mul]
  omega

lemma lba_inside (hv : ctx.Valid) {lba : Plba} (hlba : lba = 1 ∨ lba = imgLastLba ctx) :
    ctx.Inside lba 1 := by
  rcases hlba with rfl | rfl
  · exact inside_one hv
  · exact imgLastLba_inside hv

lemma savedPrim_tableInside (hv : ctx.Valid) (hcnt : schem.partCnt.toNat ≤ 128) :
    TableInside ctx (savedPrim schem ctx) := by
  obtain ⟨-, h1, h2, h3, h4⟩ := hv.layout
  refine tableInside_of_off hv hcnt rfl ?_
  rw [off_savedPrim_table]
  omega

lemma savedSec_tableInside (hv : ctx.Valid) (hcnt : schem.partCnt.toNat ≤ 128) :
    TableInside ctx (savedSec schem ctx) := by
  obtain ⟨-, h1, h2, h3, h4⟩ := hv.layout
  refine tableInside_of_off hv hcnt rfl ?_
  rw [off_savedSec_table hv]
  omega

lemma savedPrim_bounded (ctx : ImgCtx) (h : schem.GptOk) : (savedPrim schem ctx).Bounded where
  rev := show gptHdrRev.toNat < 2 ^ 32 by decide
  hdrSz := show gptHdrSz.toNat < 2 ^ 32 by decide
  hdrCrc32 := by
    rw [savedPrim_crc]
    exact gptHdrCrcCreate_lt _
  diskGuid := h.idGuid
  partTableEntryCnt := lt_of_le_of_lt h.cnt (by decide)
  partEntrySz := show gptPartEntSz.toNat < 2 ^ 32 by decide
  partTableCrc32 := by
    rw [savedPrim_tableCrc]
    exact gptTableCrcCreate_lt _ _

lemma GptHdr.Bounded.restore {hdr : GptHdr} (h : hdr.Bounded) (lba : Plba) :
    (gptRestoreHdr hdr lba).Bounded where
  rev := h.rev
  hdrSz := h.hdrSz
  hdrCrc32 := by
    rw [gptRestoreHdr_crc]
    exact gptHdrCrcCreate_lt _
  diskGuid := h.diskGuid
  partTableEntryCnt := h.partTableEntryCnt
  partEntrySz := h.partEntrySz
  partTableCrc32 := h.partTableCrc32

lemma savedSec_bounded (ctx : ImgCtx) (h : schem.GptOk) : (savedSec schem ctx).Bounded :=
  (savedPrim_bounded ctx h).restore _

lemma savedPrim_ok (hv : ctx.Valid) (h : schem.GptOk)
    (hwin : TableWindow sys ctx (savedPrim schem ctx)) :
    CopyOk sys ctx (savedPrim schem ctx) (savedTable schem) where
  bounded := savedPrim_bounded ctx h
  crc := savedPrim_crc schem ctx
  inside := savedPrim_inside hv schem
  cnt := h.cnt
  entrySz := rfl
  tableInside := savedPrim_tableInside hv h.cnt
  window := hwin
  codable := fun i _ => h.codable i
  tableCrc := savedPrim_tableCrc schem ctx

lemma savedSec_ok (hv : ctx.Valid) (h : schem.GptOk)
    (hwin : TableWindow sys ctx (savedSec schem ctx)) :
    CopyOk sys ctx (savedSec schem ctx) (savedTable schem) where
  bounded := savedSec_bounded ctx h
  crc := gptRestoreHdr_crc _ _
  inside := imgLastLba_inside hv
  cnt := h.cnt
  entrySz := rfl
  tableInside := savedSec_tableInside hv h.cnt
  window := hwin
  codable := fun i _ => h.codable i
  tableCrc := savedSec_tableCrc schem ctx

/-! ## The image after a save -/

lemma mem_tableStores (hcnt : schem.partCnt.toNat ≤ 128) {off : ℕ} {s : Store}
    (hs : s ∈ tableStores schem off) :
    off ≤ s.1 ∧ s.1 < off + 128 * schem.partCnt.toNat := by
  obtain ⟨i, hi, h1, h2⟩ := mem_gptTableWrite hcnt hs
  omega

/-- Every store of a save goes to one of the four pieces. -/
lemma mem_saveStores (hv : ctx.Valid) (hcnt : schem.partCnt.toNat ≤ 128) {s : Store}
    (hs : s ∈ saveStores schem ctx) :
    ((ctx.secHdrOff ≤ s.1 ∧ s.1 < ctx.secHdrOff + 92) ∨
        (ctx.secTabOff ≤ s.1 ∧ s.1 < ctx.secTabOff + 128 * schem.partCnt.toNat)) ∨
      ((ctx.primHdrOff ≤ s.1 ∧ s.1 < ctx.primHdrOff + 92) ∨
        (ctx.primTabOff ≤ s.1 ∧ s.1 < ctx.primTabOff + 128 * schem.partCnt.toNat)) := by
  rw [saveStores_eq hv, List.mem_append, List.mem_append, List.mem_append] at hs
  rcases hs with (hs | hs) | (hs | hs)
  · exact Or.inl (Or.inl (mem_storeAt_hdrBytes hs))
  · exact Or.inl (Or.inr (mem_tableStores hcnt hs))
  · exact Or.inr (Or.inl (mem_storeAt_hdrBytes hs))
  · exact Or.inr (Or.inr (mem_tableStores hcnt hs))

lemma holds_tableStores (hcnt : schem.partCnt.toNat ≤ 128) (m : Image) (off : ℕ) :
    ∀ i < schem.partCnt.toNat,
      Holds (stores m (tableStores schem off)) (off + 128 * i) (entPacked (savedTable schem i)) :=
  holds_gptTableWrite hcnt m off (savedTable schem)

/-- After the secondary stores the bytes of the secondary copy are there. -/
lemma holds_sec (hv : ctx.Valid) (hcnt : schem.partCnt.toNat ≤ 128) (m : Image) {ss : List Store}
    (hss : ∀ s ∈ ss, s.1 < ctx.secTabOff) {m' : Image}
    (hm : m' = stores m (storeAt ctx.secHdrOff (hdrBytes (savedSec schem ctx)) ++
      tableStores schem ctx.secTabOff ++ ss)) :
    Holds m' ctx.secHdrOff (hdrBytes (savedSec schem ctx)) ∧ ∀ i < schem.partCnt.toNat,
      Holds m' (ctx.secTabOff + 128 * i) (entPacked (savedTable schem i)) := by
  obtain ⟨-, h1, h2, h3, h4⟩ := hv.layout
  rw [hm, stores_append, stores_append]
  constructor
  · refine ((holds_stores_storeAt m _ _).stores fun s hs => ?_).stores fun s hs => ?_
    · have := mem_tableStores hcnt hs
      omega
    · have := hss s hs
      omega
  · intro i hi
    refine (holds_tableStores hcnt _ _ i hi).stores fun s hs => ?_
    have := hss s hs
    omega

/-- After the primary stores the bytes of the primary copy are there. -/
lemma holds_prim (hv : ctx.Valid) (hcnt : schem.partCnt.toNat ≤ 128) (m : Image) {m' : Image}
    (hm : m' = stores m (storeAt ctx.primHdrOff (hdrBytes (savedPrim schem ctx)) ++
      tableStores schem ctx.primTabOff)) :
    Holds m' ctx.primHdrOff (hdrBytes (savedPrim schem ctx)) ∧ ∀ i < schem.partCnt.toNat,
      Holds m' (ctx.primTabOff + 128 * i) (entPacked (savedTable schem i)) := by
  obtain ⟨h0, h1, h2, h3, h4⟩ := hv.layout
  rw [hm, stores_append]
  constructor
  · refine (holds_stores_storeAt m _ _).stores fun s hs => ?_
    have := mem_tableStores hcnt hs
    rw [length_hdrBytes]
    omega
  · exact holds_tableStores hcnt _ _

/-- The secondary copy is there once its bytes are. -/
lemma copyAt_sec (hv : ctx.Valid) (h : schem.GptOk)
    (hwin : TableWindow sys ctx (savedSec schem ctx)) {m : Image}
    (hm : Holds m ctx.secHdrOff (hdrBytes (savedSec schem ctx)) ∧ ∀ i < schem.partCnt.toNat,
      Holds m (ctx.secTabOff + 128 * i) (entPacked (savedTable schem i))) :
    CopyAt sys m ctx (imgLastLba ctx) (savedSec schem ctx) (savedTable schem) := by
  refine (savedSec_ok hv h hwin).copyAt ?_ fun i hi => ?_
  · rw [savedSec_myLba, off_imgLastLba hv]
    exact hm.1
  · rw [off_savedSec_table hv]
    exact hm.2 i hi

/-- The primary copy is there once its bytes are. -/
lemma copyAt_prim (hv : ctx.Valid) (h : schem.GptOk)
    (hwin : TableWindow sys ctx (savedPrim schem ctx)) {m : Image}
    (hm : Holds m ctx.primHdrOff (hdrBytes (savedPrim schem ctx)) ∧ ∀ i < schem.partCnt.toNat,
      Holds m (ctx.primTabOff + 128 * i) (entPacked (savedTable schem i))) :
    CopyAt sys m ctx 1 (savedPrim schem ctx) (savedTable schem) := by
  refine (savedPrim_ok hv h hwin).copyAt ?_ fun i hi => ?_
  · rw [off_savedPrim]
    exact hm.1
  · rw [off_savedPrim_table]
    exact hm.2 i hi

/-- After a save the bytes of both copies are there. -/
lemma holds_save (hv : ctx.Valid) (hcnt : schem.partCnt.toNat ≤ 128) (m : Image) :
    (Holds (stores m (saveStores schem ctx)) ctx.primHdrOff (hdrBytes (savedPrim schem ctx)) ∧
      ∀ i < schem.partCnt.toNat, Holds (stores m (saveStores schem ctx))
        (ctx.primTabOff + 128 * i) (entPacked (savedTable schem i))) ∧
    (Holds (stores m (saveStores schem ctx)) ctx.secHdrOff (hdrBytes (savedSec schem ctx)) ∧
      ∀ i < schem.partCnt.toNat, Holds (stores m (saveStores schem ctx))
        (ctx.secTabOff + 128 * i) (entPacked (savedTable schem i))) := by
  obtain ⟨h0, h1, h2, h3, h4⟩ := hv.layout
  rw [saveStores_eq hv]
  constructor
  · exact holds_prim hv hcnt _ (stores_append _ _ _)
  · refine holds_sec hv hcnt m (fun s hs => ?_) rfl
    rcases List.mem_append.1 hs with hs | hs
    · have := mem_storeAt_hdrBytes hs
      omega
    · have := mem_tableStores hcnt hs
      omega

/-- **After a save the image carries both copies.** -/
theorem copies_of_save (hv : ctx.Valid) (h : schem.GptOk)
    (hwin : TableWindow sys ctx (savedPrim schem ctx))
    (hwin' : TableWindow sys ctx (savedSec schem ctx)) (m : Image) :
    CopyAt sys (stores m (saveStores schem ctx)) ctx 1 (savedPrim schem ctx) (savedTable schem) ∧
      CopyAt sys (stores m (saveStores schem ctx)) ctx (imgLastLba ctx) (savedSec schem ctx)
        (savedTable schem) := by
  obtain ⟨hprim, hsec⟩ := holds_save hv h.cnt m
  exact ⟨copyAt_prim hv h hwin hprim, copyAt_sec hv h hwin' hsec⟩

/-- Only a table without entries, at the beginning of a page, has an empty window. -/
lemma tableWindow_iff_of_entSz (hv : ctx.Valid) (sys : Sys) {hdr : GptHdr}
    (hcnt : hdr.partTableEntryCnt.toNat ≤ 128) (hes : 0 < hdr.partEntrySz.toNat)
    (hes' : hdr.partEntrySz.toNat < 2 ^ 32) : TableWindow sys ctx hdr ↔
      hdr.partTableEntryCnt ≠ 0 ∨ ¬ sys.pgSz.toNat ∣ ctx.off hdr.partTableLba := by
  have hpos := hv.sec_pos
  have hiff : 0 < (gptTableSzSecs ctx hdr).toNat ↔ hdr.partTableEntryCnt ≠ 0 := by
    rw [ne_eq, eq_zero_iff_toNat, toNat_tableSzSecs hpos hcnt hes', Nat.div_pos_iff]
    constructor
    · rintro ⟨-, h⟩ h0
      rw [h0, Nat.zero_mul] at h
      omega
    · intro h
      have := Nat.mul_pos (Nat.pos_of_ne_zero h) hes
      omega
  rw [TableWindow, Sys.Window, hiff, ImgCtx.off]

lemma tableWindow_iff (hv : ctx.Valid) (sys : Sys) {hdr : GptHdr}
    (hcnt : hdr.partTableEntryCnt.toNat ≤ 128) (hes : hdr.partEntrySz = gptPartEntSz) :
    TableWindow sys ctx hdr ↔
      hdr.partTableEntryCnt ≠ 0 ∨ ¬ sys.pgSz.toNat ∣ ctx.off hdr.partTableLba := by
  have h128 := toNat_of_entSz hes
  exact tableWindow_iff_of_entSz hv sys hcnt (by omega) (by omega)

/-- On a platform that serves the image a save succeeds, unless a window is empty. -/
lemma schemSaveGpt_of_serves (hv : ctx.Valid) (hs : sys.Serves ctx)
    (hcnt : schem.partCnt.toNat ≤ 128) (hwin : TableWindow sys ctx (savedPrim schem ctx))
    (hwin' : TableWindow sys ctx (savedSec schem ctx)) :
    schemSaveGpt sys schem ctx = (.ok, saveStores schem ctx) := by
  have h1 := gptPairSave_of_serves hv hs (imgLastLba_inside hv) (savedSec_tableInside hv hcnt) hwin'
    (savedTable schem)
  have h2 := gptPairSave_of_serves hv hs (savedPrim_inside hv schem) (savedPrim_tableInside hv hcnt)
    hwin (savedTable schem)
  rw [schemSaveGpt_eq, h1, h2]
  rfl

/-! ## The scheme that is loaded again -/

/-- What a GPT keeps of an entry: nothing, unless it is used. -/
def SchemPart.asGpt (part : SchemPart) : SchemPart :=
  if schemPartIsUsedGpt part then
    { SchemPart.zero with
      typeGuid := part.typeGuid
      uniqueGuid := part.uniqueGuid
      startLba := part.startLba
      endLba := part.endLba
      attr := part.attr
      name := part.name }
  else SchemPart.zero

/-- The scheme `schem'` is the GPT `schem`: the same identifier, usable sectors and number
of entries, the same used entries, and zeros for the unused ones. -/
structure Schem.SameGpt (schem schem' : Schem) : Prop where
  type : schem'.type = .gpt
  idGuid : schem'.idGuid = schem.idGuid
  firstUsableLba : schem'.firstUsableLba = schem.firstUsableLba
  lastUsableLba : schem'.lastUsableLba = schem.lastUsableLba
  partCnt : schem'.partCnt = schem.partCnt
  table : ∀ i < schem.partCnt.toNat, schem'.table i = (schem.table i).asGpt

lemma guidIsZero_zero : guidIsZero Guid.zero = true := by decide

lemma gptPartToSchem_saved {i : ℕ} (hi : i < schem.partCnt.toNat) :
    (if gptIsPartUsed (savedTable schem i) then gptPartToSchem (savedTable schem i)
      else SchemPart.zero) = (schem.table i).asGpt := by
  by_cases hu : schemPartIsUsedGpt (schem.table i) = true
  · have hs : savedTable schem i = gptPartFromSchem (schem.table i) := by
      rw [savedTable, gptTableFromSchem, if_pos ⟨hi, hu⟩]
    have hu' : gptIsPartUsed (savedTable schem i) = true := by
      rw [hs]
      exact hu
    rw [if_pos hu', hs, SchemPart.asGpt, if_pos hu]
    rfl
  · have hs : savedTable schem i = GptPartEnt.zero := by
      rw [savedTable, gptTableFromSchem, if_neg fun h => hu h.2, gptTableZero]
    have hu' : gptIsPartUsed (savedTable schem i) = false := by
      rw [hs, gptIsPartUsed, GptPartEnt.zero, guidIsZero_zero]
      rfl
    rw [hu', SchemPart.asGpt, if_neg hu]
    rfl

/-- A header with the fields of the scheme, over the saved table, stands for the scheme. -/
lemma sameGpt_schemOfCopy {hdr : GptHdr} (hcnt : hdr.partTableEntryCnt = schem.partCnt)
    (hguid : hdr.diskGuid = schem.idGuid) (hfirst : hdr.firstUsableLba = schem.firstUsableLba)
    (hlast : hdr.lastUsableLba = schem.lastUsableLba) (schem₀ : Schem) :
    schem.SameGpt (schemOfCopy schem₀ hdr (savedTable schem)) := by
  refine ⟨rfl, hguid, hfirst, hlast, hcnt, fun i hi => ?_⟩
  rw [← gptPartToSchem_saved hi]
  simp only [schemOfCopy, gptToSchem, hcnt, hi, if_true]

lemma schemOfCopy_savedPrim (schem schem₀ : Schem) (ctx : ImgCtx) :
    schem.SameGpt (schemOfCopy schem₀ (savedPrim schem ctx) (savedTable schem)) :=
  sameGpt_schemOfCopy (savedPrim_cnt _ _) (savedPrim_diskGuid _ _) (savedPrim_first _ _)
    (savedPrim_last _ _) schem₀

/-- Both copies stand for the scheme that was saved. -/
lemma schemOfCopy_savedSec (schem schem₀ : Schem) (ctx : ImgCtx) :
    schem.SameGpt (schemOfCopy schem₀ (savedSec schem ctx) (savedTable schem)) :=
  sameGpt_schemOfCopy (savedSec_cnt _ _) (savedSec_diskGuid _ _) (savedSec_first _ _)
    (savedSec_last _ _) schem₀

/-- The windows over both tables are not empty once a save on a platform with the same
pages has succeeded. -/
lemma windows_of_save (hv : ctx.Valid) (hpg : sys'.pgSz = sys.pgSz)
    (hcnt : schem.partCnt.toNat ≤ 128) (h : (schemSaveGpt sys' schem ctx).1 = .ok) :
    TableWindow sys ctx (savedPrim schem ctx) ∧ TableWindow sys ctx (savedSec schem ctx) := by
  obtain ⟨-, h1, h2⟩ := (schemSaveGpt_spec sys' schem ctx).2 h
  exact ⟨window_of_mapSecs hpg (savedPrim_tableInside hv hcnt) h2,
    window_of_mapSecs hpg (savedSec_tableInside hv hcnt) h1⟩

/-- **A save that succeeds leaves both copies**, whatever the platform it ran on. -/
theorem copies_of_schemSaveGpt (hv : ctx.Valid) (hpg : sys'.pgSz = sys.pgSz)
    (hok : schem.GptOk) (h : (schemSaveGpt sys' schem ctx).1 = .ok) (m : Image) :
    CopyAt sys (stores m (schemSaveGpt sys' schem ctx).2) ctx 1 (savedPrim schem ctx)
        (savedTable schem) ∧
      CopyAt sys (stores m (schemSaveGpt sys' schem ctx).2) ctx (imgLastLba ctx)
        (savedSec schem ctx) (savedTable schem) := by
  obtain ⟨hw1, hw2⟩ := windows_of_save hv hpg hok.cnt h
  rw [((schemSaveGpt_spec sys' schem ctx).2 h).1]
  exact copies_of_save hv hok hw1 hw2 m

/-! ## A small GPT -/

/-- A new GPT on the small image, with one partition. -/
def smallGpt : Schem :=
  (schemInitGpt ⟨.mbr, 0, Guid.zero, 0, 0, 0, 128, tableZero, .gpt⟩ smallCtx zeroRng).1.setPart 0
    { SchemPart.zero with
      typeGuid := gptPartTypeDef
      uniqueGuid := (guidCreate zeroRng).1
      startLba := 64
      endLba := 127 }

lemma smallGpt_cnt : smallGpt.partCnt = 128 := rfl

lemma smallGpt_ok : smallGpt.GptOk := by
  refine ⟨by decide, by decide, fun i _ hu => ?_⟩
  rcases Nat.eq_zero_or_pos i with rfl | hpos
  · exact ⟨⟨by decide, by decide, fun _ => by decide +revert⟩, nameChained_zero⟩
  · have hzero : smallGpt.table i = SchemPart.zero := by
      simp [smallGpt, Schem.setPart, show i ≠ 0 by omega, schemInitGpt, tableZero]
    rw [hzero] at hu
    exact absurd hu (by decide)

lemma smallGpt_saved (hctx : imgCtxValidate ctx = .ok) (hsz : ctx.imgSz.toNat < 2 ^ 63) :
    schemSaveGpt plainSys smallGpt ctx = (.ok, saveStores smallGpt ctx) := by
  have hv := (imgCtxValidate_ok_iff _).1 hctx
  refine schemSaveGpt_of_serves hv (plainSys_serves hsz) smallGpt_ok.cnt ?_ ?_
  · rw [tableWindow_iff hv _ smallGpt_ok.cnt rfl, savedPrim_cnt, smallGpt_cnt]
    exact Or.inl (by decide)
  · rw [tableWindow_iff hv _ smallGpt_ok.cnt rfl, savedSec_cnt, smallGpt_cnt]
    exact Or.inl (by decide)

end Partman

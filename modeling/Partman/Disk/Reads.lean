/-
# The bytes that a load reads

Every place that a load visits comes from the disk itself.  A header is looked for at two
or three sectors, and a header that is accepted says where a table is to be read and how
long its entries are; none of these numbers is compared with the size of the image.
-/
import Partman.Disk.BootRecord
import Partman.Disk.Saved
import Partman.Disk.TableReads
import Partman.Model.SchemCtx

namespace Partman

open Lib

variable {sys sys₁ : Sys} {ctx : ImgCtx} {m : Image} {lba cnt : Plba} {hdr : GptHdr}

/-! ## One read -/

/-- The length of the window that is mapped over the sectors. -/
def winLen (sys : Sys) (ctx : ImgCtx) (lba cnt : Plba) : Pu64 :=
  pageToByte sys (byteToPage sys (winBytes sys ctx lba cnt) true)

/-- A read stays where it belongs: its sectors lie inside the image, and the bytes that are
looked at are bytes of the image and of the window that is mapped. -/
structure SecRead.Stays (sys : Sys) (ctx : ImgCtx) (p : SecRead) : Prop where
  secs : ctx.Inside p.lba p.cnt
  image : (lbaToByte ctx p.lba).toNat + p.len ≤ ctx.imgSz.toNat
  window : (lbaToByte ctx p.lba).toNat + p.len ≤
    (winBase sys ctx p.lba).toNat + (winLen sys ctx p.lba p.cnt).toNat

/-- The end of the page in which the bytes before this one end. -/
def Sys.pageEnd (sys : Sys) (a : ℕ) : ℕ :=
  (a + sys.pgSz.toNat - 1) / sys.pgSz.toNat * sys.pgSz.toNat

lemma Sys.le_pageEnd (hpg : 0 < sys.pgSz.toNat) (a : ℕ) : a ≤ sys.pageEnd a := by
  have hlt := Nat.lt_div_mul_add hpg (a := a + sys.pgSz.toNat - 1)
  rw [Sys.pageEnd]
  omega

/-- The window over sectors of the image ends with the page of the last one. -/
lemma window_end (hs : sys.Serves ctx) (h : ctx.Inside lba cnt) :
    (winBase sys ctx lba).toNat + (winLen sys ctx lba cnt).toNat =
      sys.pageEnd (ctx.off lba + cnt.toNat * ctx.sec) := by
  have hpg := hs.pgSz_pos
  obtain ⟨hbase, -, htot⟩ := window_spec sys h
  have hup := (winBytes_up hs h).2
  have hsz := hs.imgSz_lt
  have hpg' := hs.pgSz_lt
  have hlen : (winLen sys ctx lba cnt).toNat =
      (byteToPage sys (winBytes sys ctx lba cnt) true).toNat * sys.pgSz.toNat :=
    toNat_mul_of_lt (by omega)
  have hoff : lba.toNat * ctx.sec = ctx.off lba := rfl
  have hdiv := Nat.div_add_mod (ctx.off lba) sys.pgSz.toNat
  rw [hlen, toNat_byteToPage_up hpg, htot, hbase, Sys.pageEnd, hoff, ← Nat.add_mul,
    Nat.add_comm (ctx.off lba / sys.pgSz.toNat), ← Nat.add_mul_div_left _ _ hpg]
  congr 2
  omega

/-- Sectors of the image that are read as far as they go at most. -/
lemma SecRead.stays_of_le (hs : sys.Serves ctx) {len : ℕ} (h : ctx.Inside lba cnt)
    (hlen : len ≤ cnt.toNat * ctx.sec) : (⟨lba, cnt, len⟩ : SecRead).Stays sys ctx := by
  have hend := Sys.le_pageEnd hs.pgSz_pos (ctx.off lba + cnt.toNat * ctx.sec)
  have hin : ctx.off lba + cnt.toNat * ctx.sec ≤ ctx.imgSz.toNat := by
    rw [ImgCtx.off, ← Nat.add_mul]
    exact h
  refine ⟨h, ?_, ?_⟩
  · show (lbaToByte ctx lba).toNat + len ≤ _
    rw [toNat_lbaToByte h.lt.1]
    exact le_trans (Nat.add_le_add_left hlen _) hin
  · show (lbaToByte ctx lba).toNat + len ≤ _
    rw [window_end hs h, toNat_lbaToByte h.lt.1]
    exact le_trans (Nat.add_le_add_left hlen _) hend

/-- The header of a copy is read in its own sector. -/
lemma hdrRead_stays_iff (hv : ctx.Valid) (hs : sys.Serves ctx) :
    (⟨lba, 1, gptHdrSz.toNat⟩ : SecRead).Stays sys ctx ↔ ctx.Inside lba 1 := by
  refine ⟨fun h => h.secs, fun h => SecRead.stays_of_le hs h ?_⟩
  have hsec := hv.sec_bounds
  rw [UInt64.toNat_one, Nat.one_mul]
  exact le_trans (show gptHdrSz.toNat ≤ 512 by decide) hsec.1

/-! ## The table -/

/-- The table of the header lies inside the image, and so does what the reader takes of its
last entry, which ends before the last page of the table does. -/
structure TableReadable (sys : Sys) (ctx : ImgCtx) (hdr : GptHdr) : Prop where
  inside : TableInside ctx hdr
  image : ctx.off hdr.partTableLba +
    ((hdr.partTableEntryCnt.toNat - 1) * hdr.partEntrySz.toNat + 93) ≤ ctx.imgSz.toNat
  window : ctx.off hdr.partTableLba +
    ((hdr.partTableEntryCnt.toNat - 1) * hdr.partEntrySz.toNat + 93) ≤
      sys.pageEnd (ctx.off hdr.partTableLba + (gptTableSzSecs ctx hdr).toNat * ctx.sec)

lemma gptTableReach_eq {len es : Pu32} (hlen : len.toNat ≤ 128) (hes : es.toNat < 2 ^ 32) :
    gptTableReach len es = (len.toNat - 1) * es.toNat + 93 := by
  have hle := Nat.mul_le_mul (show len.toNat - 1 ≤ 128 by omega) (Nat.le_of_lt hes)
  rw [gptTableReach, tableLen_min hlen, entOff_of_lt (by omega) (by omega)]

/-- The reach of a table is that of the bytes that the reader accesses. -/
lemma isGreatest_tableByte {len es : Pu32} (hlen : len.toNat ≤ 128) (hes : es.toNat < 2 ^ 32)
    (hpos : 0 < len.toNat) : IsGreatest {o | TableByte len es o} (gptTableReach len es - 1) := by
  rw [gptTableReach_eq hlen hes, Nat.add_sub_assoc (by decide)]
  refine ⟨(tableByte_iff hlen hes).2 ⟨len.toNat - 1, by omega, by omega, by omega⟩, fun o ho => ?_⟩
  obtain ⟨i, hi, -, h2⟩ := (tableByte_iff hlen hes).1 ho
  have := Nat.mul_le_mul_right es.toNat (show i ≤ len.toNat - 1 by omega)
  omega

lemma tableRead_stays_iff (hs : sys.Serves ctx) (hcnt : hdr.partTableEntryCnt.toNat ≤ 128)
    (hes : hdr.partEntrySz.toNat < 2 ^ 32) :
    (⟨hdr.partTableLba, gptTableSzSecs ctx hdr,
      gptTableReach hdr.partTableEntryCnt hdr.partEntrySz⟩ : SecRead).Stays sys ctx ↔
      TableReadable sys ctx hdr := by
  rw [gptTableReach_eq hcnt hes]
  constructor
  · rintro ⟨hin, himg, hwin⟩
    simp only [toNat_lbaToByte hin.lt.1, window_end hs hin] at himg hwin
    exact ⟨hin, himg, hwin⟩
  · rintro ⟨hin, himg, hwin⟩
    refine ⟨hin, ?_, ?_⟩ <;> simp only [toNat_lbaToByte hin.lt.1, window_end hs hin]
    · exact himg
    · exact hwin

/-- Where the reader stays in the sectors of the table, it is enough that these are there. -/
lemma TableInside.readable (hv : ctx.Valid) (hs : sys.Serves ctx) (h : TableInside ctx hdr)
    (hcnt : hdr.partTableEntryCnt.toNat ≤ 128) (hes : hdr.partEntrySz.toNat < 2 ^ 32)
    (hpos : 0 < hdr.partTableEntryCnt.toNat) (hreach : EntriesReach ctx hdr) :
    TableReadable sys ctx hdr := by
  rw [← tableRead_stays_iff hs hcnt hes]
  refine SecRead.stays_of_le hs h ?_
  have hlast := (tableStays_iff hv.sec_pos hcnt hes).2 hreach _
    (isGreatest_tableByte hcnt hes hpos).1
  omega

/-! ## One copy -/

/-- What the load of a copy reads of the table of its header. -/
def tableRead (ctx : ImgCtx) (hdr : GptHdr) : List SecRead :=
  if hdr.partTableEntryCnt = 0 then []
  else [⟨hdr.partTableLba, gptTableSzSecs ctx hdr,
    gptTableReach hdr.partTableEntryCnt hdr.partEntrySz⟩]

/-- The table as the load of a copy fills it, from an offset that may have wrapped. -/
def tableSeen (m : Image) (ctx : ImgCtx) (hdr : GptHdr) : GptTable :=
  gptTableRead m (lbaToByte ctx hdr.partTableLba).toNat gptTableZero hdr.partTableEntryCnt
    hdr.partEntrySz

/-- The table of a header is small enough to be looked at, and its window is not empty. -/
structure TableSpans (sys : Sys) (ctx : ImgCtx) (hdr : GptHdr) : Prop where
  cnt : hdr.partTableEntryCnt.toNat ≤ 128
  spans : sys.Spans ctx hdr.partTableLba (gptTableSzSecs ctx hdr)

/-- The table of every accepted header at the sector can be read, if any entry of it is. -/
def TablesReadable (sys : Sys) (m : Image) (ctx : ImgCtx) (lba : Plba) : Prop :=
  ∀ hdr, HdrAt m ctx lba hdr → TableSpans sys ctx hdr → hdr.partTableEntryCnt ≠ 0 →
    TableReadable sys ctx hdr

/-- The header at the sector is accepted, and its table passes the check. -/
structure Passes (sys : Sys) (m : Image) (ctx : ImgCtx) (lba : Plba) (hdr : GptHdr) : Prop
    extends HdrAt m ctx lba hdr, TableSpans sys ctx hdr where
  tableValid : gptTableIsValid hdr (tableSeen m ctx hdr) = true

/-- The copy at the sector is given up, without a fatal error. -/
def GivenUp (sys : Sys) (m : Image) (ctx : ImgCtx) (lba : Plba) : Prop :=
  ∀ hdr, HdrAt m ctx lba hdr →
    TableSpans sys ctx hdr ∧ gptTableIsValid hdr (tableSeen m ctx hdr) = false

lemma HdrAt.unique {hdr' : GptHdr} (h : HdrAt m ctx lba hdr) (h' : HdrAt m ctx lba hdr') :
    hdr = hdr' := h.read.symm.trans h'.read

/-- The table of the header is mapped. -/
def TableMapped (sys : Sys) (ctx : ImgCtx) (hdr : GptHdr) : Prop :=
  hdr.partTableEntryCnt.toNat ≤ 128 ∧
    mapSecs sys ctx hdr.partTableLba (gptTableSzSecs ctx hdr) ≠ none

lemma TableMapped.spans (h : TableMapped sys ctx hdr) : TableSpans sys ctx hdr := by
  refine ⟨h.1, ?_⟩
  by_contra hsp
  exact h.2 (mapSecs_of_not_spans hsp)

/-- What a load of one copy can do with a header that it has accepted. -/
inductive LoadOf (sys : Sys) (m : Image) (ctx : ImgCtx) (lba : Plba) (hdr : GptHdr)
    (l : GptPairLoad) : Prop
  | refused (hmap : ¬ TableMapped sys ctx hdr) (hres : l.res = .fatal)
      (hreads : l.reads = [⟨lba, 1, gptHdrSz.toNat⟩])
  | mapped (hmap : TableMapped sys ctx hdr) (hhdr : l.hdr = hdr)
      (hres : l.res = if unmapSecs sys (lbaToByte ctx hdr.partTableLba) ctx hdr.partTableLba
          (gptTableSzSecs ctx hdr) = .ok then
          (if gptTableIsValid hdr (tableSeen m ctx hdr) then .ok else .tableInv) else .fatal)
      (hreads : l.reads = ⟨lba, 1, gptHdrSz.toNat⟩ :: tableRead ctx hdr)

/-- **What a load of one copy reads**, and what it makes of it. -/
lemma loadCopy_cases (hv : ctx.Valid) (hs : sys.Serves ctx) (hin : ctx.Inside lba 1) :
    ((∀ hdr, ¬ HdrAt m ctx lba hdr) ∧ (loadCopy sys m ctx lba).res = .hdrInv ∧
        (loadCopy sys m ctx lba).reads = [⟨lba, 1, gptHdrSz.toNat⟩]) ∨
      ∃ hdr, HdrAt m ctx lba hdr ∧ LoadOf sys m ctx lba hdr (loadCopy sys m ctx lba) := by
  have hmap := mapSecs_of_serves hv hs hin (window_one sys ctx lba)
  have hun := unmapSecs_of_serves hv hs hin (window_one sys ctx lba)
  have hoff := hin.toNat_off
  by_cases hex : ∃ hdr, HdrAt m ctx lba hdr
  · obtain ⟨hdr, h⟩ := hex
    refine Or.inr ⟨hdr, h, ?_⟩
    by_cases hcnt : hdr.partTableEntryCnt.toNat ≤ 128
    · have hle : ¬ hdr.partTableEntryCnt > gptMaxPartCnt :=
        UInt64.not_lt.2 (UInt64.le_iff_toNat_le.2 hcnt)
      rcases mapSecs_cases sys ctx hdr.partTableLba (gptTableSzSecs ctx hdr) with hm | hm
      · refine .refused (fun hmp => hmp.2 hm) ?_ ?_ <;> unfold loadCopy gptPairLoad <;>
          simp [hmap, hoff, h.present, h.read, h.valid, hle, gptPairLoadTable, hm, gptPairUnmap,
            hun]
      · have hdef : loadCopy sys m ctx lba =
            ⟨if unmapSecs sys (lbaToByte ctx hdr.partTableLba) ctx hdr.partTableLba
                (gptTableSzSecs ctx hdr) = .ok then
                (if gptTableIsValid hdr (tableSeen m ctx hdr) then .ok else .tableInv) else .fatal,
              hdr, tableSeen m ctx hdr, ⟨lba, 1, gptHdrSz.toNat⟩ :: tableRead ctx hdr⟩ := by
          rw [loadCopy, gptPairLoad]
          simp only [hmap, hoff, h.present, h.read, h.valid, hle, gptPairLoadTable, hm,
            gptPairUnmap, hun, tableSeen]
          rfl
        rw [hdef]
        exact .mapped ⟨hcnt, by rw [hm]; exact Option.some_ne_none _⟩ rfl rfl rfl
    · have hgt : hdr.partTableEntryCnt > gptMaxPartCnt :=
        UInt64.lt_iff_toNat_lt.2 (Nat.lt_of_not_le hcnt)
      refine .refused (fun hmp => hcnt hmp.1) ?_ ?_ <;> unfold loadCopy gptPairLoad <;>
        simp [hmap, hoff, h.present, h.read, h.valid, hgt]
  · have hno : ∀ hdr, ¬ HdrAt m ctx lba hdr := fun hdr h => hex ⟨hdr, h⟩
    refine Or.inl ⟨hno, gptPairLoad_hdrInv hv hs hin hno, ?_⟩
    rw [loadCopy, gptPairLoad]
    simp only [hmap, hoff]
    by_cases hp : gptIsPresent m (ctx.off lba) = true
    · have hnv : gptHdrIsValid (gptHdrRead m (ctx.off lba)) lba = false := by
        by_contra hval
        exact hno _ ⟨hp, rfl, by simpa using hval⟩
      simp [hp, hnv]
    · simp [hp]

/-- A copy that loads passes. -/
lemma Passes.of_ok (hv : ctx.Valid) (hs : sys.Serves ctx) (hin : ctx.Inside lba 1)
    (h : (loadCopy sys m ctx lba).res = .ok) :
    Passes sys m ctx lba (loadCopy sys m ctx lba).hdr := by
  rcases loadCopy_cases hv hs hin with ⟨-, hres, -⟩ | ⟨hdr, hhdr, hl⟩
  · rw [hres] at h
    exact absurd h (by decide)
  · cases hl with
    | refused _ hres =>
      rw [hres] at h
      exact absurd h (by decide)
    | mapped hmap he hres =>
      rw [he]
      refine ⟨hhdr, hmap.spans, ?_⟩
      rw [hres] at h
      by_contra hval
      split_ifs at h

/-- A copy that does not load, and is not fatal, is given up. -/
lemma GivenUp.of_bad (hv : ctx.Valid) (hs : sys.Serves ctx) (hin : ctx.Inside lba 1)
    (h : (loadCopy sys m ctx lba).res ≠ .ok) (hf : (loadCopy sys m ctx lba).res ≠ .fatal) :
    GivenUp sys m ctx lba := by
  intro hdr' hhdr'
  rcases loadCopy_cases hv hs hin with ⟨hno, -⟩ | ⟨hdr, hhdr, hl⟩
  · exact absurd hhdr' (hno hdr')
  · obtain rfl := hhdr.unique hhdr'
    cases hl with
    | refused _ hres => exact absurd hres hf
    | mapped hmap _ hres =>
      refine ⟨hmap.spans, ?_⟩
      rw [hres] at h hf
      by_contra hval
      simp only [Bool.not_eq_false] at hval
      split_ifs at h hf <;> simp_all

/-- The load of a copy reads inside the image when the tables are there. -/
lemma loadCopy_reads_stay (hv : ctx.Valid) (hs : sys.Serves ctx) (hin : ctx.Inside lba 1)
    (htab : TablesReadable sys m ctx lba) :
    ∀ p ∈ (loadCopy sys m ctx lba).reads, p.Stays sys ctx := by
  have hself := (hdrRead_stays_iff hv hs).2 hin
  rcases loadCopy_cases hv hs hin with ⟨-, -, hreads⟩ | ⟨hdr, hhdr, hl⟩
  · rw [hreads]
    simpa using hself
  · cases hl with
    | refused _ _ hreads =>
      rw [hreads]
      simpa using hself
    | mapped hmap _ _ hreads =>
      rw [hreads, tableRead]
      split_ifs with h0
      · simpa using hself
      · have hread := (tableRead_stays_iff hs hmap.1 hhdr.bounded.partEntrySz).2
          (htab hdr hhdr hmap.spans h0)
        simpa [hself] using hread

/-! ## The whole load -/

/-- What the check for a protective MBR does: nothing, or it makes one, of a new MBR or of
the one beside the GPT. -/
lemma schemCtxCheckProt_cases (ctx : ImgCtx) (l : CtxLoad) :
    (schemCtxCheckProt ctx l = l ∧ (l.sc.schemGpt = none ∨
        ∃ mbr, l.sc.schemMbr = some mbr ∧ schemMbrIsProt mbr = true)) ∨
      ∃ mbr, ((l.sc.schemMbr = none ∧ mbr = schemNew .mbr) ∨
          (l.sc.schemMbr = some mbr ∧ schemMbrIsProt mbr = false)) ∧ l.sc.schemGpt ≠ none ∧
        schemCtxCheckProt ctx l = { l with
          sc := l.sc.setSchem .mbr (some (schemMbrSetProt (schemInitMbr mbr ctx l.rng).1))
          rng := (schemInitMbr mbr ctx l.rng).2 } := by
  rw [schemCtxCheckProt]
  split
  · next hgpt => exact Or.inl ⟨rfl, Or.inl hgpt⟩
  · next hgpt hmbr => exact Or.inr ⟨schemNew .mbr, Or.inl ⟨hmbr, rfl⟩, by simp [hgpt], rfl⟩
  · next mbr hgpt hmbr =>
    split
    · next hp => exact Or.inl ⟨rfl, Or.inr ⟨mbr, hmbr, hp⟩⟩
    · next hp => exact Or.inr ⟨mbr, Or.inr ⟨hmbr, by simpa using hp⟩, by simp [hgpt], rfl⟩

@[simp] lemma schemCtxCheckProt_res (ctx : ImgCtx) (l : CtxLoad) :
    (schemCtxCheckProt ctx l).res = l.res := by
  rcases schemCtxCheckProt_cases ctx l with ⟨he, -⟩ | ⟨mbr, -, -, he⟩ <;> rw [he]

@[simp] lemma schemCtxCheckProt_reads (ctx : ImgCtx) (l : CtxLoad) :
    (schemCtxCheckProt ctx l).reads = l.reads := by
  rcases schemCtxCheckProt_cases ctx l with ⟨he, -⟩ | ⟨mbr, -, -, he⟩ <;> rw [he]

@[simp] lemma schemCtxCheckProt_schemGpt (ctx : ImgCtx) (l : CtxLoad) :
    (schemCtxCheckProt ctx l).sc.schemGpt = l.sc.schemGpt := by
  rcases schemCtxCheckProt_cases ctx l with ⟨he, -⟩ | ⟨mbr, -, -, he⟩ <;> rw [he]
  rfl

/-- A load that succeeds has gone through all its passes. -/
lemma schemCtxLoad_passes {sc : SchemCtx} {r : Rng} (h : (schemCtxLoad sys m sc ctx r).res = .ok) :
    schemCtxLoad sys m sc ctx r = schemCtxCheckProt ctx (schemCtxLoadOne sys m ctx .gpt
      (schemCtxLoadOne sys m ctx .mbr ⟨.ok, schemCtxReset sc false, r, []⟩)) := by
  unfold schemCtxLoad at h ⊢
  simp only at h ⊢
  split_ifs at h ⊢ with h1 h2
  · exact absurd (h1.symm.trans h) (by decide)
  · exact absurd (h2.symm.trans h) (by decide)
  · rfl

/-- The reads of the two copies. -/
lemma schemLoadGpt_reads (sys : Sys) (m : Image) (schem : Schem) (ctx : ImgCtx) :
    (schemLoadGpt sys m schem ctx).2.2 =
      if (loadCopy sys m ctx 1).res = .fatal then (loadCopy sys m ctx 1).reads
      else (loadCopy sys m ctx 1).reads ++ (loadCopy sys m ctx (secLba sys m ctx)).reads := by
  have hdef : (schemLoadGpt sys m schem ctx).2.2 = (gptLoad sys m Gpt.zero ctx).2.2 := by
    rw [schemLoadGpt]
    simp only
    split <;> rfl
  rw [hdef, gptLoad_eq]
  split_ifs <;> rfl

/-- The reads of the boot record and of the GPT. -/
lemma schemCtxLoad_reads (hv : ctx.Valid) (hs : sys.Serves ctx) (m : Image) (sc : SchemCtx)
    (r : Rng) : (schemCtxLoad sys m sc ctx r).reads =
      ⟨0, 1, mbrSz.toNat⟩ :: (schemLoadGpt sys m (schemNew .gpt) ctx).2.2 := by
  have hgpt : ∀ l : CtxLoad, (schemCtxLoadOne sys m ctx .gpt l).reads =
      l.reads ++ (schemLoadGpt sys m (schemNew .gpt) ctx).2.2 := by
    intro l
    rw [schemCtxLoadOne]
    simp only [funcsLoad]
    split <;> rfl
  have hmbr : ∀ l : CtxLoad, l.res = .ok → (schemCtxLoadOne sys m ctx .mbr l).res = .ok ∧
      (schemCtxLoadOne sys m ctx .mbr l).reads = l.reads ++ [⟨0, 1, mbrSz.toNat⟩] := by
    intro l hl
    rw [schemCtxLoadOne]
    simp only [funcsLoad, schemLoadMbr_of_serves hv hs, byteToLba_mbrSz hv]
    cases mbrIsPresent m 0 <;> exact ⟨hl, rfl⟩
  obtain ⟨hres, hreads⟩ := hmbr ⟨.ok, schemCtxReset sc false, r, []⟩ rfl
  rw [schemCtxLoad]
  rw [if_neg (by rw [hres]; decide)]
  simp only
  split
  · rw [hgpt, hreads]
    rfl
  · rw [schemCtxCheckProt_reads, hgpt, hreads]
    rfl

/-- The places that the headers name lie inside the image, as far as a load follows them. -/
structure LoadInside (sys : Sys) (m : Image) (ctx : ImgCtx) : Prop where
  /-- The table of an accepted primary header. -/
  prim : TablesReadable sys m ctx 1
  /-- The other header that a primary copy names, and its table. -/
  alt : ∀ hdr, Passes sys m ctx 1 hdr →
    ctx.Inside hdr.altLba 1 ∧ TablesReadable sys m ctx hdr.altLba
  /-- Without a primary copy, the table of an accepted header at the last sector. -/
  last : GivenUp sys m ctx 1 → TablesReadable sys m ctx (imgLastLba ctx)

/-- A load reads inside the image when the headers name places there. -/
lemma schemCtxLoad_stays (hv : ctx.Valid) (hs : sys.Serves ctx) (h : LoadInside sys m ctx)
    (sc : SchemCtx) (r : Rng) :
    ∀ p ∈ (schemCtxLoad sys m sc ctx r).reads, p.Stays sys ctx := by
  have hprim := loadCopy_reads_stay hv hs (inside_one hv) h.prim
  intro p hp
  rw [schemCtxLoad_reads hv hs, schemLoadGpt_reads] at hp
  rcases List.mem_cons.1 hp with rfl | hp
  · refine SecRead.stays_of_le hs (inside_zero hv) ?_
    have hsec := hv.sec_bounds.1
    rw [UInt64.toNat_one, Nat.one_mul]
    exact hsec
  split_ifs at hp with hf
  · exact hprim p hp
  rcases List.mem_append.1 hp with hp | hp
  · exact hprim p hp
  by_cases hok : (loadCopy sys m ctx 1).res = .ok
  · obtain ⟨hin, htab⟩ := h.alt _ (Passes.of_ok hv hs (inside_one hv) hok)
    rw [secLba_of_ok hok] at hp
    exact loadCopy_reads_stay hv hs hin htab p hp
  · rw [secLba_of_not_ok hok] at hp
    exact loadCopy_reads_stay hv hs (imgLastLba_inside hv)
      (h.last (GivenUp.of_bad hv hs (inside_one hv) hok hf)) p hp

/-! ## A platform that grants everything -/

/-- The platform with these pages that grants every window, inside the image or not. -/
def Sys.grantAll (pgSz : Pu64) : Sys := ⟨pgSz, fun _ _ => true, fun _ _ => true, true, fun _ => 0⟩

lemma grantAll_serves (hs : sys.Serves ctx) : (Sys.grantAll sys.pgSz).Serves ctx :=
  ⟨hs.imgSz_lt, hs.pgSz_pos, hs.pgSz_lt, fun _ _ _ _ _ => rfl, fun _ _ _ _ => rfl⟩

/-- A window that is not empty is granted. -/
lemma mapSecs_grantAll {cnt : Plba} (hs : sys.Serves ctx) (hcnt : cnt.toNat * ctx.sec < 2 ^ 40)
    (h : sys.Spans ctx lba cnt) (hsec : 0 < ctx.sec) :
    mapSecs (Sys.grantAll sys.pgSz) ctx lba cnt = some (lbaToByte ctx lba) := by
  have hs' := grantAll_serves hs
  have hpg := hs.pgSz_pos
  have hpg' := hs.pgSz_lt
  have halign := (winBase_spec (Sys.grantAll sys.pgSz) ctx lba).2
  have hmod := Nat.mod_lt (lbaToByte ctx lba).toNat hpg
  have hpgEq : (Sys.grantAll sys.pgSz).pgSz = sys.pgSz := rfl
  rw [hpgEq] at halign
  have htot : (winBytes (Sys.grantAll sys.pgSz) ctx lba cnt).toNat =
      cnt.toNat * ctx.sec + (lbaToByte ctx lba).toNat % sys.pgSz.toNat := by
    rw [winBytes, toNat_add_of_lt (by rw [toNat_lbaToByte (by omega), halign]; omega),
      toNat_lbaToByte (by omega), halign]
  have hpos : 0 < cnt.toNat * ctx.sec + (lbaToByte ctx lba).toNat % sys.pgSz.toNat := by
    rcases h with h | h
    · exact Nat.add_pos_left (Nat.mul_pos h hsec) _
    · rw [Nat.dvd_iff_mod_eq_zero] at h
      omega
  obtain ⟨hlo, hhi⟩ := byteToPage_up hs'.pgSz_pos (winBytes (Sys.grantAll sys.pgSz) ctx lba cnt)
  rw [hpgEq, htot] at hlo hhi
  -- at most two pages if they are large
  obtain ⟨q, hq⟩ : ∃ q, q = (byteToPage (Sys.grantAll sys.pgSz)
    (winBytes (Sys.grantAll sys.pgSz) ctx lba cnt) true).toNat := ⟨_, rfl⟩
  rw [← hq] at hlo hhi
  have hlt : q * sys.pgSz.toNat < 2 ^ 64 := by
    rcases Nat.lt_or_ge q 3 with h3 | h3
    · have := Nat.mul_le_mul_right sys.pgSz.toNat (show q ≤ 2 by omega)
      omega
    · have := Nat.mul_le_mul_right sys.pgSz.toNat h3
      omega
  have hlen : (pageToByte (Sys.grantAll sys.pgSz) (byteToPage (Sys.grantAll sys.pgSz)
      (winBytes (Sys.grantAll sys.pgSz) ctx lba cnt) true)).toNat = q * sys.pgSz.toNat := by
    rw [hq]
    exact toNat_mul_of_lt (by rw [← hq]; exact hlt)
  rw [mapSecs_eq, if_pos, UInt64.add_comm, UInt64.sub_add_cancel]
  rw [Sys.mmap, Bool.and_eq_true, bne_iff_ne]
  refine ⟨fun h0 => ?_, rfl⟩
  rw [eq_zero_iff_toNat] at h0
  omega

/-- The table of a header that has been read is not long. -/
lemma tableSz_lt (hv : ctx.Valid) (h : HdrAt m ctx lba hdr)
    (hcnt : hdr.partTableEntryCnt.toNat ≤ 128) :
    (gptTableSzSecs ctx hdr).toNat * ctx.sec < 2 ^ 40 := by
  have hes := h.bounded.partEntrySz
  have hsec := hv.sec_bounds.2
  have hmul := Nat.mul_le_mul hcnt (Nat.le_of_lt hes)
  have := Nat.div_mul_le_self
    (hdr.partTableEntryCnt.toNat * hdr.partEntrySz.toNat + ctx.sec - 1) ctx.sec
  rw [toNat_tableSzSecs hv.sec_pos hcnt hes]
  omega

lemma TableSpans.mapped (hv : ctx.Valid) (hs : sys.Serves ctx) (h : HdrAt m ctx lba hdr)
    (hsp : TableSpans sys ctx hdr) : TableMapped (Sys.grantAll sys.pgSz) ctx hdr := by
  have hsec := hv.sec_pos
  refine ⟨hsp.cnt, ?_⟩
  rw [mapSecs_grantAll hs (tableSz_lt hv h hsp.cnt) hsp.spans hsec]
  exact Option.some_ne_none _

/-- What the platform that grants everything makes of an accepted header. -/
lemma loadCopy_grantAll (hv : ctx.Valid) (hs : sys.Serves ctx) (hin : ctx.Inside lba 1)
    (h : HdrAt m ctx lba hdr) (hsp : TableSpans sys ctx hdr) :
    (loadCopy (Sys.grantAll sys.pgSz) m ctx lba).hdr = hdr ∧
      (loadCopy (Sys.grantAll sys.pgSz) m ctx lba).res =
        (if gptTableIsValid hdr (tableSeen m ctx hdr) then .ok else .tableInv) ∧
      (loadCopy (Sys.grantAll sys.pgSz) m ctx lba).reads =
        ⟨lba, 1, gptHdrSz.toNat⟩ :: tableRead ctx hdr := by
  rcases loadCopy_cases hv (grantAll_serves hs) hin with ⟨hno, -⟩ | ⟨hdr', hhdr', hl⟩
  · exact absurd h (hno hdr)
  · obtain rfl := h.unique hhdr'
    cases hl with
    | refused hmap => exact absurd (hsp.mapped hv hs h) hmap
    | mapped _ hhdr hres hreads => exact ⟨hhdr, hres, hreads⟩

lemma loadCopy_reads_self (hv : ctx.Valid) (hs : sys.Serves ctx) (m : Image) (lba : Plba) :
    ⟨lba, 1, gptHdrSz.toNat⟩ ∈ (loadCopy (Sys.grantAll sys.pgSz) m ctx lba).reads := by
  have hsec := hv.sec_bounds
  have hmap : mapSecs (Sys.grantAll sys.pgSz) ctx lba 1 = some (lbaToByte ctx lba) := by
    refine mapSecs_grantAll hs ?_ (Or.inl (by decide)) hv.sec_pos
    rw [UInt64.toNat_one]
    omega
  rw [loadCopy, gptPairLoad, hmap]
  simp only
  split_ifs <;> simp

lemma GivenUp.grantAll (hv : ctx.Valid) (hs : sys.Serves ctx) (hin : ctx.Inside lba 1)
    (h : GivenUp sys m ctx lba) :
    (loadCopy (Sys.grantAll sys.pgSz) m ctx lba).res ≠ .ok ∧
      (loadCopy (Sys.grantAll sys.pgSz) m ctx lba).res ≠ .fatal := by
  rcases loadCopy_cases hv (grantAll_serves hs) hin with ⟨-, hres, -⟩ | ⟨hdr, hhdr, -⟩
  · rw [hres]
    decide
  · obtain ⟨hsp, hval⟩ := h hdr hhdr
    rw [(loadCopy_grantAll hv hs hin hhdr hsp).2.1, hval]
    decide

lemma TableReadable.congr (hpg : sys₁.pgSz = sys.pgSz) (h : TableReadable sys ctx hdr) :
    TableReadable sys₁ ctx hdr := by
  refine ⟨h.inside, h.image, ?_⟩
  have hwin := h.window
  rwa [Sys.pageEnd, ← hpg] at hwin

lemma TableSpans.congr (hpg : sys₁.pgSz = sys.pgSz) (h : TableSpans sys ctx hdr) :
    TableSpans sys₁ ctx hdr := by
  refine ⟨h.cnt, ?_⟩
  have hspans := h.spans
  rwa [Sys.Spans, ← hpg] at hspans

lemma TablesReadable.congr (hpg : sys₁.pgSz = sys.pgSz) (h : TablesReadable sys m ctx lba) :
    TablesReadable sys₁ m ctx lba :=
  fun hdr hhdr hsp h0 => (h hdr hhdr (hsp.congr hpg.symm) h0).congr hpg

/-- Where the platform that grants everything reads inside the image, the tables are there. -/
lemma TablesReadable.of_reads (hv : ctx.Valid) (hs : sys.Serves ctx) (hin : ctx.Inside lba 1)
    (h : ∀ p ∈ (loadCopy (Sys.grantAll sys.pgSz) m ctx lba).reads,
      p.Stays (Sys.grantAll sys.pgSz) ctx) :
    TablesReadable sys m ctx lba := by
  have hpg : sys.pgSz = (Sys.grantAll sys.pgSz).pgSz := rfl
  intro hdr hhdr hsp h0
  refine TableReadable.congr hpg ?_
  rw [← tableRead_stays_iff (grantAll_serves hs) hsp.cnt hhdr.bounded.partEntrySz]
  refine h _ ?_
  rw [(loadCopy_grantAll hv hs hin hhdr hsp).2.2, tableRead, if_neg h0]
  simp

/-- The conditions on the headers only depend on the size of a page. -/
lemma LoadInside.congr (hpg : sys₁.pgSz = sys.pgSz) (h : LoadInside sys m ctx) :
    LoadInside sys₁ m ctx := by
  refine ⟨h.prim.congr hpg, fun hdr hp => ?_, fun hg => ?_⟩
  · obtain ⟨h1, h2⟩ := h.alt hdr ⟨hp.toHdrAt, hp.toTableSpans.congr hpg.symm, hp.tableValid⟩
    exact ⟨h1, h2.congr hpg⟩
  · exact (h.last fun hdr hhdr => ⟨(hg hdr hhdr).1.congr hpg.symm, (hg hdr hhdr).2⟩).congr hpg

/-- **A load reads inside the image, and inside of what it has mapped, exactly when the headers
that it follows name places there** and entries that end there. -/
theorem schemCtxLoad_inside_iff (hctx : imgCtxValidate ctx = .ok) (hs : sys.Serves ctx)
    (m : Image) (sc : SchemCtx) (r : Rng) :
    (∀ sys₁ : Sys, sys₁.Serves ctx → sys₁.pgSz = sys.pgSz →
      ∀ p ∈ (schemCtxLoad sys₁ m sc ctx r).reads, p.Stays sys₁ ctx) ↔ LoadInside sys m ctx := by
  have hv := (imgCtxValidate_ok_iff ctx).1 hctx
  constructor
  · intro h
    have hall := h (Sys.grantAll sys.pgSz) (grantAll_serves hs) rfl
    rw [schemCtxLoad_reads hv (grantAll_serves hs), schemLoadGpt_reads] at hall
    have hprim : TablesReadable sys m ctx 1 := by
      refine TablesReadable.of_reads hv hs (inside_one hv) fun p hp => hall p ?_
      refine List.mem_cons_of_mem _ ?_
      split_ifs
      · exact hp
      · exact List.mem_append_left _ hp
    have hsec : (loadCopy (Sys.grantAll sys.pgSz) m ctx 1).res ≠ .fatal →
        ∀ p ∈ (loadCopy (Sys.grantAll sys.pgSz) m ctx
          (secLba (Sys.grantAll sys.pgSz) m ctx)).reads, p.Stays (Sys.grantAll sys.pgSz) ctx := by
      intro hf p hp
      refine hall p (List.mem_cons_of_mem _ ?_)
      rw [if_neg hf]
      exact List.mem_append_right _ hp
    refine ⟨hprim, fun hdr hp => ?_, fun hg => ?_⟩
    · -- a primary copy that passes sends the load to its alternate header
      obtain ⟨hhdr, hres, -⟩ := loadCopy_grantAll hv hs (inside_one hv) hp.toHdrAt hp.toTableSpans
      rw [hp.tableValid] at hres
      have hreads := hsec (by rw [hres]; decide)
      rw [secLba_of_ok hres, hhdr] at hreads
      have hin := (hreads _ (loadCopy_reads_self hv hs m hdr.altLba)).secs
      exact ⟨hin, TablesReadable.of_reads hv hs hin hreads⟩
    · -- one that is given up sends it to the last sector
      obtain ⟨hok, hf⟩ := hg.grantAll hv hs (inside_one hv)
      have hreads := hsec hf
      rw [secLba_of_not_ok hok] at hreads
      exact TablesReadable.of_reads hv hs (imgLastLba_inside hv) hreads
  · intro h sys₁ hs₁ hpg
    exact schemCtxLoad_stays hv hs₁ (h.congr hpg) sc r

/-- The table of a copy that has been saved can be read. -/
lemma CopyAt.readable {table : GptTable} (hv : ctx.Valid) (hs : sys.Serves ctx)
    (h : CopyAt sys₁ m ctx lba hdr table) : TablesReadable sys m ctx lba := by
  intro hdr' hhdr' _ h0
  obtain rfl := h.toHdrAt.unique hhdr'
  have hes : hdr.partEntrySz.toNat = 128 := by rw [h.entrySz]; rfl
  refine h.tableInside.readable hv hs h.cnt (by omega) ?_ (Or.inr (by omega))
  rw [Nat.pos_iff_ne_zero]
  exact fun h' => h0 (eq_zero_iff_toNat.2 h')

/-- The image of a saved GPT is read inside, through both of its copies. -/
theorem schemCtxLoad_inside_iff_small :
    let m := stores zeroImage (schemSaveGpt plainSys smallGpt smallCtx).2
    LoadInside plainSys m smallCtx ∧
      ∀ sys₁ : Sys, sys₁.Serves smallCtx → sys₁.pgSz = plainSys.pgSz →
        ∀ p ∈ (schemCtxLoad sys₁ m schemCtxInit smallCtx zeroRng).reads,
          p.Stays sys₁ smallCtx := by
  have hv := (imgCtxValidate_ok_iff _).1 smallCtx_valid
  have hsave : (schemSaveGpt plainSys smallGpt smallCtx).1 = .ok := by
    rw [smallGpt_saved smallCtx_valid (by decide)]
  obtain ⟨hprim, hsec⟩ := copies_of_schemSaveGpt hv rfl smallGpt_ok hsave zeroImage
  intro m
  have hinside : LoadInside plainSys m smallCtx := by
    refine ⟨hprim.readable hv smallCtx_serves, fun hdr hp => ?_,
      fun _ => hsec.readable hv smallCtx_serves⟩
    obtain rfl := hprim.toHdrAt.unique hp.toHdrAt
    exact ⟨imgLastLba_inside hv, hsec.readable hv smallCtx_serves⟩
  exact ⟨hinside, (schemCtxLoad_inside_iff smallCtx_valid smallCtx_serves m _ _).2 hinside⟩

/-- 4096 sectors of 512 bytes. -/
def largeCtx : ImgCtx := imgCtxInit 2097152

lemma largeCtx_valid : imgCtxValidate largeCtx = .ok := by decide

/-- A GPT saved on the larger image and cut off at the size of the smaller one: the load
follows the primary header to the sector of the header that was lost. -/
theorem schemCtxLoad_truncated :
    (schemSaveGpt plainSys smallGpt largeCtx).1 = .ok ∧ plainSys.Serves smallCtx ∧
    ∃ p ∈ (schemCtxLoad plainSys (stores zeroImage (schemSaveGpt plainSys smallGpt largeCtx).2)
        schemCtxInit smallCtx zeroRng).reads, ¬ smallCtx.Inside p.lba p.cnt := by
  have hv := (imgCtxValidate_ok_iff _).1 smallCtx_valid
  have hv' := (imgCtxValidate_ok_iff _).1 largeCtx_valid
  have hs : plainSys.Serves smallCtx := smallCtx_serves
  have hsave : (schemSaveGpt plainSys smallGpt largeCtx).1 = .ok := by
    rw [smallGpt_saved largeCtx_valid (by decide)]
  refine ⟨hsave, hs, ?_⟩
  obtain ⟨m, hm⟩ : ∃ m, m = stores zeroImage (schemSaveGpt plainSys smallGpt largeCtx).2 :=
    ⟨_, rfl⟩
  have hprim := (copies_of_schemSaveGpt hv' rfl smallGpt_ok hsave zeroImage).1
  rw [← hm] at hprim ⊢
  -- the primary copy lies in both images, at the same place
  have hcopy : CopyAt plainSys m smallCtx 1 (savedPrim smallGpt largeCtx) (savedTable smallGpt) :=
    ⟨⟨hprim.present, hprim.read, hprim.valid⟩, inside_one hv, hprim.cnt, hprim.entrySz,
      tableInside_of_off hv hprim.cnt hprim.entrySz (by rw [savedPrim_partTableLba]; decide),
      hprim.window, hprim.entries, hprim.tableValid⟩
  have hl : Loaded (loadCopy plainSys m smallCtx 1) _ _ := hcopy.loaded hv hs _ _
  refine ⟨⟨(savedPrim smallGpt largeCtx).altLba, 1, gptHdrSz.toNat⟩, ?_, ?_⟩
  · rw [schemCtxLoad_reads hv hs, schemLoadGpt_reads, if_neg (by rw [hl.res]; decide),
      secLba_of_ok hl.res, hl.hdrEq]
    exact List.mem_cons_of_mem _ (List.mem_append_right _ (loadCopy_reads_self hv hs m _))
  · rw [savedPrim_altLba, ImgCtx.Inside]
    decide

end Partman

/-
# Tables of other programs

The on-disk format of a GPT, in terms of the bytes of the image, against the reader.  The
reader accepts every header of the format.  Of an entry it takes the name units from
overlapping offsets, and the checksum of the table over what it has taken, so a table is
accepted and shown as it is only where the overlap makes no difference.
-/
import Partman.Disk.BootRecord
import Partman.Disk.Damage

namespace Partman

open Lib

variable {sys : Sys} {ctx : ImgCtx} {m : Image} {lba : Plba}

/-! ## The format -/

/-- The number in `w` bytes from an offset on. -/
def numAt (m : Image) (a w : ℕ) : ℕ := ofLe (loadAt m a w)

/-- The number of entries of the copy. -/
def diskCnt (m : Image) (ctx : ImgCtx) (lba : Plba) : ℕ := numAt m (ctx.off lba + 80) 4

/-- The size of an entry of the copy. -/
def diskEntSz (m : Image) (ctx : ImgCtx) (lba : Plba) : ℕ := numAt m (ctx.off lba + 84) 4

/-- The first sector of the table of the copy. -/
def diskTableLba (m : Image) (ctx : ImgCtx) (lba : Plba) : ℕ := numAt m (ctx.off lba + 72) 8

/-- The offset of the table of the copy. -/
def diskTableOff (m : Image) (ctx : ImgCtx) (lba : Plba) : ℕ := diskTableLba m ctx lba * ctx.sec

/-- The offset of an entry of the copy. -/
def diskEntOff (m : Image) (ctx : ImgCtx) (lba : Plba) (i : ℕ) : ℕ :=
  diskTableOff m ctx lba + i * diskEntSz m ctx lba

/-- The sectors that a number of bytes occupies. -/
def sectorsOf (ctx : ImgCtx) (n : ℕ) : ℕ := (n + ctx.sec - 1) / ctx.sec

/-- The copy whose header is at the given sector follows the format. -/
structure Conformant (m : Image) (ctx : ImgCtx) (lba : Plba) : Prop where
  signature : loadAt m (ctx.off lba) 8 = gptSig
  hdrSz : numAt m (ctx.off lba + 12) 4 = 92
  /-- The checksum of the header, taken with zeros for itself. -/
  hdrCrc32 : numAt m (ctx.off lba + 16) 4 =
    (crc32Of (loadAt m (ctx.off lba) 16 ++ [0, 0, 0, 0] ++ loadAt m (ctx.off lba + 20) 72)).toNat
  reserved : loadAt m (ctx.off lba + 20) 4 = [0, 0, 0, 0]
  myLba : numAt m (ctx.off lba + 24) 8 = lba.toNat
  cnt : diskCnt m ctx lba ≤ 128
  entSz : ∃ n, diskEntSz m ctx lba = 128 * 2 ^ n
  tableInside : (diskTableLba m ctx lba +
    sectorsOf ctx (diskCnt m ctx lba * diskEntSz m ctx lba)) * ctx.sec ≤ ctx.imgSz.toNat
  /-- The checksum of the table, taken over all of its bytes. -/
  tableCrc32 : numAt m (ctx.off lba + 88) 4 =
    (crc32Of (loadAt m (diskTableOff m ctx lba)
      (diskCnt m ctx lba * diskEntSz m ctx lba))).toNat

/-- The entry has the values that the bytes at the offset stand for. -/
structure GptPartEnt.AsOnDisk (m : Image) (a : ℕ) (entry : GptPartEnt) : Prop where
  typeGuid : guidBytes entry.typeGuid = loadAt m a 16
  uniqueGuid : guidBytes entry.uniqueGuid = loadAt m (a + 16) 16
  startLba : entry.startLba.toNat = numAt m (a + 32) 8
  endLba : entry.endLba.toNat = numAt m (a + 40) 8
  attr : entry.attr.toNat = numAt m (a + 48) 8
  name : ∀ k : Fin 36, (entry.name k).toNat = numAt m (a + 56 + 2 * k) 2

/-! ## The header -/

/-- A header of the format is accepted. -/
lemma Conformant.hdrAt (h : Conformant m ctx lba) :
    HdrAt m ctx lba (gptHdrRead m (ctx.off lba)) := by
  have hpres := gptIsPresent_iff.2 h.signature
  refine ⟨hpres, rfl, ?_⟩
  rw [gptHdrIsValid, Bool.and_eq_true, beq_iff_eq, beq_iff_eq]
  constructor
  · -- the reserved bytes are zeros, as the reader takes them to be
    have hseen : hdrSeen m (ctx.off lba) =
        loadAt m (ctx.off lba) 16 ++ [0, 0, 0, 0] ++ loadAt m (ctx.off lba + 20) 72 := by
      rw [show (72 : ℕ) = 4 + 68 from rfl, loadAt_add m (ctx.off lba + 20), h.reserved, hdrSeen,
        Nat.add_assoc]
      simp [leBytes]
    rw [gptHdrCrcCreate_read hpres, hseen, ← UInt64.toNat_inj, ← h.hdrCrc32]
    exact toNat_readPu32 m _
  · rw [← UInt64.toNat_inj, ← h.myLba]
    exact toNat_readPu64 m _

lemma toNat_read_cnt (m : Image) (ctx : ImgCtx) (lba : Plba) :
    (gptHdrRead m (ctx.off lba)).partTableEntryCnt.toNat = diskCnt m ctx lba :=
  toNat_readPu32 m _

lemma toNat_read_entSz (m : Image) (ctx : ImgCtx) (lba : Plba) :
    (gptHdrRead m (ctx.off lba)).partEntrySz.toNat = diskEntSz m ctx lba :=
  toNat_readPu32 m _

lemma off_read_table (m : Image) (ctx : ImgCtx) (lba : Plba) :
    ctx.off (gptHdrRead m (ctx.off lba)).partTableLba = diskTableOff m ctx lba := by
  rw [ImgCtx.off, diskTableOff]
  exact congrArg (· * ctx.sec) (toNat_readPu64 m _)

lemma diskEntSz_lt (m : Image) (ctx : ImgCtx) (lba : Plba) : diskEntSz m ctx lba < 2 ^ 32 := by
  rw [← toNat_read_entSz]
  exact readPu32_lt _ _

lemma Conformant.entSz_ge (h : Conformant m ctx lba) : 128 ≤ diskEntSz m ctx lba := by
  obtain ⟨n, hn⟩ := h.entSz
  rw [hn]
  exact Nat.le_mul_of_pos_right 128 (Nat.two_pow_pos n)

/-- The table of the format lies inside the image as the reader computes it. -/
lemma Conformant.tableInside_read (hv : ctx.Valid) (h : Conformant m ctx lba) :
    TableInside ctx (gptHdrRead m (ctx.off lba)) := by
  have hcnt := h.cnt
  have hes := diskEntSz_lt m ctx lba
  rw [TableInside, ImgCtx.Inside, toNat_tableSzSecs hv.sec_pos (by rwa [toNat_read_cnt])
    (by rwa [toNat_read_entSz]), toNat_read_cnt, toNat_read_entSz]
  have hlba : (gptHdrRead m (ctx.off lba)).partTableLba.toNat = diskTableLba m ctx lba :=
    toNat_readPu64 m _
  rw [hlba]
  exact h.tableInside

/-! ## The table -/

/-- An entry is shown as it is exactly if the bytes behind the first one of its name are all
the same. -/
lemma asOnDisk_read_iff (m : Image) (a : ℕ) : (gptPartEntRead m a).AsOnDisk m a ↔
    ∀ j, 1 ≤ j → j < 72 → m (a + 56 + j) = m (a + 57) := by
  have hunit : ∀ k : Fin 36, ((gptPartEntRead m a).name k).toNat = numAt m (a + 56 + k) 2 := by
    intro k
    rw [numAt, ← toNat_readPu16]
    simp [gptPartEntRead]
  have hpair : ∀ o o', numAt m o 2 = numAt m o' 2 ↔ m o = m o' ∧ m (o + 1) = m (o' + 1) := by
    intro o o'
    have h0 := (m o).toNat_lt
    have h1 := (m o').toNat_lt
    simp only [numAt, loadAt_succ, loadAt_zero, ofLe_cons, ofLe_nil, ← UInt8.toNat_inj]
    omega
  constructor
  · intro h j h1 h2
    -- byte `j` is also the byte half as far into the name
    induction j using Nat.strong_induction_on with
    | _ j ih =>
      rcases Nat.lt_or_ge j 2 with hj | hj
      · obtain rfl : j = 1 := by omega
        rfl
      have hk := h.name ⟨j / 2, by omega⟩
      rw [hunit, hpair] at hk
      obtain ⟨e0, e1⟩ := hk
      dsimp only at e0 e1
      rcases Nat.even_or_odd' j with ⟨k, rfl | rfl⟩
      · rw [Nat.mul_div_cancel_left k (by decide)] at e0
        rw [← e0]
        exact ih k (by omega) (by omega) (by omega)
      · rw [show (2 * k + 1) / 2 = k by omega] at e1
        rw [← Nat.add_assoc, ← e1, Nat.add_assoc (a + 56)]
        exact ih (k + 1) (by omega) (by omega) (by omega)
  · intro h
    refine ⟨guidBytes_read m a, guidBytes_read m (a + 16), toNat_readPu64 m _, toNat_readPu64 m _,
      toNat_readPu64 m _, fun k => ?_⟩
    rw [hunit, hpair]
    have hk := k.isLt
    constructor
    · rcases Nat.eq_zero_or_pos (k : ℕ) with h0 | h0
      · rw [h0]
      · rw [h k h0 (by omega), h (2 * k) (by omega) (by omega)]
    · rw [Nat.add_assoc (a + 56), Nat.add_assoc (a + 56), h (k + 1) (by omega) (by omega),
        h (2 * k + 1) (by omega) (by omega)]

/-- Of such an entry the reader sees the first 128 bytes as they are. -/
lemma entSeen_of_asOnDisk {a : ℕ} (h : (gptPartEntRead m a).AsOnDisk m a) :
    entSeen m a = loadAt m a 128 := by
  have hname : ((List.range 36).flatMap fun k => loadAt m (a + 56 + k) 2) =
      (List.range 36).flatMap fun k => loadAt m (a + 56 + 2 * k) 2 := by
    refine List.flatMap_congr fun k hk => ?_
    have hk := List.mem_range.1 hk
    have hunit := h.name ⟨k, hk⟩
    rw [← leBytes_ofLe (loadAt m (a + 56 + k) 2), ← leBytes_ofLe (loadAt m (a + 56 + 2 * k) 2)]
    rw [length_loadAt, length_loadAt, ← toNat_readPu16]
    have hread : ((gptPartEntRead m a).name ⟨k, hk⟩).toNat = (readPu16 m (a + 56 + k)).toNat := by
      simp [gptPartEntRead]
    rw [← hread, hunit, numAt]
  rw [entSeen, hname, flatMap_loadAt, ← loadAt_add]

/-- The first 128 bytes of every entry. -/
def entPrefixes (m : Image) (ctx : ImgCtx) (lba : Plba) : List UInt8 :=
  (List.range (diskCnt m ctx lba)).flatMap fun i => loadAt m (diskEntOff m ctx lba i) 128

/-- The bytes of the table. -/
def tableBytes (m : Image) (ctx : ImgCtx) (lba : Plba) : List UInt8 :=
  loadAt m (diskTableOff m ctx lba) (diskCnt m ctx lba * diskEntSz m ctx lba)

/-- With entries of 128 bytes there is nothing else in the table. -/
lemma entPrefixes_eq (h : diskEntSz m ctx lba = 128) :
    entPrefixes m ctx lba = tableBytes m ctx lba := by
  rw [tableBytes, entPrefixes, h, Nat.mul_comm, ← flatMap_loadAt]
  refine List.flatMap_congr fun i _ => ?_
  rw [diskEntOff, h, Nat.mul_comm]

/-- What the reader makes of a copy of the format whose table can be mapped. -/
lemma Conformant.load (hv : ctx.Valid) (hs : sys.Serves ctx)
    (hlba : lba = 1 ∨ lba = imgLastLba ctx) (h : Conformant m ctx lba)
    (hwin : diskCnt m ctx lba ≠ 0 ∨ ¬ sys.pgSz.toNat ∣ diskTableOff m ctx lba) (hdr₀ : GptHdr)
    (table₀ : GptTable) :
    ((gptPairLoad sys m hdr₀ table₀ ctx lba).res = .ok ↔
        crc32Of (tableBytes m ctx lba) = crc32Of ((List.range (diskCnt m ctx lba)).flatMap
          fun i => entSeen m (diskEntOff m ctx lba i))) ∧
      ∀ i < diskCnt m ctx lba, (gptPairLoad sys m hdr₀ table₀ ctx lba).table i =
        gptPartEntRead m (diskEntOff m ctx lba i) := by
  obtain ⟨hdr, hdef⟩ : ∃ hdr, gptHdrRead m (ctx.off lba) = hdr := ⟨_, rfl⟩
  have hhdr := h.hdrAt
  have htab := h.tableInside_read hv
  have hcnt := toNat_read_cnt m ctx lba
  have hes := toNat_read_entSz m ctx lba
  have hoff := off_read_table m ctx lba
  have hcrc : (gptHdrRead m (ctx.off lba)).partTableCrc32.toNat = numAt m (ctx.off lba + 88) 4 :=
    toNat_readPu32 m _
  rw [h.tableCrc32, UInt64.toNat_inj] at hcrc
  rw [hdef] at hhdr htab hcnt hes hoff hcrc
  have hle := h.cnt
  have hlt := diskEntSz_lt m ctx lba
  have hge := h.entSz_ge
  have hwin' : TableWindow sys ctx hdr := by
    rw [tableWindow_iff_of_entSz hv sys (by omega) (by omega) (by omega), hoff, ne_eq,
      eq_zero_iff_toNat, hcnt]
    exact hwin
  obtain ⟨h1, -, h3⟩ := gptPairLoad_table hv hs (lba_inside hv hlba) hhdr (by omega) htab hwin'
    hdr₀ table₀
  have hent : ∀ i < diskCnt m ctx lba, tableOf m ctx hdr table₀ i =
      gptPartEntRead m (diskEntOff m ctx lba i) := by
    intro i hi
    have hmul := Nat.mul_le_mul (show i ≤ 128 by omega) (Nat.le_of_lt hlt)
    have hentOff : entOff i hdr.partEntrySz = i * diskEntSz m ctx lba := by
      rw [entOff_of_lt (by omega) (by rw [hes]; omega), hes]
    rw [tableOf, gptTableRead, tableLen_min (by omega), if_pos (by omega), hoff, hentOff,
      diskEntOff]
  have hstream : tableStream (tableOf m ctx hdr table₀) hdr.partTableEntryCnt.toNat =
      (List.range (diskCnt m ctx lba)).flatMap fun i => entSeen m (diskEntOff m ctx lba i) := by
    rw [tableStream, hcnt]
    exact List.flatMap_congr fun i hi => by rw [hent i (List.mem_range.1 hi), entStream_read]
  refine ⟨?_, fun i hi => by rw [h3, hent i hi]⟩
  rw [h1, gptTableIsValid, gptTableCrcCreate_eq, hstream, hcrc, tableBytes]
  simp only [beq_iff_eq]
  split_ifs with hc
  · exact iff_of_true rfl hc
  · exact iff_of_false (by decide) hc

/-- What a load needs of a copy of the format to show it as it is. -/
lemma Conformant.loads_iff (hv : ctx.Valid) (hs : sys.Serves ctx)
    (hlba : lba = 1 ∨ lba = imgLastLba ctx) (h : Conformant m ctx lba) (hdr₀ : GptHdr)
    (table₀ : GptTable) :
    ((gptPairLoad sys m hdr₀ table₀ ctx lba).res = .ok ∧ ∀ i < diskCnt m ctx lba,
        ((gptPairLoad sys m hdr₀ table₀ ctx lba).table i).AsOnDisk m (diskEntOff m ctx lba i)) ↔
      (diskCnt m ctx lba ≠ 0 ∨ ¬ sys.pgSz.toNat ∣ diskTableOff m ctx lba) ∧
        (∀ i < diskCnt m ctx lba, ∀ j, 1 ≤ j → j < 72 →
          m (diskEntOff m ctx lba i + 56 + j) = m (diskEntOff m ctx lba i + 57)) ∧
        crc32Of (entPrefixes m ctx lba) = crc32Of (tableBytes m ctx lba) := by
  by_cases hwin : diskCnt m ctx lba ≠ 0 ∨ ¬ sys.pgSz.toNat ∣ diskTableOff m ctx lba
  · obtain ⟨hres, hent⟩ := h.load hv hs hlba hwin hdr₀ table₀
    -- entries that are shown as they are, are also seen as they are
    have hseen : (∀ i < diskCnt m ctx lba, (gptPartEntRead m (diskEntOff m ctx lba i)).AsOnDisk m
        (diskEntOff m ctx lba i)) → ((List.range (diskCnt m ctx lba)).flatMap
          fun i => entSeen m (diskEntOff m ctx lba i)) = entPrefixes m ctx lba := fun hd =>
      List.flatMap_congr fun i hi => entSeen_of_asOnDisk (hd i (List.mem_range.1 hi))
    constructor
    · rintro ⟨hok, hd⟩
      have hd' : ∀ i < diskCnt m ctx lba, (gptPartEntRead m (diskEntOff m ctx lba i)).AsOnDisk m
          (diskEntOff m ctx lba i) := by
        intro i hi
        rw [← hent i hi]
        exact hd i hi
      refine ⟨hwin, fun i hi => (asOnDisk_read_iff m _).1 (hd' i hi), ?_⟩
      rw [← hseen hd']
      exact (hres.1 hok).symm
    · rintro ⟨-, hbytes, hcrc⟩
      have hd' : ∀ i < diskCnt m ctx lba, (gptPartEntRead m (diskEntOff m ctx lba i)).AsOnDisk m
          (diskEntOff m ctx lba i) := fun i hi => (asOnDisk_read_iff m _).2 (hbytes i hi)
      refine ⟨hres.2 ?_, fun i hi => ?_⟩
      · rw [hseen hd', hcrc]
      · rw [hent i hi]
        exact hd' i hi
  · -- the mapping of the table is refused
    have hcnt := toNat_read_cnt m ctx lba
    have hes := toNat_read_entSz m ctx lba
    have hlt := diskEntSz_lt m ctx lba
    have hge := h.entSz_ge
    have hwin' : ¬ TableWindow sys ctx (gptHdrRead m (ctx.off lba)) := by
      rw [tableWindow_iff_of_entSz hv sys (by omega) (by omega) (by omega), off_read_table, ne_eq,
        eq_zero_iff_toNat, hcnt]
      exact hwin
    have hf : (gptPairLoad sys m hdr₀ table₀ ctx lba).res = .fatal :=
      gptPairLoad_fatal_window hv hs (lba_inside hv hlba) h.hdrAt (h.tableInside_read hv) hwin'
    refine iff_of_false (fun hl => ?_) fun hc => hwin hc.1
    rw [hf] at hl
    exact absurd hl.1 (by decide)

/-- **A copy of the format is loaded, entry by entry as it is on the disk, exactly if** its
table makes a window that is not empty, the names have no effect behind their first byte, and
the part of the table that is read has the checksum of the whole. -/
theorem gptPairLoad_of_conformant (hctx : imgCtxValidate ctx = .ok) (hs : sys.Serves ctx)
    (hlba : lba = 1 ∨ lba = imgLastLba ctx) (h : Conformant m ctx lba) (hdr₀ : GptHdr)
    (table₀ : GptTable) :
    ((gptPairLoad sys m hdr₀ table₀ ctx lba).res = .ok ∧ ∀ i < diskCnt m ctx lba,
        ((gptPairLoad sys m hdr₀ table₀ ctx lba).table i).AsOnDisk m (diskEntOff m ctx lba i)) ↔
      (diskCnt m ctx lba ≠ 0 ∨ ¬ sys.pgSz.toNat ∣ diskTableOff m ctx lba) ∧
        (∀ i < diskCnt m ctx lba, ∀ j, 1 ≤ j → j < 72 →
          m (diskEntOff m ctx lba i + 56 + j) = m (diskEntOff m ctx lba i + 57)) ∧
        crc32Of (entPrefixes m ctx lba) = crc32Of (tableBytes m ctx lba) :=
  h.loads_iff ((imgCtxValidate_ok_iff ctx).1 hctx) hs hlba hdr₀ table₀

/-- **With entries of 128 bytes** only the names are in the way, and an empty table that starts
with a page. -/
theorem Conformant.loads_iff_of_std (hctx : imgCtxValidate ctx = .ok) (hs : sys.Serves ctx)
    (hlba : lba = 1 ∨ lba = imgLastLba ctx) (h : Conformant m ctx lba)
    (hes : diskEntSz m ctx lba = 128) (hdr₀ : GptHdr) (table₀ : GptTable) :
    ((gptPairLoad sys m hdr₀ table₀ ctx lba).res = .ok ∧ ∀ i < diskCnt m ctx lba,
        ((gptPairLoad sys m hdr₀ table₀ ctx lba).table i).AsOnDisk m (diskEntOff m ctx lba i)) ↔
      (diskCnt m ctx lba ≠ 0 ∨ ¬ sys.pgSz.toNat ∣ diskTableOff m ctx lba) ∧
        ∀ i < diskCnt m ctx lba, ∀ j, 1 ≤ j → j < 72 →
          m (diskEntOff m ctx lba i + 56 + j) = m (diskEntOff m ctx lba i + 57) := by
  rw [h.loads_iff ((imgCtxValidate_ok_iff ctx).1 hctx) hs hlba hdr₀ table₀, entPrefixes_eq hes]
  simp only [and_true]

/-! ## Copies that have been put together -/

/-- A header and a table as the format wants them. -/
lemma conformant_of_holds {hdr : GptHdr} (hb : hdr.Bounded)
    (hcrc : hdr.hdrCrc32 = gptHdrCrcCreate hdr)
    (hhdr : Holds m (ctx.off lba) (hdrBytes hdr)) (hsz : hdr.hdrSz = gptHdrSz)
    (hmy : hdr.myLba = lba) (hcnt : hdr.partTableEntryCnt.toNat ≤ 128)
    (hes : ∃ n, hdr.partEntrySz.toNat = 128 * 2 ^ n)
    (hin : (hdr.partTableLba.toNat +
      sectorsOf ctx (hdr.partTableEntryCnt.toNat * hdr.partEntrySz.toNat)) * ctx.sec ≤
        ctx.imgSz.toNat)
    (htab : hdr.partTableCrc32 = crc32Of (loadAt m (ctx.off hdr.partTableLba)
      (hdr.partTableEntryCnt.toNat * hdr.partEntrySz.toNat))) : Conformant m ctx lba := by
  obtain ⟨hpres, hread⟩ := gptHdrRead_of_holds hb hhdr
  have h4 : ∀ a, numAt m a 4 = (readPu32 m a).toNat := fun a => (toNat_readPu32 m a).symm
  have h8 : ∀ a, numAt m a 8 = (readPu64 m a).toNat := fun a => (toNat_readPu64 m a).symm
  have hres : loadAt m (ctx.off lba + 20) 4 = [0, 0, 0, 0] := by
    rw [hdrBytes, holds_append, holds_append, length_hdrLo] at hhdr
    exact holds_iff_loadAt.1 hhdr.1.2
  have hseen : hdrSeen m (ctx.off lba) =
      loadAt m (ctx.off lba) 16 ++ [0, 0, 0, 0] ++ loadAt m (ctx.off lba + 20) 72 := by
    rw [show (72 : ℕ) = 4 + 68 from rfl, loadAt_add m (ctx.off lba + 20), hres, hdrSeen,
      Nat.add_assoc]
    simp [leBytes]
  have hcntEq : diskCnt m ctx lba = hdr.partTableEntryCnt.toNat := by
    rw [← toNat_read_cnt, hread]
  have hesEq : diskEntSz m ctx lba = hdr.partEntrySz.toNat := by
    rw [← toNat_read_entSz, hread]
  have hlbaEq : diskTableLba m ctx lba = hdr.partTableLba.toNat := by
    rw [← hread, diskTableLba, h8]
    rfl
  refine ⟨gptIsPresent_iff.1 hpres, ?_, ?_, hres, ?_, by rwa [hcntEq], by rwa [hesEq],
    by rwa [hcntEq, hesEq, hlbaEq], ?_⟩
  · rw [h4]
    have : readPu32 m (ctx.off lba + 12) = gptHdrSz := by
      rw [← hsz, ← hread]
      rfl
    rw [this]
    rfl
  · rw [← hseen, ← gptHdrCrcCreate_read hpres, hread, ← hcrc, ← hread, h4]
    rfl
  · rw [h8]
    exact congrArg UInt64.toNat ((congrArg GptHdr.myLba hread).trans hmy)
  · have : diskTableOff m ctx lba = ctx.off hdr.partTableLba := by
      rw [diskTableOff, hlbaEq, ImgCtx.off]
    rw [this, hcntEq, hesEq, ← htab, h4, ← hread]
    rfl

/-- The bytes of an entry whose name has two characters. -/
def namedEntBytes : List UInt8 :=
  guidBytes gptPartTypeDef ++ guidBytes Guid.zero ++ leBytes 8 64 ++ leBytes 8 127 ++ leBytes 8 0 ++
    ([0x41, 0x00, 0x42, 0x00] ++ List.replicate 68 0x00)

/-- A header over one such entry, up to its checksum. -/
def foreignHdr₀ : GptHdr where
  rev := gptHdrRev
  hdrSz := gptHdrSz
  hdrCrc32 := 0
  myLba := 1
  altLba := 2047
  firstUsableLba := 34
  lastUsableLba := 2014
  diskGuid := Guid.zero
  partTableLba := 2
  partTableEntryCnt := 1
  partEntrySz := gptPartEntSz
  partTableCrc32 := crc32Of namedEntBytes

/-- The header with its checksum. -/
def foreignHdr : GptHdr := { foreignHdr₀ with hdrCrc32 := gptHdrCrcCreate foreignHdr₀ }

/-- The small image with this header and this entry. -/
def foreignImage : Image :=
  stores zeroImage (storeAt 512 (hdrBytes foreignHdr) ++ storeAt 1024 namedEntBytes)

lemma length_namedEntBytes : namedEntBytes.length = 128 := by
  simp [namedEntBytes]

lemma foreignImage_ent : Holds foreignImage 1024 namedEntBytes := by
  rw [foreignImage, stores_append]
  exact holds_stores_storeAt _ _ _

lemma foreignImage_hdr : Holds foreignImage (smallCtx.off 1) (hdrBytes foreignHdr) := by
  rw [foreignImage, stores_append]
  refine (holds_stores_storeAt _ _ _).stores fun s hs => ?_
  have := (mem_storeAt hs).1
  rw [length_hdrBytes]
  omega

lemma foreignHdr_bounded : foreignHdr.Bounded where
  rev := show gptHdrRev.toNat < 2 ^ 32 by decide
  hdrSz := show gptHdrSz.toNat < 2 ^ 32 by decide
  hdrCrc32 := gptHdrCrcCreate_lt foreignHdr₀
  diskGuid := show Guid.zero.timeLo.toNat < 2 ^ 32 by decide
  partTableEntryCnt := show (1 : UInt64).toNat < 2 ^ 32 by decide
  partEntrySz := show gptPartEntSz.toNat < 2 ^ 32 by decide
  partTableCrc32 := crc32Of_lt namedEntBytes

lemma foreignImage_conformant : Conformant foreignImage smallCtx 1 := by
  refine conformant_of_holds foreignHdr_bounded (gptHdrCrcCreate_setCrc foreignHdr₀ _).symm
    foreignImage_hdr rfl rfl ?_ ⟨0, rfl⟩ ?_ ?_
  · show (1 : UInt64).toNat ≤ 128
    decide
  · show ((2 : UInt64).toNat + sectorsOf smallCtx ((1 : UInt64).toNat * gptPartEntSz.toNat)) *
      smallCtx.sec ≤ smallCtx.imgSz.toNat
    decide
  · have hload := holds_iff_loadAt.1 foreignImage_ent
    rw [length_namedEntBytes] at hload
    show crc32Of namedEntBytes = crc32Of (loadAt foreignImage 1024 128)
    rw [hload]

lemma foreignImage_cnt : diskCnt foreignImage smallCtx 1 = 1 := by
  rw [← toNat_read_cnt, (gptHdrRead_of_holds foreignHdr_bounded foreignImage_hdr).2]
  rfl

lemma foreignImage_entOff : diskEntOff foreignImage smallCtx 1 0 = 1024 := by
  rw [diskEntOff, ← off_read_table, (gptHdrRead_of_holds foreignHdr_bounded foreignImage_hdr).2,
    Nat.zero_mul]
  rfl

/-- The copy that has been put together. -/
theorem gptPairLoad_of_conformant_small :
    ((gptPairLoad plainSys foreignImage GptHdr.zero gptTableZero smallCtx 1).res = .ok ∧
      ∀ i < diskCnt foreignImage smallCtx 1,
        ((gptPairLoad plainSys foreignImage GptHdr.zero gptTableZero smallCtx 1).table i).AsOnDisk
          foreignImage (diskEntOff foreignImage smallCtx 1 i)) ↔
      (diskCnt foreignImage smallCtx 1 ≠ 0 ∨
          ¬ plainSys.pgSz.toNat ∣ diskTableOff foreignImage smallCtx 1) ∧
        (∀ i < diskCnt foreignImage smallCtx 1, ∀ j, 1 ≤ j → j < 72 →
          foreignImage (diskEntOff foreignImage smallCtx 1 i + 56 + j) =
            foreignImage (diskEntOff foreignImage smallCtx 1 i + 57)) ∧
        crc32Of (entPrefixes foreignImage smallCtx 1) =
          crc32Of (tableBytes foreignImage smallCtx 1) :=
  gptPairLoad_of_conformant smallCtx_valid (plainSys_serves (by decide)) (Or.inl rfl)
    foreignImage_conformant GptHdr.zero gptTableZero

/-- A GPT of the format, with a name of two characters, that is not loaded as it is. -/
theorem gptPairLoad_of_conformant_named :
    Conformant foreignImage smallCtx 1 ∧
    ¬ ((gptPairLoad plainSys foreignImage GptHdr.zero gptTableZero smallCtx 1).res = .ok ∧
      ∀ i < diskCnt foreignImage smallCtx 1,
        ((gptPairLoad plainSys foreignImage GptHdr.zero gptTableZero smallCtx 1).table i).AsOnDisk
          foreignImage (diskEntOff foreignImage smallCtx 1 i)) := by
  have hv := (imgCtxValidate_ok_iff _).1 smallCtx_valid
  refine ⟨foreignImage_conformant, fun hl => ?_⟩
  obtain ⟨-, hent⟩ := foreignImage_conformant.load hv (plainSys_serves (by decide)) (Or.inl rfl)
    (Or.inl (by rw [foreignImage_cnt]; decide)) GptHdr.zero gptTableZero
  have h0 : 0 < diskCnt foreignImage smallCtx 1 := by
    rw [foreignImage_cnt]
    decide
  have hdisk := hl.2 0 h0
  rw [hent 0 h0, foreignImage_entOff, asOnDisk_read_iff] at hdisk
  -- the second character is not the high byte of the first one
  have hget := holds_iff_getElem.1 foreignImage_ent
  have e1 : foreignImage (1024 + 57) = 0x00 := hget 57 (by rw [length_namedEntBytes]; decide)
  have e2 : foreignImage (1024 + 58) = 0x42 := hget 58 (by rw [length_namedEntBytes]; decide)
  have := hdisk 2 (by decide) (by decide)
  rw [show 1024 + 56 + 2 = 1024 + 58 from rfl, e1, e2] at this
  exact absurd this (by decide)

end Partman

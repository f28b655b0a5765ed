/-
# The raw bytes of the tables

The checksum of a table is taken over 72 bytes for every name, while the writer leaves 37
bytes of a name and does not touch the 35 bytes behind them.  So the table on the disk has
the checksum of its header only where the two strings agree, or differ by a multiple of the
generator, and the two tables are the same only where the bytes that are left were.
-/
import Partman.Disk.Conformant

namespace Partman

open Lib

variable {sys : Sys} {ctx : ImgCtx} {schem : Schem} {m : Image}

/-! ## What should be on the disk -/

/-- The bytes of the table of a copy, each entry being 128 bytes long. -/
def rawTable (m : Image) (ctx : ImgCtx) (lba : Plba) : List UInt8 :=
  loadAt m (diskTableOff m ctx lba) (diskCnt m ctx lba * 128)

/-- Both headers carry the checksum of the bytes of their table, and the tables are equal. -/
structure SelfConsistent (m : Image) (ctx : ImgCtx) : Prop where
  signature : ∀ lba, lba = 1 ∨ lba = imgLastLba ctx → loadAt m (ctx.off lba) 8 = gptSig
  tableCrc32 : ∀ lba, lba = 1 ∨ lba = imgLastLba ctx →
    numAt m (ctx.off lba + 88) 4 = (crc32Of (rawTable m ctx lba)).toNat
  tables : rawTable m ctx 1 = rawTable m ctx (imgLastLba ctx)

/-- The name of a partition that is used; zeros otherwise. -/
def usedName (schem : Schem) (i : ℕ) : Fin 36 → PcharUcs :=
  if schemPartIsUsedGpt (schem.table i) then (schem.table i).name else fun _ => 0

/-- The difference between the 128 bytes of an entry and the ones that are on the disk: the
72 bytes of the name against the 37 bytes that are written and the 35 bytes that are left. -/
def entDiff (m : Image) (off : ℕ) (name : Fin 36 → PcharUcs) : List UInt8 :=
  List.replicate 56 0 ++
    List.zipWith (· ^^^ ·) (nameStream name) (namePacked name ++ loadAt m (off + 93) 35)

/-- The difference for a whole table that is written over the bytes from `off` on. -/
def tableDiff (m : Image) (off : ℕ) (schem : Schem) : List UInt8 :=
  (List.range schem.partCnt.toNat).flatMap fun i => entDiff m (off + 128 * i) (usedName schem i)

/-! ## What is on the disk -/

/-- The bytes of a table that has been written over the bytes from `off` on. -/
def writtenTable (m : Image) (off : ℕ) (schem : Schem) : List UInt8 :=
  (List.range schem.partCnt.toNat).flatMap fun i =>
    entPacked (savedTable schem i) ++ loadAt m (off + 128 * i + 93) 35

lemma savedTable_name {i : ℕ} (hi : i < schem.partCnt.toNat) :
    (savedTable schem i).name = usedName schem i := by
  rw [savedTable, gptTableFromSchem, usedName]
  by_cases hu : schemPartIsUsedGpt (schem.table i) = true
  · rw [if_pos ⟨hi, hu⟩, if_pos hu]
    rfl
  · rw [if_neg fun h => hu h.2, if_neg hu]
    rfl

/-- A list against itself. -/
lemma zipWith_xor_self (l : List UInt8) :
    List.zipWith (· ^^^ ·) l l = List.replicate l.length 0 := by
  rw [List.zipWith_self]
  simp only [UInt8.xor_self, List.map_const']

section Rows

variable {g h : ℕ → List UInt8} (hlen : ∀ i, (g i).length = (h i).length)

include hlen

lemma length_flatMap_range (n : ℕ) :
    ((List.range n).flatMap g).length = ((List.range n).flatMap h).length := by
  simp only [List.length_flatMap, hlen]

lemma zipWith_flatMap {f : UInt8 → UInt8 → UInt8} (n : ℕ) :
    List.zipWith f ((List.range n).flatMap g) ((List.range n).flatMap h) =
      (List.range n).flatMap fun i => List.zipWith f (g i) (h i) := by
  induction n with
  | zero => rfl
  | succ n ih =>
    simp only [List.range_succ, List.flatMap_append, List.flatMap_singleton]
    rw [List.zipWith_append (length_flatMap_range hlen n), ih]

/-- Rows of the same lengths are equal one by one. -/
lemma flatMap_range_inj (n : ℕ) :
    (List.range n).flatMap g = (List.range n).flatMap h ↔ ∀ i < n, g i = h i := by
  constructor
  · induction n with
    | zero =>
      intro _ i hi
      omega
    | succ n ih =>
      simp only [List.range_succ, List.flatMap_append, List.flatMap_singleton]
      intro he i hi
      obtain ⟨he, hn⟩ := List.append_inj he (length_flatMap_range hlen n)
      rcases Nat.lt_succ_iff_lt_or_eq.1 hi with hi | rfl
      · exact ih he i hi
      · exact hn
  · intro he
    exact List.flatMap_congr fun i hi => he i (List.mem_range.1 hi)

end Rows

/-- The difference of the strings is the difference of the names. -/
lemma zipWith_writtenTable (m : Image) (off : ℕ) (schem : Schem) :
    List.zipWith (· ^^^ ·) (tableStream (savedTable schem) schem.partCnt.toNat)
      (writtenTable m off schem) = tableDiff m off schem := by
  rw [tableStream, writtenTable, zipWith_flatMap fun i => by simp]
  refine List.flatMap_congr fun i hi => ?_
  rw [entStream, entPacked, List.append_assoc, List.zipWith_append rfl, zipWith_xor_self,
    length_entHead, savedTable_name (List.mem_range.1 hi), entDiff]

/-- The checksum in the headers is the one of the bytes of a table exactly if the difference
leaves no remainder. -/
lemma crc32Of_writtenTable_iff (m : Image) (off : ℕ) (schem : Schem) :
    crc32Of (tableStream (savedTable schem) schem.partCnt.toNat) =
        crc32Of (writtenTable m off schem) ↔ crc32Rem (tableDiff m off schem) = 0#32 := by
  rw [crc32Of_eq_iff, zipWith_writtenTable]
  rw [tableStream, writtenTable]
  simp [List.length_flatMap]

/-- Two tables are equal exactly if the bytes that are left are. -/
lemma writtenTable_eq_iff (m : Image) (off off' : ℕ) (schem : Schem) :
    writtenTable m off schem = writtenTable m off' schem ↔ ∀ i < schem.partCnt.toNat, ∀ k, 93 ≤ k →
      k < 128 → m (off + 128 * i + k) = m (off' + 128 * i + k) := by
  rw [writtenTable, writtenTable, flatMap_range_inj fun i => by simp]
  refine forall₂_congr fun i _ => ?_
  rw [List.append_cancel_left_eq, loadAt_eq_iff]
  constructor
  · intro h k h1 h2
    obtain ⟨j, rfl⟩ := Nat.exists_eq_add_of_le h1
    rw [← Nat.add_assoc, ← Nat.add_assoc]
    exact h j (by omega)
  · intro h k hk
    have := h (93 + k) (by omega) (by omega)
    rwa [← Nat.add_assoc _ 93, ← Nat.add_assoc _ 93] at this

/-- Between the entries a save leaves the bytes of both tables alone. -/
lemma loadAt_slack (hv : ctx.Valid) (hcnt : schem.partCnt.toNat ≤ 128) (m : Image) {off : ℕ}
    (hoff : off = ctx.primTabOff ∨ off = ctx.secTabOff) {i : ℕ} (hi : i < schem.partCnt.toNat) :
    loadAt (stores m (saveStores schem ctx)) (off + 128 * i + 93) 35 =
      loadAt m (off + 128 * i + 93) 35 := by
  obtain ⟨h0, h1, h2, h3, h4⟩ := hv.layout
  refine loadAt_congr fun a ha ha' => stores_of_forall_ne (fun s hs => ?_) m
  rw [saveStores_eq hv] at hs
  simp only [List.mem_append] at hs
  have hhdr : ∀ {o : ℕ} {hdr : GptHdr}, s ∈ storeAt o (hdrBytes hdr) → o ≤ s.1 ∧ s.1 < o + 92 :=
    fun hs => by simpa using mem_storeAt hs
  rcases hs with (hs | hs) | (hs | hs)
  · have := hhdr hs
    omega
  · obtain ⟨j, hj, h5, h6⟩ := mem_gptTableWrite hcnt hs
    omega
  · have := hhdr hs
    omega
  · obtain ⟨j, hj, h5, h6⟩ := mem_gptTableWrite hcnt hs
    omega

/-- The table that is found behind a header that has been saved. -/
lemma loadAt_saved (hv : ctx.Valid) (hcnt : schem.partCnt.toNat ≤ 128) (m : Image) {off : ℕ}
    (hoff : off = ctx.primTabOff ∨ off = ctx.secTabOff) :
    loadAt (stores m (saveStores schem ctx)) off (schem.partCnt.toNat * 128) =
      writtenTable m off schem := by
  obtain ⟨⟨-, hprim⟩, ⟨-, hsec⟩⟩ := holds_save hv hcnt m
  have hent : ∀ i < schem.partCnt.toNat, Holds (stores m (saveStores schem ctx)) (off + 128 * i)
      (entPacked (savedTable schem i)) := by
    rcases hoff with rfl | rfl
    · exact hprim
    · exact hsec
  rw [Nat.mul_comm, ← flatMap_loadAt, writtenTable]
  refine List.flatMap_congr fun i hi => ?_
  have hi := List.mem_range.1 hi
  have hpacked := holds_iff_loadAt.1 (hent i hi)
  rw [length_entPacked] at hpacked
  rw [show (128 : ℕ) = 93 + 35 from rfl, loadAt_add, hpacked, loadAt_slack hv hcnt m hoff hi]

/-- Fields of a header on the disk, whatever the others are. -/
lemma hdrFields_of_holds {o : ℕ} {hdr : GptHdr} (h : Holds m o (hdrBytes hdr)) :
    loadAt m o 8 = gptSig ∧ numAt m (o + 72) 8 = hdr.partTableLba.toNat ∧
      numAt m (o + 80) 4 = hdr.partTableEntryCnt.toNat % 2 ^ 32 ∧
      numAt m (o + 88) 4 = hdr.partTableCrc32.toNat % 2 ^ 32 := by
  have hlen : gptSig.length = 8 := rfl
  simp only [hdrBytes, hdrLo, hdrHi, holds_append, List.length_append, length_leBytes,
    length_guidBytes, hlen, Nat.add_assoc, Nat.reduceAdd] at h
  obtain ⟨⟨⟨⟨⟨hsig, -⟩, -⟩, -⟩, -⟩, ⟨⟨⟨-, hlba⟩, hcnt⟩, -⟩, hcrc⟩ := h
  have e := ofLe_loadAt_of_holds hlba
  rw [show (256 : ℕ) ^ 8 = 2 ^ 64 from rfl, Nat.mod_eq_of_lt hdr.partTableLba.toNat_lt] at e
  exact ⟨holds_iff_loadAt.1 hsig, e, ofLe_loadAt_of_holds hcnt, ofLe_loadAt_of_holds hcrc⟩

/-- A header that has been saved, with the table behind it. -/
lemma disk_of_holds {lba : Plba} {hdr : GptHdr} (hcnt : schem.partCnt.toNat ≤ 128)
    (h : Holds m (ctx.off lba) (hdrBytes hdr)) (hc : hdr.partTableEntryCnt = schem.partCnt)
    (hcrc : hdr.partTableCrc32 = gptTableCrcCreate (savedTable schem) schem.partCnt) :
    loadAt m (ctx.off lba) 8 = gptSig ∧
      rawTable m ctx lba = loadAt m (ctx.off hdr.partTableLba) (schem.partCnt.toNat * 128) ∧
      numAt m (ctx.off lba + 88) 4 =
        (crc32Of (tableStream (savedTable schem) schem.partCnt.toNat)).toNat := by
  obtain ⟨hsig, hlba, hn, h88⟩ := hdrFields_of_holds h
  have hlt := gptTableCrcCreate_lt (savedTable schem) schem.partCnt
  rw [hc, Nat.mod_eq_of_lt (by omega)] at hn
  rw [hcrc, Nat.mod_eq_of_lt hlt, gptTableCrcCreate_eq] at h88
  refine ⟨hsig, ?_, h88⟩
  rw [rawTable, diskCnt, hn, diskTableOff, diskTableLba, hlba, ImgCtx.off]

/-- The sector of a header and the offset of the table behind it. -/
def CopyPlace (ctx : ImgCtx) (lba : Plba) (off : ℕ) : Prop :=
  (lba = 1 ∧ off = ctx.primTabOff) ∨ (lba = imgLastLba ctx ∧ off = ctx.secTabOff)

/-- A copy as it is on the disk after a save. -/
lemma disk_of_save (hv : ctx.Valid) (hcnt : schem.partCnt.toNat ≤ 128) (m : Image) {lba : Plba}
    {off : ℕ} (hplace : CopyPlace ctx lba off) :
    loadAt (stores m (saveStores schem ctx)) (ctx.off lba) 8 = gptSig ∧
      rawTable (stores m (saveStores schem ctx)) ctx lba = writtenTable m off schem ∧
      numAt (stores m (saveStores schem ctx)) (ctx.off lba + 88) 4 =
        (crc32Of (tableStream (savedTable schem) schem.partCnt.toNat)).toNat := by
  obtain ⟨⟨hprim, -⟩, ⟨hsec, -⟩⟩ := holds_save hv hcnt m
  rcases hplace with ⟨rfl, rfl⟩ | ⟨rfl, rfl⟩
  · rw [← off_one] at hprim
    obtain ⟨h1, h2, h3⟩ := disk_of_holds hcnt hprim (savedPrim_cnt schem ctx)
      (savedPrim_tableCrc schem ctx)
    rw [off_savedPrim_table, loadAt_saved hv hcnt m (Or.inl rfl)] at h2
    exact ⟨h1, h2, h3⟩
  · rw [← off_imgLastLba hv] at hsec
    obtain ⟨h1, h2, h3⟩ := disk_of_holds hcnt hsec (savedSec_cnt schem ctx)
      (savedSec_tableCrc schem ctx)
    rw [off_savedSec_table hv, loadAt_saved hv hcnt m (Or.inr rfl)] at h2
    exact ⟨h1, h2, h3⟩

/-- What a successful save leaves is consistent exactly if the strings are. -/
lemma selfConsistent_iff (hv : ctx.Valid) (hcnt : schem.partCnt.toNat ≤ 128)
    (hsave : (schemSaveGpt sys schem ctx).1 = .ok) (m : Image) :
    SelfConsistent (stores m (schemSaveGpt sys schem ctx).2) ctx ↔
      writtenTable m ctx.primTabOff schem = writtenTable m ctx.secTabOff schem ∧
      crc32Of (tableStream (savedTable schem) schem.partCnt.toNat) =
        crc32Of (writtenTable m ctx.primTabOff schem) := by
  rw [((schemSaveGpt_spec sys schem ctx).2 hsave).1]
  obtain ⟨hsig, hraw, hcrc⟩ := disk_of_save hv hcnt m (Or.inl ⟨rfl, rfl⟩)
  obtain ⟨hsig', hraw', hcrc'⟩ := disk_of_save hv hcnt m (Or.inr ⟨rfl, rfl⟩)
  constructor
  · rintro ⟨-, htab, heq⟩
    rw [hraw, hraw'] at heq
    have h1 := htab 1 (Or.inl rfl)
    rw [hcrc, hraw, UInt64.toNat_inj] at h1
    exact ⟨heq, h1⟩
  · rintro ⟨heq, h1⟩
    refine ⟨?_, ?_, by rw [hraw, hraw', heq]⟩
    · rintro lba (rfl | rfl)
      · exact hsig
      · exact hsig'
    · rintro lba (rfl | rfl)
      · rw [hcrc, hraw, h1]
      · rw [hcrc', hraw', ← heq, h1]

/-- **A save leaves a consistent pair of copies exactly if** the bytes behind the names were
the same in both tables, and what the names should leave differs from what they do leave by
nothing that the checksum sees. -/
theorem selfConsistent_of_save_iff (hctx : imgCtxValidate ctx = .ok)
    (hcnt : schem.partCnt.toNat ≤ 128) (hsave : (schemSaveGpt sys schem ctx).1 = .ok) (m : Image) :
    SelfConsistent (stores m (schemSaveGpt sys schem ctx).2) ctx ↔
      (∀ i < schem.partCnt.toNat, ∀ k, 93 ≤ k → k < 128 →
        m (ctx.primTabOff + 128 * i + k) = m (ctx.secTabOff + 128 * i + k)) ∧
      crc32Rem (tableDiff m ctx.primTabOff schem) = 0#32 := by
  have hv := (imgCtxValidate_ok_iff ctx).1 hctx
  rw [selfConsistent_iff hv hcnt hsave, writtenTable_eq_iff, crc32Of_writtenTable_iff]

/-- The small GPT saved over zeros. -/
theorem selfConsistent_of_save_small :
    (schemSaveGpt plainSys smallGpt smallCtx).1 = .ok ∧
    (SelfConsistent (stores zeroImage (schemSaveGpt plainSys smallGpt smallCtx).2) smallCtx ↔
      (∀ i < smallGpt.partCnt.toNat, ∀ k, 93 ≤ k → k < 128 →
        zeroImage (smallCtx.primTabOff + 128 * i + k) =
          zeroImage (smallCtx.secTabOff + 128 * i + k)) ∧
      crc32Rem (tableDiff zeroImage smallCtx.primTabOff smallGpt) = 0#32) := by
  have hsave : (schemSaveGpt plainSys smallGpt smallCtx).1 = .ok := by
    rw [smallGpt_saved smallCtx_valid (by decide)]
  exact ⟨hsave, selfConsistent_of_save_iff smallCtx_valid smallGpt_ok.cnt hsave zeroImage⟩

/-! ## A name of two characters -/

/-- The name `AB`. -/
def shortName : Fin 36 → PcharUcs := fun k => if k = 0 then 0x41 else if k = 1 then 0x42 else 0

lemma nameStream_shortName :
    nameStream shortName = [0x41] ++ [0x00, 0x42] ++ List.replicate 69 0x00 := by
  decide

lemma namePacked_shortName :
    namePacked shortName = [0x41] ++ [0x42, 0x00] ++ List.replicate 34 0x00 := by
  decide

/-- A GPT with one entry, which has this name. -/
def namedGpt : Schem :=
  { smallGpt with
    partCnt := 1
    table := fun _ => { smallGpt.table 0 with name := shortName } }

lemma namedGpt_saved : (schemSaveGpt plainSys namedGpt smallCtx).1 = .ok := by
  have hv := (imgCtxValidate_ok_iff _).1 smallCtx_valid
  have hne : namedGpt.partCnt ≠ 0 := by decide
  rw [schemSaveGpt_of_serves hv (plainSys_serves (by decide)) (by decide)]
  · rw [tableWindow_iff hv _ (by rw [savedPrim_cnt]; decide) rfl, savedPrim_cnt]
    exact Or.inl hne
  · rw [tableWindow_iff hv _ (by rw [savedSec_cnt]; decide) rfl, savedSec_cnt]
    exact Or.inl hne

/-- The second character is stored over the high byte of the first one, so the table does
not have the checksum of its header. -/
theorem selfConsistent_of_save_named :
    imgCtxValidate smallCtx = .ok ∧ namedGpt.partCnt.toNat ≤ 128 ∧
      (schemSaveGpt plainSys namedGpt smallCtx).1 = .ok ∧
      ¬ SelfConsistent (stores zeroImage (schemSaveGpt plainSys namedGpt smallCtx).2) smallCtx := by
  have hv := (imgCtxValidate_ok_iff _).1 smallCtx_valid
  have hcnt : namedGpt.partCnt.toNat ≤ 128 := by decide
  refine ⟨smallCtx_valid, hcnt, namedGpt_saved, fun h => ?_⟩
  have hcrc := ((selfConsistent_iff hv hcnt namedGpt_saved zeroImage).1 h).2
  have hone : namedGpt.partCnt.toNat = 1 := rfl
  have hname : (savedTable namedGpt 0).name = shortName := by
    rw [savedTable_name (by decide)]
    rfl
  have hzero : ∀ o n, loadAt zeroImage o n = List.replicate n 0 := fun o n => by
    simp [loadAt, zeroImage, List.map_const']
  obtain ⟨pre, hpre⟩ : ∃ pre, pre = entHead (savedTable namedGpt 0) := ⟨_, rfl⟩
  have hstream : tableStream (savedTable namedGpt) namedGpt.partCnt.toNat =
      (pre ++ [0x41]) ++ [0x00, 0x42] ++ List.replicate 69 0x00 := by
    rw [tableStream, hone, List.range_one, List.flatMap_singleton, entStream, hname, ← hpre,
      nameStream_shortName]
    simp only [List.append_assoc]
  have hraw : writtenTable zeroImage smallCtx.primTabOff namedGpt =
      (pre ++ [0x41]) ++ [0x42, 0x00] ++ List.replicate 69 0x00 := by
    rw [writtenTable, hone, List.range_one, List.flatMap_singleton, entPacked, hname, ← hpre,
      namePacked_shortName, hzero]
    simp only [List.append_assoc, List.replicate_append_replicate, Nat.reduceAdd]
  rw [hstream, hraw] at hcrc
  exact absurd hcrc (crc32Of_ne_of_block rfl (by decide) (by decide))

end Partman

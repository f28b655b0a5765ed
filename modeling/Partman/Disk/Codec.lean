/-
# The bytes of identifiers, headers and entries

Every writer of the GPT code is a string of bytes stored at one place, and every checksum
is the one of a string.  The two agree for identifiers and headers.  They do not agree for
entries: the checksum is taken over the 72 bytes of the name, while the writer, whose name
units overlap, leaves 37 bytes behind.
-/
import Mathlib.Data.List.GetD
import Partman.Model.Gpt

namespace Partman

open Lib

/-! ## Identifiers -/

/-- The sixteen bytes of an identifier. -/
def guidBytes (guid : Guid) : List UInt8 :=
  leBytes 4 guid.timeLo.toNat ++ leBytes 2 guid.timeMid.toNat ++
  leBytes 2 guid.timeHiVer.toNat ++ [guid.clSeqHiRes] ++ [guid.clSeqLo] ++
  (List.finRange 6).map guid.nodes

@[simp] lemma length_guidBytes (guid : Guid) : (guidBytes guid).length = 16 := by
  simp [guidBytes]

lemma guidWrite_eq (buf : ℕ) (guid : Guid) :
    guidWrite buf guid = storeAt buf (guidBytes guid) := by
  have hnodes : ((List.finRange 6).flatMap fun i : Fin 6 => writePu8 (buf + 10 + i) (guid.nodes i))
      = storeAt (buf + 10) ((List.finRange 6).map guid.nodes) := by
    simp only [writePu8_eq]
    rfl
  rw [guidWrite, hnodes, writePu32_eq, writePu16_eq, writePu16_eq, writePu8_eq, writePu8_eq]
  simp only [guidBytes, storeAt_append, List.length_append, length_leBytes, List.length_singleton,
    Nat.reduceAdd]

lemma guidCrcCompute_eq (crc32 : Pcrc32) (guid : Guid) :
    guidCrcCompute crc32 guid = crc32Feed crc32 (guidBytes guid) := by
  rw [guidCrcCompute, crc32Compute32_eq, crc32Compute16_eq, crc32Compute16_eq, crc32Compute8_eq,
    crc32Compute8_eq]
  simp only [guidBytes, crc32Feed_append]
  exact List.foldl_map.symm

lemma guidBytes_read (m : Image) (buf : ℕ) : guidBytes (guidRead m buf) = loadAt m buf 16 := by
  have hnodes : (List.finRange 6).map (guidRead m buf).nodes = loadAt m (buf + 10) 6 := rfl
  have h1 : loadAt m (buf + 8) 1 = [(guidRead m buf).clSeqHiRes] := rfl
  have h2 : loadAt m (buf + 9) 1 = [(guidRead m buf).clSeqLo] := rfl
  rw [guidBytes, hnodes, ← h1, ← h2]
  simp only [guidRead, leBytes_readPu32, leBytes_readPu16]
  simp only [← loadAt_add, Nat.reduceAdd]

/-- An identifier whose first field has 32 bits is given by its bytes. -/
lemma guidBytes_inj {g h : Guid} (hg : g.timeLo.toNat < 2 ^ 32) (hh : h.timeLo.toNat < 2 ^ 32)
    (he : guidBytes g = guidBytes h) : g = h := by
  obtain ⟨he, hnodes⟩ := List.append_inj' he (by simp)
  obtain ⟨he, hlo⟩ := List.append_inj' he (by simp)
  obtain ⟨he, hhi⟩ := List.append_inj' he (by simp)
  obtain ⟨he, hver⟩ := List.append_inj' he (by simp)
  obtain ⟨htime, hmid⟩ := List.append_inj' he (by simp)
  obtain ⟨g1, g2, g3, g4, g5, g6⟩ := g
  obtain ⟨h1, h2, h3, h4, h5, h6⟩ := h
  obtain rfl := le32_inj hg hh htime
  obtain rfl := le16_inj hmid
  obtain rfl := le16_inj hver
  obtain rfl := List.singleton_inj.1 hhi
  obtain rfl := List.singleton_inj.1 hlo
  have hfun : g6 = h6 := funext fun i => List.map_inj_left.1 hnodes i (List.mem_finRange i)
  rw [hfun]

lemma guidRead_timeLo_lt (m : Image) (buf : ℕ) : (guidRead m buf).timeLo.toNat < 2 ^ 32 :=
  readPu32_lt m buf

/-! ## Headers -/

/-- The header up to its checksum. -/
def hdrLo (hdr : GptHdr) : List UInt8 :=
  gptSig ++ leBytes 4 hdr.rev.toNat ++ leBytes 4 hdr.hdrSz.toNat ++ leBytes 4 hdr.hdrCrc32.toNat

/-- The header from the LBA of itself on. -/
def hdrHi (hdr : GptHdr) : List UInt8 :=
  leBytes 8 hdr.myLba.toNat ++ leBytes 8 hdr.altLba.toNat ++
  leBytes 8 hdr.firstUsableLba.toNat ++ leBytes 8 hdr.lastUsableLba.toNat ++
  guidBytes hdr.diskGuid ++ leBytes 8 hdr.partTableLba.toNat ++
  leBytes 4 hdr.partTableEntryCnt.toNat ++ leBytes 4 hdr.partEntrySz.toNat ++
  leBytes 4 hdr.partTableCrc32.toNat

/-- The 92 bytes of a header; four bytes after the checksum are reserved. -/
def hdrBytes (hdr : GptHdr) : List UInt8 := hdrLo hdr ++ leBytes 4 0 ++ hdrHi hdr

@[simp] lemma length_hdrLo (hdr : GptHdr) : (hdrLo hdr).length = 20 := by
  simp [hdrLo, gptSig]

@[simp] lemma length_hdrHi (hdr : GptHdr) : (hdrHi hdr).length = 68 := by
  simp [hdrHi]

@[simp] lemma length_hdrBytes (hdr : GptHdr) : (hdrBytes hdr).length = 92 := by
  simp [hdrBytes]

lemma gptHdrWrite_eq (buf : ℕ) (hdr : GptHdr) :
    gptHdrWrite buf hdr = storeAt buf (hdrBytes hdr) := by
  have hsig : ((List.range gptSig.length).flatMap fun i => writePu8 (buf + i) (gptSig.getD i 0))
      = storeAt buf gptSig := by
    simp only [writePu8_eq]
    rfl
  have hlen : gptSig.length = 8 := rfl
  rw [gptHdrWrite, hsig, guidWrite_eq]
  simp only [writePu32_eq, writePu64_eq, hdrBytes, hdrLo, hdrHi, storeAt_append, length_leBytes,
    length_guidBytes, hlen, Nat.reduceAdd, Nat.add_assoc, List.append_assoc]
  rfl

lemma mem_storeAt_hdrBytes {o : ℕ} {hdr : GptHdr} {s : Store}
    (hs : s ∈ storeAt o (hdrBytes hdr)) : o ≤ s.1 ∧ s.1 < o + 92 := by
  simpa using mem_storeAt hs

/-- The checksum of a header is the one of its bytes, with zeros for itself. -/
lemma gptHdrCrcCreate_eq (hdr : GptHdr) :
    gptHdrCrcCreate hdr = crc32Of (hdrBytes { hdr with hdrCrc32 := 0 }) := by
  simp only [gptHdrCrcCreate, crc32Compute32_eq, crc32Compute64_eq, guidCrcCompute_eq, crc32Of,
    hdrBytes, hdrLo, hdrHi, crc32Feed_append]
  rfl

lemma gptHdrCrcCreate_lt (hdr : GptHdr) : (gptHdrCrcCreate hdr).toNat < 2 ^ 32 := by
  rw [gptHdrCrcCreate_eq]
  exact crc32Of_lt _

/-- The checksum does not depend on the checksum field. -/
lemma gptHdrCrcCreate_setCrc (hdr : GptHdr) (crc32 : Pcrc32) :
    gptHdrCrcCreate { hdr with hdrCrc32 := crc32 } = gptHdrCrcCreate hdr := rfl

/-- The fields of 32 bits are in range. -/
structure GptHdr.Bounded (hdr : GptHdr) : Prop where
  rev : hdr.rev.toNat < 2 ^ 32
  hdrSz : hdr.hdrSz.toNat < 2 ^ 32
  hdrCrc32 : hdr.hdrCrc32.toNat < 2 ^ 32
  diskGuid : hdr.diskGuid.timeLo.toNat < 2 ^ 32
  partTableEntryCnt : hdr.partTableEntryCnt.toNat < 2 ^ 32
  partEntrySz : hdr.partEntrySz.toNat < 2 ^ 32
  partTableCrc32 : hdr.partTableCrc32.toNat < 2 ^ 32

lemma gptHdrRead_bounded (m : Image) (buf : ℕ) : (gptHdrRead m buf).Bounded :=
  ⟨readPu32_lt _ _, readPu32_lt _ _, readPu32_lt _ _, guidRead_timeLo_lt _ _, readPu32_lt _ _,
    readPu32_lt _ _, readPu32_lt _ _⟩

lemma gptIsPresent_iff {m : Image} {buf : ℕ} :
    gptIsPresent m buf = true ↔ loadAt m buf 8 = gptSig := by
  have hlen : gptSig.length = 8 := rfl
  rw [gptIsPresent, List.all_eq_true, ← hlen, ← holds_iff_loadAt, holds_iff_getElem]
  constructor
  · intro h k hk
    have := h k (List.mem_range.2 hk)
    rw [beq_iff_eq] at this
    rw [this, List.getD_eq_getElem _ _ hk]
  · intro h k hk
    have hk := List.mem_range.1 hk
    rw [beq_iff_eq, h k hk, List.getD_eq_getElem _ _ hk]

lemma hdrLo_read {m : Image} {buf : ℕ} (h : gptIsPresent m buf = true) :
    hdrLo (gptHdrRead m buf) = loadAt m buf 20 := by
  rw [hdrLo, ← gptIsPresent_iff.1 h]
  simp only [gptHdrRead, leBytes_readPu32]
  simp only [← loadAt_add, Nat.reduceAdd]

lemma hdrHi_read (m : Image) (buf : ℕ) :
    hdrHi (gptHdrRead m buf) = loadAt m (buf + 24) 68 := by
  simp only [hdrHi, gptHdrRead, leBytes_readPu32, leBytes_readPu64, guidBytes_read]
  rw [show buf + 32 = buf + 24 + 8 from rfl, show buf + 40 = buf + 24 + 16 from rfl,
    show buf + 48 = buf + 24 + 24 from rfl, show buf + 56 = buf + 24 + 32 from rfl,
    show buf + 72 = buf + 24 + 48 from rfl, show buf + 80 = buf + 24 + 56 from rfl,
    show buf + 84 = buf + 24 + 60 from rfl, show buf + 88 = buf + 24 + 64 from rfl]
  simp only [← loadAt_add, Nat.reduceAdd]

/-- A header whose short fields are in range is given by its bytes. -/
lemma hdrBytes_inj {g h : GptHdr} (hg : g.Bounded) (hh : h.Bounded) (hlo : hdrLo g = hdrLo h)
    (hhi : hdrHi g = hdrHi h) : g = h := by
  obtain ⟨hlo, e3⟩ := List.append_inj' hlo (by simp)
  obtain ⟨hlo, e2⟩ := List.append_inj' hlo (by simp)
  obtain ⟨-, e1⟩ := List.append_inj' hlo (by simp)
  obtain ⟨hhi, e12⟩ := List.append_inj' hhi (by simp)
  obtain ⟨hhi, e11⟩ := List.append_inj' hhi (by simp)
  obtain ⟨hhi, e10⟩ := List.append_inj' hhi (by simp)
  obtain ⟨hhi, e9⟩ := List.append_inj' hhi (by simp)
  obtain ⟨hhi, e8⟩ := List.append_inj' hhi (by simp)
  obtain ⟨hhi, e7⟩ := List.append_inj' hhi (by simp)
  obtain ⟨hhi, e6⟩ := List.append_inj' hhi (by simp)
  obtain ⟨e4, e5⟩ := List.append_inj' hhi (by simp)
  have e1 := le32_inj hg.rev hh.rev e1
  have e2 := le32_inj hg.hdrSz hh.hdrSz e2
  have e3 := le32_inj hg.hdrCrc32 hh.hdrCrc32 e3
  have e8 := guidBytes_inj hg.diskGuid hh.diskGuid e8
  have e10 := le32_inj hg.partTableEntryCnt hh.partTableEntryCnt e10
  have e11 := le32_inj hg.partEntrySz hh.partEntrySz e11
  have e12 := le32_inj hg.partTableCrc32 hh.partTableCrc32 e12
  cases g
  cases h
  rw [GptHdr.mk.injEq]
  exact ⟨e1, e2, e3, le64_inj e4, le64_inj e5, le64_inj e6, le64_inj e7, e8, le64_inj e9, e10, e11,
    e12⟩

/-- Reading a header that has been written gives it back. -/
lemma gptHdrRead_of_holds {m : Image} {buf : ℕ} {hdr : GptHdr} (hb : hdr.Bounded)
    (h : Holds m buf (hdrBytes hdr)) : gptIsPresent m buf = true ∧ gptHdrRead m buf = hdr := by
  rw [hdrBytes, holds_append, holds_append] at h
  obtain ⟨⟨hlo, -⟩, hhi⟩ := h
  have hsig : gptIsPresent m buf = true := by
    rw [gptIsPresent_iff]
    simp only [hdrLo, holds_append] at hlo
    exact holds_iff_loadAt.1 hlo.1.1.1
  refine ⟨hsig, hdrBytes_inj (gptHdrRead_bounded m buf) hb ?_ ?_⟩
  · rw [hdrLo_read hsig]
    simpa using holds_iff_loadAt.1 hlo
  · rw [hdrHi_read]
    simpa using holds_iff_loadAt.1 hhi

/-! ## Entries -/

/-- A name unit as it is stored, in 16 bits. -/
def nameUnit (name : Fin 36 → PcharUcs) (k : ℕ) : ℕ :=
  if h : k < 36 then (name ⟨k, h⟩).toUInt16.toNat else 0

/-- The first 56 bytes of an entry. -/
def entHead (entry : GptPartEnt) : List UInt8 :=
  guidBytes entry.typeGuid ++ guidBytes entry.uniqueGuid ++ leBytes 8 entry.startLba.toNat ++
  leBytes 8 entry.endLba.toNat ++ leBytes 8 entry.attr.toNat

/-- The 72 bytes of a name. -/
def nameStream (name : Fin 36 → PcharUcs) : List UInt8 :=
  (List.range 36).flatMap fun k => leBytes 2 (nameUnit name k)

/-- The 37 bytes that the overlapping units leave behind. -/
def namePacked (name : Fin 36 → PcharUcs) : List UInt8 :=
  (List.range 36).map (fun k => UInt8.ofNat (nameUnit name k)) ++
    [UInt8.ofNat (nameUnit name 35 / 256)]

/-- The 128 bytes over which the checksum of an entry is taken. -/
def entStream (entry : GptPartEnt) : List UInt8 := entHead entry ++ nameStream entry.name

/-- The 93 bytes that are stored for an entry. -/
def entPacked (entry : GptPartEnt) : List UInt8 := entHead entry ++ namePacked entry.name

@[simp] lemma length_entHead (entry : GptPartEnt) : (entHead entry).length = 56 := by
  simp [entHead]

@[simp] lemma length_nameStream (name : Fin 36 → PcharUcs) : (nameStream name).length = 72 := by
  simp [nameStream]

@[simp] lemma length_namePacked (name : Fin 36 → PcharUcs) : (namePacked name).length = 37 := by
  simp [namePacked]

@[simp] lemma length_entStream (entry : GptPartEnt) : (entStream entry).length = 128 := by
  simp [entStream]

@[simp] lemma length_entPacked (entry : GptPartEnt) : (entPacked entry).length = 93 := by
  simp [entPacked]

/-- Going through the units of a name by number. -/
lemma finRange_nameUnit {α : Type*} (name : Fin 36 → PcharUcs) (f : ℕ → ℕ → List α) :
    ((List.finRange 36).flatMap fun i : Fin 36 => f i (name i).toUInt16.toNat) =
      (List.range 36).flatMap fun k => f k (nameUnit name k) := by
  rw [← List.map_coe_finRange_eq_range, List.flatMap_map]
  refine List.flatMap_congr fun i _ => ?_
  simp [nameUnit]

lemma gptPartEntCrcCompute_eq (crc32 : Pcrc32) (entry : GptPartEnt) :
    gptPartEntCrcCompute crc32 entry = crc32Feed crc32 (entStream entry) := by
  have hname : ∀ c : Pcrc32,
      (List.finRange 36).foldl (fun c i => crc32Compute16 c (entry.name i).toUInt16) c
        = crc32Feed c (nameStream entry.name) := by
    intro c
    rw [nameStream, ← finRange_nameUnit entry.name fun _ n => leBytes 2 n, crc32Feed,
      List.foldl_flatMap]
    simp only [crc32Compute16_eq, crc32Feed]
  simp only [gptPartEntCrcCompute, guidCrcCompute_eq, crc32Compute64_eq, hname, entStream, entHead,
    crc32Feed_append]

/-- **What an entry leaves on the disk.** -/
lemma stores_gptPartEntWrite (m : Image) (buf : ℕ) (entry : GptPartEnt) :
    stores m (gptPartEntWrite buf entry) = stores m (storeAt buf (entPacked entry)) := by
  have hname : ((List.finRange 36).flatMap fun i : Fin 36 =>
      writePu16 (buf + 56 + i) (entry.name i).toUInt16) =
      (List.range 36).flatMap fun k => storeAt (buf + 56 + k)
        [UInt8.ofNat (nameUnit entry.name k), UInt8.ofNat (nameUnit entry.name k / 256)] := by
    simp only [writePu16_eq]
    exact finRange_nameUnit entry.name fun k n => storeAt (buf + 56 + k) (leBytes 2 n)
  have hhead : guidWrite buf entry.typeGuid ++ guidWrite (buf + 16) entry.uniqueGuid ++
      writePu64 (buf + 32) entry.startLba ++ writePu64 (buf + 40) entry.endLba ++
      writePu64 (buf + 48) entry.attr = storeAt buf (entHead entry) := by
    simp only [guidWrite_eq, writePu64_eq, entHead, storeAt_append, List.length_append,
      length_leBytes, length_guidBytes, Nat.reduceAdd]
  rw [gptPartEntWrite, hhead, hname, stores_append, entPacked, storeAt_append, stores_append,
    length_entHead]
  exact stores_overlap _ (buf + 56) (fun k => UInt8.ofNat (nameUnit entry.name k))
    (fun k => UInt8.ofNat (nameUnit entry.name k / 256)) 35

lemma mem_gptPartEntWrite {buf : ℕ} {entry : GptPartEnt} {s : Store}
    (h : s ∈ gptPartEntWrite buf entry) : buf ≤ s.1 ∧ s.1 < buf + 93 := by
  simp only [gptPartEntWrite, guidWrite_eq, writePu64_eq, writePu16_eq, List.mem_append,
    List.mem_flatMap] at h
  rcases h with ((((h | h) | h) | h) | h) | ⟨i, -, h⟩
  all_goals
    have := mem_storeAt h
    simp only [length_guidBytes, length_leBytes] at this
    omega

/-- The bytes that the reader of an entry sees: the name units overlap. -/
def entSeen (m : Image) (buf : ℕ) : List UInt8 :=
  loadAt m buf 56 ++ (List.range 36).flatMap fun k => loadAt m (buf + 56 + k) 2

lemma nameUnit_read (m : Image) (buf k : ℕ) (hk : k < 36) :
    nameUnit (gptPartEntRead m buf).name k = (readPu16 m (buf + 56 + k)).toNat := by
  rw [nameUnit, dif_pos hk]
  simp [gptPartEntRead]

lemma entHead_read (m : Image) (buf : ℕ) : entHead (gptPartEntRead m buf) = loadAt m buf 56 := by
  simp only [entHead, gptPartEntRead, guidBytes_read, leBytes_readPu64]
  simp only [← loadAt_add, Nat.reduceAdd]

/-- The checksum of an entry that has been read is taken over the bytes that were seen. -/
lemma entStream_read (m : Image) (buf : ℕ) : entStream (gptPartEntRead m buf) = entSeen m buf := by
  rw [entStream, entSeen, entHead_read, nameStream]
  refine congrArg _ (List.flatMap_congr fun k hk => ?_)
  rw [nameUnit_read m buf k (List.mem_range.1 hk), leBytes_readPu16]

/-- The short fields of an entry are in range. -/
structure GptPartEnt.Bounded (entry : GptPartEnt) : Prop where
  typeGuid : entry.typeGuid.timeLo.toNat < 2 ^ 32
  uniqueGuid : entry.uniqueGuid.timeLo.toNat < 2 ^ 32
  name : ∀ i, (entry.name i).toNat < 2 ^ 16

lemma gptPartEntRead_bounded (m : Image) (buf : ℕ) : (gptPartEntRead m buf).Bounded :=
  ⟨guidRead_timeLo_lt _ _, guidRead_timeLo_lt _ _, fun i => by
    simpa [gptPartEntRead] using (readPu16 m (buf + 56 + i)).toNat_lt⟩

lemma nameUnit_of_lt {name : Fin 36 → PcharUcs} {i : Fin 36} (h : (name i).toNat < 2 ^ 16) :
    nameUnit name i = (name i).toNat := by
  simpa [nameUnit] using h

/-- An entry whose short fields are in range is given by its first bytes and its units. -/
lemma ent_ext {e f : GptPartEnt} (he : e.Bounded) (hf : f.Bounded) (hhead : entHead e = entHead f)
    (hname : ∀ k < 36, nameUnit e.name k = nameUnit f.name k) : e = f := by
  obtain ⟨hhead, e5⟩ := List.append_inj' hhead (by simp)
  obtain ⟨hhead, e4⟩ := List.append_inj' hhead (by simp)
  obtain ⟨hhead, e3⟩ := List.append_inj' hhead (by simp)
  obtain ⟨e1, e2⟩ := List.append_inj' hhead (by simp)
  have e1 := guidBytes_inj he.typeGuid hf.typeGuid e1
  have e2 := guidBytes_inj he.uniqueGuid hf.uniqueGuid e2
  have e6 : e.name = f.name := by
    funext i
    have := hname i i.isLt
    rw [nameUnit_of_lt (he.name i), nameUnit_of_lt (hf.name i)] at this
    exact UInt64.toNat_inj.1 this
  cases e
  cases f
  rw [GptPartEnt.mk.injEq]
  exact ⟨e1, e2, le64_inj e3, le64_inj e4, le64_inj e5, e6⟩

/-- The names that survive the overlap: the high byte of a unit is the low byte of the
next. -/
def NameChained (name : Fin 36 → PcharUcs) : Prop :=
  ∀ k < 35, nameUnit name k / 256 = nameUnit name (k + 1) % 256

/-- An entry that can be read back. -/
structure GptPartEnt.Codable (entry : GptPartEnt) : Prop extends entry.Bounded where
  chained : NameChained entry.name

lemma nameUnit_lt (name : Fin 36 → PcharUcs) (k : ℕ) : nameUnit name k < 2 ^ 16 := by
  unfold nameUnit
  split
  · exact UInt16.toNat_lt _
  · decide

/-- The bytes of a name that has been written, and the units that are read from them: each has
the low byte of the next one for its high byte. -/
lemma nameUnit_of_holds {m : Image} {buf : ℕ} {entry : GptPartEnt}
    (h : Holds m buf (entPacked entry)) {k : ℕ} (hk : k < 36) :
    nameUnit (gptPartEntRead m buf).name k = nameUnit entry.name k % 256 +
      256 * (if k < 35 then nameUnit entry.name (k + 1) % 256
        else nameUnit entry.name k / 256) := by
  rw [entPacked, holds_append, namePacked, holds_append, length_entHead] at h
  obtain ⟨-, hlow, hlast⟩ := h
  have hlt := nameUnit_lt entry.name k
  have h0 : ∀ j < 36, m (buf + 56 + j) = UInt8.ofNat (nameUnit entry.name j) := by
    intro j hj
    have hget := holds_iff_getElem.1 hlow j (by simpa using hj)
    rwa [List.getElem_map, List.getElem_range] at hget
  rw [nameUnit_read m buf k hk, toNat_readPu16]
  simp only [loadAt_succ, loadAt_zero, ofLe_cons, ofLe_nil, h0 k hk]
  split
  · next hk' =>
    rw [Nat.add_assoc, h0 (k + 1) (by omega), UInt8.toNat_ofNat', UInt8.toNat_ofNat']
    omega
  · obtain rfl : k = 35 := by omega
    have hlast : m (buf + 56 + 36) = UInt8.ofNat (nameUnit entry.name 35 / 256) := by
      simpa using hlast
    rw [hlast, UInt8.toNat_ofNat', UInt8.toNat_ofNat']
    omega

/-- **Reading an entry that has been written** gives it back exactly if its name survives the
overlap. -/
lemma gptPartEntRead_iff_of_holds {m : Image} {buf : ℕ} {entry : GptPartEnt} (hb : entry.Bounded)
    (h : Holds m buf (entPacked entry)) :
    gptPartEntRead m buf = entry ↔ NameChained entry.name := by
  constructor
  · intro he k hk
    have hread := nameUnit_of_holds h (show k < 36 by omega)
    rw [he, if_pos hk] at hread
    omega
  · intro hc
    have hhead := h
    rw [entPacked, holds_append, length_entHead] at hhead
    refine ent_ext (gptPartEntRead_bounded m buf) hb ?_ fun k hk => ?_
    · rw [entHead_read]
      simpa using holds_iff_loadAt.1 hhead.1
    · rw [nameUnit_of_holds h hk]
      split
      · next hk' =>
        rw [← hc k hk']
        omega
      · omega

lemma gptPartEntRead_of_holds {m : Image} {buf : ℕ} {entry : GptPartEnt} (hc : entry.Codable)
    (h : Holds m buf (entPacked entry)) : gptPartEntRead m buf = entry :=
  (gptPartEntRead_iff_of_holds hc.toBounded h).2 hc.chained

end Partman

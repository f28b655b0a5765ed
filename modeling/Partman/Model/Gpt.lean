/-
# The GUID Partition Table (`gpt.c`)
-/
import Partman.Model.Schem

namespace Partman

open Lib

/-- The characters of `GPT_SIG`. -/
def gptSig : List UInt8 := [0x45, 0x46, 0x49, 0x20, 0x50, 0x41, 0x52, 0x54]

/-- GPT header revision number. -/
def gptHdrRev : Pu32 := 0x00010000

/-- GPT header size, in bytes. -/
def gptHdrSz : Pu32 := 92

/-- GPT partition entry size, in bytes. -/
def gptPartEntSz : Pu32 := 128

/-- The default partition type. -/
def gptPartTypeDef : Guid :=
  ⟨0x0FC63DAF, 0x8483, 0x4772, 0x8E, 0x79, ![0x3D, 0x69, 0xD8, 0x47, 0x7D, 0xE4]⟩

/-- `enum gpt_pair_load_res`. -/
inductive GptPairLoadRes
  | ok
  | hdrInv
  | tableInv
  | fatal
deriving DecidableEq, Repr

/-- `struct gpt_part_ent`. -/
structure GptPartEnt where
  typeGuid : Guid
  uniqueGuid : Guid
  startLba : Plba
  endLba : Plba
  attr : Pu64
  name : Fin 36 → PcharUcs
deriving DecidableEq

/-- An entry of zeroed memory. -/
def GptPartEnt.zero : GptPartEnt := ⟨Guid.zero, Guid.zero, 0, 0, 0, fun _ => 0⟩

/-- `struct gpt_hdr`. -/
structure GptHdr where
  rev : Pu32
  hdrSz : Pu32
  hdrCrc32 : Pcrc32
  myLba : Plba
  altLba : Plba
  firstUsableLba : Plba
  lastUsableLba : Plba
  diskGuid : Guid
  partTableLba : Plba
  partTableEntryCnt : Pu32
  partEntrySz : Pu32
  partTableCrc32 : Pcrc32
deriving DecidableEq

/-- The header of zeroed memory. -/
def GptHdr.zero : GptHdr := ⟨0, 0, 0, 0, 0, 0, 0, Guid.zero, 0, 0, 0, 0⟩

/-- A table of entries, by index. -/
abbrev GptTable := ℕ → GptPartEnt

/-- A table of zeroed memory. -/
def gptTableZero : GptTable := fun _ => GptPartEnt.zero

/-- `struct gpt`. -/
structure Gpt where
  hdrPrim : GptHdr
  tablePrim : GptTable
  hdrSec : GptHdr
  tableSec : GptTable

/-- The structure after the tables have been allocated. -/
def Gpt.zero : Gpt := ⟨GptHdr.zero, gptTableZero, GptHdr.zero, gptTableZero⟩

/-! ## Checksums -/

def gptPartEntCrcCompute (crc32 : Pcrc32) (entry : GptPartEnt) : Pcrc32 :=
  let crc32 := guidCrcCompute crc32 entry.typeGuid
  let crc32 := guidCrcCompute crc32 entry.uniqueGuid
  let crc32 := crc32Compute64 crc32 entry.startLba
  let crc32 := crc32Compute64 crc32 entry.endLba
  let crc32 := crc32Compute64 crc32 entry.attr
  (List.finRange 36).foldl (fun crc32 i => crc32Compute16 crc32 (entry.name i).toUInt16) crc32

def gptTableCrcCreate (table : GptTable) (tableLen : Pu32) : Pcrc32 :=
  crc32Finalize <|
    (List.range tableLen.toNat).foldl (fun crc32 i => gptPartEntCrcCompute crc32 (table i))
      crc32Init

def gptHdrCrcCreate (hdr : GptHdr) : Pcrc32 :=
  let crc32 := gptSig.foldl crc32Compute8 crc32Init
  let crc32 := crc32Compute32 crc32 hdr.rev
  let crc32 := crc32Compute32 crc32 hdr.hdrSz
  -- the checksum field counts as zero, and so do the four reserved bytes
  let crc32 := crc32Compute32 crc32 0
  let crc32 := crc32Compute32 crc32 0
  let crc32 := crc32Compute64 crc32 hdr.myLba
  let crc32 := crc32Compute64 crc32 hdr.altLba
  let crc32 := crc32Compute64 crc32 hdr.firstUsableLba
  let crc32 := crc32Compute64 crc32 hdr.lastUsableLba
  let crc32 := guidCrcCompute crc32 hdr.diskGuid
  let crc32 := crc32Compute64 crc32 hdr.partTableLba
  let crc32 := crc32Compute32 crc32 hdr.partTableEntryCnt
  let crc32 := crc32Compute32 crc32 hdr.partEntrySz
  let crc32 := crc32Compute32 crc32 hdr.partTableCrc32
  crc32Finalize crc32

/-! ## Codecs -/

/-- `gpt_part_ent_write`.  The name units go to offsets one byte apart. -/
def gptPartEntWrite (buf : ℕ) (entry : GptPartEnt) : List Store :=
  guidWrite buf entry.typeGuid ++ guidWrite (buf + 16) entry.uniqueGuid ++
  writePu64 (buf + 32) entry.startLba ++ writePu64 (buf + 40) entry.endLba ++
  writePu64 (buf + 48) entry.attr ++
  (List.finRange 36).flatMap fun i : Fin 36 =>
    writePu16 (buf + 56 + i) (entry.name i).toUInt16

/-- `gpt_part_ent_read`.  The name units are taken from offsets one byte apart. -/
def gptPartEntRead (m : Image) (buf : ℕ) : GptPartEnt where
  typeGuid := guidRead m buf
  uniqueGuid := guidRead m (buf + 16)
  startLba := readPu64 m (buf + 32)
  endLba := readPu64 m (buf + 40)
  attr := readPu64 m (buf + 48)
  name := fun i => (readPu16 m (buf + 56 + i)).toUInt64

/-- The offset of an entry in the table, `i * entry_sz`. -/
def entOff (i : ℕ) (entrySz : Pu32) : ℕ := (UInt64.ofNat i * entrySz).toNat

def gptTableWrite (buf : ℕ) (table : GptTable) (tableLen entrySz : Pu32) : List Store :=
  (List.range (min tableLen.toNat gptMaxPartCnt.toNat)).flatMap fun i =>
    gptPartEntWrite (buf + entOff i entrySz) (table i)

def gptTableRead (m : Image) (buf : ℕ) (table : GptTable) (tableLen entrySz : Pu32) : GptTable :=
  fun i =>
    if i < min tableLen.toNat gptMaxPartCnt.toNat then
      gptPartEntRead m (buf + entOff i entrySz)
    else table i

/-- Where the last byte ends that `gpt_table_read` looks at: an entry is read up to the second
byte of the last unit of its name, which are 93 bytes. -/
def gptTableReach (tableLen entrySz : Pu32) : ℕ :=
  entOff (min tableLen.toNat gptMaxPartCnt.toNat - 1) entrySz + 93

def gptHdrEraseSig (buf : ℕ) : List Store :=
  (List.range gptSig.length).flatMap fun i => writePu8 (buf + i) 0

def gptHdrWrite (buf : ℕ) (hdr : GptHdr) : List Store :=
  ((List.range gptSig.length).flatMap fun i => writePu8 (buf + i) (gptSig.getD i 0)) ++
  writePu32 (buf + 8) hdr.rev ++ writePu32 (buf + 12) hdr.hdrSz ++
  writePu32 (buf + 16) hdr.hdrCrc32 ++ writePu32 (buf + 20) 0 ++
  writePu64 (buf + 24) hdr.myLba ++ writePu64 (buf + 32) hdr.altLba ++
  writePu64 (buf + 40) hdr.firstUsableLba ++ writePu64 (buf + 48) hdr.lastUsableLba ++
  guidWrite (buf + 56) hdr.diskGuid ++
  writePu64 (buf + 72) hdr.partTableLba ++ writePu32 (buf + 80) hdr.partTableEntryCnt ++
  writePu32 (buf + 84) hdr.partEntrySz ++ writePu32 (buf + 88) hdr.partTableCrc32

def gptHdrRead (m : Image) (buf : ℕ) : GptHdr where
  rev := readPu32 m (buf + 8)
  hdrSz := readPu32 m (buf + 12)
  hdrCrc32 := readPu32 m (buf + 16)
  myLba := readPu64 m (buf + 24)
  altLba := readPu64 m (buf + 32)
  firstUsableLba := readPu64 m (buf + 40)
  lastUsableLba := readPu64 m (buf + 48)
  diskGuid := guidRead m (buf + 56)
  partTableLba := readPu64 m (buf + 72)
  partTableEntryCnt := readPu32 m (buf + 80)
  partEntrySz := readPu32 m (buf + 84)
  partTableCrc32 := readPu32 m (buf + 88)

/-! ## The two copies -/

/-- The header that `gpt_restore` builds from the one of the other copy. -/
def gptRestoreHdr (hdrSrc : GptHdr) (tableDstLba : Plba) : GptHdr :=
  let hdrDst := { hdrSrc with
    myLba := hdrSrc.altLba
    altLba := hdrSrc.myLba
    partTableLba := tableDstLba }
  { hdrDst with hdrCrc32 := gptHdrCrcCreate hdrDst }

/-- The copying loop of `gpt_restore`. -/
def gptRestoreTable (tableDst tableSrc : GptTable) (cnt : Pu32) : GptTable :=
  fun i => if i < cnt.toNat then tableSrc i else tableDst i

def gptRestore (gpt : Gpt) (tableDstLba : Plba) (restorePrimary : Pflag) : Gpt :=
  if restorePrimary then
    { gpt with
      hdrPrim := gptRestoreHdr gpt.hdrSec tableDstLba
      tablePrim := gptRestoreTable gpt.tablePrim gpt.tableSec gpt.hdrSec.partTableEntryCnt }
  else
    { gpt with
      hdrSec := gptRestoreHdr gpt.hdrPrim tableDstLba
      tableSec := gptRestoreTable gpt.tableSec gpt.tablePrim gpt.hdrPrim.partTableEntryCnt }

def gptTableIsValid (hdr : GptHdr) (table : GptTable) : Pflag :=
  hdr.partTableCrc32 == gptTableCrcCreate table hdr.partTableEntryCnt

def gptHdrIsValid (hdr : GptHdr) (hdrLba : Plba) : Pflag :=
  hdr.hdrCrc32 == gptHdrCrcCreate hdr && hdr.myLba == hdrLba

def gptIsPartUsed (part : GptPartEnt) : Pflag := !guidIsZero part.typeGuid

/-- `gpt_is_present`: the first eight bytes are those of the signature, which has no zero
byte at which the comparison could stop early. -/
def gptIsPresent (m : Image) (buf : ℕ) : Pflag :=
  (List.range gptSig.length).all fun i => m (buf + i) == gptSig.getD i 0

/-- The size of the table in sectors, as both `gpt_pair_save` and `gpt_pair_load` compute
it. -/
def gptTableSzSecs (ctx : ImgCtx) (hdr : GptHdr) : Plba :=
  byteToLba ctx (hdr.partTableEntryCnt * hdr.partEntrySz) true

/-- The common exit of `gpt_pair_save` and `gpt_pair_load`: what was mapped is unmapped,
header first.  The table is described by its pointer, LBA and size. -/
def gptPairUnmap (sys : Sys) (ctx : ImgCtx) (hdrReg : Pu64) (hdrLba : Plba)
    (table : Option (Pu64 × Plba × Plba)) : Pres :=
  match unmapSecs sys hdrReg ctx hdrLba 1 with
  | .fail => .fail
  | .ok =>
    match table with
    | none => .ok
    | some (tableReg, tableLba, tableSzSecs) => unmapSecs sys tableReg ctx tableLba tableSzSecs

/-- `gpt_pair_save`: the outcome and the stores performed. -/
def gptPairSave (sys : Sys) (hdr : GptHdr) (table : GptTable) (ctx : ImgCtx) :
    Pres × List Store :=
  match mapSecs sys ctx hdr.myLba 1 with
  | none => (.fail, [])
  | some hdrReg =>
    let hdrStores := gptHdrWrite hdrReg.toNat hdr
    let tableLba := hdr.partTableLba
    let tableSzSecs := gptTableSzSecs ctx hdr
    match mapSecs sys ctx tableLba tableSzSecs with
    | none =>
      -- the outcome is a failure whether or not the header can be unmapped
      (.fail, hdrStores)
    | some tableReg =>
      (gptPairUnmap sys ctx hdrReg hdr.myLba (some (tableReg, tableLba, tableSzSecs)),
        hdrStores ++ gptTableWrite tableReg.toNat table hdr.partTableEntryCnt hdr.partEntrySz)

/-- What a load of one copy leaves: the outcome, the header and the table as far as they
have been filled, and the sectors that were mapped and then read. -/
structure GptPairLoad where
  res : GptPairLoadRes
  hdr : GptHdr
  table : GptTable
  reads : List SecRead

/-- The body of `gpt_pair_load` after the header has been accepted and counted.  Returns
the outcome before unmapping, the pointer to the mapped table, the table and its reads. -/
def gptPairLoadTable (sys : Sys) (m : Image) (ctx : ImgCtx) (hdr : GptHdr) (table : GptTable) :
    GptPairLoadRes × Option (Pu64 × Plba × Plba) × GptTable × List SecRead :=
  let tableLba := hdr.partTableLba
  let tableSzSecs := gptTableSzSecs ctx hdr
  match mapSecs sys ctx tableLba tableSzSecs with
  | none => (.fatal, none, table, [])
  | some tableReg =>
    let reads := if hdr.partTableEntryCnt = 0 then []
      else [⟨tableLba, tableSzSecs, gptTableReach hdr.partTableEntryCnt hdr.partEntrySz⟩]
    let table := gptTableRead m tableReg.toNat table hdr.partTableEntryCnt hdr.partEntrySz
    (if gptTableIsValid hdr table then .ok else .tableInv,
      some (tableReg, tableLba, tableSzSecs), table, reads)

def gptPairLoad (sys : Sys) (m : Image) (hdr : GptHdr) (table : GptTable) (ctx : ImgCtx)
    (hdrLba : Plba) : GptPairLoad :=
  match mapSecs sys ctx hdrLba 1 with
  | none => ⟨.fatal, hdr, table, []⟩
  | some hdrReg =>
    let reads := [⟨hdrLba, 1, gptHdrSz.toNat⟩]
    let close (res : GptPairLoadRes) (tableReg : Option (Pu64 × Plba × Plba)) :=
      if gptPairUnmap sys ctx hdrReg hdrLba tableReg = .ok then res else .fatal
    if !gptIsPresent m hdrReg.toNat then ⟨close .hdrInv none, hdr, table, reads⟩
    else
      let hdr := gptHdrRead m hdrReg.toNat
      if !gptHdrIsValid hdr hdrLba then ⟨close .hdrInv none, hdr, table, reads⟩
      else if hdr.partTableEntryCnt > gptMaxPartCnt then ⟨close .fatal none, hdr, table, reads⟩
      else
        let (res, tableReg, table, tableReads) := gptPairLoadTable sys m ctx hdr table
        ⟨close res tableReg, hdr, table, reads ++ tableReads⟩

/-- `gpt_save`: the secondary copy goes first. -/
def gptSave (sys : Sys) (gpt : Gpt) (ctx : ImgCtx) : Pres × List Store :=
  match gptPairSave sys gpt.hdrSec gpt.tableSec ctx with
  | (.fail, ss) => (.fail, ss)
  | (.ok, ss) =>
    let (res, ss') := gptPairSave sys gpt.hdrPrim gpt.tablePrim ctx
    (res, ss ++ ss')

/-- The last LBA of the image. -/
def imgLastLba (ctx : ImgCtx) : Plba := byteToLba ctx ctx.imgSz false - 1

/-- The LBA at which `gpt_load` looks for the secondary copy. -/
def gptLbaSec (ctx : ImgCtx) (prim : GptPairLoad) : Plba :=
  if prim.res = .ok then prim.hdr.altLba else imgLastLba ctx

/-- The decision of `gpt_load` once both copies have been loaded. -/
def gptLoadPair (ctx : ImgCtx) (resPrim resSec : GptPairLoadRes) (gpt : Gpt) :
    SchemLoadRes × Gpt :=
  if resPrim ≠ .ok ∧ resSec ≠ .ok then (.notFound, gpt)
  else if resPrim = .ok ∧ resSec ≠ .ok then
    (.ok, gptRestore gpt (gpt.hdrPrim.altLba - gptTableSzSecs ctx gpt.hdrPrim) false)
  else if resPrim ≠ .ok ∧ resSec = .ok then
    (.ok, gptRestore gpt (gpt.hdrSec.altLba + 1) true)
  else (.ok, gpt)

/-- `gpt_load`: the outcome, the structure and the sectors that were read. -/
def gptLoad (sys : Sys) (m : Image) (gpt : Gpt) (ctx : ImgCtx) :
    SchemLoadRes × Gpt × List SecRead :=
  let prim := gptPairLoad sys m gpt.hdrPrim gpt.tablePrim ctx 1
  let gpt := { gpt with hdrPrim := prim.hdr, tablePrim := prim.table }
  if prim.res = .fatal then (.fatal, gpt, prim.reads)
  else
    let sec := gptPairLoad sys m gpt.hdrSec gpt.tableSec ctx (gptLbaSec ctx prim)
    let gpt := { gpt with hdrSec := sec.hdr, tableSec := sec.table }
    if sec.res = .fatal then (.fatal, gpt, prim.reads ++ sec.reads)
    else
      let (res, gpt) := gptLoadPair ctx prim.res sec.res gpt
      (res, gpt, prim.reads ++ sec.reads)

/-! ## Positions -/

/-- The LBAs of `gpt_calc_pos`. -/
structure GptPos where
  hdrLbaPrim : Plba
  hdrLbaSec : Plba
  tableLbaPrim : Plba
  tableLbaSec : Plba
  tableSz : Plba

def gptCalcPos (ctx : ImgCtx) : GptPos :=
  let hdrLbaPrim := 1
  let hdrLbaSec := byteToLba ctx ctx.imgSz false - 1
  let tableSz := byteToLba ctx (gptMaxPartCnt * gptPartEntSz) true
  ⟨hdrLbaPrim, hdrLbaSec, hdrLbaPrim + 1, hdrLbaSec - tableSz, tableSz⟩

/-! ## Conversion from and to the unified structure -/

/-- The conversion of one partition by `gpt_from_schem`. -/
def gptPartFromSchem (part : SchemPart) : GptPartEnt where
  typeGuid := part.typeGuid
  uniqueGuid := part.uniqueGuid
  startLba := part.startLba
  endLba := part.endLba
  attr := part.attr
  name := part.name

/-- The table that `gpt_from_schem` fills: unused partitions are left as they were. -/
def gptTableFromSchem (schem : Schem) (table : GptTable) : GptTable := fun i =>
  if i < schem.partCnt.toNat ∧ schemPartIsUsedGpt (schem.table i) then
    gptPartFromSchem (schem.table i)
  else table i

def gptFromSchem (schem : Schem) (gpt : Gpt) (ctx : ImgCtx) : Gpt :=
  let pos := gptCalcPos ctx
  let tablePrim := gptTableFromSchem schem gpt.tablePrim
  let hdrPrim := { gpt.hdrPrim with
    rev := gptHdrRev
    hdrSz := gptHdrSz
    myLba := pos.hdrLbaPrim
    altLba := pos.hdrLbaSec
    firstUsableLba := schem.firstUsableLba
    lastUsableLba := schem.lastUsableLba
    partTableLba := pos.tableLbaPrim
    partTableEntryCnt := schem.partCnt
    partEntrySz := gptPartEntSz
    diskGuid := schem.idGuid
    partTableCrc32 := gptTableCrcCreate tablePrim schem.partCnt }
  let hdrPrim := { hdrPrim with hdrCrc32 := gptHdrCrcCreate hdrPrim }
  gptRestore { gpt with hdrPrim := hdrPrim, tablePrim := tablePrim } pos.tableLbaSec false

/-- The conversion of one partition by `gpt_to_schem`, into a zeroed entry. -/
def gptPartToSchem (part : GptPartEnt) : SchemPart :=
  { SchemPart.zero with
    typeGuid := part.typeGuid
    uniqueGuid := part.uniqueGuid
    startLba := part.startLba
    endLba := part.endLba
    attr := part.attr
    name := part.name }

def gptToSchem (schem : Schem) (gpt : Gpt) : Schem :=
  let cnt := gpt.hdrPrim.partTableEntryCnt
  { schem with
    type := .gpt
    idGuid := gpt.hdrPrim.diskGuid
    firstUsableLba := gpt.hdrPrim.firstUsableLba
    lastUsableLba := gpt.hdrPrim.lastUsableLba
    partCnt := cnt
    table := fun i =>
      if i < cnt.toNat then
        if gptIsPartUsed (gpt.tablePrim i) then gptPartToSchem (gpt.tablePrim i)
        else SchemPart.zero
      else schem.table i }

def schemInitGpt (schem : Schem) (ctx : ImgCtx) (r : Rng) : Schem × Rng :=
  let pos := gptCalcPos ctx
  let (guid, r) := guidCreate r
  ({ schem with
      type := .gpt
      firstUsableLba := pos.tableLbaPrim + pos.tableSz
      lastUsableLba := pos.tableLbaSec - 1
      partCnt := gptMaxPartCnt
      idGuid := guid
      table := tableZero }, r)

def schemPartInitGpt (_part : SchemPart) (r : Rng) : SchemPart × Rng :=
  let (guid, r) := guidCreate r
  ({ SchemPart.zero with uniqueGuid := guid, typeGuid := gptPartTypeDef }, r)

def schemLoadGpt (sys : Sys) (m : Image) (schem : Schem) (ctx : ImgCtx) :
    SchemLoadRes × Schem × List SecRead :=
  let (res, gpt, reads) := gptLoad sys m Gpt.zero ctx
  if res = .ok then (.ok, gptToSchem schem gpt, reads) else (res, schem, reads)

def schemSaveGpt (sys : Sys) (schem : Schem) (ctx : ImgCtx) : Pres × List Store :=
  gptSave sys (gptFromSchem schem Gpt.zero ctx) ctx

/-- The erasure of the signature of one header by `schem_remove_gpt`. -/
def gptEraseAt (sys : Sys) (ctx : ImgCtx) (hdrLba : Plba) : Pres × List Store :=
  match mapSecs sys ctx hdrLba 1 with
  | none => (.fail, [])
  | some hdrReg => (unmapSecs sys hdrReg ctx hdrLba 1, gptHdrEraseSig hdrReg.toNat)

def schemRemoveGpt (sys : Sys) (ctx : ImgCtx) : Pres × List Store :=
  let pos := gptCalcPos ctx
  match gptEraseAt sys ctx pos.hdrLbaPrim with
  | (.fail, ss) => (.fail, ss)
  | (.ok, ss) =>
    let (res, ss') := gptEraseAt sys ctx pos.hdrLbaSec
    (res, ss ++ ss')

end Partman

/-
# The Master Boot Record (`mbr.c`)
-/
import Partman.Model.Schem

namespace Partman

open Lib

/-- MBR size, in bytes. -/
def mbrSz : Pu64 := 512

/-- The boot signature. -/
def mbrBootSig : Pu16 := 0xAA55

/-- The type of a protective partition. -/
def mbrPartTypeProt : Pu8 := 0xEE

/-- The default partition type. -/
def mbrPartTypeDef : Pu8 := 0x83

/-- `struct mbr_part`. -/
structure MbrPart where
  bootInd : Pu8
  startChs : Pchs
  type : Pu8
  endChs : Pchs
  startLba : PlbaMbr
  szLba : PlbaMbr
deriving DecidableEq, Repr

/-- `struct mbr`; the partitions by index. -/
structure Mbr where
  diskSig : Pu32
  partitions : ℕ → MbrPart

/-- The structure of zeroed memory. -/
def Mbr.zero : Mbr := ⟨0, fun _ => ⟨0, 0, 0, 0, 0, 0⟩⟩

/-- The length of the mapping that shows the MBR. -/
def mbrMapLen (ctx : ImgCtx) : Pu64 := lbaToByte ctx (byteToLba ctx mbrSz true)

/-- `mbr_map`: whether the sectors at offset zero are mapped. -/
def mbrMap (sys : Sys) (ctx : ImgCtx) : Bool := sys.mmap (mbrMapLen ctx) 0

def mbrUnmap (sys : Sys) (ctx : ImgCtx) : Pres :=
  if sys.unmapOk 0 (mbrMapLen ctx) then .ok else .fail

def mbrPartWrite (buf : ℕ) (part : MbrPart) : List Store :=
  writePu8 buf part.bootInd ++
  writePu24 (buf + 1) part.startChs ++
  writePu8 (buf + 4) part.type ++
  writePu24 (buf + 5) part.endChs ++
  writePu32 (buf + 8) part.startLba ++
  writePu32 (buf + 12) part.szLba

def mbrPartRead (m : Image) (buf : ℕ) : MbrPart where
  bootInd := readPu8 m buf
  startChs := readPu24 m (buf + 1)
  type := readPu8 m (buf + 4)
  endChs := readPu24 m (buf + 5)
  startLba := readPu32 m (buf + 8)
  szLba := readPu32 m (buf + 12)

def mbrWrite (buf : ℕ) (mbr : Mbr) : List Store :=
  writePu32 (buf + 440) mbr.diskSig ++
  mbrPartWrite (buf + 446) (mbr.partitions 0) ++
  mbrPartWrite (buf + 462) (mbr.partitions 1) ++
  mbrPartWrite (buf + 478) (mbr.partitions 2) ++
  mbrPartWrite (buf + 494) (mbr.partitions 3) ++
  writePu16 (buf + 510) mbrBootSig

/-- `mbr_read`; only the four entries of the structure are filled. -/
def mbrRead (m : Image) (buf : ℕ) : Mbr where
  diskSig := readPu32 m (buf + 440)
  partitions := fun i =>
    if i < 4 then mbrPartRead m (buf + 446 + 16 * i) else ⟨0, 0, 0, 0, 0, 0⟩

def mbrIsPartUsed (part : MbrPart) : Pflag := part.type != 0

def mbrIsPresent (m : Image) (buf : ℕ) : Pflag := readPu16 m (buf + 510) == mbrBootSig

/-- `mbr_init_schem`. -/
def mbrInitSchem (schem : Schem) (ctx : ImgCtx) : Schem :=
  let last := byteToLba ctx ctx.imgSz false - 1
  { schem with
    type := .mbr
    firstUsableLba := byteToLba ctx mbrSz true
    lastUsableLba := if last > 0xFFFFFFFF then 0xFFFFFFFF else last
    partCnt := mbrMaxPartCnt
    table := tableZero }

/-- `mbr_save`: the outcome and the stores performed. -/
def mbrSave (sys : Sys) (mbr : Mbr) (ctx : ImgCtx) : Pres × List Store :=
  if mbrMap sys ctx then (mbrUnmap sys ctx, mbrWrite 0 mbr) else (.fail, [])

/-- `mbr_load`: the outcome, the structure and the sectors that were read. -/
def mbrLoad (sys : Sys) (m : Image) (mbr : Mbr) (ctx : ImgCtx) :
    SchemLoadRes × Mbr × List SecRead :=
  if mbrMap sys ctx then
    let reads := [⟨0, byteToLba ctx mbrSz true, mbrSz.toNat⟩]
    if mbrIsPresent m 0 then
      (if mbrUnmap sys ctx = .ok then .ok else .fatal, mbrRead m 0, reads)
    else
      (if mbrUnmap sys ctx = .ok then .notFound else .fatal, mbr, reads)
  else (.fatal, mbr, [])

def schemMbrPartIsProt (part : SchemPart) : Pflag := part.typeI == mbrPartTypeProt

def schemMbrIsProt (schem : Schem) : Pflag := schemMbrPartIsProt (schem.table 0)

/-- The conversion of one partition by `mbr_from_schem`. -/
def mbrPartFromSchem (part : SchemPart) (ctx : ImgCtx) : MbrPart :=
  let isProt := schemMbrPartIsProt part
  { type := part.typeI
    startLba := part.startLba
    szLba := part.endLba - part.startLba + 1
    startChs := lbaToChs ctx part.startLba isProt
    endChs := lbaToChs ctx part.endLba isProt
    bootInd := part.bootInd }

def mbrFromSchem (schem : Schem) (mbr : Mbr) (ctx : ImgCtx) : Mbr where
  diskSig := schem.idI
  partitions := fun i =>
    if i < schem.partCnt.toNat ∧ schemPartIsUsedMbr (schem.table i) then
      mbrPartFromSchem (schem.table i) ctx
    else mbr.partitions i

/-- The conversion of one partition by `mbr_to_schem`, into a zeroed entry. -/
def mbrPartToSchem (part : MbrPart) : SchemPart :=
  { SchemPart.zero with
    typeI := part.type
    startLba := part.startLba
    endLba := part.startLba + part.szLba - 1
    bootInd := part.bootInd }

def mbrToSchem (schem : Schem) (mbr : Mbr) (ctx : ImgCtx) : Schem :=
  let schem := mbrInitSchem schem ctx
  { schem with
    idI := mbr.diskSig
    table := fun i =>
      if i < schem.partCnt.toNat ∧ mbrIsPartUsed (mbr.partitions i) then
        mbrPartToSchem (mbr.partitions i)
      else schem.table i }

def schemInitMbr (schem : Schem) (ctx : ImgCtx) (r : Rng) : Schem × Rng :=
  let (id, r) := rand32 r
  ({ mbrInitSchem schem ctx with idI := id }, r)

def schemPartInitMbr (_part : SchemPart) : SchemPart :=
  { SchemPart.zero with typeI := mbrPartTypeDef }

def schemLoadMbr (sys : Sys) (m : Image) (schem : Schem) (ctx : ImgCtx) :
    SchemLoadRes × Schem × List SecRead :=
  let (res, mbr, reads) := mbrLoad sys m Mbr.zero ctx
  if res = .ok then (.ok, mbrToSchem schem mbr ctx, reads) else (res, schem, reads)

def schemSaveMbr (sys : Sys) (schem : Schem) (ctx : ImgCtx) : Pres × List Store :=
  mbrSave sys (mbrFromSchem schem Mbr.zero ctx) ctx

def schemRemoveMbr (sys : Sys) (ctx : ImgCtx) : Pres × List Store := mbrSave sys Mbr.zero ctx

/-- `schem_mbr_set_prot`: one partition over all of the usable sectors. -/
def schemMbrSetProt (schem : Schem) : Schem :=
  { schem with
    table := Function.update tableZero 0
      { SchemPart.zero with
        typeI := mbrPartTypeProt
        startLba := schem.firstUsableLba
        endLba := schem.lastUsableLba
        bootInd := 0x0 } }

end Partman

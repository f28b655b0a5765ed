/-
# Image context and mapping of sectors (`img_ctx.c`, `map_secs` of `gpt.c`)

The operating system enters as a parameter `Sys`: which mappings, unmappings and syncs
succeed.  A mapping shows the file, so the address that `mmap` returns for the file offset
`o` is identified with `o` itself, and a pointer into the mapping with the offset of the
byte it points at.
-/
import Partman.Model.MemUtils

namespace Partman

/-- What the program asks of the platform. -/
structure Sys where
  /-- `sysconf(_SC_PAGESIZE)`. -/
  pgSz : Pu64
  /-- Whether `mmap` grants a window of this length at this file offset. -/
  mapOk : Pu64 → Pu64 → Bool
  /-- Whether `munmap` succeeds on this address and length. -/
  unmapOk : Pu64 → Pu64 → Bool
  /-- Whether `fsync` succeeds. -/
  fsyncOk : Bool
  /-- The value a compiler gives to `1 << k` when it is not representable in an `int`. -/
  intShl : ℕ → Pu64

/-- `mmap` of a shared window of the image.  A window of length zero is refused. -/
def Sys.mmap (sys : Sys) (len off : Pu64) : Bool := len != 0 && sys.mapOk len off

/-- The image context; the file name and descriptor are used by no function below. -/
structure ImgCtx where
  /-- Logical sector size, in bytes. -/
  secSz : Pu64
  /-- Image size, in bytes. -/
  imgSz : Pu64
  /-- Partition alignment, in sectors. -/
  align : Plba
  /-- Heads per cylinder. -/
  hpc : Pu8
  /-- Sectors per track. -/
  spt : Pu8
deriving DecidableEq, Repr

/-- Minimum image size, in bytes. -/
def imgMinSz : Pu64 := 1024 * 512

def imgCtxInit (imgSz : Pu64) : ImgCtx where
  secSz := 512
  imgSz := imgSz
  align := 1024 * 1024 * 1 / 512
  hpc := 255
  spt := 63

def imgCtxValidate (ctx : ImgCtx) : Pres :=
  if ctx.imgSz < imgMinSz then .fail
  else if ctx.secSz < 512 || ctx.secSz > 4096 || ctx.secSz &&& (ctx.secSz - 1) != 0 then .fail
  else if ctx.hpc < 1 then .fail
  else if ctx.spt < 1 || ctx.spt > 63 then .fail
  else .ok

def imgCtxSync (sys : Sys) : Pres := if sys.fsyncOk then .ok else .fail

def lbaToByte (ctx : ImgCtx) (lba : Plba) : Pu64 := lba * ctx.secSz

def byteToLba (ctx : ImgCtx) (bytes : Pu64) (roundUp : Pflag) : Plba :=
  bytes / ctx.secSz + (if roundUp && bytes % ctx.secSz != 0 then 1 else 0)

def lbaAlign (ctx : ImgCtx) (lba : Plba) (nextAligned : Pflag) : Plba :=
  (lba / ctx.align) * ctx.align +
    (if nextAligned && lba % ctx.align != 0 then ctx.align else 0)

def chsTupleToInt (c h s : Pchs) : Pchs :=
  ((c &&& 0xFF) <<< 16) ||| (((c >>> 8) &&& 0x3) <<< 14) ||| ((s &&& 0x3F) <<< 8) |||
    (h &&& 0xFF)

/-- The cylinder, head and sector of a packed address. -/
def chsIntToTuple (chs : Pchs) : Pchs × Pchs × Pchs :=
  ((chs >>> 14) &&& 0x3FF, (chs >>> 0) &&& 0xFF, (chs >>> 8) &&& 0x3F)

/-- The cylinder, head and sector that `lba_to_chs` packs. -/
def lbaToChsTuple (ctx : ImgCtx) (lba : Plba) (protectiveLimit : Pflag) : Pchs × Pchs × Pchs :=
  let hpc := ctx.hpc.toUInt64
  let spt := ctx.spt.toUInt64
  let maxLba := (0x3FF * hpc + (hpc - 1)) * spt + (spt - 1)
  if lba > maxLba && protectiveLimit then (1023, 255, 63)
  else
    let lba := if lba > maxLba then maxLba else lba
    let c := lba / (hpc * spt)
    let h := (lba / spt) % hpc
    let s := lba % spt + 1
    (c, h, s)

def lbaToChs (ctx : ImgCtx) (lba : Plba) (protectiveLimit : Pflag) : Pchs :=
  let t := lbaToChsTuple ctx lba protectiveLimit
  chsTupleToInt t.1 t.2.1 t.2.2

/-! ## Mapping sectors -/

def byteToPage (sys : Sys) (bytes : Pu64) (roundUp : Pflag) : Pu64 :=
  bytes / sys.pgSz + (if roundUp && bytes % sys.pgSz != 0 then 1 else 0)

def pageToByte (sys : Sys) (pages : Pu64) : Pu64 := pages * sys.pgSz

/-- `map_secs`: the pointer to the first of the sectors, if the mapping is granted. -/
def mapSecs (sys : Sys) (ctx : ImgCtx) (offLba secsCnt : Plba) : Option Pu64 :=
  let offBytes := lbaToByte ctx offLba
  let offPages := byteToPage sys offBytes false
  let alignOff := offBytes - pageToByte sys offPages
  let lenPages := byteToPage sys (lbaToByte ctx secsCnt + alignOff) true
  if sys.mmap (pageToByte sys lenPages) (pageToByte sys offPages) then
    some (pageToByte sys offPages + alignOff)
  else none

/-- Sectors that have been mapped and then read: the bytes that are looked at are among the
first `len` bytes of them, or of what lies behind them. -/
structure SecRead where
  lba : Plba
  cnt : Plba
  len : ℕ

/-- `unmap_secs`.  The length handed to `munmap` is a number of pages. -/
def unmapSecs (sys : Sys) (reg : Pu64) (ctx : ImgCtx) (offLba secsCnt : Plba) : Pres :=
  let offBytes := lbaToByte ctx offLba
  let offPages := byteToPage sys offBytes false
  let alignOff := offBytes - pageToByte sys offPages
  let lenPages := byteToPage sys (lbaToByte ctx secsCnt + alignOff) true
  if sys.unmapOk (reg - alignOff) lenPages then .ok else .fail

/-! ## A platform that serves the image -/

/-- A platform on which every nonempty page-aligned window over the image can be mapped,
and every such window unmapped. -/
structure Sys.Serves (sys : Sys) (ctx : ImgCtx) : Prop where
  /-- The size of a file is a signed offset. -/
  imgSz_lt : ctx.imgSz.toNat < 2 ^ 63
  pgSz_pos : 0 < sys.pgSz.toNat
  pgSz_lt : sys.pgSz.toNat < 2 ^ 63
  mapOk : ∀ len off : Pu64, 0 < len.toNat → sys.pgSz.toNat ∣ off.toNat →
    off.toNat + len.toNat < ctx.imgSz.toNat + sys.pgSz.toNat → sys.mapOk len off = true
  unmapOk : ∀ addr len : Pu64, 0 < len.toNat → sys.pgSz.toNat ∣ addr.toNat →
    sys.unmapOk addr len = true

end Partman

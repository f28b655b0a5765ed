/-
# Globally unique identifiers (`guid.c`, `rand.c`)
-/
import Mathlib.Data.Fin.VecNotation
import Mathlib.Data.Fintype.Pi
import Partman.Model.Crc32
import Partman.Model.Stdio

namespace Partman

open Lib

/-- The random source: the bytes that the calls of `rand_8` return, one after another. -/
structure Rng where
  byte : ℕ → Pu8
  pos : ℕ

def rand8 (r : Rng) : Pu8 × Rng := (r.byte r.pos, { r with pos := r.pos + 1 })

def rand16 (r : Rng) : Pu16 × Rng :=
  let (b0, r) := rand8 r
  let (b1, r) := rand8 r
  ((b0.toUInt16 <<< 0) ||| (b1.toUInt16 <<< 8), r)

def rand32 (r : Rng) : Pu32 × Rng :=
  let (b0, r) := rand8 r
  let (b1, r) := rand8 r
  let (b2, r) := rand8 r
  let (b3, r) := rand8 r
  ((b0.toUInt64 <<< 0) ||| (b1.toUInt64 <<< 8) ||| (b2.toUInt64 <<< 16) |||
    (b3.toUInt64 <<< 24), r)

/-- `struct guid`. -/
structure Guid where
  timeLo : Pu32
  timeMid : Pu16
  timeHiVer : Pu16
  clSeqHiRes : Pu8
  clSeqLo : Pu8
  nodes : Fin 6 → Pu8
deriving DecidableEq

/-- The identifier of zeroed memory. -/
def Guid.zero : Guid := ⟨0, 0, 0, 0, 0, fun _ => 0⟩

def guidCreate (r : Rng) : Guid × Rng :=
  let (timeLo, r) := rand32 r
  let (timeMid, r) := rand16 r
  let (timeHiVer, r) := rand16 r
  let (clSeqHiRes, r) := rand8 r
  let (clSeqLo, r) := rand8 r
  let nodes := fun i : Fin 6 => r.byte (r.pos + i)
  let r := { r with pos := r.pos + 6 }
  let timeHiVer := timeHiVer &&& ~~~((0xF : UInt16) <<< 12)
  let timeHiVer := timeHiVer ||| ((0x4 : UInt16) <<< 12)
  let clSeqHiRes := clSeqHiRes &&& ~~~((0x7 : UInt8) <<< 5)
  let clSeqHiRes := clSeqHiRes ||| ((0x6 : UInt8) <<< 5)
  (⟨timeLo, timeMid, timeHiVer, clSeqHiRes, clSeqLo, nodes⟩, r)

def guidRead (m : Image) (buf : ℕ) : Guid where
  timeLo := readPu32 m buf
  timeMid := readPu16 m (buf + 4)
  timeHiVer := readPu16 m (buf + 6)
  clSeqHiRes := readPu8 m (buf + 8)
  clSeqLo := readPu8 m (buf + 9)
  nodes := fun i => readPu8 m (buf + 10 + i)

def guidWrite (buf : ℕ) (guid : Guid) : List Store :=
  writePu32 buf guid.timeLo ++ writePu16 (buf + 4) guid.timeMid ++
  writePu16 (buf + 6) guid.timeHiVer ++ writePu8 (buf + 8) guid.clSeqHiRes ++
  writePu8 (buf + 9) guid.clSeqLo ++
  (List.finRange 6).flatMap fun i : Fin 6 => writePu8 (buf + 10 + i) (guid.nodes i)

def guidCrcCompute (crc32 : Pcrc32) (guid : Guid) : Pcrc32 :=
  let crc32 := crc32Compute32 crc32 guid.timeLo
  let crc32 := crc32Compute16 crc32 guid.timeMid
  let crc32 := crc32Compute16 crc32 guid.timeHiVer
  let crc32 := crc32Compute8 crc32 guid.clSeqHiRes
  let crc32 := crc32Compute8 crc32 guid.clSeqLo
  (List.finRange 6).foldl (fun crc32 i => crc32Compute8 crc32 (guid.nodes i)) crc32

def guidIsZero (guid : Guid) : Pflag :=
  let flag := guid.timeLo ||| guid.timeMid.toUInt64 ||| guid.timeHiVer.toUInt64 |||
    guid.clSeqHiRes.toUInt64 ||| guid.clSeqLo.toUInt64
  let flag := (List.finRange 6).foldl (fun flag i => flag ||| (guid.nodes i).toUInt64) flag
  flag == 0

/-- `guid_to_str`. -/
def guidToStr (guid : Guid) : List Char :=
  hexPad 8 guid.timeLo ++ '-' :: (hexPad 4 guid.timeMid.toUInt64 ++ '-' ::
    (hexPad 4 guid.timeHiVer.toUInt64 ++ '-' :: (hexPad 2 guid.clSeqHiRes.toUInt64 ++
      hexPad 2 guid.clSeqLo.toUInt64 ++ '-' ::
        (List.finRange 6).flatMap fun i => hexPad 2 (guid.nodes i).toUInt64)))

/-- `str_to_guid`: the length is checked, then the eleven fields are scanned. -/
def strToGuid (buf : List Char) : Option Guid := do
  if buf.length != 36 then none
  let (timeLo, s) ← scanUInt 16 8 (buf.dropWhile isSpace)
  let s ← scanLit '-' s
  let (timeMid, s) ← scanUInt 16 4 s
  let s ← scanLit '-' s
  let (timeHiVer, s) ← scanUInt 16 4 s
  let s ← scanLit '-' s
  let (clSeqHiRes, s) ← scanUInt 16 2 s
  let (clSeqLo, s) ← scanUInt 16 2 s
  let s ← scanLit '-' s
  let (n0, s) ← scanUInt 16 2 s
  let (n1, s) ← scanUInt 16 2 s
  let (n2, s) ← scanUInt 16 2 s
  let (n3, s) ← scanUInt 16 2 s
  let (n4, s) ← scanUInt 16 2 s
  let (n5, _) ← scanUInt 16 2 s
  return ⟨timeLo, timeMid.toUInt16, timeHiVer.toUInt16, clSeqHiRes.toUInt8, clSeqLo.toUInt8,
    ![n0.toUInt8, n1.toUInt8, n2.toUInt8, n3.toUInt8, n4.toUInt8, n5.toUInt8]⟩

end Partman

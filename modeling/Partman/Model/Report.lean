/-
# The listing of a scheme (`pm_print_scheme` of `main.c`)

What the command `p` prints.  Every line is a label with a value behind it; the name of the
image file is a parameter.
-/
import Partman.Model.SchemCtx
import Partman.Model.Stdio

namespace Partman

/-- The conversion `%0wx`. -/
def hexPadLower (w : ℕ) (n : Pu64) : List Char := (hexPad w n).map Char.toLower

/-- A line of the listing. -/
def row (label : String) (value : List Char) : List Char := label.toList ++ value ++ ['\n']

/-- The cylinder, head and sector of an address, with slashes between them. -/
def chsText (chs : Pchs) : List Char :=
  let (c, h, s) := chsIntToTuple chs
  decimal c.toNat ++ '/' :: (decimal h.toNat ++ '/' :: decimal s.toNat)

/-- The lines of a range of sectors, behind labels of one width. -/
def rowsRange (ctx : ImgCtx) (start last sectors size : String) (part : SchemPart) : List Char :=
  let partSz := part.endLba - part.startLba + 1
  row start (decimal part.startLba.toNat) ++
  row last (decimal part.endLba.toNat) ++
  row sectors (decimal partSz.toNat) ++
  row size (decimal (lbaToByte ctx partSz).toNat ++ " bytes".toList)

/-- One pass of the loop of `pm_print_mbr`. -/
def pmPrintMbrPart (schem : Schem) (ctx : ImgCtx) (i : ℕ) : List Char :=
  let part := schem.table i
  if !schem.partIsUsed part then []
  else
    let partIsBoot := part.bootInd &&& 0x80 != 0
    let partIsProt := schemMbrPartIsProt part
    row "Partition #" (decimal (i + 1)) ++
    row "|-Boot         0x" (hexPadLower 2 part.bootInd.toUInt64 ++
      (if partIsBoot then " (Yes)".toList else " (No)".toList)) ++
    row "|-Type         0x" (hexPadLower 2 part.typeI.toUInt64) ++
    rowsRange ctx "|-Start LBA    " "|-End LBA      " "|-Sectors      " "|-Size         " part ++
    row "|-Start C/H/S  " (chsText (lbaToChs ctx part.startLba partIsProt)) ++
    row "|-End C/H/S    " (chsText (lbaToChs ctx part.endLba partIsProt))

def pmPrintMbr (schem : Schem) (ctx : ImgCtx) : List Char :=
  row "Partitioning scheme      " "MBR".toList ++
  row "Disk identifier          0x" (hexPadLower 8 schem.idI) ++
  row "Table size (partitions)  " (decimal schem.partCnt.toNat) ++ row "" [] ++
  row "=== Partitions ===" [] ++
  (List.range schem.partCnt.toNat).flatMap (pmPrintMbrPart schem ctx)

/-- One pass of the loop of `pm_print_gpt`. -/
def pmPrintGptPart (schem : Schem) (ctx : ImgCtx) (i : ℕ) : List Char :=
  let part := schem.table i
  if !schem.partIsUsed part then []
  else
    row "Partition #" (decimal (i + 1)) ++
    row "|-Id         " (guidToStr part.uniqueGuid) ++
    row "|-Type       " (guidToStr part.typeGuid) ++
    rowsRange ctx "|-Start LBA  " "|-End LBA    " "|-Sectors    " "|-Size       " part

def pmPrintGpt (schem : Schem) (ctx : ImgCtx) : List Char :=
  row "Partitioning scheme      " "GPT".toList ++
  row "Disk identifier          " (guidToStr schem.idGuid) ++
  row "Table size (partitions)  " (decimal schem.partCnt.toNat) ++ row "" [] ++
  row "=== Partitions === " [] ++
  (List.range schem.partCnt.toNat).flatMap (pmPrintGptPart schem ctx)

def pmPrintCommon (imgName : List Char) (ctx : ImgCtx) : List Char :=
  row "Image '" (imgName ++ "': ".toList ++ decimal ctx.imgSz.toNat ++ " bytes, ".toList ++
    decimal (byteToLba ctx ctx.imgSz false).toNat ++ " sectors".toList) ++
  row "Units                    sectors" [] ++
  row "Sector size              " (decimal ctx.secSz.toNat ++ " bytes".toList)

/-- `pm_print_scheme`; without a scheme there is nothing behind the common lines but one. -/
def pmPrintScheme (imgName : List Char) (schem : Option Schem) (ctx : ImgCtx) : List Char :=
  pmPrintCommon imgName ctx ++
    match schem with
    | none => row "Partitioning scheme      " "None".toList
    | some schem =>
      match schem.type with
      | .mbr => pmPrintMbr schem ctx
      | .gpt => pmPrintGpt schem ctx
      | .cnt => []

end Partman

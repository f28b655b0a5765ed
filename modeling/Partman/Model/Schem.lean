/-
# Partitioning schemes in memory (`schem.h`)

A scheme is held in the unified structure, whatever its type.  The two views of each
union are kept as two fields: a scheme of either type only uses its own view, and zeroed
memory is zero in both.  The function table of a scheme is the type whose functions
`schem_map_funcs` has put there.
-/
import Partman.Model.ImgCtx
import Partman.Model.Guid

namespace Partman

/-- `enum schem_type`. -/
inductive SchemType
  | mbr
  | gpt
  | cnt
deriving DecidableEq, Repr

/-- `enum schem_load_res`. -/
inductive SchemLoadRes
  | ok
  | notFound
  | fatal
deriving DecidableEq, Repr

/-- `struct schem_part`. -/
structure SchemPart where
  /-- The integer view of the type union. -/
  typeI : Pu8
  /-- The GUID view of the type union. -/
  typeGuid : Guid
  uniqueGuid : Guid
  startLba : Plba
  endLba : Plba
  attr : Pu64
  name : Fin 36 → PcharUcs
  bootInd : Pu8
deriving DecidableEq

/-- A partition entry of zeroed memory. -/
def SchemPart.zero : SchemPart := ⟨0, Guid.zero, Guid.zero, 0, 0, 0, fun _ => 0, 0⟩

/-- `struct schem`. -/
structure Schem where
  type : SchemType
  /-- The integer view of the identifier union. -/
  idI : Pu32
  /-- The GUID view of the identifier union. -/
  idGuid : Guid
  firstUsableLba : Plba
  lastUsableLba : Plba
  partCnt : Pu32
  /-- The number of entries that were allocated for the table. -/
  tableLen : ℕ
  /-- The partition table, by index. -/
  table : ℕ → SchemPart
  /-- The scheme type whose functions are in the function table. -/
  funcs : SchemType

/-- A table of zeroed memory. -/
def tableZero : ℕ → SchemPart := fun _ => SchemPart.zero

/-- `mbr_max_part_cnt`. -/
def mbrMaxPartCnt : Pu32 := 4

/-- `gpt_max_part_cnt`. -/
def gptMaxPartCnt : Pu32 := 128

def schemPartIsUsedMbr (part : SchemPart) : Pflag := part.typeI != 0

def schemPartIsUsedGpt (part : SchemPart) : Pflag := !guidIsZero part.typeGuid

/-- `schem->funcs.part_is_used`. -/
def Schem.partIsUsed (schem : Schem) (part : SchemPart) : Pflag :=
  match schem.funcs with
  | .mbr => schemPartIsUsedMbr part
  | .gpt => schemPartIsUsedGpt part
  | .cnt => false

def schemPartDelete (_part : SchemPart) : SchemPart := SchemPart.zero

/-- Overwriting one entry of the table. -/
def Schem.setPart (schem : Schem) (i : ℕ) (part : SchemPart) : Schem :=
  { schem with table := Function.update schem.table i part }

end Partman

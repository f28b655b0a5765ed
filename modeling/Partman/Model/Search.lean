/-
# Searching the partition table (`schem.c`)

Table indices are `pu32` in the loops and `p32` in the results, so that an index is
compared with the ignored one after conversion to the unsigned type.  The passes of the
start sector search are counted by a fuel argument; `none` means that the search is still
running when it is used up.
-/
import Partman.Model.Schem

namespace Partman

/-- An index of the table as a result. -/
def partRes (i : ℕ) : P32 := (UInt64.ofNat i).toInt64

/-- Whether the entry `i` takes part in a search that ignores `partIgn`. -/
def Schem.considers (schem : Schem) (partIgn : P32) (i : ℕ) : Bool :=
  UInt64.ofNat i != partIgn.toUInt64 && schem.partIsUsed (schem.table i)

/-- The three cases in which a partition overlaps the given boundaries. -/
def partOverlaps (part : SchemPart) (startLba endLba : Plba) : Bool :=
  (startLba ≥ part.startLba && startLba ≤ part.endLba) ||
  (endLba ≥ part.startLba && endLba ≤ part.endLba) ||
  (startLba < part.startLba && endLba > part.endLba)

/-- `schem_find_overlap`. -/
def schemFindOverlap (schem : Schem) (startLba endLba : Plba) (partIgn : P32) : P32 :=
  match (List.range schem.partCnt.toNat).find? fun i =>
      schem.considers partIgn i && partOverlaps (schem.table i) startLba endLba with
  | some i => partRes i
  | none => -1

/-- `schem_find_part_index`. -/
def schemFindPartIndex (schem : Schem) (partUsed : Pflag) : P32 :=
  match (List.range schem.partCnt.toNat).find? fun i =>
      schem.partIsUsed (schem.table i) == partUsed with
  | some i => partRes i
  | none => -1

/-! ## First sector -/

/-- The two candidates of the start sector search: the sector under test, and the sector
to be tested after it if the first one is taken, with `0` for none. -/
structure StartCand where
  lba : Plba
  lbaNoAlign : Plba
deriving DecidableEq, Repr

/-- The candidates at and after a given sector. -/
def startCandAt (schem : Schem) (ctx : ImgCtx) (lbaNoAlign : Plba) : StartCand :=
  let lba := lbaAlign ctx lbaNoAlign true
  if lba > schem.lastUsableLba then ⟨lbaNoAlign, 0⟩ else ⟨lba, lbaNoAlign⟩

/-- One pass over the table: the first partition in which the candidate lies. -/
def startHit (schem : Schem) (partIgn : P32) (lba : Plba) : Option ℕ :=
  (List.range schem.partCnt.toNat).find? fun i =>
    schem.considers partIgn i &&
      !(lba < (schem.table i).startLba || lba > (schem.table i).endLba)

/-- What a pass leads to. -/
inductive StartStep
  /-- The search returns. -/
  | done (res : PlbaRes)
  /-- The position has changed. -/
  | next (c : StartCand)

/-- One pass of the `do` loop of `schem_find_start_sector`. -/
def startStep (schem : Schem) (ctx : ImgCtx) (partIgn : P32) (c : StartCand) : StartStep :=
  match startHit schem partIgn c.lba with
  | none => .done c.lba.toInt64
  | some i =>
    if c.lbaNoAlign != 0 then .next ⟨c.lbaNoAlign, 0⟩
    else
      let lbaNoAlign := (schem.table i).endLba + 1
      if lbaNoAlign > schem.lastUsableLba then .done (-1)
      else .next (startCandAt schem ctx lbaNoAlign)

/-- The `do` loop of `schem_find_start_sector`, for as many passes as there is fuel. -/
def startLoop (schem : Schem) (ctx : ImgCtx) (partIgn : P32) : ℕ → StartCand → Option PlbaRes
  | 0, _ => none
  | fuel + 1, c =>
    match startStep schem ctx partIgn c with
    | .done res => some res
    | .next c => startLoop schem ctx partIgn fuel c

/-- `schem_find_start_sector`. -/
def schemFindStartSector (fuel : ℕ) (schem : Schem) (ctx : ImgCtx) (partIgn : P32) :
    Option PlbaRes :=
  startLoop schem ctx partIgn fuel (startCandAt schem ctx schem.firstUsableLba)

/-! ## Last sector -/

/-- The loop of `schem_find_last_sector`: the bound is lowered to the sector before every
partition that starts further than the first LBA and below the bound. -/
def lastBound (schem : Schem) (partIgn : P32) (firstLba : Plba) : Plba :=
  (List.range schem.partCnt.toNat).foldl (fun bound i =>
    if schem.considers partIgn i && (schem.table i).startLba > firstLba &&
        (schem.table i).startLba < bound then
      (schem.table i).startLba - 1
    else bound) schem.lastUsableLba

/-- `schem_find_last_sector`. -/
def schemFindLastSector (schem : Schem) (ctx : ImgCtx) (partIgn : P32) (firstLba : Plba) :
    PlbaRes :=
  let nextLbaBound := lastBound schem partIgn firstLba
  if nextLbaBound < firstLba then -1
  else
    let testEndLba := lbaAlign ctx nextLbaBound false
    let testEndLba := if testEndLba > 0 && ctx.align > 1 then testEndLba - 1 else testEndLba
    if testEndLba ≥ firstLba && schemFindOverlap schem firstLba testEndLba partIgn == -1 then
      testEndLba.toInt64
    else nextLbaBound.toInt64

end Partman

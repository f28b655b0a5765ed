/-
# The command loop (`main.c`)
-/
import Partman.Model.SchemCtx
import Partman.Model.Search
import Partman.Model.Scan

namespace Partman

/-- The ways in which an editing command ends without having changed the table. -/
inductive Refusal
  | noScheme
  | noUsed
  | noFree
  | notUsed
  | alreadyUsed
  | notMbr
  | noStart
  | noLast
  | overlap (index : P32)
  /-- A prompt has not delivered a value. -/
  | prompt (res : ScanRes)
deriving DecidableEq, Repr

/-- What an editing command did. -/
inductive Edit
  | refused (why : Refusal)
  | accepted (partIndex : Pu32)
deriving DecidableEq, Repr

/-- The scheme being edited, with the input and the random source. -/
structure Ed where
  schem : Schem
  inp : Input
  rng : Rng

/-- `pm_part_prompt`: the chosen index, or why there is none. -/
def pmPartPrompt (schem : Schem) (findUsed : Pflag) (inp : Input) :
    Except Refusal Pu32 × Input :=
  let partIndexDef := schemFindPartIndex schem findUsed
  if partIndexDef == -1 then (.error (if findUsed then .noUsed else .noFree), inp)
  else
    let (res, partIndex, inp) :=
      promptRange 1 schem.partCnt (partIndexDef.toUInt64 + 1) inp
    if res ≠ .ok then (.error (.prompt res), inp)
    else
      let partIndex := partIndex - 1
      let isPartUsed := schem.partIsUsed (schem.table partIndex.toNat)
      if findUsed && !isPartUsed then (.error .notUsed, inp)
      else if !findUsed && isPartUsed then (.error .alreadyUsed, inp)
      else (.ok partIndex, inp)

def pmPartDelete (ed : Ed) : Edit × Ed :=
  match pmPartPrompt ed.schem true ed.inp with
  | (.error why, inp) => (.refused why, { ed with inp := inp })
  | (.ok i, inp) =>
    (.accepted i, { ed with
      inp := inp
      schem := ed.schem.setPart i.toNat (schemPartDelete (ed.schem.table i.toNat)) })

def pmPartToggleBoot (ed : Ed) : Edit × Ed :=
  if ed.schem.type ≠ .mbr then (.refused .notMbr, ed)
  else
    match pmPartPrompt ed.schem true ed.inp with
    | (.error why, inp) => (.refused why, { ed with inp := inp })
    | (.ok i, inp) =>
      let part := ed.schem.table i.toNat
      (.accepted i, { ed with
        inp := inp
        schem := ed.schem.setPart i.toNat { part with bootInd := ~~~part.bootInd &&& 0x80 } })

def pmPartChangeTypeMbr (ed : Ed) (i : Pu32) : Edit × Ed :=
  let (res, partType, inp) := scanInt 16 ed.inp
  if res ≠ .ok then (.refused (.prompt res), { ed with inp := inp })
  else if partType &&& ~~~(0xFF : Pu64) != 0 then
    (.refused (.prompt .fail), { ed with inp := inp })
  else
    (.accepted i, { ed with
      inp := inp
      schem := ed.schem.setPart i.toNat
        { ed.schem.table i.toNat with typeI := partType.toUInt8 } })

def pmPartChangeTypeGpt (ed : Ed) (i : Pu32) : Edit × Ed :=
  let (res, partType, inp) := scanGuid ed.inp
  if res ≠ .ok then (.refused (.prompt res), { ed with inp := inp })
  else
    (.accepted i, { ed with
      inp := inp
      schem := ed.schem.setPart i.toNat
        { ed.schem.table i.toNat with typeGuid := partType } })

def pmPartChangeType (ed : Ed) : Edit × Ed :=
  match pmPartPrompt ed.schem true ed.inp with
  | (.error why, inp) => (.refused why, { ed with inp := inp })
  | (.ok i, inp) =>
    match ed.schem.type with
    | .mbr => pmPartChangeTypeMbr { ed with inp := inp } i
    | .gpt => pmPartChangeTypeGpt { ed with inp := inp } i
    | .cnt => (.accepted i, { ed with inp := inp })

/-- `pm_part_alter` once the start sector has been chosen. -/
def pmPartAlterEnd (sys : Sys) (ctx : ImgCtx) (ed : Ed) (isNew : Pflag) (i : Pu32)
    (startLba : Plba) : Edit × Ed :=
  let defLba := schemFindLastSector ed.schem ctx i.toInt64 startLba
  if defLba == -1 then (.refused .noLast, ed)
  else
    let (res, endLba, inp) := promptSectorExt sys startLba ed.schem.lastUsableLba
      defLba.toUInt64 ctx.secSz ed.inp
    let ed := { ed with inp := inp }
    if res ≠ .ok then (.refused (.prompt res), ed)
    else
      let partIndexRes := schemFindOverlap ed.schem startLba endLba i.toInt64
      if partIndexRes ≥ 0 then (.refused (.overlap partIndexRes), ed)
      else
        let (part, rng) :=
          if isNew then funcsPartInit ed.schem.funcs (ed.schem.table i.toNat) ed.rng
          else (ed.schem.table i.toNat, ed.rng)
        (.accepted i, { ed with
          rng := rng
          schem := ed.schem.setPart i.toNat
            { part with startLba := startLba, endLba := endLba } })

/-- `pm_part_alter`; `none` means that the start sector search does not return. -/
def pmPartAlter (fuel : ℕ) (sys : Sys) (ctx : ImgCtx) (ed : Ed) (isNew : Pflag) :
    Option (Edit × Ed) :=
  match pmPartPrompt ed.schem (!isNew) ed.inp with
  | (.error why, inp) => some (.refused why, { ed with inp := inp })
  | (.ok i, inp) =>
    let ed := { ed with inp := inp }
    (schemFindStartSector fuel ed.schem ctx i.toInt64).map fun defLba : PlbaRes =>
      if defLba == -1 then (.refused .noStart, ed)
      else
        let (res, startLba, inp) := promptRange ed.schem.firstUsableLba
          ed.schem.lastUsableLba defLba.toUInt64 ed.inp
        let ed := { ed with inp := inp }
        if res ≠ .ok then (.refused (.prompt res), ed)
        else pmPartAlterEnd sys ctx ed isNew i startLba

/-! ## Commands -/

/-- `enum action_res`. -/
inductive ActionRes
  | cont
  | exitOk
  | exitFatal
deriving DecidableEq, Repr

/-- The state of the program between two commands. -/
structure Prog where
  sc : SchemCtx
  /-- The scheme that editing commands apply to. -/
  schemCurT : SchemType
  inp : Input
  rng : Rng
  img : Image

/-- What a command leaves: the state, the result, and what an editing command did. -/
structure Action where
  prog : Prog
  res : ActionRes
  edit : Option Edit

/-- `res ? action_continue : action_exit_fatal`. -/
def actionRes : Pres → ActionRes
  | .ok => .cont
  | .fail => .exitFatal

/-- A command that leaves everything as it was. -/
def actionKeep (p : Prog) : Action := ⟨p, .cont, none⟩

/-- An editing command on the current scheme, if there is one. -/
def actionEdit (p : Prog) (f : Ed → Option (Edit × Ed)) : Option Action :=
  match p.sc.schemes p.schemCurT with
  | none => some ⟨p, .cont, some (.refused .noScheme)⟩
  | some schem =>
    (f ⟨schem, p.inp, p.rng⟩).map fun (edit, ed) =>
      ⟨{ p with
          sc := p.sc.setSchem p.schemCurT (some ed.schem)
          inp := ed.inp
          rng := ed.rng }, .cont, some edit⟩

/-- The commands `o` and `g`. -/
def actionNew (ctx : ImgCtx) (p : Prog) (t : SchemType) : Action :=
  let (res, sc, rng) := schemCtxNew p.sc ctx t p.rng
  ⟨{ p with sc := sc, rng := rng, schemCurT := schemCtxGetType sc }, actionRes res, none⟩

/-- The command `w`. -/
def actionWrite (sys : Sys) (ctx : ImgCtx) (p : Prog) : Action :=
  let s := schemCtxSave sys p.sc ctx
  ⟨{ p with sc := s.sc, img := Lib.stores p.img s.stores }, actionRes s.res, none⟩

/-- The command `h`. -/
def actionResetProt (ctx : ImgCtx) (p : Prog) : Action :=
  match p.sc.schemGpt, p.sc.schemMbr with
  | some _, some mbr =>
    let (mbr, rng) := schemInitMbr mbr ctx p.rng
    actionKeep { p with sc := p.sc.setSchem .mbr (some (schemMbrSetProt mbr)), rng := rng }
  | _, _ => actionKeep p

/-- `action_handle`; `none` means that the command does not return. -/
def actionHandle (fuel : ℕ) (sys : Sys) (ctx : ImgCtx) (p : Prog) (sym : Char) :
    Option Action :=
  if sym = 'q' then some { actionKeep p with res := .exitOk }
  else if sym = 'n' then actionEdit p fun ed => pmPartAlter fuel sys ctx ed true
  else if sym = 'e' then actionEdit p fun ed => pmPartAlter fuel sys ctx ed false
  else if sym = 't' then actionEdit p fun ed => some (pmPartChangeType ed)
  else if sym = 'a' then actionEdit p fun ed => some (pmPartToggleBoot ed)
  else if sym = 'd' then actionEdit p fun ed => some (pmPartDelete ed)
  else if sym = 'w' then some (actionWrite sys ctx p)
  else if sym = 'o' then some (actionNew ctx p .mbr)
  else if sym = 'g' then some (actionNew ctx p .gpt)
  else if sym = 'M' then
    if p.schemCurT ≠ .gpt ∨ p.sc.schemMbr.isNone then some (actionKeep p)
    else some (actionKeep { p with schemCurT := .mbr })
  else if sym = 'h' then some (actionResetProt ctx p)
  else if sym = 'r' then some (actionKeep { p with schemCurT := schemCtxGetType p.sc })
  -- help, printing and unknown commands
  else some (actionKeep p)

/-- A run of commands; each call into the platform has its own outcome. -/
def runActions (fuel : ℕ) (ctx : ImgCtx) : Prog → List (Sys × Char) → Option Prog
  | p, [] => some p
  | p, (sys, sym) :: cmds =>
    (actionHandle fuel sys ctx p sym).bind fun a => runActions fuel ctx a.prog cmds

end Partman

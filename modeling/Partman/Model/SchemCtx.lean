/-
# The scheme context (`schem.c`)

The context holds at most one scheme of each type and remembers which types the image is
known to carry.  Allocations are taken to succeed.
-/
import Partman.Model.Mbr
import Partman.Model.Gpt

namespace Partman

/-- `struct schem_ctx`; the two arrays are given by their entries for the two types. -/
structure SchemCtx where
  schemMbr : Option Schem
  schemGpt : Option Schem
  inImgMbr : Pflag
  inImgGpt : Pflag

/-- `schem_ctx_init`. -/
def schemCtxInit : SchemCtx := ⟨none, none, false, false⟩

/-- `schem_ctx->schemes[t]`. -/
def SchemCtx.schemes (sc : SchemCtx) : SchemType → Option Schem
  | .mbr => sc.schemMbr
  | .gpt => sc.schemGpt
  | .cnt => none

/-- `schem_ctx->schemes_in_img[t]`. -/
def SchemCtx.schemesInImg (sc : SchemCtx) : SchemType → Pflag
  | .mbr => sc.inImgMbr
  | .gpt => sc.inImgGpt
  | .cnt => false

/-- `schem_ctx->schemes[t] = schem`. -/
def SchemCtx.setSchem (sc : SchemCtx) (t : SchemType) (schem : Option Schem) : SchemCtx :=
  match t with
  | .mbr => { sc with schemMbr := schem }
  | .gpt => { sc with schemGpt := schem }
  | .cnt => sc

/-- `schem_ctx->schemes_in_img[t] = flag`. -/
def SchemCtx.setInImg (sc : SchemCtx) (t : SchemType) (flag : Pflag) : SchemCtx :=
  match t with
  | .mbr => { sc with inImgMbr := flag }
  | .gpt => { sc with inImgGpt := flag }
  | .cnt => sc

lemma schemes_setSchem_of_ne {sc : SchemCtx} {t u : SchemType} (schem : Option Schem)
    (h : u ≠ t) : (sc.setSchem t schem).schemes u = sc.schemes u := by
  cases t <;> cases u <;> first | rfl | exact absurd rfl h

lemma schemes_setSchem_self {sc : SchemCtx} {t : SchemType} (schem : Option Schem)
    (h : t ≠ .cnt) : (sc.setSchem t schem).schemes t = schem := by
  cases t <;> first | rfl | exact absurd rfl h

@[simp] lemma setInImg_schemes (sc : SchemCtx) (t : SchemType) (flag : Pflag) :
    (sc.setInImg t flag).schemes = sc.schemes := by
  funext u
  cases t <;> cases u <;> rfl

def schemGetMaxPartCnt : SchemType → Pu32
  | .mbr => mbrMaxPartCnt
  | .gpt => gptMaxPartCnt
  | .cnt => 0

/-! ## The function tables -/

/-- `funcs.init`. -/
def funcsInit (t : SchemType) (schem : Schem) (ctx : ImgCtx) (r : Rng) : Schem × Rng :=
  match t with
  | .mbr => schemInitMbr schem ctx r
  | .gpt => schemInitGpt schem ctx r
  | .cnt => (schem, r)

/-- `funcs.part_init`. -/
def funcsPartInit (t : SchemType) (part : SchemPart) (r : Rng) : SchemPart × Rng :=
  match t with
  | .mbr => (schemPartInitMbr part, r)
  | .gpt => schemPartInitGpt part r
  | .cnt => (part, r)

/-- `funcs.load`. -/
def funcsLoad (t : SchemType) (sys : Sys) (m : Image) (schem : Schem) (ctx : ImgCtx) :
    SchemLoadRes × Schem × List SecRead :=
  match t with
  | .mbr => schemLoadMbr sys m schem ctx
  | .gpt => schemLoadGpt sys m schem ctx
  | .cnt => (.fatal, schem, [])

/-- `funcs.save`. -/
def funcsSave (t : SchemType) (sys : Sys) (schem : Schem) (ctx : ImgCtx) : Pres × List Store :=
  match t with
  | .mbr => schemSaveMbr sys schem ctx
  | .gpt => schemSaveGpt sys schem ctx
  | .cnt => (.fail, [])

/-- `funcs.remove`. -/
def funcsRemove (t : SchemType) (sys : Sys) (ctx : ImgCtx) : Pres × List Store :=
  match t with
  | .mbr => schemRemoveMbr sys ctx
  | .gpt => schemRemoveGpt sys ctx
  | .cnt => (.fail, [])

/-! ## Creating schemes -/

/-- `schem_new` without initialisation: zeroed memory, a zeroed table and the functions. -/
def schemNew (t : SchemType) : Schem where
  type := .mbr
  idI := 0
  idGuid := Guid.zero
  firstUsableLba := 0
  lastUsableLba := 0
  partCnt := 0
  tableLen := (schemGetMaxPartCnt t).toNat
  table := tableZero
  funcs := t

/-- `schem_new` with initialisation, as `schem_ctx_schem_alloc` uses it. -/
def schemNewInit (t : SchemType) (ctx : ImgCtx) (r : Rng) : Schem × Rng :=
  funcsInit t (schemNew t) ctx r

/-- `schem_ctx_reset`. -/
def schemCtxReset (sc : SchemCtx) (keepSchemeFlags : Pflag) : SchemCtx :=
  { schemMbr := none
    schemGpt := none
    inImgMbr := keepSchemeFlags && sc.inImgMbr
    inImgGpt := keepSchemeFlags && sc.inImgGpt }

/-- `schem_ctx_new_gpt`: a new GPT and a protective MBR beside it. -/
def schemCtxNewGpt (sc : SchemCtx) (ctx : ImgCtx) (r : Rng) : SchemCtx × Rng :=
  let (gpt, r) := schemNewInit .gpt ctx r
  let (mbr, r) := schemNewInit .mbr ctx r
  ({ sc with schemGpt := some gpt, schemMbr := some (schemMbrSetProt mbr) }, r)

/-- `schem_ctx_new`. -/
def schemCtxNew (sc : SchemCtx) (ctx : ImgCtx) (t : SchemType) (r : Rng) :
    Pres × SchemCtx × Rng :=
  let sc := schemCtxReset sc true
  match t with
  | .gpt =>
    let (sc, r) := schemCtxNewGpt sc ctx r
    (.ok, sc, r)
  | .cnt => (.fail, sc, r)
  | .mbr =>
    let (mbr, r) := schemNewInit .mbr ctx r
    (.ok, { sc with schemMbr := some mbr }, r)

/-- `schem_ctx_get_type`: GPT is checked first. -/
def schemCtxGetType (sc : SchemCtx) : SchemType :=
  if sc.schemGpt.isSome then .gpt else if sc.schemMbr.isSome then .mbr else .cnt

/-! ## Loading -/

/-- What `schem_ctx_load` leaves. -/
structure CtxLoad where
  res : Pres
  sc : SchemCtx
  rng : Rng
  reads : List SecRead

/-- One pass of the detection loop: the scheme of type `t` is loaded into the context. -/
def schemCtxLoadOne (sys : Sys) (m : Image) (ctx : ImgCtx) (t : SchemType) (l : CtxLoad) :
    CtxLoad :=
  let (res, schem, reads) := funcsLoad t sys m (schemNew t) ctx
  match res with
  | .fatal => { l with res := .fail, reads := l.reads ++ reads }
  | .notFound => { l with reads := l.reads ++ reads }
  | .ok =>
    { l with
      sc := (l.sc.setSchem t (some schem)).setInImg t true
      reads := l.reads ++ reads }

/-- The extra checks for a GPT: there is a protective MBR, or one is made. -/
def schemCtxCheckProt (ctx : ImgCtx) (l : CtxLoad) : CtxLoad :=
  match l.sc.schemGpt, l.sc.schemMbr with
  | none, _ => l
  | some _, none =>
    let (mbr, r) := schemNewInit .mbr ctx l.rng
    { l with sc := l.sc.setSchem .mbr (some (schemMbrSetProt mbr)), rng := r }
  | some _, some mbr =>
    if schemMbrIsProt mbr then l
    else
      let (mbr, r) := schemInitMbr mbr ctx l.rng
      { l with sc := l.sc.setSchem .mbr (some (schemMbrSetProt mbr)), rng := r }

/-- `schem_ctx_load`. -/
def schemCtxLoad (sys : Sys) (m : Image) (sc : SchemCtx) (ctx : ImgCtx) (r : Rng) : CtxLoad :=
  let l := schemCtxLoadOne sys m ctx .mbr ⟨.ok, schemCtxReset sc false, r, []⟩
  if l.res = .fail then l
  else
    let l := schemCtxLoadOne sys m ctx .gpt l
    if l.res = .fail then l else schemCtxCheckProt ctx l

/-! ## Saving -/

/-- What `schem_ctx_save` leaves: the outcome, the context and the stores performed. -/
structure CtxSave where
  res : Pres
  sc : SchemCtx
  stores : List Store

/-- One pass of the removal loop.  The scheme of type `t`, if it is in the image, is
removed unless it is about to be overwritten; its flag is reset in both cases. -/
def schemCtxRemoveOne (sys : Sys) (ctx : ImgCtx) (t : SchemType) (s : CtxSave) : CtxSave :=
  if !s.sc.schemesInImg t then s
  else
    match s.sc.schemes t with
    | some _ => { s with sc := s.sc.setInImg t false }
    | none =>
      match funcsRemove t sys ctx with
      | (.fail, ss) => { s with res := .fail, stores := s.stores ++ ss }
      | (.ok, ss) => { s with sc := s.sc.setInImg t false, stores := s.stores ++ ss }

/-- One pass of the saving loop. -/
def schemCtxSaveOne (sys : Sys) (ctx : ImgCtx) (t : SchemType) (s : CtxSave) : CtxSave :=
  match s.sc.schemes t with
  | none => s
  | some schem =>
    match funcsSave schem.funcs sys schem ctx with
    | (.fail, ss) => { s with res := .fail, stores := s.stores ++ ss }
    | (.ok, ss) => { s with sc := s.sc.setInImg t true, stores := s.stores ++ ss }

/-- Continuing after a pass that has not failed. -/
def CtxSave.andThen (s : CtxSave) (f : CtxSave → CtxSave) : CtxSave :=
  if s.res = .fail then s else f s

/-- `schem_ctx_save`. -/
def schemCtxSave (sys : Sys) (sc : SchemCtx) (ctx : ImgCtx) : CtxSave :=
  (((((⟨.ok, sc, []⟩ : CtxSave).andThen (schemCtxRemoveOne sys ctx .mbr)).andThen
    (schemCtxRemoveOne sys ctx .gpt)).andThen
    (schemCtxSaveOne sys ctx .mbr)).andThen
    (schemCtxSaveOne sys ctx .gpt)).andThen
    fun s => { s with res := imgCtxSync sys }

end Partman

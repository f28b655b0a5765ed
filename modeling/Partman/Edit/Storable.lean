/-
# Schemes that the disk can hold

The fields in memory are wider than the ones on the disk: an MBR has 32 bits for a sector
and for a size, and a GPT has 32 bits for the first field of an identifier and overlapping
units for a name.  What a load delivers, what a command makes and what the prompts accept
all fit, with one exception: an identifier that is typed in with a minus sign is cut off
when it is saved.  It is then still not zero, so its partition stays in use.
-/
import Partman.Edit.WellFormed
import Partman.Text.Number

namespace Partman

open Lib

variable {sys : Sys} {ctx : ImgCtx} {m : Image} {schem : Schem} {sc : SchemCtx}

/-! ## Identifiers that are typed in -/

/-- A hexadecimal conversion reads digits within the field width, one fewer behind a sign. -/
lemma scanUInt_some {w : ℕ} {s rest : List Char} {v : Pu64}
    (h : scanUInt 16 w s = some (v, rest)) :
    ∃ neg ds, v = strtoul 16 neg ds ∧ digitsVal 16 ds < 16 ^ w ∧
      (neg = true → digitsVal 16 ds * 16 < 16 ^ w) := by
  obtain ⟨f, -, -, rfl⟩ := scanUInt_sound h
  have hwidth := f.width
  have hval := digitsVal_lt f.digits_isBaseDigit
  refine ⟨_, _, rfl, lt_of_lt_of_le hval (Nat.pow_le_pow_right (by decide) (by omega)), ?_⟩
  intro hneg
  have hsign : f.sign.toList.length = 1 := by
    rw [beq_iff_eq] at hneg
    simp [hneg]
  calc _ < 16 ^ f.digits.length * 16 := Nat.mul_lt_mul_of_pos_right hval (by decide)
    _ = 16 ^ (f.digits.length + 1) := (pow_succ _ _).symm
    _ ≤ 16 ^ w := Nat.pow_le_pow_right (by decide) (by omega)

/-- The low 32 bits of a number of at most eight hexadecimal characters are not all zero,
unless it is zero. -/
lemma scanUInt_low {s rest : List Char} {v : Pu64} (h : scanUInt 16 8 s = some (v, rest)) :
    v.toNat % 2 ^ 32 = 0 → v = 0 := by
  obtain ⟨neg, ds, rfl, hval, hneg⟩ := scanUInt_some h
  intro h0
  rw [eq_zero_iff_toNat]
  unfold strtoul at h0 ⊢
  simp only at h0 ⊢
  generalize digitsVal 16 ds = n at hval hneg h0 ⊢
  rw [if_neg (by omega)] at h0 ⊢
  have hn : (UInt64.ofNat n).toNat = n := toNat_ofNat_of_lt (by omega)
  cases neg with
  | false =>
    simp only [Bool.false_eq_true, if_false, hn] at h0 ⊢
    omega
  | true =>
    -- behind a minus sign there is room for seven digits only
    have hlt := hneg rfl
    simp only [if_true, UInt64.toNat_sub, hn, UInt64.toNat_zero] at h0 ⊢
    omega

/-- Cutting off the first field to 32 bits makes no identifier zero. -/
def Guid.LowZero (guid : Guid) : Prop := guid.timeLo.toNat % 2 ^ 32 = 0 → guid.timeLo = 0

lemma Guid.LowZero.of_lt {guid : Guid} (h : guid.timeLo.toNat < 2 ^ 32) : guid.LowZero := by
  intro h0
  rw [eq_zero_iff_toNat]
  omega

/-- **Every identifier that can be typed in** keeps being zero or not zero. -/
lemma strToGuid_lowZero {line : List Char} {guid : Guid} (h : strToGuid line = some guid) :
    guid.LowZero := by
  rw [strToGuid] at h
  split_ifs at h with hlen
  · exact absurd (show (none : Option Guid) = some guid from h) (by simp)
  obtain ⟨⟨timeLo, s⟩, hlo, h⟩ := Option.bind_eq_some_iff.1 h
  -- the scans of the other fields leave the first one as it is
  iterate 14 obtain ⟨_, -, h⟩ := Option.bind_eq_some_iff.1 h
  obtain rfl := Option.some.inj h
  exact scanUInt_low hlo

lemma rand32_lt (r : Rng) : (rand32 r).1.toNat < 2 ^ 32 :=
  readPu32_lt (fun k => r.byte (r.pos + k)) 0

/-! ## Schemes -/

/-- An entry that fits into one of a GPT, but for the first field of its type. -/
structure SchemPart.GptFits (part : SchemPart) : Prop where
  typeGuid : part.typeGuid.LowZero
  uniqueGuid : part.uniqueGuid.timeLo.toNat < 2 ^ 32
  name : ∀ i, (part.name i).toNat < 2 ^ 16
  chained : NameChained part.name

/-- An entry that fits into one of an MBR. -/
structure SchemPart.MbrFits (part : SchemPart) : Prop where
  startLba : part.startLba.toNat < 2 ^ 32
  szLba : (part.endLba - part.startLba + 1).toNat < 2 ^ 32

/-- A GPT that fits on the disk. -/
structure Schem.GptFits (schem : Schem) : Prop where
  cnt : schem.partCnt.toNat ≤ 128
  idGuid : schem.idGuid.timeLo.toNat < 2 ^ 32
  entry : ∀ i, (schem.table i).GptFits

/-- An MBR that fits on the disk. -/
structure Schem.MbrFits (schem : Schem) : Prop where
  cnt : schem.partCnt.toNat = 4
  idI : schem.idI.toNat < 2 ^ 32
  first : schem.firstUsableLba.toNat = 1
  last : 1 ≤ schem.lastUsableLba.toNat ∧ schem.lastUsableLba.toNat < 2 ^ 32
  entry : ∀ i, (schem.table i).MbrFits

lemma gptFits_zero : SchemPart.zero.GptFits :=
  ⟨.of_lt (by decide), by decide, fun _ => by decide +revert, nameChained_zero⟩

lemma mbrFits_zero : SchemPart.zero.MbrFits := ⟨by decide, by decide⟩

/-- Replacing one entry of a table. -/
lemma setPart_forall {P : SchemPart → Prop} (h : ∀ j, P (schem.table j)) (i : ℕ)
    {part : SchemPart} (hpart : P part) : ∀ j, P ((schem.setPart i part).table j) := by
  intro j
  by_cases hji : j = i
  · obtain rfl := hji
    rwa [Schem.setPart_same]
  · rw [Schem.setPart_of_ne _ _ hji]
    exact h j

lemma Schem.GptFits.setPart (h : schem.GptFits) (i : ℕ) {part : SchemPart}
    (hpart : part.GptFits) : (schem.setPart i part).GptFits :=
  ⟨h.cnt, h.idGuid, setPart_forall h.entry i hpart⟩

lemma Schem.MbrFits.setPart (h : schem.MbrFits) (i : ℕ) {part : SchemPart}
    (hpart : part.MbrFits) : (schem.setPart i part).MbrFits :=
  ⟨h.cnt, h.idI, h.first, h.last, setPart_forall h.entry i hpart⟩

/-! ## Schemes that are made -/

lemma schemInitGpt_gptFits (schem : Schem) (ctx : ImgCtx) (r : Rng) :
    (schemInitGpt schem ctx r).1.GptFits :=
  ⟨show gptMaxPartCnt.toNat ≤ 128 by decide, rand32_lt r, fun _ => gptFits_zero⟩

lemma schemPartInitGpt_gptFits (part : SchemPart) (r : Rng) :
    (schemPartInitGpt part r).1.GptFits :=
  ⟨.of_lt (show gptPartTypeDef.timeLo.toNat < 2 ^ 32 by decide), rand32_lt r,
    gptFits_zero.name, nameChained_zero⟩

/-- The usable sectors of an MBR. -/
lemma mbrInitSchem_usable (hv : ctx.Valid) (schem : Schem) :
    (mbrInitSchem schem ctx).firstUsableLba.toNat = 1 ∧
      1 ≤ (mbrInitSchem schem ctx).lastUsableLba.toNat ∧
      (mbrInitSchem schem ctx).lastUsableLba.toNat < 2 ^ 32 := by
  have hsecs := hv.secs_bound
  have hts := hv.tableSecs_bounds
  rw [toNat_mbrLastUsable hv]
  refine ⟨congrArg UInt64.toNat (byteToLba_mbrSz hv), ?_, ?_⟩ <;> omega

lemma schemInitMbr_mbrFits (hv : ctx.Valid) (schem : Schem) (r : Rng) :
    (schemInitMbr schem ctx r).1.MbrFits := by
  obtain ⟨hfirst, hlast⟩ := mbrInitSchem_usable hv schem
  exact ⟨rfl, rand32_lt r, hfirst, hlast, fun _ => mbrFits_zero⟩

lemma Schem.MbrFits.setProt (h : schem.MbrFits) : (schemMbrSetProt schem).MbrFits := by
  refine ⟨h.cnt, h.idI, h.first, h.last, fun i => ?_⟩
  by_cases hi : i = 0
  · obtain rfl := hi
    have hfirst := h.first
    obtain ⟨hlast, hlast'⟩ := h.last
    have hsub : (schem.lastUsableLba - schem.firstUsableLba).toNat =
        schem.lastUsableLba.toNat - schem.firstUsableLba.toNat := toNat_sub_of_ge (by omega)
    rw [schemMbrSetProt_table_zero]
    refine ⟨show schem.firstUsableLba.toNat < 2 ^ 32 by omega, ?_⟩
    show (schem.lastUsableLba - schem.firstUsableLba + 1).toNat < 2 ^ 32
    rw [toNat_add_of_lt (by rw [UInt64.toNat_one]; omega), UInt64.toNat_one]
    omega
  · rw [schemMbrSetProt_table_of_ne schem hi]
    exact mbrFits_zero

/-! ## Schemes that are loaded -/

/-- The units of a name that has been read overlap on the disk. -/
lemma nameChained_read (m : Image) (buf : ℕ) : NameChained (gptPartEntRead m buf).name := by
  intro k hk
  have h0 := (m (buf + 56 + k)).toNat_lt
  have h1 := (m (buf + 56 + k + 1)).toNat_lt
  rw [nameUnit_read m buf k (by omega), nameUnit_read m buf (k + 1) (by omega), toNat_readPu16,
    toNat_readPu16, show buf + 56 + (k + 1) = buf + 56 + k + 1 from rfl]
  simp only [loadAt_succ, loadAt_zero, ofLe_cons, ofLe_nil]
  omega

lemma gptPartToSchem_gptFits (m : Image) (buf : ℕ) :
    (gptPartToSchem (gptPartEntRead m buf)).GptFits :=
  ⟨.of_lt (guidRead_timeLo_lt _ _), guidRead_timeLo_lt _ _, (gptPartEntRead_bounded m buf).name,
    nameChained_read m buf⟩

/-- The scheme of a copy that is loaded. -/
lemma schemOfCopy_gptFits {lba : Plba} (h : (loadCopy sys m ctx lba).res = .ok) :
    (schemOfCopy (schemNew .gpt) (loadCopy sys m ctx lba).hdr
      (loadCopy sys m ctx lba).table).GptFits := by
  obtain ⟨hdrReg, tableReg, hhdr, hcnt, htab⟩ := gptPairLoad_of_ok h
  rw [show (loadCopy sys m ctx lba).hdr = gptHdrRead m hdrReg from hhdr,
    show (loadCopy sys m ctx lba).table = _ from htab]
  refine ⟨hcnt, guidRead_timeLo_lt _ _, fun i => ?_⟩
  simp only [schemOfCopy, gptToSchem]
  split_ifs with hi hu
  · rw [gptTableRead, tableLen_min hcnt, if_pos hi]
    exact gptPartToSchem_gptFits _ _
  · exact gptFits_zero
  · exact gptFits_zero

lemma schemLoadGpt_gptFits (h : (schemLoadGpt sys m (schemNew .gpt) ctx).1 = .ok) :
    (schemLoadGpt sys m (schemNew .gpt) ctx).2.1.GptFits := by
  rcases schemLoadGpt_cases h with ⟨hres, he⟩ | ⟨-, hres, he⟩
  · rw [he]
    exact schemOfCopy_gptFits hres
  · rw [he]
    exact schemOfCopy_gptFits hres

lemma gptFound_gptFits {gpt : Schem} (h : gptFound sys m ctx = some gpt) : gpt.GptFits := by
  rw [gptFound] at h
  split_ifs at h with hok
  obtain rfl := Option.some.inj h
  exact schemLoadGpt_gptFits hok

/-- An entry of an MBR that has been read: its end is computed from its size. -/
lemma mbrPartToSchem_mbrFits (m : Image) (buf : ℕ) :
    (mbrPartToSchem (mbrPartRead m buf)).MbrFits := by
  refine ⟨readPu32_lt m (buf + 8), ?_⟩
  have hsz : (mbrPartToSchem (mbrPartRead m buf)).endLba -
      (mbrPartToSchem (mbrPartRead m buf)).startLba + 1 = readPu32 m (buf + 12) := by
    simp only [mbrPartToSchem, mbrPartRead]
    grind
  rw [hsz]
  exact readPu32_lt m (buf + 12)

lemma mbrFound_mbrFits (hv : ctx.Valid) {mbr : Schem} (h : mbrFound m ctx = some mbr) :
    mbr.MbrFits := by
  rw [mbrFound] at h
  split_ifs at h
  obtain rfl := Option.some.inj h
  obtain ⟨hfirst, hlast⟩ := mbrInitSchem_usable hv (schemNew .mbr)
  refine ⟨rfl, readPu32_lt m _, hfirst, hlast, fun i => ?_⟩
  simp only [mbrToSchem]
  split_ifs with hi
  · have hlt : i < 4 := hi.1
    simp only [mbrRead, hlt, if_true]
    exact mbrPartToSchem_mbrFits m _
  · exact mbrFits_zero

/-! ## Changes of an entry -/

/-- Where a partition spans all sector numbers the search finds no first sector. -/
lemma schemFindStartSector_of_whole {fuel : ℕ} {ign : P32} {res : PlbaRes} {j : ℕ}
    (hj : j ∈ schem.others ign) (hstart : (schem.table j).startLba = 0)
    (hend : (schem.table j).endLba.toNat = 2 ^ 64 - 1)
    (h : schemFindStartSector fuel schem ctx ign = some res) : res = -1 := by
  rcases startLoop_res (P := fun _ => True) (fun _ _ _ _ => trivial) fuel trivial h with
    he | ⟨c, -, -, hn⟩
  · exact he
  · rcases startHit_none hn j (Schem.others_lt hj) (Schem.considers_of_others hj) with hlt | hlt
    · rw [hstart, UInt64.lt_iff_toNat_lt, UInt64.toNat_zero] at hlt
      omega
    · rw [UInt64.lt_iff_toNat_lt, hend] at hlt
      have := c.lba.toNat_lt
      omega

/-- An entry of an MBR that ends at the very last sector number is one of size zero at the
first sector, which then spans all of them. -/
lemma SchemPart.MbrFits.start_of_end {part : SchemPart} (h : part.MbrFits)
    (hend : part.endLba.toNat = 2 ^ 64 - 1) : part.startLba = 0 := by
  have hsz := h.szLba
  have hone : part.endLba + 1 = 0 := by
    rw [eq_zero_iff_toNat, UInt64.toNat_add, hend]
    rfl
  have hneg : part.endLba - part.startLba + 1 = 0 - part.startLba := by grind
  have hstart := h.startLba
  rw [hneg, UInt64.toNat_sub, UInt64.toNat_zero] at hsz
  rw [eq_zero_iff_toNat]
  omega

/-- The start sector that is chosen in an MBR is usable, also where an entry spans all
sector numbers: it has then been entered. -/
lemma StartChosen.usable (hal : 1 ≤ ctx.align.toNat) (h : schem.MbrFits) {i : Pu32}
    {startLba : Plba} (hc : StartChosen schem ctx i startLba) :
    schem.firstUsableLba.toNat ≤ startLba.toNat ∧
      startLba.toNat ≤ schem.lastUsableLba.toNat := by
  have hfirst := h.first
  obtain ⟨hlast, hlast'⟩ := h.last
  by_cases hends : schem.EndsBelow i.toInt64
  · exact hc.bounds hal (by omega) (by omega) hends
  · obtain ⟨j, hj, hend⟩ : ∃ j ∈ schem.others i.toInt64,
        ¬ (schem.table j).endLba.toNat < 2 ^ 64 - 1 := by
      simpa [Schem.EndsBelow] using hends
    have hend' : (schem.table j).endLba.toNat = 2 ^ 64 - 1 := by
      have := (schem.table j).endLba.toNat_lt
      omega
    rcases hc with ⟨h1, h2⟩ | ⟨fuel, res, hres, hne, -⟩
    · exact ⟨UInt64.le_iff_toNat_le.1 h1, UInt64.le_iff_toNat_le.1 h2⟩
    · have hstart := (h.entry j).start_of_end hend'
      exact absurd (schemFindStartSector_of_whole hj hstart hend' hres) hne

lemma PartChange.mbrFits (hal : 1 ≤ ctx.align.toNat) (h : schem.MbrFits) {i : Pu32}
    {part : SchemPart} (hc : PartChange ctx schem i part) : part.MbrFits := by
  have hold := h.entry i.toNat
  cases hc with
  | delete => exact mbrFits_zero
  | boot _ _ => exact ⟨hold.startLba, hold.szLba⟩
  | typeMbr _ _ _ => exact ⟨hold.startLba, hold.szLba⟩
  | typeGpt _ _ _ _ _ => exact ⟨hold.startLba, hold.szLba⟩
  | keep _ _ => exact hold
  | alter part startLba endLba _ hstart hend _ =>
    have hfirst := h.first
    obtain ⟨hlast, hlast'⟩ := h.last
    obtain ⟨h1, h2⟩ := hstart.usable hal h
    obtain ⟨h3, h4⟩ := hend.bounds h2
    refine ⟨show startLba.toNat < 2 ^ 32 by omega, ?_⟩
    show (endLba - startLba + 1).toNat < 2 ^ 32
    have hsub : (endLba - startLba).toNat = endLba.toNat - startLba.toNat := toNat_sub_of_ge h3
    rw [toNat_add_of_lt (by rw [UInt64.toNat_one]; omega), UInt64.toNat_one]
    omega

lemma PartChange.gptFits (h : schem.GptFits) (hfuncs : schem.funcs = .gpt) {i : Pu32}
    {part : SchemPart} (hc : PartChange ctx schem i part) : part.GptFits := by
  have hold := h.entry i.toNat
  cases hc with
  | delete => exact gptFits_zero
  | boot _ _ => exact ⟨hold.typeGuid, hold.uniqueGuid, hold.name, hold.chained⟩
  | typeMbr _ _ _ => exact ⟨hold.typeGuid, hold.uniqueGuid, hold.name, hold.chained⟩
  | typeGpt line guid hguid _ _ =>
    exact ⟨strToGuid_lowZero hguid, hold.uniqueGuid, hold.name, hold.chained⟩
  | keep _ _ => exact hold
  | alter part startLba endLba hpart _ _ _ =>
    have hfits : part.GptFits := by
      rcases hpart with ⟨-, rfl⟩ | ⟨-, rng, rfl⟩
      · exact hold
      · rw [hfuncs]
        exact schemPartInitGpt_gptFits (schem.table i.toNat) rng
    exact ⟨hfits.typeGuid, hfits.uniqueGuid, hfits.name, hfits.chained⟩

/-! ## Contexts -/

/-- A scheme in the slot of type `t` fits on the disk. -/
def Schem.StorableAs (schem : Schem) : SchemType → Prop
  | .mbr => schem.MbrFits
  | .gpt => schem.GptFits
  | .cnt => True

/-- Every scheme of the context fits on the disk. -/
def SchemCtx.Storable (sc : SchemCtx) : Prop :=
  ∀ t schem, sc.schemes t = some schem → schem.StorableAs t

lemma SchemCtx.Storable.setSchem (h : sc.Storable) {t : SchemType} (hs : schem.StorableAs t) :
    (sc.setSchem t (some schem)).Storable :=
  forall_setSchem (P := fun u s => s.StorableAs u) h hs

lemma LoadSpec.storable (hv : ctx.Valid) (h : LoadSpec sys m ctx sc) : sc.Storable := by
  intro t schem hs
  cases t with
  | mbr =>
    rcases h.schemMbr with ⟨-, he⟩ | ⟨gpt, mbr, -, he, hkind⟩
    · exact mbrFound_mbrFits hv (he.symm.trans hs)
    · obtain rfl : mbr = schem := Option.some.inj (he.symm.trans hs)
      rcases hkind with ⟨hfound, -⟩ | ⟨s, r, rfl, -⟩
      · exact mbrFound_mbrFits hv hfound
      · exact (schemInitMbr_mbrFits hv s r).setProt
  | gpt => exact gptFound_gptFits (h.schemGpt.symm.trans hs)
  | cnt => trivial

lemma schemCtxNew_storable (hv : ctx.Valid) (sc : SchemCtx) (t : SchemType) (r : Rng) :
    (schemCtxNew sc ctx t r).2.1.Storable := by
  have hreset : (schemCtxReset sc true).Storable := by
    intro u s hs
    cases u <;> exact absurd hs (by simp [schemCtxReset, SchemCtx.schemes])
  cases t with
  | mbr => exact hreset.setSchem (t := .mbr) (schemInitMbr_mbrFits hv _ _)
  | gpt =>
    have hgpt := hreset.setSchem (t := .gpt) (schemInitGpt_gptFits (schemNew .gpt) ctx r)
    exact hgpt.setSchem (t := .mbr) (schemInitMbr_mbrFits hv _ _).setProt
  | cnt => exact hreset

/-! ## Commands -/

/-- A command keeps the context storable. -/
lemma ActionSpec.storable (hv : ctx.Valid) (hal : 1 ≤ ctx.align.toNat) {p : Prog} {a : Action}
    (hwf : p.sc.WellFormed) (hp : p.sc.Storable) (h : ActionSpec sys ctx p a) :
    a.prog.sc.Storable := by
  cases h with
  | keep hsc _ _ => rwa [hsc]
  | edit schem schem' e hcur hspec hsc _ _ =>
    have hold := hp _ _ hcur
    have hform := hwf.formed _ _ hcur
    rw [hsc]
    refine hp.setSchem ?_
    cases e with
    | refused why =>
      obtain rfl : schem' = schem := hspec
      exact hold
    | accepted i =>
      obtain ⟨-, part, hpart, rfl⟩ := hspec
      cases ht : p.schemCurT with
      | mbr =>
        rw [ht] at hold
        exact Schem.MbrFits.setPart hold _ (hpart.mbrFits hal hold)
      | gpt =>
        rw [ht] at hold hform
        exact Schem.GptFits.setPart hold _ (hpart.gptFits hold hform.funcs)
      | cnt => trivial
  | new t _ hsc _ _ =>
    rw [hsc]
    exact schemCtxNew_storable hv _ _ _
  | resetProt mbr _ hsc _ _ =>
    rw [hsc]
    exact hp.setSchem (t := .mbr) (schemInitMbr_mbrFits hv mbr p.rng).setProt
  | write hsc _ _ =>
    rw [hsc]
    intro t schem hs
    rw [schemCtxSave_schemes] at hs
    exact hp t schem hs

/-- What a command that does not save leaves alone: the image, and what is known of it. -/
structure Prog.SameDisk (p q : Prog) : Prop where
  img : q.img = p.img
  inImg : q.sc.schemesInImg = p.sc.schemesInImg

lemma setSchem_schemesInImg (sc : SchemCtx) (t : SchemType) (schem : Option Schem) :
    (sc.setSchem t schem).schemesInImg = sc.schemesInImg := by
  funext u
  cases t <;> cases u <;> rfl

lemma schemCtxNew_schemesInImg (sc : SchemCtx) (ctx : ImgCtx) (t : SchemType) (r : Rng) :
    (schemCtxNew sc ctx t r).2.1.schemesInImg = sc.schemesInImg := by
  funext u
  cases t <;> cases u <;> rfl

lemma actionEdit_sameDisk {p : Prog} {f : Ed → Option (Edit × Ed)} {a : Action}
    (h : actionEdit p f = some a) : p.SameDisk a.prog := by
  rcases actionEdit_cases h with rfl | ⟨schem, edit, ed, -, -, rfl⟩
  · exact ⟨rfl, rfl⟩
  · exact ⟨rfl, setSchem_schemesInImg _ _ _⟩

lemma actionResetProt_sameDisk (ctx : ImgCtx) (p : Prog) :
    p.SameDisk (actionResetProt ctx p).prog := by
  rw [actionResetProt]
  split
  · exact ⟨rfl, setSchem_schemesInImg _ _ _⟩
  · exact ⟨rfl, rfl⟩

/-- Only saving changes the image. -/
lemma actionHandle_sameDisk {fuel : ℕ} {p : Prog} {sym : Char} {a : Action} (hsym : sym ≠ 'w')
    (h : actionHandle fuel sys ctx p sym = some a) : p.SameDisk a.prog := by
  by_cases hed : isEditing sym
  · obtain ⟨f, hf, -⟩ := actionHandle_edit hed
    exact actionEdit_sameDisk (hf.symm.trans h)
  obtain ⟨a', ha', hother⟩ := actionHandle_other hed
  obtain rfl := Option.some.inj (ha'.symm.trans h)
  cases hother with
  | keep res => exact ⟨rfl, rfl⟩
  | write hw => exact absurd hw hsym
  | new t _ => exact ⟨rfl, schemCtxNew_schemesInImg p.sc ctx t p.rng⟩
  | enterProt _ => exact ⟨rfl, rfl⟩
  | resetProt => exact actionResetProt_sameDisk ctx p
  | leaveProt => exact ⟨rfl, rfl⟩

/-- An MBR that is in the context stays there. -/
lemma ActionSpec.hasMbr {p : Prog} {a : Action} (hp : p.sc.schemMbr ≠ none)
    (h : ActionSpec sys ctx p a) : a.prog.sc.schemMbr ≠ none := by
  have hset : ∀ t schem, p.sc.schemes t ≠ none →
      (p.sc.setSchem t (some schem)).schemMbr ≠ none := by
    intro t schem hne
    exact fun hn => hp ((setSchem_eq_none_iff hne schem .mbr).1 hn)
  cases h with
  | keep hsc _ _ => rwa [hsc]
  | edit schem schem' e hcur _ hsc _ _ =>
    rw [hsc]
    exact hset _ _ (by simp [hcur])
  | new t ht hsc _ _ =>
    rw [hsc]
    rcases ht with rfl | rfl <;> simp [schemCtxNew, schemCtxNewGpt]
  | resetProt mbr hmbr hsc _ _ =>
    rw [hsc]
    exact hset .mbr _ (by simp [SchemCtx.schemes, hmbr])
  | write hsc _ _ =>
    rw [hsc, show (schemCtxSave sys p.sc ctx).sc.schemMbr = p.sc.schemMbr from
      congrFun (schemCtxSave_schemes sys p.sc ctx) .mbr]
    exact hp

/-! ## Runs -/

/-- What holds between a load of the image `m` and the next save, where the load has left
the context `sc₀`. -/
structure Prog.Unsaved (p : Prog) (sc₀ : SchemCtx) (m : Image) : Prop where
  wellFormed : p.sc.WellFormed
  storable : p.sc.Storable
  img : p.img = m
  inImg : p.sc.schemesInImg = sc₀.schemesInImg
  hasMbr : sc₀.schemMbr ≠ none → p.sc.schemMbr ≠ none

/-- **A run without a save** only makes contexts that fit on the disk, and leaves the image
as it was. -/
lemma runActions_unsaved (hv : ctx.Valid) (hal : 1 ≤ ctx.align.toNat) {fuel : ℕ}
    {sc₀ : SchemCtx} (cmds : List (Sys × Char)) (hcmds : ∀ c ∈ cmds, c.2 ≠ 'w') {p p' : Prog}
    (hp : p.Unsaved sc₀ m) (h : runActions fuel ctx p cmds = some p') : p'.Unsaved sc₀ m := by
  induction cmds generalizing p with
  | nil =>
    obtain rfl := Option.some.inj h
    exact hp
  | cons cmd cmds ih =>
    obtain ⟨a, ha, hrest⟩ := Option.bind_eq_some_iff.1 h
    have hspec := (actionHandle_spec ha).1
    have hdisk := actionHandle_sameDisk (hcmds cmd (by simp)) ha
    refine ih (fun c hc => hcmds c (List.mem_cons_of_mem _ hc)) ?_ hrest
    exact ⟨hspec.wellFormed hp.wellFormed, hspec.storable hv hal hp.wellFormed hp.storable,
      hdisk.img.trans hp.img, hdisk.inImg.trans hp.inImg, fun h0 => hspec.hasMbr (hp.hasMbr h0)⟩

end Partman

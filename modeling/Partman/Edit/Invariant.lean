/-
# The partition invariant over runs of commands

Every change of an entry keeps the invariant of its scheme, newly made schemes have it,
and saving does not touch the schemes.  Since the searches return as long as the invariant
holds, a run of any commands on any input ends, with the invariant.
-/
import Partman.Edit.Run

namespace Partman

open Lib

variable {ctx : ImgCtx} {schem : Schem}

/-! ## Changes of an entry -/

lemma partIsUsed_zero (schem : Schem) : schem.partIsUsed SchemPart.zero = false := by
  rw [Schem.partIsUsed]
  cases schem.funcs <;> decide

/-- A used entry may be replaced by one with the same range. -/
lemma inv_setPart_same_range (hinv : schem.Inv) {i : ℕ} {part : SchemPart}
    (hused : i ∈ schem.usedSet) (hs : part.startLba = (schem.table i).startLba)
    (he : part.endLba = (schem.table i).endLba) : (schem.setPart i part).Inv := by
  refine hinv.anti (fun j hj => ?_) (fun j _ => ?_) (fun j _ => ?_) <;>
    rcases eq_or_ne j i with rfl | hji
  · exact hused
  · rw [Schem.mem_usedSet, Schem.setPart_of_ne _ _ hji] at hj
    exact hj
  · rw [Schem.setPart_same, hs]
  · rw [Schem.setPart_of_ne _ _ hji]
  · rw [Schem.setPart_same, he]
  · rw [Schem.setPart_of_ne _ _ hji]

/-- An entry may be freed. -/
lemma inv_setPart_zero (hinv : schem.Inv) (i : ℕ) : (schem.setPart i SchemPart.zero).Inv := by
  have hne : ∀ j ∈ (schem.setPart i SchemPart.zero).usedSet, j ≠ i := by
    rintro j hj rfl
    rw [Schem.mem_usedSet, Schem.setPart_same, Schem.setPart_partIsUsed, partIsUsed_zero] at hj
    exact absurd hj.2 (by simp)
  refine hinv.anti (fun j hj => ?_) (fun j hj => ?_) (fun j hj => ?_)
  · have hji := hne j hj
    rw [Schem.mem_usedSet, Schem.setPart_of_ne _ _ hji] at hj
    exact hj
  · rw [Schem.setPart_of_ne _ _ (hne j hj)]
  · rw [Schem.setPart_of_ne _ _ (hne j hj)]

/-- An entry may be given a usable range that meets no other partition. -/
lemma inv_setPart_range (hinv : schem.Inv) (hcnt : schem.partCnt.toNat < 2 ^ 63) {i : Pu32}
    {part : SchemPart} (h1 : schem.firstUsableLba.toNat ≤ part.startLba.toNat)
    (h2 : part.startLba.toNat ≤ part.endLba.toNat)
    (h3 : part.endLba.toNat ≤ schem.lastUsableLba.toNat)
    (hfree : ¬ schemFindOverlap schem part.startLba part.endLba i.toInt64 ≥ 0) :
    (schem.setPart i.toNat part).Inv := by
  refine hinv.insert (i := i.toNat) (fun j hj hji => ?_) (fun j _ hji => ?_) (fun j _ hji => ?_)
    ?_ ?_ ?_ ?_
  · rw [Schem.mem_usedSet, Schem.setPart_of_ne _ _ hji] at hj
    exact hj
  · rw [Schem.setPart_of_ne _ _ hji]
  · rw [Schem.setPart_of_ne _ _ hji]
  all_goals rw [Schem.setPart_same]
  · exact h1
  · exact h2
  · exact h3
  · exact (schemFindOverlap_neg_iff hinv hcnt h2).1 hfree

lemma StartChosen.bounds (hal : 1 ≤ ctx.align.toNat)
    (hrange : schem.firstUsableLba.toNat ≤ schem.lastUsableLba.toNat)
    (hroom : schem.lastUsableLba.toNat < 2 ^ 63) {i : Pu32} (hends : schem.EndsBelow i.toInt64)
    {startLba : Plba} (h : StartChosen schem ctx i startLba) :
    schem.firstUsableLba.toNat ≤ startLba.toNat ∧
      startLba.toNat ≤ schem.lastUsableLba.toNat := by
  rcases h with ⟨h1, h2⟩ | ⟨fuel, res, hres, hne, rfl⟩
  · exact ⟨UInt64.le_iff_toNat_le.1 h1, UInt64.le_iff_toNat_le.1 h2⟩
  · rcases schemFindStartSector_usable hal hrange hroom hends hres with he | ⟨c, ⟨hb, ha⟩, rfl, _⟩
    · exact absurd he hne
    · rw [UInt64.toUInt64_toInt64]
      exact ⟨le_trans ha.1 ha.2, hb.1⟩

lemma EndChosen.bounds {i : Pu32} {startLba endLba : Plba}
    (hstart : startLba.toNat ≤ schem.lastUsableLba.toNat)
    (h : EndChosen schem ctx i startLba endLba) :
    startLba.toNat ≤ endLba.toNat ∧ endLba.toNat ≤ schem.lastUsableLba.toNat := by
  rcases h with ⟨h1, h2⟩ | ⟨hne, rfl⟩
  · exact ⟨UInt64.le_iff_toNat_le.1 h1, UInt64.le_iff_toNat_le.1 h2⟩
  · rcases schemFindLastSector_cases schem ctx i.toInt64 startLba with he | ⟨lba, he, h1, h2⟩
    · exact absurd he hne
    · rw [he, UInt64.toUInt64_toInt64]
      exact ⟨h1, le_trans h2 (lastBound_bounds schem i.toInt64 hstart).2⟩

/-- **A change of an entry keeps the invariant.** -/
theorem PartChange.inv (hinv : schem.Inv) (hfits : schem.Fits ctx) {i : Pu32}
    (hi : i.toNat < schem.partCnt.toNat) {part : SchemPart} (h : PartChange ctx schem i part) :
    (schem.setPart i.toNat part).Inv := by
  cases h with
  | delete => exact inv_setPart_zero hinv i.toNat
  | boot _ hused => exact inv_setPart_same_range hinv ⟨hi, hused⟩ rfl rfl
  | typeMbr _ _ hused => exact inv_setPart_same_range hinv ⟨hi, hused⟩ rfl rfl
  | typeGpt _ _ _ _ hused => exact inv_setPart_same_range hinv ⟨hi, hused⟩ rfl rfl
  | keep _ hused => exact inv_setPart_same_range hinv ⟨hi, hused⟩ rfl rfl
  | alter _ startLba endLba _ hstart hend hfree =>
    obtain ⟨h1, h2⟩ := hstart.bounds hfits.align hfits.range hfits.room' (hinv.endsBelow hfits _)
    obtain ⟨h3, h4⟩ := hend.bounds h2
    exact inv_setPart_range hinv hfits.cnt h1 h3 h4 hfree

/-! ## New schemes -/

/-- What a run keeps of every scheme. -/
def SchemCtx.Good (sc : SchemCtx) (ctx : ImgCtx) : Prop :=
  ∀ t schem, sc.schemes t = some schem → schem.Inv ∧ schem.Fits ctx

/-- Putting a scheme into its slot keeps what holds of all schemes. -/
lemma forall_setSchem {P : SchemType → Schem → Prop} {sc : SchemCtx}
    (h : ∀ u s, sc.schemes u = some s → P u s) {t : SchemType} (hschem : P t schem) :
    ∀ u s, (sc.setSchem t (some schem)).schemes u = some s → P u s := by
  intro u s hs
  by_cases hu : u = t
  · obtain rfl := hu
    by_cases ht : u = .cnt
    · subst ht
      exact absurd hs (by simp [SchemCtx.schemes])
    · rw [schemes_setSchem_self _ ht] at hs
      obtain rfl := Option.some.inj hs
      exact hschem
  · rw [schemes_setSchem_of_ne _ hu] at hs
    exact h u s hs

lemma SchemCtx.Good.setSchem {sc : SchemCtx} (h : sc.Good ctx) {t : SchemType}
    (hinv : schem.Inv) (hfits : schem.Fits ctx) : (sc.setSchem t (some schem)).Good ctx :=
  forall_setSchem (P := fun _ s => s.Inv ∧ s.Fits ctx) h ⟨hinv, hfits⟩

lemma inv_of_tableZero (h : schem.table = tableZero) : schem.Inv := by
  have hempty : schem.usedSet = ∅ := by
    refine Set.eq_empty_of_forall_notMem fun i hi => ?_
    have := hi.2
    rw [h, tableZero, partIsUsed_zero] at this
    exact absurd this (by simp)
  rw [Schem.Inv, hempty]
  exact Placement.empty _ _ _ _

lemma toNat_mbrLastUsable (hctx : ctx.Valid) (schem : Schem) :
    (mbrInitSchem schem ctx).lastUsableLba.toNat = min 0xFFFFFFFF (ctx.secs - 1) := by
  have hlast := toNat_imgLastLba hctx
  have hcond : byteToLba ctx ctx.imgSz false - 1 > 0xFFFFFFFF ↔ 0xFFFFFFFF < ctx.secs - 1 := by
    rw [gt_iff_lt, UInt64.lt_iff_toNat_lt, ← hlast]
    rfl
  simp only [mbrInitSchem]
  split
  · next h =>
    rw [hcond] at h
    simp only [UInt64.reduceToNat]
    omega
  · next h =>
    rw [hcond] at h
    have : (byteToLba ctx ctx.imgSz false - 1).toNat = ctx.secs - 1 := hlast
    rw [this]
    omega

lemma mbrInitSchem_fits (hctx : ctx.Valid) (hal : 1 ≤ ctx.align.toNat)
    (himg : ctx.secs + ctx.align.toNat < 2 ^ 63) (schem : Schem) :
    (mbrInitSchem schem ctx).Fits ctx := by
  have hlast := toNat_mbrLastUsable hctx schem
  have hsecs := hctx.secs_bound
  have hts := hctx.tableSecs_bounds
  have hfirst : (mbrInitSchem schem ctx).firstUsableLba.toNat = 1 :=
    congrArg UInt64.toNat (byteToLba_mbrSz hctx)
  have hcnt : (mbrInitSchem schem ctx).partCnt.toNat = 4 := rfl
  exact ⟨by omega, by omega, hal, by omega⟩

lemma schemInitMbr_eq (schem : Schem) (ctx : ImgCtx) (r : Rng) :
    (schemInitMbr schem ctx r).1 = { mbrInitSchem schem ctx with idI := (rand32 r).1 } := rfl

lemma schemInitMbr_good (hctx : ctx.Valid) (hal : 1 ≤ ctx.align.toNat)
    (himg : ctx.secs + ctx.align.toNat < 2 ^ 63) (schem : Schem) (r : Rng) :
    (schemInitMbr schem ctx r).1.Inv ∧ (schemInitMbr schem ctx r).1.Fits ctx := by
  have h := mbrInitSchem_fits hctx hal himg schem
  rw [schemInitMbr_eq]
  exact ⟨inv_of_tableZero rfl, ⟨h.range, h.room, h.align, h.cnt⟩⟩

lemma schemMbrSetProt_table_zero (schem : Schem) : (schemMbrSetProt schem).table 0 =
    { SchemPart.zero with
      typeI := mbrPartTypeProt
      startLba := schem.firstUsableLba
      endLba := schem.lastUsableLba
      bootInd := 0x0 } := by
  simp [schemMbrSetProt]

lemma schemMbrSetProt_table_of_ne (schem : Schem) {i : ℕ} (hi : i ≠ 0) :
    (schemMbrSetProt schem).table i = SchemPart.zero := by
  simp [schemMbrSetProt, hi, tableZero]

/-- The protective partition fills the usable sectors. -/
lemma schemMbrSetProt_good (hfits : schem.Fits ctx) :
    (schemMbrSetProt schem).Inv ∧ (schemMbrSetProt schem).Fits ctx := by
  refine ⟨?_, ⟨hfits.range, hfits.room, hfits.align, hfits.cnt⟩⟩
  have hsub : (schemMbrSetProt schem).usedSet ⊆ {0} := by
    rintro j ⟨_, hj⟩
    by_contra hne
    rw [schemMbrSetProt_table_of_ne schem (show j ≠ 0 from hne), partIsUsed_zero] at hj
    exact absurd hj (by simp)
  refine (Placement.singleton (i := 0) ?_ ?_ ?_).anti hsub (fun _ _ => rfl) (fun _ _ => rfl)
  all_goals simp only [schemMbrSetProt_table_zero]
  · exact le_rfl
  · exact hfits.range
  · exact le_rfl

/-- A new GPT uses what is left between the tables. -/
lemma toNat_schemInitGpt_usable (hctx : ctx.Valid) (schem : Schem) (r : Rng) :
    (schemInitGpt schem ctx r).1.firstUsableLba.toNat = 2 + ctx.tableSecs ∧
      (schemInitGpt schem ctx r).1.lastUsableLba.toNat = ctx.secs - 1 - ctx.tableSecs - 1 := by
  obtain ⟨_, _, h3, h4, h5⟩ := gptCalcPos_toNat hctx
  have hsecs := hctx.secs_bound
  have hts := hctx.tableSecs_bounds
  constructor
  · have hfirst : (schemInitGpt schem ctx r).1.firstUsableLba =
      (gptCalcPos ctx).tableLbaPrim + (gptCalcPos ctx).tableSz := rfl
    rw [hfirst, toNat_add_of_lt (by omega), h3, h5]
  · have hlast : (schemInitGpt schem ctx r).1.lastUsableLba =
      (gptCalcPos ctx).tableLbaSec - 1 := rfl
    rw [hlast, toNat_sub_of_ge (by rw [h4, UInt64.toNat_one]; omega), h4, UInt64.toNat_one]

lemma schemInitGpt_good (hctx : ctx.Valid) (hal : 1 ≤ ctx.align.toNat)
    (himg : ctx.secs + ctx.align.toNat < 2 ^ 63) (schem : Schem) (r : Rng) :
    (schemInitGpt schem ctx r).1.Inv ∧ (schemInitGpt schem ctx r).1.Fits ctx := by
  have hsecs := hctx.secs_bound
  have hts := hctx.tableSecs_bounds
  obtain ⟨hfirst, hlast⟩ := toNat_schemInitGpt_usable hctx schem r
  have hcnt : (schemInitGpt schem ctx r).1.partCnt.toNat = 128 := rfl
  exact ⟨inv_of_tableZero rfl, ⟨by omega, by omega, hal, by omega⟩⟩

lemma schemCtxNew_good (hctx : ctx.Valid) (hal : 1 ≤ ctx.align.toNat)
    (himg : ctx.secs + ctx.align.toNat < 2 ^ 63) (sc : SchemCtx) (t : SchemType) (r : Rng) :
    (schemCtxNew sc ctx t r).2.1.Good ctx := by
  intro u s hs
  cases t with
  | mbr =>
    cases u with
    | mbr =>
      obtain rfl := Option.some.inj hs
      exact schemInitMbr_good hctx hal himg _ _
    | gpt => exact absurd hs (by simp [schemCtxNew, schemCtxReset, SchemCtx.schemes])
    | cnt => exact absurd hs (by simp [SchemCtx.schemes])
  | gpt =>
    cases u with
    | mbr =>
      obtain rfl := Option.some.inj hs
      exact schemMbrSetProt_good (schemInitMbr_good hctx hal himg _ _).2
    | gpt =>
      obtain rfl := Option.some.inj hs
      exact schemInitGpt_good hctx hal himg _ _
    | cnt => exact absurd hs (by simp [SchemCtx.schemes])
  | cnt => cases u <;> exact absurd hs (by simp [schemCtxNew, schemCtxReset, SchemCtx.schemes])

/-! ## Saving -/

lemma schemCtxRemoveOne_schemes (sys : Sys) (ctx : ImgCtx) (t : SchemType) (s : CtxSave) :
    (schemCtxRemoveOne sys ctx t s).sc.schemes = s.sc.schemes := by
  rw [schemCtxRemoveOne]
  split_ifs
  · rfl
  · split
    · exact setInImg_schemes _ _ _
    · rcases funcsRemove t sys ctx with ⟨_ | _, ss⟩
      · rfl
      · exact setInImg_schemes _ _ _

lemma schemCtxSaveOne_schemes (sys : Sys) (ctx : ImgCtx) (t : SchemType) (s : CtxSave) :
    (schemCtxSaveOne sys ctx t s).sc.schemes = s.sc.schemes := by
  rw [schemCtxSaveOne]
  split
  · rfl
  · next schem _ =>
    rcases funcsSave schem.funcs sys schem ctx with ⟨_ | _, ss⟩
    · rfl
    · exact setInImg_schemes _ _ _

lemma andThen_schemes {s : CtxSave} {f : CtxSave → CtxSave}
    (h : ∀ s, (f s).sc.schemes = s.sc.schemes) : (s.andThen f).sc.schemes = s.sc.schemes := by
  rw [CtxSave.andThen]
  split_ifs
  · rfl
  · exact h s

/-- Saving changes no scheme in memory. -/
lemma schemCtxSave_schemes (sys : Sys) (sc : SchemCtx) (ctx : ImgCtx) :
    (schemCtxSave sys sc ctx).sc.schemes = sc.schemes := by
  rw [schemCtxSave]
  rw [andThen_schemes (f := fun s => { s with res := imgCtxSync sys }) fun _ => rfl,
    andThen_schemes (schemCtxSaveOne_schemes sys ctx .gpt),
    andThen_schemes (schemCtxSaveOne_schemes sys ctx .mbr),
    andThen_schemes (schemCtxRemoveOne_schemes sys ctx .gpt),
    andThen_schemes (schemCtxRemoveOne_schemes sys ctx .mbr)]

/-! ## Commands -/

lemma setSchem_schemes_self {sc : SchemCtx} {t : SchemType} (h : sc.schemes t = some schem) :
    sc.setSchem t (some schem) = sc := by
  cases t
  · obtain ⟨mbr, gpt, fm, fg⟩ := sc
    obtain rfl : mbr = some schem := h
    rfl
  · obtain ⟨mbr, gpt, fm, fg⟩ := sc
    obtain rfl : gpt = some schem := h
    rfl
  · rfl

/-- What an editing command may change: nothing when it is refused, and one entry of the
current scheme when it is accepted. -/
def EditFrame (p : Prog) (a : Action) : Prop :=
  match a.edit with
  | none => True
  | some (.refused _) => a.prog.sc = p.sc
  | some (.accepted i) => ∃ schem part, p.sc.schemes p.schemCurT = some schem ∧
      i.toNat < schem.partCnt.toNat ∧
      a.prog.sc = p.sc.setSchem p.schemCurT (some (schem.setPart i.toNat part))

lemma ActionSpec.editFrame {sys : Sys} {p : Prog} {a : Action} (h : ActionSpec sys ctx p a) :
    EditFrame p a := by
  rw [EditFrame]
  cases h with
  | keep hsc _ hedit =>
    rcases hedit with he | he <;> rw [he]
    · trivial
    · exact hsc
  | edit schem schem' e hcur hspec hsc _ hedit =>
    rw [hedit]
    cases e with
    | refused why =>
      obtain rfl : schem' = schem := hspec
      exact hsc.trans (setSchem_schemes_self hcur)
    | accepted i =>
      obtain ⟨hi, part, _, rfl⟩ := hspec
      exact ⟨schem, part, hcur, hi, hsc⟩
  | new _ _ _ _ hedit =>
    rw [hedit]
    trivial
  | resetProt _ _ _ _ hedit =>
    rw [hedit]
    trivial
  | write _ _ hedit =>
    rw [hedit]
    trivial

/-- One command keeps the invariant of every scheme. -/
lemma ActionSpec.good (hctx : ctx.Valid) (hal : 1 ≤ ctx.align.toNat)
    (himg : ctx.secs + ctx.align.toNat < 2 ^ 63) {sys : Sys} {p : Prog} {a : Action}
    (hp : p.sc.Good ctx) (h : ActionSpec sys ctx p a) : a.prog.sc.Good ctx := by
  cases h with
  | keep hsc _ _ => rwa [hsc]
  | edit schem schem' e hcur hspec hsc _ _ =>
    obtain ⟨hinv, hfits⟩ := hp _ _ hcur
    rw [hsc]
    cases e with
    | refused why =>
      obtain rfl : schem' = schem := hspec
      exact hp.setSchem hinv hfits
    | accepted i =>
      obtain ⟨hi, part, hpart, rfl⟩ := hspec
      exact hp.setSchem (hpart.inv hinv hfits hi)
        ⟨hfits.range, hfits.room, hfits.align, hfits.cnt⟩
  | new t _ hsc _ _ =>
    rw [hsc]
    exact schemCtxNew_good hctx hal himg _ _ _
  | resetProt mbr _ hsc _ _ =>
    rw [hsc]
    have hprot := schemMbrSetProt_good (schemInitMbr_good hctx hal himg mbr p.rng).2
    exact hp.setSchem hprot.1 hprot.2
  | write hsc _ _ =>
    rw [hsc]
    intro t schem hs
    rw [schemCtxSave_schemes] at hs
    exact hp t schem hs

/-- Over schemes that keep the invariant every command returns. -/
lemma actionHandle_total {fuel : ℕ} (hfuel : 2 ^ 65 ≤ fuel) {p : Prog} (hp : p.sc.Good ctx)
    (sys : Sys) (sym : Char) : ∃ a, actionHandle fuel sys ctx p sym = some a := by
  by_cases hsym : isEditing sym
  · have hedit : ∀ f, (∀ schem, p.sc.schemes p.schemCurT = some schem →
        ∃ e, f ⟨schem, p.inp, p.rng⟩ = some e) → ∃ a, actionEdit p f = some a := by
      intro f hf
      rw [actionEdit]
      cases hs : p.sc.schemes p.schemCurT with
      | none => exact ⟨_, rfl⟩
      | some schem =>
        obtain ⟨e, he⟩ := hf schem hs
        simp only [he]
        exact ⟨_, rfl⟩
    have halter : ∀ isNew schem, p.sc.schemes p.schemCurT = some schem →
        ∃ e, pmPartAlter fuel sys ctx ⟨schem, p.inp, p.rng⟩ isNew = some e := by
      intro isNew schem hs
      obtain ⟨hinv, hfits⟩ := hp _ _ hs
      refine pmPartAlter_total fun i => ?_
      obtain ⟨res, hres, _⟩ := schemFindStartSector_total hinv hfits i hfuel
      exact ⟨res, hres⟩
    rcases hsym with rfl | rfl | rfl | rfl | rfl
    · exact hedit (fun ed => pmPartAlter fuel sys ctx ed true) (halter true)
    · exact hedit (fun ed => pmPartAlter fuel sys ctx ed false) (halter false)
    · exact hedit (fun ed => some (pmPartChangeType ed)) fun _ _ => ⟨_, rfl⟩
    · exact hedit (fun ed => some (pmPartToggleBoot ed)) fun _ _ => ⟨_, rfl⟩
    · exact hedit (fun ed => some (pmPartDelete ed)) fun _ _ => ⟨_, rfl⟩
  · obtain ⟨a, ha, -⟩ := actionHandle_other hsym
    exact ⟨a, ha⟩

/-- A run of commands ends, and keeps the invariant of every scheme. -/
lemma runActions_good (hctx : ctx.Valid) (hal : 1 ≤ ctx.align.toNat)
    (himg : ctx.secs + ctx.align.toNat < 2 ^ 63) {fuel : ℕ} (hfuel : 2 ^ 65 ≤ fuel)
    (cmds : List (Sys × Char)) {p : Prog} (hp : p.sc.Good ctx) :
    ∃ p', runActions fuel ctx p cmds = some p' ∧ p'.sc.Good ctx := by
  induction cmds generalizing p with
  | nil => exact ⟨p, rfl, hp⟩
  | cons cmd cmds ih =>
    obtain ⟨a, ha⟩ := actionHandle_total hfuel hp cmd.1 cmd.2
    obtain ⟨p', hp', hgood⟩ := ih ((actionHandle_spec ha).1.good hctx hal himg hp)
    exact ⟨p', by rw [runActions, ha]; exact hp', hgood⟩

/-- **The partition invariant holds throughout every run.**  From a context whose schemes
have it, every sequence of commands on every input runs to its end, and after it, as after
one more command, every scheme has it.  That command, when it edits and is refused, changes
no scheme, and when it is accepted changes one entry of the current scheme. -/
theorem runActions_inv (hctx : imgCtxValidate ctx = .ok) (hal : 1 ≤ ctx.align.toNat)
    (himg : ctx.imgSz.toNat / ctx.secSz.toNat + ctx.align.toNat < 2 ^ 63) (p : Prog)
    (hp : p.sc.Good ctx) (fuel : ℕ) (hfuel : 2 ^ 65 ≤ fuel) (cmds : List (Sys × Char)) :
    ∃ p', runActions fuel ctx p cmds = some p' ∧
      (∀ t schem, p'.sc.schemes t = some schem → schem.Inv) ∧
      ∀ sys sym, ∃ a, actionHandle fuel sys ctx p' sym = some a ∧
        (∀ t schem, a.prog.sc.schemes t = some schem → schem.Inv) ∧
        (isEditing sym → a.edit ≠ none) ∧ EditFrame p' a := by
  have hvalid := (imgCtxValidate_ok_iff ctx).1 hctx
  obtain ⟨p', hrun, hgood⟩ := runActions_good hvalid hal himg hfuel cmds hp
  refine ⟨p', hrun, fun t schem hs => (hgood t schem hs).1, fun sys sym => ?_⟩
  obtain ⟨a, ha⟩ := actionHandle_total hfuel hgood sys sym
  obtain ⟨hspec, hedit⟩ := actionHandle_spec ha
  exact ⟨a, ha, fun t schem hs => (hspec.good hvalid hal himg hgood t schem hs).1, hedit,
    hspec.editFrame⟩

/-- A run that adds a partition to a new GPT, takes the defaults, and writes. -/
theorem runActions_inv_small :
    ∃ p', runActions (2 ^ 65) smallCtx
        ⟨(schemCtxNew schemCtxInit smallCtx .gpt zeroRng).2.1, .gpt,
          [.line [], .line [], .line []], zeroRng, zeroImage⟩
        [(plainSys, 'n'), (plainSys, 'w')] = some p' ∧
      (∀ t schem, p'.sc.schemes t = some schem → schem.Inv) ∧
      ∀ sys sym, ∃ a, actionHandle (2 ^ 65) sys smallCtx p' sym = some a ∧
        (∀ t schem, a.prog.sc.schemes t = some schem → schem.Inv) ∧
        (isEditing sym → a.edit ≠ none) ∧ EditFrame p' a :=
  runActions_inv smallCtx_valid (by decide) (by decide) _
    (schemCtxNew_good ((imgCtxValidate_ok_iff _).1 smallCtx_valid) (by decide) (by decide) _ _ _)
    _ le_rfl _

end Partman

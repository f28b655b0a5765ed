/-
# Entries that were not allocated

No command looks at what lies behind the allocated entries of a table: programs whose
schemes differ only there do the same, and still differ only there afterwards.
-/
import Mathlib.Data.List.Find
import Partman.Edit.WellFormed

namespace Partman

open Lib

variable {sys : Sys} {ctx : ImgCtx} {s s' : Schem}

/-- Schemes that differ at most behind the allocated entries. -/
structure Schem.Agree (s s' : Schem) : Prop where
  rest : s' = { s with table := s'.table }
  entry : ∀ i < s.tableLen, s'.table i = s.table i

lemma Schem.Agree.refl (s : Schem) : s.Agree s := ⟨rfl, fun _ _ => rfl⟩

lemma Schem.Agree.setPart (h : s.Agree s') (i : ℕ) (part : SchemPart) :
    (s.setPart i part).Agree (s'.setPart i part) := by
  refine ⟨?_, fun j hj => ?_⟩
  · conv_lhs => rw [h.rest]
    rfl
  · by_cases hji : j = i
    · obtain rfl := hji
      rw [Schem.setPart_same, Schem.setPart_same]
    · rw [Schem.setPart_of_ne _ _ hji, Schem.setPart_of_ne _ _ hji]
      exact h.entry j hj

/-! ## Searches -/

section Searches

variable (h : s.Agree s') (hcnt : s.partCnt.toNat ≤ s.tableLen)
include h hcnt

/-- The counted entries are the same. -/
lemma Schem.Agree.table_eq : ∃ table, s' = { s with table := table } ∧
    ∀ i ∈ List.range s.partCnt.toNat, table i = s.table i :=
  ⟨s'.table, h.rest, fun i hi => h.entry i (lt_of_lt_of_le (List.mem_range.1 hi) hcnt)⟩

lemma schemFindOverlap_agree (startLba endLba : Plba) (partIgn : P32) :
    schemFindOverlap s' startLba endLba partIgn = schemFindOverlap s startLba endLba partIgn := by
  obtain ⟨table, rfl, htab⟩ := h.table_eq hcnt
  have hfind : ∀ i ∈ List.range s.partCnt.toNat,
      (Schem.considers { s with table := table } partIgn i &&
        partOverlaps (table i) startLba endLba) =
      (s.considers partIgn i && partOverlaps (s.table i) startLba endLba) := by
    intro i hi
    simp only [Schem.considers, Schem.partIsUsed, htab i hi]
  unfold schemFindOverlap
  rw [List.find?_congr hfind]

lemma schemFindPartIndex_agree (partUsed : Pflag) :
    schemFindPartIndex s' partUsed = schemFindPartIndex s partUsed := by
  obtain ⟨table, rfl, htab⟩ := h.table_eq hcnt
  have hfind : ∀ i ∈ List.range s.partCnt.toNat,
      (Schem.partIsUsed { s with table := table } (table i) == partUsed) =
      (s.partIsUsed (s.table i) == partUsed) := by
    intro i hi
    simp only [Schem.partIsUsed, htab i hi]
  unfold schemFindPartIndex
  rw [List.find?_congr hfind]

lemma schemFindLastSector_agree (partIgn : P32) (firstLba : Plba) :
    schemFindLastSector s' ctx partIgn firstLba = schemFindLastSector s ctx partIgn firstLba := by
  have hbound : lastBound s' partIgn firstLba = lastBound s partIgn firstLba := by
    obtain ⟨table, rfl, htab⟩ := h.table_eq hcnt
    refine List.foldl_ext _ _ _ fun bound i hi => ?_
    simp only [Schem.considers, Schem.partIsUsed, htab i hi]
    rfl
  unfold schemFindLastSector
  simp only [hbound, schemFindOverlap_agree h hcnt]

lemma startStep_agree (partIgn : P32) (c : StartCand) :
    startStep s' ctx partIgn c = startStep s ctx partIgn c := by
  have hhit : startHit s' partIgn c.lba = startHit s partIgn c.lba := by
    obtain ⟨table, rfl, htab⟩ := h.table_eq hcnt
    refine List.find?_congr fun i hi => ?_
    simp only [Schem.considers, Schem.partIsUsed, htab i hi]
  unfold startStep
  rw [hhit]
  cases hs : startHit s partIgn c.lba with
  | none => rfl
  | some i =>
    -- the entry that was hit is one of those that are counted
    have hi := List.mem_of_find?_eq_some hs
    obtain ⟨table, rfl, htab⟩ := h.table_eq hcnt
    simp only [htab i hi, startCandAt]

lemma schemFindStartSector_agree (fuel : ℕ) (partIgn : P32) :
    schemFindStartSector fuel s' ctx partIgn = schemFindStartSector fuel s ctx partIgn := by
  have hcand : startCandAt s' ctx s'.firstUsableLba = startCandAt s ctx s.firstUsableLba := by
    obtain ⟨table, rfl, htab⟩ := h.table_eq hcnt
    rfl
  unfold schemFindStartSector
  rw [hcand]
  generalize startCandAt s ctx s.firstUsableLba = c
  induction fuel generalizing c with
  | zero => rfl
  | succ fuel ih =>
    unfold startLoop
    rw [startStep_agree h hcnt]
    cases startStep s ctx partIgn c with
    | done res => rfl
    | next c => exact ih c

/-- The partitions that `pm_print_scheme` prints, with their numbers. -/
def printedParts (schem : Schem) : List (ℕ × SchemPart) :=
  ((List.range schem.partCnt.toNat).filter fun i => schem.partIsUsed (schem.table i)).map
    fun i => (i + 1, schem.table i)

lemma printedParts_agree : printedParts s' = printedParts s := by
  obtain ⟨table, rfl, htab⟩ := h.table_eq hcnt
  have hused : ∀ i ∈ List.range s.partCnt.toNat,
      Schem.partIsUsed { s with table := table } (table i) = s.partIsUsed (s.table i) := by
    intro i hi
    simp only [Schem.partIsUsed, htab i hi]
  rw [printedParts, List.filter_congr hused]
  exact List.map_congr_left fun i hi =>
    congrArg (Prod.mk (i + 1)) (htab i (List.mem_of_mem_filter hi))

lemma pmPartPrompt_agree (findUsed : Pflag) (inp : Input) :
    pmPartPrompt s' findUsed inp = pmPartPrompt s findUsed inp := by
  unfold pmPartPrompt
  rw [schemFindPartIndex_agree h hcnt]
  by_cases hdef : schemFindPartIndex s findUsed = -1
  · simp [hdef]
  have hdef' : ¬ (schemFindPartIndex s findUsed == -1) = true := by simpa using hdef
  have hcnt' : s'.partCnt = s.partCnt := by rw [h.rest]
  simp only [hdef', hcnt']
  rcases hr : promptRange 1 s.partCnt
    ((schemFindPartIndex s findUsed).toUInt64 + 1) inp with ⟨res, x, inp'⟩
  by_cases hok : res = .ok
  · obtain rfl := hok
    have hlt := promptRange_index_lt hdef hr
    have hpart : s'.partIsUsed (s'.table (x - 1).toNat) =
        s.partIsUsed (s.table (x - 1).toNat) := by
      obtain ⟨table, rfl, htab⟩ := h.table_eq hcnt
      simp only [Schem.partIsUsed, htab _ (List.mem_range.2 hlt)]
    simp only [hpart]
  · simp [hok]

end Searches

/-! ## Editing commands -/

/-- Results of an editing command on schemes that agree. -/
structure EditAgree (r r' : Edit × Ed) : Prop where
  edit : r'.1 = r.1
  schem : r.2.schem.Agree r'.2.schem
  inp : r'.2.inp = r.2.inp
  rng : r'.2.rng = r.2.rng

/-- An accepted change of one entry, and a refused one. -/
lemma EditAgree.setPart (h : s.Agree s') (i : Pu32) (part : SchemPart) (inp : Input) (rng : Rng) :
    EditAgree (.accepted i, ⟨s.setPart i.toNat part, inp, rng⟩)
      (.accepted i, ⟨s'.setPart i.toNat part, inp, rng⟩) :=
  ⟨rfl, h.setPart i.toNat part, rfl, rfl⟩

lemma EditAgree.same (h : s.Agree s') (e : Edit) (inp : Input) (rng : Rng) :
    EditAgree (e, ⟨s, inp, rng⟩) (e, ⟨s', inp, rng⟩) :=
  ⟨rfl, h, rfl, rfl⟩

section Commands

variable (h : s.Agree s') (hcnt : s.partCnt.toNat ≤ s.tableLen)
include h hcnt

lemma pmPartDelete_agree (inp : Input) (rng : Rng) :
    EditAgree (pmPartDelete ⟨s, inp, rng⟩) (pmPartDelete ⟨s', inp, rng⟩) := by
  unfold pmPartDelete
  rw [pmPartPrompt_agree h hcnt]
  rcases pmPartPrompt s true inp with ⟨why | i, inp'⟩
  · exact .same h _ inp' rng
  · exact .setPart h i _ inp' rng

/-- The chosen entry is one that is counted. -/
lemma prompted_entry {findUsed : Pflag} {inp inp' : Input} {i : Pu32}
    (hp : pmPartPrompt s findUsed inp = (.ok i, inp')) : s'.table i.toNat = s.table i.toNat :=
  h.entry _ (lt_of_lt_of_le (pmPartPrompt_ok hp).1 hcnt)

lemma pmPartToggleBoot_agree (inp : Input) (rng : Rng) :
    EditAgree (pmPartToggleBoot ⟨s, inp, rng⟩) (pmPartToggleBoot ⟨s', inp, rng⟩) := by
  have htype : s'.type = s.type := by rw [h.rest]
  unfold pmPartToggleBoot
  simp only [htype, pmPartPrompt_agree h hcnt]
  split_ifs with ht
  · exact .same h _ inp rng
  rcases hp : pmPartPrompt s true inp with ⟨why | i, inp'⟩
  · exact .same h _ inp' rng
  · simp only [prompted_entry h hcnt hp]
    exact .setPart h i _ inp' rng

lemma pmPartChangeType_agree (inp : Input) (rng : Rng) :
    EditAgree (pmPartChangeType ⟨s, inp, rng⟩) (pmPartChangeType ⟨s', inp, rng⟩) := by
  have htype : s'.type = s.type := by rw [h.rest]
  unfold pmPartChangeType
  simp only [htype, pmPartPrompt_agree h hcnt]
  rcases hp : pmPartPrompt s true inp with ⟨why | i, inp'⟩
  · exact .same h _ inp' rng
  have hentry := prompted_entry h hcnt hp
  cases ht : s.type with
  | mbr =>
    simp only [pmPartChangeTypeMbr, hentry]
    rcases scanInt 16 inp' with ⟨res, partType, inp''⟩
    simp only
    split_ifs
    · exact .same h _ inp'' rng
    · exact .same h _ inp'' rng
    · exact .setPart h i _ inp'' rng
  | gpt =>
    simp only [pmPartChangeTypeGpt, hentry]
    rcases scanGuid inp' with ⟨res, partType, inp''⟩
    simp only
    split_ifs
    · exact .same h _ inp'' rng
    · exact .setPart h i _ inp'' rng
  | cnt => exact .same h _ inp' rng

lemma pmPartAlterEnd_agree (isNew : Pflag) {i : Pu32} (startLba : Plba)
    (hentry : s'.table i.toNat = s.table i.toNat) (inp : Input) (rng : Rng) :
    EditAgree (pmPartAlterEnd sys ctx ⟨s, inp, rng⟩ isNew i startLba)
      (pmPartAlterEnd sys ctx ⟨s', inp, rng⟩ isNew i startLba) := by
  have hlast : s'.lastUsableLba = s.lastUsableLba := by rw [h.rest]
  have hfuncs : s'.funcs = s.funcs := by rw [h.rest]
  unfold pmPartAlterEnd
  simp only [schemFindLastSector_agree h hcnt, schemFindOverlap_agree h hcnt, hlast, hfuncs,
    hentry]
  split_ifs
  · exact .same h _ inp rng
  · exact .same h _ _ rng
  · exact .same h _ _ rng
  · exact .setPart h i _ _ _
  · exact .setPart h i _ _ _

lemma pmPartAlter_agree (fuel : ℕ) (isNew : Pflag) (inp : Input) (rng : Rng) :
    Option.Rel EditAgree (pmPartAlter fuel sys ctx ⟨s, inp, rng⟩ isNew)
      (pmPartAlter fuel sys ctx ⟨s', inp, rng⟩ isNew) := by
  have hfirst : s'.firstUsableLba = s.firstUsableLba := by rw [h.rest]
  have hlast : s'.lastUsableLba = s.lastUsableLba := by rw [h.rest]
  unfold pmPartAlter
  simp only [pmPartPrompt_agree h hcnt, schemFindStartSector_agree h hcnt, hfirst, hlast]
  rcases hp : pmPartPrompt s (!isNew) inp with ⟨why | i, inp'⟩
  · exact .some (.same h _ inp' rng)
  simp only
  cases schemFindStartSector fuel s ctx i.toInt64 with
  | none => exact .none
  | some res =>
    refine .some ?_
    dsimp only
    split_ifs
    · exact .same h _ inp' rng
    · exact .same h _ _ rng
    · exact pmPartAlterEnd_agree h hcnt isNew _ (prompted_entry h hcnt hp) _ rng

end Commands

/-! ## Saving -/

lemma funcsSave_agree (h : s.Agree s') (hcnt : s.partCnt.toNat ≤ s.tableLen) (t : SchemType) :
    funcsSave t sys s' ctx = funcsSave t sys s ctx := by
  have hcount : ∀ i, i < s.partCnt.toNat → s'.table i = s.table i := by
    intro i hi
    exact h.entry i (lt_of_lt_of_le hi hcnt)
  cases t with
  | mbr =>
    have hmbr : mbrFromSchem s' Mbr.zero ctx = mbrFromSchem s Mbr.zero ctx := by
      rw [h.rest]
      unfold mbrFromSchem
      rw [Mbr.mk.injEq]
      refine ⟨rfl, funext fun i => ?_⟩
      by_cases hi : i < s.partCnt.toNat
      · simp only [hi, hcount i hi]
      · simp only [hi, false_and, if_false]
    exact congrArg (fun mbr => mbrSave sys mbr ctx) hmbr
  | gpt =>
    have htab : gptTableFromSchem s' gptTableZero = gptTableFromSchem s gptTableZero := by
      rw [h.rest]
      funext i
      by_cases hi : i < s.partCnt.toNat
      · simp only [gptTableFromSchem, hi, hcount i hi]
      · simp only [gptTableFromSchem, hi, false_and, if_false]
    have hgpt : gptFromSchem s' Gpt.zero ctx = gptFromSchem s Gpt.zero ctx := by
      unfold gptFromSchem
      simp only [Gpt.zero, htab]
      rw [h.rest]
    exact congrArg (fun gpt => gptSave sys gpt ctx) hgpt
  | cnt => rfl

/-- Contexts that differ at most behind the allocated entries. -/
structure SchemCtx.Agree (sc sc' : SchemCtx) : Prop where
  schemMbr : Option.Rel Schem.Agree sc.schemMbr sc'.schemMbr
  schemGpt : Option.Rel Schem.Agree sc.schemGpt sc'.schemGpt
  inImgMbr : sc'.inImgMbr = sc.inImgMbr
  inImgGpt : sc'.inImgGpt = sc.inImgGpt

variable {sc sc' : SchemCtx}

lemma SchemCtx.Agree.refl (sc : SchemCtx) : sc.Agree sc := by
  obtain ⟨mbr, gpt, inMbr, inGpt⟩ := sc
  refine ⟨?_, ?_, rfl, rfl⟩
  · cases mbr with
    | none => exact .none
    | some s => exact .some (.refl s)
  · cases gpt with
    | none => exact .none
    | some s => exact .some (.refl s)

lemma SchemCtx.Agree.schemes (h : sc.Agree sc') (t : SchemType) :
    Option.Rel Schem.Agree (sc.schemes t) (sc'.schemes t) := by
  cases t with
  | mbr => exact h.schemMbr
  | gpt => exact h.schemGpt
  | cnt => exact .none

lemma SchemCtx.Agree.setSchem (h : sc.Agree sc') (t : SchemType) (hs : s.Agree s') :
    (sc.setSchem t (some s)).Agree (sc'.setSchem t (some s')) := by
  cases t with
  | mbr => exact ⟨.some hs, h.schemGpt, h.inImgMbr, h.inImgGpt⟩
  | gpt => exact ⟨h.schemMbr, .some hs, h.inImgMbr, h.inImgGpt⟩
  | cnt => exact h

lemma isSome_of_rel {R : Schem → Schem → Prop} {o o' : Option Schem} (h : Option.Rel R o o') :
    o'.isSome = o.isSome := by
  cases h <;> rfl

/-- Both contexts lack the scheme of a type, or both have one. -/
lemma SchemCtx.Agree.cases (h : sc.Agree sc') (t : SchemType) :
    (sc.schemes t = none ∧ sc'.schemes t = none) ∨
      ∃ s s', sc.schemes t = some s ∧ sc'.schemes t = some s' ∧ s.Agree s' := by
  have hrel := h.schemes t
  generalize sc.schemes t = o at hrel ⊢
  generalize sc'.schemes t = o' at hrel ⊢
  cases hrel with
  | none => exact Or.inl ⟨rfl, rfl⟩
  | some hs => exact Or.inr ⟨_, _, rfl, rfl, hs⟩

lemma removal_agree (h : sc.Agree sc') (t : SchemType) :
    removal sys sc' ctx t = removal sys sc ctx t := by
  have hflag : sc'.schemesInImg t = sc.schemesInImg t := by
    cases t with
    | mbr => exact h.inImgMbr
    | gpt => exact h.inImgGpt
    | cnt => rfl
  unfold removal
  rcases h.cases t with ⟨hs, hs'⟩ | ⟨s, s', hs, hs', -⟩
  · rw [hflag, hs, hs']
  · simp [hs, hs']

lemma saving_agree (h : sc.Agree sc') (hsc : sc.WellFormed) (t : SchemType) :
    saving sys sc' ctx t = saving sys sc ctx t := by
  unfold saving
  rcases h.cases t with ⟨hs, hs'⟩ | ⟨s, s', hs, hs', hagree⟩
  · rw [hs, hs']
  · have hfuncs : s'.funcs = s.funcs := by rw [hagree.rest]
    simp only [hs, hs', hfuncs]
    exact funcsSave_agree hagree (hsc.formed t s hs).partCnt s.funcs

/-- **A save looks at the allocated entries only.** -/
lemma schemCtxSave_agree (sys : Sys) (ctx : ImgCtx) (h : sc.Agree sc') (hsc : sc.WellFormed) :
    (schemCtxSave sys sc' ctx).res = (schemCtxSave sys sc ctx).res ∧
      (schemCtxSave sys sc' ctx).stores = (schemCtxSave sys sc ctx).stores ∧
      (schemCtxSave sys sc ctx).sc.Agree (schemCtxSave sys sc' ctx).sc := by
  have hmbr := isSome_of_rel h.schemMbr
  have hgpt := isSome_of_rel h.schemGpt
  rw [schemCtxSave_eq, schemCtxSave_eq, removal_agree h, removal_agree h, saving_agree h hsc,
    saving_agree h hsc]
  split_ifs
  · exact ⟨rfl, rfl, h⟩
  · exact ⟨rfl, rfl, h.schemMbr, h.schemGpt, rfl, h.inImgGpt⟩
  · exact ⟨rfl, rfl, h.schemMbr, h.schemGpt, rfl, rfl⟩
  · exact ⟨rfl, rfl, h.schemMbr, h.schemGpt, hmbr, rfl⟩
  · exact ⟨rfl, rfl, h.schemMbr, h.schemGpt, hmbr, hgpt⟩

/-! ## Commands -/

/-- Programs whose schemes differ at most behind the allocated entries. -/
structure Prog.Agree (p p' : Prog) : Prop where
  sc : p.sc.Agree p'.sc
  schemCurT : p'.schemCurT = p.schemCurT
  inp : p'.inp = p.inp
  rng : p'.rng = p.rng
  img : p'.img = p.img

/-- Commands that do the same and leave such programs. -/
structure Action.Agree (a a' : Action) : Prop where
  prog : a.prog.Agree a'.prog
  res : a'.res = a.res
  edit : a'.edit = a.edit

variable {p p' : Prog}

/-- What the type of a context is does not depend on the entries. -/
lemma schemCtxGetType_agree (h : sc.Agree sc') : schemCtxGetType sc' = schemCtxGetType sc := by
  rw [schemCtxGetType, schemCtxGetType, isSome_of_rel h.schemMbr, isSome_of_rel h.schemGpt]

lemma actionEdit_agree (h : p.Agree p') {f : Ed → Option (Edit × Ed)}
    (hf : ∀ s s', p.sc.schemes p.schemCurT = some s → s.Agree s' →
      Option.Rel EditAgree (f ⟨s, p.inp, p.rng⟩) (f ⟨s', p.inp, p.rng⟩)) :
    Option.Rel Action.Agree (actionEdit p f) (actionEdit p' f) := by
  unfold actionEdit
  rw [h.schemCurT, h.inp, h.rng]
  rcases h.sc.cases p.schemCurT with ⟨hs, hs'⟩ | ⟨s, s', hs, hs', hagree⟩
  · rw [hs, hs']
    exact .some ⟨h, rfl, rfl⟩
  · rw [hs, hs']
    have hrel := hf s s' hs hagree
    simp only
    generalize f ⟨s, p.inp, p.rng⟩ = r at hrel ⊢
    generalize f ⟨s', p.inp, p.rng⟩ = r' at hrel ⊢
    cases hrel with
    | none => exact .none
    | some he =>
      exact .some ⟨⟨h.sc.setSchem _ he.schem, rfl, he.inp, he.rng, h.img⟩, rfl,
        congrArg Option.some he.edit⟩

lemma actionNew_agree (h : p.Agree p') (t : SchemType) :
    (actionNew ctx p t).Agree (actionNew ctx p' t) := by
  -- what is made depends on the flags only
  have hreset : schemCtxReset p'.sc true = schemCtxReset p.sc true := by
    rw [schemCtxReset, schemCtxReset, h.sc.inImgMbr, h.sc.inImgGpt]
  have hnew : schemCtxNew p'.sc ctx t p'.rng = schemCtxNew p.sc ctx t p.rng := by
    simp only [schemCtxNew, hreset, h.rng]
  unfold actionNew
  rw [hnew]
  exact ⟨⟨.refl _, rfl, h.inp, rfl, h.img⟩, rfl, rfl⟩

lemma actionWrite_agree (h : p.Agree p') (hp : p.sc.WellFormed) :
    (actionWrite sys ctx p).Agree (actionWrite sys ctx p') := by
  obtain ⟨hres, hstores, hsc⟩ := schemCtxSave_agree sys ctx h.sc hp
  unfold actionWrite
  generalize schemCtxSave sys p.sc ctx = l at hres hstores hsc ⊢
  generalize schemCtxSave sys p'.sc ctx = l' at hres hstores hsc ⊢
  refine ⟨⟨hsc, h.schemCurT, h.inp, h.rng, ?_⟩, congrArg actionRes hres, rfl⟩
  simp only [hstores, h.img]

lemma actionResetProt_agree (h : p.Agree p') :
    (actionResetProt ctx p).Agree (actionResetProt ctx p') := by
  have hkeep : (actionKeep p).Agree (actionKeep p') := ⟨h, rfl, rfl⟩
  unfold actionResetProt
  rcases h.sc.cases .gpt with ⟨hg, hg'⟩ | ⟨g, g', hg, hg', -⟩ <;>
    simp only [SchemCtx.schemes] at hg hg' <;> rw [hg, hg']
  · exact hkeep
  rcases h.sc.cases .mbr with ⟨hm, hm'⟩ | ⟨r, r', hm, hm', hagree⟩ <;>
    simp only [SchemCtx.schemes] at hm hm' <;> rw [hm, hm']
  · exact hkeep
  · have hinit : (schemInitMbr r ctx p.rng).1.Agree (schemInitMbr r' ctx p.rng).1 := by
      rw [hagree.rest]
      exact ⟨rfl, fun _ _ => rfl⟩
    have hprot : (schemMbrSetProt (schemInitMbr r ctx p.rng).1).Agree
        (schemMbrSetProt (schemInitMbr r' ctx p.rng).1) := by
      rw [hinit.rest]
      exact ⟨rfl, fun _ _ => rfl⟩
    simp only [h.rng]
    exact ⟨⟨h.sc.setSchem .mbr hprot, h.schemCurT, h.inp, rfl, h.img⟩, rfl, rfl⟩

lemma rel_ite {c : Prop} [Decidable c] {a a' b b' : Option Action}
    (ha : Option.Rel Action.Agree a a') (hb : Option.Rel Action.Agree b b') :
    Option.Rel Action.Agree (if c then a else b) (if c then a' else b') := by
  split_ifs
  · exact ha
  · exact hb

/-- **No command looks behind the allocated entries**: from a well-formed program and one
that differs from it only there it does the same. -/
theorem actionHandle_agree (h : p.Agree p') (hp : p.WellFormed) (fuel : ℕ) (sys : Sys)
    (ctx : ImgCtx) (sym : Char) :
    Option.Rel Action.Agree (actionHandle fuel sys ctx p sym)
      (actionHandle fuel sys ctx p' sym) := by
  have hcnt : ∀ s, p.sc.schemes p.schemCurT = some s → s.partCnt.toNat ≤ s.tableLen := by
    intro s hs
    exact (hp.sc.formed _ s hs).partCnt
  have hkeep : (actionKeep p).Agree (actionKeep p') := ⟨h, rfl, rfl⟩
  have hnone : p'.sc.schemMbr.isNone = p.sc.schemMbr.isNone := by
    rw [← Option.not_isSome, ← Option.not_isSome, isSome_of_rel h.sc.schemMbr]
  have hedit : ∀ f : Ed → Edit × Ed, (∀ s s', p.sc.schemes p.schemCurT = some s → s.Agree s' →
      EditAgree (f ⟨s, p.inp, p.rng⟩) (f ⟨s', p.inp, p.rng⟩)) →
      Option.Rel Action.Agree (actionEdit p fun ed => some (f ed))
        (actionEdit p' fun ed => some (f ed)) :=
    fun f hf => actionEdit_agree h fun s s' hs hagree => .some (hf s s' hs hagree)
  unfold actionHandle
  rw [h.schemCurT, hnone, schemCtxGetType_agree h.sc]
  refine rel_ite (.some ⟨h, rfl, rfl⟩) ?_
  refine rel_ite (actionEdit_agree h fun s s' hs hagree =>
    pmPartAlter_agree hagree (hcnt s hs) fuel true p.inp p.rng) ?_
  refine rel_ite (actionEdit_agree h fun s s' hs hagree =>
    pmPartAlter_agree hagree (hcnt s hs) fuel false p.inp p.rng) ?_
  refine rel_ite (hedit _ fun s s' hs hagree =>
    pmPartChangeType_agree hagree (hcnt s hs) p.inp p.rng) ?_
  refine rel_ite (hedit _ fun s s' hs hagree =>
    pmPartToggleBoot_agree hagree (hcnt s hs) p.inp p.rng) ?_
  refine rel_ite (hedit _ fun s s' hs hagree =>
    pmPartDelete_agree hagree (hcnt s hs) p.inp p.rng) ?_
  refine rel_ite (.some (actionWrite_agree h hp.sc)) ?_
  refine rel_ite (.some (actionNew_agree h .mbr)) ?_
  refine rel_ite (.some (actionNew_agree h .gpt)) ?_
  refine rel_ite (rel_ite (.some hkeep)
    (.some ⟨⟨h.sc, rfl, h.inp, h.rng, h.img⟩, rfl, rfl⟩)) ?_
  refine rel_ite (.some (actionResetProt_agree h)) ?_
  exact rel_ite (.some ⟨⟨h.sc, rfl, h.inp, h.rng, h.img⟩, rfl, rfl⟩) (.some hkeep)

/-! ## Runs -/

/-- What the program starts with after a load. -/
def startProg (l : CtxLoad) (inp : Input) (m : Image) : Prog :=
  ⟨l.sc, schemCtxGetType l.sc, inp, l.rng, m⟩

/-- **Contexts stay well-formed.**  After a load that succeeds, whatever the platform, the
image and the input, and after every sequence of commands, the context and the selector are
well-formed.  The table of an MBR has 4 entries and that of a GPT has 128.  What is printed,
and what a further command does, does not depend on anything behind them, and an accepted
edit changes one of them. -/
theorem runActions_wellFormed {m : Image} {r : Rng}
    (hload : (schemCtxLoad sys m sc ctx r).res = .ok) (inp : Input) (fuel : ℕ)
    (cmds : List (Sys × Char))
    (hrun : runActions fuel ctx (startProg (schemCtxLoad sys m sc ctx r) inp m) cmds = some p) :
    p.WellFormed ∧
      (∀ schem, p.sc.schemMbr = some schem → schem.tableLen = 4) ∧
      (∀ schem, p.sc.schemGpt = some schem → schem.tableLen = 128) ∧
      (∀ t s s', p.sc.schemes t = some s → s.Agree s' → printedParts s' = printedParts s) ∧
      (∀ p' fuel sys sym, p.Agree p' → Option.Rel Action.Agree
        (actionHandle fuel sys ctx p sym) (actionHandle fuel sys ctx p' sym)) ∧
      ∀ fuel sys sym a i, actionHandle fuel sys ctx p sym = some a →
        a.edit = some (.accepted i) →
        ∃ s, p.sc.schemes p.schemCurT = some s ∧ i.toNat < s.tableLen := by
  have hstart : (startProg (schemCtxLoad sys m sc ctx r) inp m).WellFormed :=
    ⟨schemCtxLoad_wellFormed hload, selected_of_getType rfl⟩
  have hp := runActions_keeps_wellFormed cmds hstart hrun
  refine ⟨hp, fun s hs => (hp.sc.formed .mbr s hs).tableLen,
    fun s hs => (hp.sc.formed .gpt s hs).tableLen,
    fun t s s' hs hagree => printedParts_agree hagree (hp.sc.formed t s hs).partCnt,
    fun p' fuel sys sym h => actionHandle_agree h hp fuel sys ctx sym, ?_⟩
  intro fuel' sys' sym a i ha hi
  have hframe := (actionHandle_spec ha).1.editFrame
  rw [EditFrame, hi] at hframe
  obtain ⟨s, -, hs, hlt, -⟩ := hframe
  exact ⟨s, hs, lt_of_lt_of_le hlt (hp.sc.formed _ s hs).partCnt⟩

/-- A run that makes a GPT on an empty image and enters its protective MBR. -/
theorem runActions_wellFormed_small : ∃ p, p.schemCurT = .mbr ∧ p.WellFormed ∧
      (∀ schem, p.sc.schemMbr = some schem → schem.tableLen = 4) ∧
      (∀ schem, p.sc.schemGpt = some schem → schem.tableLen = 128) ∧
      (∀ t s s', p.sc.schemes t = some s → s.Agree s' → printedParts s' = printedParts s) ∧
      (∀ p' fuel sys sym, p.Agree p' → Option.Rel Action.Agree
        (actionHandle fuel sys smallCtx p sym) (actionHandle fuel sys smallCtx p' sym)) ∧
      ∀ fuel sys sym a i, actionHandle fuel sys smallCtx p sym = some a →
        a.edit = some (.accepted i) →
        ∃ s, p.sc.schemes p.schemCurT = some s ∧ i.toNat < s.tableLen := by
  have hv := (imgCtxValidate_ok_iff _).1 smallCtx_valid
  have hs : plainSys.Serves smallCtx := plainSys_serves (by decide)
  have hload := (schemCtxLoad_of_zero (m := zeroImage) hv hs (fun _ _ => rfl) schemCtxInit
    zeroRng).1
  exact ⟨_, rfl, runActions_wellFormed hload [] 0 [(plainSys, 'g'), (plainSys, 'M')] rfl⟩

end Partman

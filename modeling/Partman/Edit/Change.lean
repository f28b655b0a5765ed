/-
# What an editing command can do

One inversion lemma for every editing command: a refused command leaves the scheme as it
was, and an accepted one replaces the chosen entry by one of the entries that
`PartChange` lists.  Everything that is preserved by editing is derived from this list.
-/
import Partman.Edit.Search
import Partman.Model.Main

namespace Partman

open Lib

/-! ## Prompts -/

/-- An accepted number is in range unless it is the default, which is not checked. -/
lemma promptRange_ok {start last dflt v : Pu64} {inp inp' : Input}
    (h : promptRange start last dflt inp = (.ok, v, inp')) :
    v = dflt ∨ (start ≤ v ∧ v ≤ last) := by
  rw [promptRange] at h
  rcases hs : scanInt 10 inp with ⟨res, i, inp₁⟩
  rw [hs] at h
  simp only at h
  split_ifs at h with hempty hok hrange
  · exact Or.inl (Prod.mk.inj (Prod.mk.inj h).2).1.symm
  · exact absurd (Prod.mk.inj h).1 hok
  · simp at h
  · obtain rfl : i = v := (Prod.mk.inj (Prod.mk.inj h).2).1
    rw [Bool.or_eq_true, decide_eq_true_eq, decide_eq_true_eq, not_or] at hrange
    exact Or.inr ⟨UInt64.not_lt.1 hrange.1, UInt64.not_lt.1 hrange.2⟩

lemma sectorExtOf_some {sys : Sys} {start last : Plba} {secSz : Pu64} {line : List Char}
    {v : Plba} (h : sectorExtOf sys start last secSz line = some v) :
    start ≤ v ∧ v ≤ last := by
  rw [sectorExtOf] at h
  simp only at h
  -- the range is checked at the very end, whatever came before
  have hcheck : ∀ w : Plba, (if w < start || w > last then none else some w) = some v →
      start ≤ v ∧ v ≤ last := by
    intro w hw
    split_ifs at hw with hrange
    obtain rfl := Option.some.inj hw
    rw [Bool.or_eq_true, decide_eq_true_eq, decide_eq_true_eq, not_or] at hrange
    exact ⟨UInt64.not_lt.1 hrange.1, UInt64.not_lt.1 hrange.2⟩
  generalize strTrim line = s at h
  by_cases hlen : s.length < 1
  · simp [hlen] at h
  rw [if_neg hlen] at h
  generalize (if !isDigit (s.getLastD '\x00') then s.getLastD '\x00' else '\x00') = modC at h
  generalize (if !isDigit (s.getLastD '\x00') then s.dropLast else s) = s₁ at h
  generalize (if !isDigit (s₁.headD '\x00') then s₁.headD '\x00' else '\x00') = signC at h
  generalize (if !isDigit (s₁.headD '\x00') then s₁.tail else s₁) = s₂ at h
  split at h
  · exact absurd h (by simp)
  split at h
  · exact absurd h (by simp)
  split at h
  · exact absurd h (by simp)
  split at h
  · exact absurd h (by simp)
  · exact hcheck _ h

lemma promptSectorExt_ok {sys : Sys} {start last dflt v : Plba} {secSz : Pu64}
    {inp inp' : Input} (h : promptSectorExt sys start last dflt secSz inp = (.ok, v, inp')) :
    v = dflt ∨ (start ≤ v ∧ v ≤ last) := by
  rw [promptSectorExt] at h
  rcases hs : scanStr inp with ⟨res, s, inp₁⟩
  rw [hs] at h
  simp only at h
  split_ifs at h with hempty hok
  · exact Or.inl (Prod.mk.inj (Prod.mk.inj h).2).1.symm
  · exact absurd (Prod.mk.inj h).1 hok
  · split at h
    · next w hw =>
      obtain rfl : w = v := (Prod.mk.inj (Prod.mk.inj h).2).1
      exact Or.inr (sectorExtOf_some hw)
    · simp at h

lemma scanGuid_ok {inp inp' : Input} {guid : Guid} (h : scanGuid inp = (.ok, guid, inp')) :
    ∃ s, strToGuid s = some guid := by
  rw [scanGuid] at h
  rcases hs : scanStr inp with ⟨res, s, inp₁⟩
  rw [hs] at h
  simp only at h
  split_ifs at h with hok
  · exact absurd (Prod.mk.inj h).1 hok
  · split at h
    · next g hg =>
      obtain rfl : g = guid := (Prod.mk.inj (Prod.mk.inj h).2).1
      exact ⟨s, hg⟩
    · simp at h

/-- A number that the prompt of an index delivers is the number of an entry: the default,
which is not checked, has been found in the table. -/
lemma promptRange_index_lt {schem : Schem} {findUsed : Pflag} {inp inp' : Input} {x : Pu64}
    (hdef : schemFindPartIndex schem findUsed ≠ -1)
    (h : promptRange 1 schem.partCnt ((schemFindPartIndex schem findUsed).toUInt64 + 1) inp =
      (.ok, x, inp')) : (x - 1).toNat < schem.partCnt.toNat := by
  rcases promptRange_ok h with rfl | ⟨h1, h2⟩
  · rcases schemFindPartIndex_cases schem findUsed with he | ⟨j, hj, he, _⟩
    · exact absurd he hdef
    · rw [he, partRes, UInt64.toUInt64_toInt64, UInt64.add_sub_cancel,
        toNat_ofNat_of_lt (lt_trans hj schem.partCnt.toNat_lt)]
      exact hj
  · rw [UInt64.le_iff_toNat_le, UInt64.toNat_one] at h1
    rw [UInt64.le_iff_toNat_le] at h2
    rw [toNat_sub_of_ge (by simpa using h1), UInt64.toNat_one]
    omega

/-- The chosen index is an index of the table, in the wanted state. -/
lemma pmPartPrompt_ok {schem : Schem} {findUsed : Pflag} {inp inp' : Input} {i : Pu32}
    (h : pmPartPrompt schem findUsed inp = (.ok i, inp')) :
    i.toNat < schem.partCnt.toNat ∧ schem.partIsUsed (schem.table i.toNat) = findUsed := by
  rw [pmPartPrompt] at h
  simp only [beq_iff_eq] at h
  by_cases hdef : schemFindPartIndex schem findUsed = -1
  · simp [hdef] at h
  rw [if_neg hdef] at h
  rcases hr : promptRange 1 schem.partCnt
    ((schemFindPartIndex schem findUsed).toUInt64 + 1) inp with ⟨res, x, inp₁⟩
  rw [hr] at h
  simp only at h
  split_ifs at h with hok hnu hau
  · simp at h
  · simp at h
  · simp at h
  obtain rfl : x - 1 = i := by simpa using (Prod.mk.inj h).1
  rw [not_not] at hok
  rw [hok] at hr
  refine ⟨promptRange_index_lt hdef hr, ?_⟩
  cases findUsed <;> simp_all

/-! ## Changes of an entry -/

/-- The start sector has been entered in range or taken from the search. -/
def StartChosen (schem : Schem) (ctx : ImgCtx) (i : Pu32) (startLba : Plba) : Prop :=
  (schem.firstUsableLba ≤ startLba ∧ startLba ≤ schem.lastUsableLba) ∨
    ∃ fuel res, schemFindStartSector fuel schem ctx i.toInt64 = some res ∧ res ≠ -1 ∧
      startLba = res.toUInt64

/-- The last sector has been entered in range or taken from the search. -/
def EndChosen (schem : Schem) (ctx : ImgCtx) (i : Pu32) (startLba endLba : Plba) : Prop :=
  (startLba ≤ endLba ∧ endLba ≤ schem.lastUsableLba) ∨
    (schemFindLastSector schem ctx i.toInt64 startLba ≠ -1 ∧
      endLba = (schemFindLastSector schem ctx i.toInt64 startLba).toUInt64)

/-- What an accepted editing command puts into the entry `i`. -/
inductive PartChange (ctx : ImgCtx) (schem : Schem) (i : Pu32) : SchemPart → Prop
  /-- `d` -/
  | delete : PartChange ctx schem i SchemPart.zero
  /-- `a` -/
  | boot (htype : schem.type = .mbr)
      (hused : schem.partIsUsed (schem.table i.toNat) = true) :
      PartChange ctx schem i { schem.table i.toNat with
        bootInd := ~~~(schem.table i.toNat).bootInd &&& 0x80 }
  /-- `t` on an MBR -/
  | typeMbr (t : Pu8) (htype : schem.type = .mbr)
      (hused : schem.partIsUsed (schem.table i.toNat) = true) :
      PartChange ctx schem i { schem.table i.toNat with typeI := t }
  /-- `t` on a GPT -/
  | typeGpt (line : List Char) (guid : Guid) (hguid : strToGuid line = some guid)
      (htype : schem.type = .gpt) (hused : schem.partIsUsed (schem.table i.toNat) = true) :
      PartChange ctx schem i { schem.table i.toNat with typeGuid := guid }
  /-- `t` on a scheme that is of neither type -/
  | keep (htype : schem.type = .cnt) (hused : schem.partIsUsed (schem.table i.toNat) = true) :
      PartChange ctx schem i (schem.table i.toNat)
  /-- `n`, where the entry is initialised, and `e`, where it is kept -/
  | alter (part : SchemPart) (startLba endLba : Plba)
      (hpart : (schem.partIsUsed (schem.table i.toNat) = true ∧ part = schem.table i.toNat) ∨
        (schem.partIsUsed (schem.table i.toNat) = false ∧
          ∃ rng, part = (funcsPartInit schem.funcs (schem.table i.toNat) rng).1))
      (hstart : StartChosen schem ctx i startLba)
      (hend : EndChosen schem ctx i startLba endLba)
      (hfree : ¬ schemFindOverlap schem startLba endLba i.toInt64 ≥ 0) :
      PartChange ctx schem i { part with startLba := startLba, endLba := endLba }

/-- The effect of an editing command on the scheme. -/
def EditSpec (ctx : ImgCtx) (schem schem' : Schem) : Edit → Prop
  | .refused _ => schem' = schem
  | .accepted i => i.toNat < schem.partCnt.toNat ∧ ∃ part, PartChange ctx schem i part ∧
      schem' = schem.setPart i.toNat part

variable {ctx : ImgCtx}

lemma pmPartDelete_spec (ctx : ImgCtx) (ed : Ed) :
    EditSpec ctx ed.schem (pmPartDelete ed).2.schem (pmPartDelete ed).1 := by
  rw [pmPartDelete]
  rcases hp : pmPartPrompt ed.schem true ed.inp with ⟨why | i, inp⟩
  · rfl
  · exact ⟨(pmPartPrompt_ok hp).1, _, .delete, rfl⟩

lemma pmPartToggleBoot_spec (ctx : ImgCtx) (ed : Ed) :
    EditSpec ctx ed.schem (pmPartToggleBoot ed).2.schem (pmPartToggleBoot ed).1 := by
  rw [pmPartToggleBoot]
  split_ifs with htype
  · rfl
  rw [not_not] at htype
  rcases hp : pmPartPrompt ed.schem true ed.inp with ⟨why | i, inp⟩
  · rfl
  · obtain ⟨hi, hused⟩ := pmPartPrompt_ok hp
    exact ⟨hi, _, .boot htype hused, rfl⟩

lemma pmPartChangeTypeMbr_spec (ed : Ed) {i : Pu32} (hi : i.toNat < ed.schem.partCnt.toNat)
    (hused : ed.schem.partIsUsed (ed.schem.table i.toNat) = true) (htype : ed.schem.type = .mbr) :
    EditSpec ctx ed.schem (pmPartChangeTypeMbr ed i).2.schem (pmPartChangeTypeMbr ed i).1 := by
  rw [pmPartChangeTypeMbr]
  rcases scanInt 16 ed.inp with ⟨res, partType, inp⟩
  simp only
  split_ifs
  · rfl
  · rfl
  · exact ⟨hi, _, .typeMbr _ htype hused, rfl⟩

lemma pmPartChangeTypeGpt_spec (ed : Ed) {i : Pu32} (hi : i.toNat < ed.schem.partCnt.toNat)
    (hused : ed.schem.partIsUsed (ed.schem.table i.toNat) = true) (htype : ed.schem.type = .gpt) :
    EditSpec ctx ed.schem (pmPartChangeTypeGpt ed i).2.schem (pmPartChangeTypeGpt ed i).1 := by
  rw [pmPartChangeTypeGpt]
  rcases hs : scanGuid ed.inp with ⟨res, guid, inp⟩
  simp only
  split_ifs with hok
  · rfl
  · rw [not_not] at hok
    rw [hok] at hs
    obtain ⟨line, hline⟩ := scanGuid_ok hs
    exact ⟨hi, _, .typeGpt line guid hline htype hused, rfl⟩

lemma pmPartChangeType_spec (ctx : ImgCtx) (ed : Ed) :
    EditSpec ctx ed.schem (pmPartChangeType ed).2.schem (pmPartChangeType ed).1 := by
  rw [pmPartChangeType]
  rcases hp : pmPartPrompt ed.schem true ed.inp with ⟨why | i, inp⟩
  · rfl
  · obtain ⟨hi, hused⟩ := pmPartPrompt_ok hp
    simp only
    split
    · next htype => exact pmPartChangeTypeMbr_spec { ed with inp := inp } hi hused htype
    · next htype => exact pmPartChangeTypeGpt_spec { ed with inp := inp } hi hused htype
    · next htype => exact ⟨hi, _, .keep htype hused, (ed.schem.setPart_table_self _).symm⟩

lemma pmPartAlterEnd_spec (sys : Sys) (ed : Ed) {isNew : Pflag} {i : Pu32} {startLba : Plba}
    (hi : i.toNat < ed.schem.partCnt.toNat)
    (hused : ed.schem.partIsUsed (ed.schem.table i.toNat) = !isNew)
    (hstart : StartChosen ed.schem ctx i startLba) :
    EditSpec ctx ed.schem (pmPartAlterEnd sys ctx ed isNew i startLba).2.schem
      (pmPartAlterEnd sys ctx ed isNew i startLba).1 := by
  rw [pmPartAlterEnd]
  simp only [beq_iff_eq]
  by_cases hdef : schemFindLastSector ed.schem ctx i.toInt64 startLba = -1
  · rw [if_pos hdef]
    rfl
  rw [if_neg hdef]
  rcases hp : promptSectorExt sys startLba ed.schem.lastUsableLba
    (schemFindLastSector ed.schem ctx i.toInt64 startLba).toUInt64 ctx.secSz ed.inp with
    ⟨res, endLba, inp⟩
  simp only
  split_ifs with hok hov hnew
  · rfl
  · rfl
  all_goals
    rw [not_not] at hok
    rw [hok] at hp
    have hend : EndChosen ed.schem ctx i startLba endLba :=
      (promptSectorExt_ok hp).symm.imp_right fun h => ⟨hdef, h⟩
  · -- a new partition is initialised
    refine ⟨hi, _, .alter _ startLba endLba (Or.inr ⟨?_, ed.rng, rfl⟩) hstart hend hov, rfl⟩
    simpa [hnew] using hused
  · refine ⟨hi, _, .alter _ startLba endLba (Or.inl ⟨?_, rfl⟩) hstart hend hov, rfl⟩
    simpa [hnew] using hused

lemma pmPartAlter_spec {fuel : ℕ} {sys : Sys} {ed : Ed} {isNew : Pflag} {e : Edit × Ed}
    (h : pmPartAlter fuel sys ctx ed isNew = some e) : EditSpec ctx ed.schem e.2.schem e.1 := by
  rw [pmPartAlter] at h
  rcases hp : pmPartPrompt ed.schem (!isNew) ed.inp with ⟨why | i, inp⟩
  · rw [hp] at h
    obtain rfl := Option.some.inj h
    rfl
  · obtain ⟨hi, hused⟩ := pmPartPrompt_ok hp
    rw [hp] at h
    simp only [Option.map_eq_some_iff, beq_iff_eq] at h
    obtain ⟨defLba, hdef, rfl⟩ := h
    by_cases hnone : defLba = -1
    · rw [if_pos hnone]
      rfl
    rw [if_neg hnone]
    rcases hr : promptRange ed.schem.firstUsableLba ed.schem.lastUsableLba defLba.toUInt64 inp with
      ⟨res, startLba, inp'⟩
    simp only
    split_ifs with hok
    · rfl
    · rw [not_not] at hok
      rw [hok] at hr
      refine pmPartAlterEnd_spec sys { ed with inp := inp' } hi hused ?_
      exact (promptRange_ok hr).symm.imp_right fun h => ⟨fuel, defLba, hdef, hnone, h⟩

/-- A command that alters a partition returns as soon as the search does. -/
lemma pmPartAlter_total {fuel : ℕ} {sys : Sys} {ed : Ed} {isNew : Pflag}
    (h : ∀ i : Pu32, ∃ res, schemFindStartSector fuel ed.schem ctx i.toInt64 = some res) :
    ∃ e, pmPartAlter fuel sys ctx ed isNew = some e := by
  rw [pmPartAlter]
  rcases pmPartPrompt ed.schem (!isNew) ed.inp with ⟨why | i, inp⟩
  · exact ⟨_, rfl⟩
  · obtain ⟨res, hres⟩ := h i
    simp only [hres]
    exact ⟨_, rfl⟩

end Partman

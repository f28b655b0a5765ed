/-
# Commands with typed answers

The prompts of the commands that add, resize and delete a partition, answered with numbers.
The search for a first sector finds one whenever there is a free sector at all, and the
search for a last sector always finds one, so neither stands in the way of an answer: on a
scheme that is in order, every range of usable sectors that meets no other partition can be
given to an entry.
-/
import Partman.Edit.Invariant
import Partman.Edit.Start
import Partman.Text.Typed

namespace Partman

open Lib

variable {sys : Sys} {ctx : ImgCtx} {fuel : ℕ} {schem : Schem} {inp : Input} {i : Pu32}

/-! ## The index -/

lemma schemFindPartIndex_ne {findUsed : Pflag} {j : ℕ} (hj : j < schem.partCnt.toNat)
    (h : schem.partIsUsed (schem.table j) = findUsed) :
    schemFindPartIndex schem findUsed ≠ -1 := by
  cases hf : (List.range schem.partCnt.toNat).find? fun i =>
      schem.partIsUsed (schem.table i) == findUsed with
  | none =>
    have hno := List.find?_eq_none.1 hf j (List.mem_range.2 hj)
    simp [h] at hno
  | some k =>
    rw [schemFindPartIndex, hf]
    exact (toNat_partRes (List.mem_range.1 (List.mem_of_find?_eq_some hf))).2

lemma toNat_add_one (h : i.toNat < schem.partCnt.toNat) : (i + 1).toNat = i.toNat + 1 := by
  have := schem.partCnt.toNat_lt
  rw [UInt64.toNat_add, UInt64.toNat_one, Nat.mod_eq_of_lt (by omega)]

/-- The prompt for an index, answered with the number of an entry that is as asked for. -/
lemma pmPartPrompt_typed {findUsed : Pflag} {line : List Char}
    (hi : i.toNat < schem.partCnt.toNat)
    (hused : schem.partIsUsed (schem.table i.toNat) = findUsed) (hline : Types line (i + 1)) :
    pmPartPrompt schem findUsed (.line line :: inp) = (.ok i, inp) := by
  have h1 : (1 : Pu64) ≤ i + 1 := by
    rw [UInt64.le_iff_toNat_le, toNat_add_one hi, UInt64.toNat_one]
    omega
  have h2 : i + 1 ≤ schem.partCnt := by
    rw [UInt64.le_iff_toNat_le, toNat_add_one hi]
    omega
  rw [pmPartPrompt, if_neg (by simpa using schemFindPartIndex_ne hi hused)]
  simp only [hline.promptRange _ h1 h2, UInt64.add_sub_cancel, hused]
  cases findUsed <;> simp

/-! ## The searches -/

/-- The first sector that is proposed is free; and if a sector before it is free, it is a
multiple of the alignment. -/
lemma exists_startProposed (hinv : schem.Inv) (hfits : schem.Fits ctx) (hfuel : 2 ^ 65 ≤ fuel)
    (h : (schem.FreeUsable i.toInt64).Nonempty) :
    ∃ res, schemFindStartSector fuel schem ctx i.toInt64 = some res ∧ res ≠ -1 ∧
      res.toUInt64.toNat ∈ schem.FreeUsable i.toInt64 ∧
      ((1 < ctx.align.toNat ∧ ctx.align.toNat ∣ res.toUInt64.toNat) ∨
        ∀ s ∈ schem.FreeUsable i.toInt64, res.toUInt64.toNat ≤ s) := by
  obtain ⟨res, hres, hexact⟩ := exists_startExact hfits.align hfits.range hfits.room
    (hinv.endsBelow hfits i.toInt64)
  obtain ⟨g, hg⟩ := exists_isLeast h
  have hto : ∀ n : ℕ, res.toInt = n → res ≠ -1 ∧ res.toUInt64.toNat = n := by
    intro n hn
    have hpos : 0 ≤ res := by
      rw [Int64.le_iff_toInt_le, hn]
      exact Int.natCast_nonneg n
    refine ⟨?_, ?_⟩
    · rintro rfl
      exact absurd hpos (by decide)
    · rw [Int64.toNat_toUInt64_of_le hpos, ← Int64.toNat_toInt, hn, Int.toNat_natCast]
  refine ⟨res, hres fuel hfuel, ?_⟩
  have hmult := isLeast_multiple (n := g) hfits.align
  by_cases ha : g / ctx.align.toNat * ctx.align.toNat +
      (if g % ctx.align.toNat = 0 then 0 else ctx.align.toNat) ≤ schem.lastUsableLba.toNat ∧
      schem.Free i.toInt64 (g / ctx.align.toNat * ctx.align.toNat +
        if g % ctx.align.toNat = 0 then 0 else ctx.align.toNat)
  · obtain ⟨hne, he⟩ := hto _ (hexact.aligned g _ hg hmult ha.1 ha.2)
    rw [he]
    refine ⟨hne, ⟨hg.1.1.trans hmult.1.1, ha⟩, ?_⟩
    rcases hfits.align.lt_or_eq with hal | hal
    · exact Or.inl ⟨hal, hmult.1.2⟩
    · -- every sector is a multiple
      refine Or.inr fun s hs => ?_
      have := hg.2 hs
      rw [← hal, Nat.div_one, mul_one, Nat.mod_one, if_pos rfl]
      exact this
  · obtain ⟨hne, he⟩ := hto _ (hexact.first g _ hg hmult ha)
    rw [he]
    exact ⟨hne, hg.1, Or.inr fun s hs => hg.2 hs⟩

/-- Where a usable sector is free, the search for a first sector finds one. -/
lemma schemFindStartSector_finds (hinv : schem.Inv) (hfits : schem.Fits ctx)
    (hfuel : 2 ^ 65 ≤ fuel) {s : ℕ} (hs : s ∈ schem.FreeUsable i.toInt64) :
    ∃ res, schemFindStartSector fuel schem ctx i.toInt64 = some res ∧ res ≠ -1 := by
  obtain ⟨res, hres, hne, -, -⟩ := exists_startProposed hinv hfits hfuel ⟨s, hs⟩
  exact ⟨res, hres, hne⟩

/-- The search for a last sector finds one behind every usable sector. -/
lemma schemFindLastSector_finds (ctx : ImgCtx) (ign : P32)
    (hroom : schem.lastUsableLba.toNat < 2 ^ 63) {startLba : Plba}
    (h : startLba.toNat ≤ schem.lastUsableLba.toNat) :
    schemFindLastSector schem ctx ign startLba ≠ -1 := by
  obtain ⟨h1, h2⟩ := lastBound_bounds schem ign h
  have hne : ∀ r : Plba, r.toNat ≤ schem.lastUsableLba.toNat → r.toInt64 ≠ -1 := by
    intro r hr he
    have := UInt64.toNat_inj.2 (congrArg Int64.toUInt64 he)
    rw [UInt64.toUInt64_toInt64, show (-1 : Int64).toUInt64.toNat = 2 ^ 64 - 1 from rfl] at this
    omega
  have hend := alignedEnd_le ctx (lastBound schem ign startLba)
  rw [schemFindLastSector_eq, if_neg (by rw [UInt64.lt_iff_toNat_lt]; omega)]
  split_ifs
  · exact hne _ (by omega)
  · exact hne _ h2

/-! ## Entries -/

/-- A new entry is in use. -/
lemma funcsPartInit_used (hfuncs : schem.funcs ≠ .cnt) (part : SchemPart) (r : Rng) :
    schem.partIsUsed (funcsPartInit schem.funcs part r).1 = true := by
  cases hf : schem.funcs with
  | mbr =>
    rw [Schem.partIsUsed, hf]
    show (mbrPartTypeDef != 0) = true
    decide
  | gpt =>
    rw [Schem.partIsUsed, hf]
    show (!guidIsZero gptPartTypeDef) = true
    decide
  | cnt => exact absurd hf hfuncs

/-- The range of an entry has no part in whether it is used. -/
lemma partIsUsed_range (schem : Schem) (part : SchemPart) (startLba endLba : Plba) :
    schem.partIsUsed { part with startLba := startLba, endLba := endLba } =
      schem.partIsUsed part := by
  rw [Schem.partIsUsed, Schem.partIsUsed]
  cases schem.funcs <;> rfl

/-- The range `[startLba, endLba]` can be given to the entry `i`. -/
structure Schem.Room (schem : Schem) (i : Pu32) (startLba endLba : Plba) : Prop where
  first_le : schem.firstUsableLba.toNat ≤ startLba.toNat
  le : startLba.toNat ≤ endLba.toNat
  le_last : endLba.toNat ≤ schem.lastUsableLba.toNat
  disjoint : ∀ j ∈ schem.usedSet, j ≠ i.toNat →
    Disjoint (Set.Icc startLba.toNat endLba.toNat)
      (Set.Icc (schem.table j).startLba.toNat (schem.table j).endLba.toNat)

/-- The first sector of such a range is free. -/
lemma Schem.Room.free {startLba endLba : Plba} (h : schem.Room i startLba endLba) :
    startLba.toNat ∈ schem.FreeUsable i.toInt64 := by
  refine ⟨h.first_le, h.le.trans h.le_last, fun j hj hmem => ?_⟩
  rw [Schem.others, Set.mem_ofPred_eq, UInt64.toUInt64_toInt64] at hj
  exact Set.disjoint_left.1 (h.disjoint j hj.1 hj.2) ⟨le_rfl, h.le⟩ hmem

/-- A scheme in which the range is given to the entry is in order. -/
lemma Schem.Room.inv (hinv : schem.Inv) (hcnt : schem.partCnt.toNat < 2 ^ 63) {part : SchemPart}
    (h : schem.Room i part.startLba part.endLba) : (schem.setPart i.toNat part).Inv :=
  inv_setPart_range hinv hcnt h.first_le h.le h.le_last
    ((schemFindOverlap_neg_iff hinv hcnt h.le).2 h.disjoint)

/-! ## The commands -/

variable {l₁ l₂ l₃ : List Char}

/-- The commands `n` and `e`, answered with an entry and a range that can be given to it. -/
lemma pmPartAlter_typed (sys : Sys) (inp : Input) (rng : Rng) (hinv : schem.Inv)
    (hfits : schem.Fits ctx) (hfuel : 2 ^ 65 ≤ fuel) (hfuncs : schem.funcs ≠ .cnt)
    {isNew : Pflag} (hi : i.toNat < schem.partCnt.toNat)
    (hused : schem.partIsUsed (schem.table i.toNat) = !isNew) {startLba endLba : Plba}
    (hroom : schem.Room i startLba endLba) (h₁ : Types l₁ (i + 1)) (h₂ : Types l₂ startLba)
    (h₃ : Types l₃ endLba) :
    ∃ part rng', pmPartAlter fuel sys ctx ⟨schem, .line l₁ :: .line l₂ :: .line l₃ :: inp, rng⟩
        isNew = some (.accepted i, ⟨schem.setPart i.toNat part, inp, rng'⟩) ∧
      schem.partIsUsed part = true ∧ part.startLba = startLba ∧ part.endLba = endLba := by
  obtain ⟨res, hres, hne⟩ := schemFindStartSector_finds hinv hfits hfuel hroom.free
  have hlast := schemFindLastSector_finds ctx i.toInt64 hfits.room'
    (hroom.le.trans hroom.le_last)
  have hfree := (schemFindOverlap_neg_iff hinv hfits.cnt hroom.le).2 hroom.disjoint
  have hs1 : schem.firstUsableLba ≤ startLba := hroom.first_le
  have hs2 : startLba ≤ schem.lastUsableLba := hroom.le.trans hroom.le_last
  have he1 : startLba ≤ endLba := hroom.le
  have he2 : endLba ≤ schem.lastUsableLba := hroom.le_last
  rw [pmPartAlter]
  simp only [pmPartPrompt_typed hi hused h₁, hres, Option.map_some, beq_iff_eq, hne, if_false,
    h₂.promptRange _ hs1 hs2, ne_eq, not_true_eq_false, pmPartAlterEnd, hlast,
    h₃.promptSectorExt _ _ he1 he2, hfree]
  cases isNew with
  | true =>
    refine ⟨_, _, rfl, ?_, rfl, rfl⟩
    rw [partIsUsed_range]
    exact funcsPartInit_used hfuncs _ _
  | false =>
    refine ⟨_, _, rfl, ?_, rfl, rfl⟩
    rw [partIsUsed_range]
    exact hused

/-- The command `d`, answered with an entry that is used. -/
lemma pmPartDelete_typed (inp : Input) (rng : Rng) (hi : i.toNat < schem.partCnt.toNat)
    (hused : schem.partIsUsed (schem.table i.toNat) = true) (h₁ : Types l₁ (i + 1)) :
    pmPartDelete ⟨schem, .line l₁ :: inp, rng⟩ =
      (.accepted i, ⟨schem.setPart i.toNat SchemPart.zero, inp, rng⟩) := by
  rw [pmPartDelete]
  simp only [pmPartPrompt_typed hi hused h₁]
  rfl

end Partman

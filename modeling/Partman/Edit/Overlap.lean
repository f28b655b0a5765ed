/-
# The partitions of a scheme as a placement, and the overlap test

`Schem.Inv` is the invariant that editing keeps: the used partitions lie within the usable
sectors and do not meet.  `schem_find_overlap` decides exactly whether a range of sectors
meets a partition other than the ignored one.
-/
import Partman.Lib.Extent
import Partman.Lib.Word
import Partman.Model.Search

namespace Partman

open Lib

/-- The indices of the used partitions of a scheme. -/
def Schem.usedSet (schem : Schem) : Set ℕ :=
  {i | i < schem.partCnt.toNat ∧ schem.partIsUsed (schem.table i) = true}

/-- Every used partition lies within the usable sectors, and any two of them occupy
disjoint sectors. -/
def Schem.Inv (schem : Schem) : Prop :=
  Placement schem.firstUsableLba.toNat schem.lastUsableLba.toNat schem.usedSet
    (fun i => (schem.table i).startLba.toNat) (fun i => (schem.table i).endLba.toNat)

lemma Schem.mem_usedSet {schem : Schem} {i : ℕ} :
    i ∈ schem.usedSet ↔ i < schem.partCnt.toNat ∧ schem.partIsUsed (schem.table i) = true :=
  Iff.rfl

@[simp] lemma Schem.setPart_same (schem : Schem) (i : ℕ) (part : SchemPart) :
    (schem.setPart i part).table i = part := by simp [Schem.setPart]

lemma Schem.setPart_of_ne (schem : Schem) {i j : ℕ} (part : SchemPart) (h : j ≠ i) :
    (schem.setPart i part).table j = schem.table j := by simp [Schem.setPart, h]

@[simp] lemma Schem.setPart_partIsUsed (schem : Schem) (i : ℕ) (part : SchemPart) :
    (schem.setPart i part).partIsUsed = schem.partIsUsed := rfl

lemma Schem.setPart_table_self (schem : Schem) (i : ℕ) :
    schem.setPart i (schem.table i) = schem := by
  simp [Schem.setPart]

/-! ## Which partitions a search considers -/

lemma considers_iff {schem : Schem} {part i : ℕ} {ign : Pu32} (hi : i = ign.toNat)
    (hp : part < schem.partCnt.toNat) :
    schem.considers ign.toInt64 part = true ↔ part ≠ i ∧ part ∈ schem.usedSet := by
  have hlt : part < 2 ^ 64 := lt_trans hp schem.partCnt.toNat_lt
  have hne : (UInt64.ofNat part != ign) = true ↔ part ≠ i := by
    rw [bne_iff_ne, ne_eq, ← UInt64.toNat_inj, toNat_ofNat_of_lt hlt, hi]
  rw [Schem.considers, UInt64.toUInt64_toInt64, Bool.and_eq_true, hne, Schem.mem_usedSet]
  simp only [hp, true_and]

/-- The sectors of a partition. -/
def SchemPart.sectors (part : SchemPart) : Set ℕ :=
  Set.Icc part.startLba.toNat part.endLba.toNat

/-- The partitions that a search keeps clear of: the used ones but the ignored one. -/
def Schem.others (schem : Schem) (partIgn : P32) : Set ℕ :=
  {i | i ∈ schem.usedSet ∧ i ≠ partIgn.toUInt64.toNat}

/-- No partition that the search keeps clear of contains the sector. -/
def Schem.Free (schem : Schem) (partIgn : P32) (s : ℕ) : Prop :=
  ∀ i ∈ schem.others partIgn, s ∉ (schem.table i).sectors

lemma considers_iff_others {schem : Schem} {partIgn : P32} {i : ℕ}
    (hi : i < schem.partCnt.toNat) :
    schem.considers partIgn i = true ↔ i ∈ schem.others partIgn := by
  have h : schem.considers partIgn.toUInt64.toInt64 i = true ↔
      i ≠ partIgn.toUInt64.toNat ∧ i ∈ schem.usedSet := considers_iff rfl hi
  rw [Int64.toInt64_toUInt64] at h
  rw [h, and_comm]
  rfl

lemma Schem.others_lt {schem : Schem} {partIgn : P32} {i : ℕ} (h : i ∈ schem.others partIgn) :
    i < schem.partCnt.toNat := h.1.1

lemma Schem.considers_of_others {schem : Schem} {partIgn : P32} {i : ℕ}
    (h : i ∈ schem.others partIgn) : schem.considers partIgn i = true :=
  (considers_iff_others (schem.others_lt h)).2 h

/-! ## The overlap test -/

/-- The three cases of the test cover every way in which two ranges can meet. -/
lemma partOverlaps_iff {part : SchemPart} {startLba endLba : Plba}
    (hpart : part.startLba.toNat ≤ part.endLba.toNat) (hrange : startLba.toNat ≤ endLba.toNat) :
    partOverlaps part startLba endLba = true ↔
      ¬ Disjoint (Set.Icc startLba.toNat endLba.toNat)
        (Set.Icc part.startLba.toNat part.endLba.toNat) := by
  rw [disjoint_Icc_iff hrange hpart]
  simp only [partOverlaps, Bool.or_eq_true, Bool.and_eq_true, decide_eq_true_eq, ge_iff_le,
    gt_iff_lt, UInt64.le_iff_toNat_le, UInt64.lt_iff_toNat_lt]
  omega

lemma toNat_partRes_lt {i : ℕ} (h : i < 2 ^ 63) : 0 ≤ partRes i ∧ partRes i ≠ -1 := by
  have hi : (UInt64.ofNat i).toNat = i := toNat_ofNat_of_lt (by omega)
  exact ⟨zero_le_toInt64 (by omega), toInt64_ne_neg_one (by omega)⟩

/-- What the overlap test returns: nothing overlaps, or the index of one that does. -/
lemma schemFindOverlap_cases (schem : Schem) (startLba endLba : Plba) (ign : P32) :
    (schemFindOverlap schem startLba endLba ign = -1 ∧ ∀ j < schem.partCnt.toNat,
        schem.considers ign j = true → partOverlaps (schem.table j) startLba endLba = false) ∨
      ∃ j < schem.partCnt.toNat, schemFindOverlap schem startLba endLba ign = partRes j ∧
        schem.considers ign j = true ∧ partOverlaps (schem.table j) startLba endLba = true := by
  cases hf : (List.range schem.partCnt.toNat).find? fun i =>
      schem.considers ign i && partOverlaps (schem.table i) startLba endLba with
  | none =>
    refine Or.inl ⟨by rw [schemFindOverlap, hf], fun j hj hc => ?_⟩
    have := List.find?_eq_none.1 hf j (List.mem_range.2 hj)
    simpa [hc] using this
  | some j =>
    have hmem := List.mem_range.1 (List.mem_of_find?_eq_some hf)
    have hp := List.find?_some hf
    rw [Bool.and_eq_true] at hp
    exact Or.inr ⟨j, hmem, by rw [schemFindOverlap, hf], hp.1, hp.2⟩

/-- A result that is not negative names an overlapping partition; a negative one means
that there is none. -/
lemma no_overlap_of_neg {schem : Schem} {startLba endLba : Plba} {ign : P32}
    (hcnt : schem.partCnt.toNat < 2 ^ 63)
    (h : ¬ schemFindOverlap schem startLba endLba ign ≥ 0) :
    ∀ j < schem.partCnt.toNat, schem.considers ign j = true →
      partOverlaps (schem.table j) startLba endLba = false := by
  rcases schemFindOverlap_cases schem startLba endLba ign with ⟨_, hall⟩ | ⟨j, hj, he, _, _⟩
  · exact hall
  · exact absurd (he ▸ (toNat_partRes_lt (lt_trans hj hcnt)).1) h

/-- **The overlap test is exact.**  Over a scheme that keeps the invariant, it succeeds
exactly when the range meets no used partition but the ignored one. -/
theorem schemFindOverlap_neg_iff {schem : Schem} {startLba endLba : Plba} {ign : Pu32}
    (hinv : schem.Inv) (hcnt : schem.partCnt.toNat < 2 ^ 63)
    (hrange : startLba.toNat ≤ endLba.toNat) :
    ¬ schemFindOverlap schem startLba endLba ign.toInt64 ≥ 0 ↔
      ∀ j ∈ schem.usedSet, j ≠ ign.toNat → Disjoint (Set.Icc startLba.toNat endLba.toNat)
        (Set.Icc (schem.table j).startLba.toNat (schem.table j).endLba.toNat) := by
  constructor
  · intro h j hj hne
    have hov := no_overlap_of_neg hcnt h j hj.1 ((considers_iff rfl hj.1).2 ⟨hne, hj⟩)
    by_contra hd
    rw [← partOverlaps_iff (hinv.bounds j hj).2.1 hrange, hov] at hd
    exact absurd hd (by simp)
  · intro h
    rcases schemFindOverlap_cases schem startLba endLba ign.toInt64 with
      ⟨he, _⟩ | ⟨j, hj, _, hc, hov⟩
    · rw [he]
      decide
    · obtain ⟨hne, hmem⟩ := (considers_iff rfl hj).1 hc
      exact absurd (h j hmem hne) ((partOverlaps_iff (hinv.bounds j hmem).2.1 hrange).1 hov)

/-- The partitions that share a sector with a range. -/
def Schem.overlapping (schem : Schem) (startLba endLba : Plba) (partIgn : P32) : Set ℕ :=
  {i | i ∈ schem.others partIgn ∧
    (Set.Icc startLba.toNat endLba.toNat ∩ (schem.table i).sectors).Nonempty}

lemma toNat_partRes {schem : Schem} {i : ℕ} (h : i < schem.partCnt.toNat) :
    (partRes i).toUInt64.toNat = i ∧ partRes i ≠ -1 := by
  have hlt := schem.partCnt.toNat_lt
  have hi : (UInt64.ofNat i).toNat = i := toNat_ofNat_of_lt (by omega)
  constructor
  · rw [partRes, UInt64.toUInt64_toInt64, hi]
  · exact toInt64_ne_neg_one (by omega)

/-- The overlap test finds the first of the overlapping partitions, or none. -/
lemma schemFindOverlap_least {schem : Schem} {startLba endLba : Plba}
    (hwf : ∀ i ∈ schem.usedSet, (schem.table i).startLba ≤ (schem.table i).endLba)
    (hrange : startLba ≤ endLba) (partIgn : P32) :
    (schemFindOverlap schem startLba endLba partIgn = -1 ∧
        schem.overlapping startLba endLba partIgn = ∅) ∨
      ∃ i, schemFindOverlap schem startLba endLba partIgn = partRes i ∧
        IsLeast (schem.overlapping startLba endLba partIgn) i := by
  have hmem : ∀ i < schem.partCnt.toNat, i ∈ schem.overlapping startLba endLba partIgn ↔
      (schem.considers partIgn i && partOverlaps (schem.table i) startLba endLba) = true := by
    intro i hi
    rw [Bool.and_eq_true, considers_iff_others hi]
    refine and_congr_right fun ho => ?_
    rw [partOverlaps_iff (UInt64.le_iff_toNat_le.1 (hwf i ho.1)) (UInt64.le_iff_toNat_le.1 hrange),
      Set.not_disjoint_iff_nonempty_inter]
    rfl
  have hlt : ∀ i ∈ schem.overlapping startLba endLba partIgn, i < schem.partCnt.toNat :=
    fun i hi => schem.others_lt hi.1
  unfold schemFindOverlap
  cases hf : (List.range schem.partCnt.toNat).find? fun i =>
      schem.considers partIgn i && partOverlaps (schem.table i) startLba endLba with
  | none =>
    refine Or.inl ⟨rfl, Set.eq_empty_of_forall_notMem fun i hi => ?_⟩
    exact List.find?_eq_none.1 hf i (List.mem_range.2 (hlt i hi)) ((hmem i (hlt i hi)).1 hi)
  | some i =>
    obtain ⟨hp, hi, hfirst⟩ := List.find?_range_eq_some.1 hf
    refine Or.inr ⟨i, rfl, (hmem i (List.mem_range.1 hi)).2 hp, fun j hj => ?_⟩
    -- an earlier one would have been found first
    by_contra hji
    have := hfirst j (by omega)
    rw [(hmem j (hlt j hj)).1 hj] at this
    exact absurd this (by decide)

/-- An MBR whose partitions occupy the given ranges, in the order of the table. -/
def mbrOfRanges (first last : Plba) (ranges : List (Plba × Plba)) : Schem where
  type := .mbr
  idI := 0
  idGuid := Guid.zero
  firstUsableLba := first
  lastUsableLba := last
  partCnt := 4
  tableLen := 4
  table := fun i =>
    match ranges[i]? with
    | some r => { SchemPart.zero with typeI := 0x83, startLba := r.1, endLba := r.2 }
    | none => SchemPart.zero
  funcs := .mbr

/-- **The overlap test returns the first partition that shares a sector with the range**,
and `-1` exactly if there is none. -/
theorem schemFindOverlap_isLeast {schem : Schem} {startLba endLba : Plba}
    (hwf : ∀ i ∈ schem.usedSet, (schem.table i).startLba ≤ (schem.table i).endLba)
    (hrange : startLba ≤ endLba) (partIgn : P32) :
    (schemFindOverlap schem startLba endLba partIgn = -1 ↔
        schem.overlapping startLba endLba partIgn = ∅) ∧
      ((schem.overlapping startLba endLba partIgn).Nonempty →
        IsLeast (schem.overlapping startLba endLba partIgn)
          (schemFindOverlap schem startLba endLba partIgn).toUInt64.toNat) := by
  rcases schemFindOverlap_least hwf hrange partIgn with ⟨he, hempty⟩ | ⟨i, he, hleast⟩
  · rw [he]
    exact ⟨iff_of_true rfl hempty, fun hne => absurd hempty hne.ne_empty⟩
  · obtain ⟨hto, hne⟩ := toNat_partRes (schem.others_lt hleast.1.1)
    rw [he, hto]
    exact ⟨iff_of_false hne (Set.Nonempty.ne_empty ⟨i, hleast.1⟩), fun _ => hleast⟩

/-- Partitions out of order, two of which the range meets. -/
theorem schemFindOverlap_isLeast_small :
    (schemFindOverlap (mbrOfRanges 1 2047 [(900, 999), (64, 127), (128, 255)]) 100 200 (-1) = -1 ↔
        (mbrOfRanges 1 2047 [(900, 999), (64, 127), (128, 255)]).overlapping 100 200 (-1) = ∅) ∧
      (((mbrOfRanges 1 2047 [(900, 999), (64, 127), (128, 255)]).overlapping 100 200
          (-1)).Nonempty →
        IsLeast ((mbrOfRanges 1 2047 [(900, 999), (64, 127), (128, 255)]).overlapping 100 200 (-1))
          (schemFindOverlap (mbrOfRanges 1 2047 [(900, 999), (64, 127), (128, 255)]) 100 200
            (-1)).toUInt64.toNat) := by
  refine schemFindOverlap_isLeast (fun i hi => ?_) (by decide) (-1)
  have hall : ∀ i < 4, (mbrOfRanges 1 2047 [(900, 999), (64, 127), (128, 255)]).partIsUsed
      ((mbrOfRanges 1 2047 [(900, 999), (64, 127), (128, 255)]).table i) = true →
      ((mbrOfRanges 1 2047 [(900, 999), (64, 127), (128, 255)]).table i).startLba ≤
        ((mbrOfRanges 1 2047 [(900, 999), (64, 127), (128, 255)]).table i).endLba := by
    decide
  exact hall i hi.1 hi.2

/-! ## The first used or free partition -/

/-- The default index of the partition prompt is an index of the table in the wanted
state, or there is none. -/
lemma schemFindPartIndex_cases (schem : Schem) (partUsed : Pflag) :
    schemFindPartIndex schem partUsed = -1 ∨ ∃ j < schem.partCnt.toNat,
      schemFindPartIndex schem partUsed = partRes j ∧
      schem.partIsUsed (schem.table j) = partUsed := by
  cases hf : (List.range schem.partCnt.toNat).find? fun i =>
      schem.partIsUsed (schem.table i) == partUsed with
  | none => exact Or.inl (by rw [schemFindPartIndex, hf])
  | some j =>
    refine Or.inr ⟨j, List.mem_range.1 (List.mem_of_find?_eq_some hf), ?_, ?_⟩
    · rw [schemFindPartIndex, hf]
    · simpa using List.find?_some hf

end Partman

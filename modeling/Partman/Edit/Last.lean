/-
# What the last sector search returns

The bound is lowered in one pass over the table, by a strict comparison with the partition
starts.  It ends in front of the next partition, except where the bound has come down to the
start of that partition before its turn: it is then missed, and the bound is its first sector.

The aligned end that is tried is the one before the segment that contains the bound, so that
a bound which is an aligned end itself is not tried.
-/
import Partman.Edit.Start

namespace Partman

open Lib

variable {schem : Schem} {ctx : ImgCtx} {ign : P32} {firstLba : Plba}

/-! ## The pass over the table -/

/-- The partitions that are located further than the first sector. -/
def Schem.ahead (schem : Schem) (partIgn : P32) (firstLba : Plba) : Set ℕ :=
  {i | i ∈ schem.others partIgn ∧ firstLba.toNat < (schem.table i).startLba.toNat}

/-- The bound before the entry `k` of the table. -/
def boundUpto (schem : Schem) (partIgn : P32) (firstLba : Plba) (k : ℕ) : Plba :=
  (List.range k).foldl (fun bound i =>
    if schem.considers partIgn i && (schem.table i).startLba > firstLba &&
        (schem.table i).startLba < bound then
      (schem.table i).startLba - 1
    else bound) schem.lastUsableLba

lemma lastBound_eq (schem : Schem) (ign : P32) (firstLba : Plba) :
    lastBound schem ign firstLba = boundUpto schem ign firstLba schem.partCnt.toNat := rfl

/-- One entry lowers the bound to the sector before it, or leaves it. -/
lemma boundUpto_succ (ign : P32) (firstLba : Plba) {k : ℕ} (hk : k < schem.partCnt.toNat) :
    (k ∈ schem.ahead ign firstLba ∧
        (schem.table k).startLba.toNat < (boundUpto schem ign firstLba k).toNat ∧
        (boundUpto schem ign firstLba (k + 1)).toNat = (schem.table k).startLba.toNat - 1) ∨
      (¬ (k ∈ schem.ahead ign firstLba ∧
          (schem.table k).startLba.toNat < (boundUpto schem ign firstLba k).toNat) ∧
        boundUpto schem ign firstLba (k + 1) = boundUpto schem ign firstLba k) := by
  have hcond : (schem.considers ign k && (schem.table k).startLba > firstLba &&
      (schem.table k).startLba < boundUpto schem ign firstLba k) = true ↔
      k ∈ schem.ahead ign firstLba ∧
        (schem.table k).startLba.toNat < (boundUpto schem ign firstLba k).toNat := by
    rw [Bool.and_eq_true, Bool.and_eq_true, considers_iff_others hk, decide_eq_true_eq,
      decide_eq_true_eq, UInt64.lt_iff_toNat_lt, gt_iff_lt, UInt64.lt_iff_toNat_lt]
    rfl
  have hstep : boundUpto schem ign firstLba (k + 1) =
      if schem.considers ign k && (schem.table k).startLba > firstLba &&
          (schem.table k).startLba < boundUpto schem ign firstLba k then
        (schem.table k).startLba - 1
      else boundUpto schem ign firstLba k := by
    rw [boundUpto, List.range_succ, List.foldl_append]
    rfl
  by_cases h : k ∈ schem.ahead ign firstLba ∧
      (schem.table k).startLba.toNat < (boundUpto schem ign firstLba k).toNat
  · refine Or.inl ⟨h.1, h.2, ?_⟩
    have hpos := h.1.2
    rw [hstep, if_pos (hcond.2 h), toNat_sub_of_ge (by rw [UInt64.toNat_one]; omega),
      UInt64.toNat_one]
  · exact Or.inr ⟨h, by rw [hstep, if_neg (mt hcond.1 h)]⟩

/-- The bound never rises. -/
lemma boundUpto_anti (ign : P32) (firstLba : Plba) {j k : ℕ} (hjk : j ≤ k)
    (hk : k ≤ schem.partCnt.toNat) :
    (boundUpto schem ign firstLba k).toNat ≤ (boundUpto schem ign firstLba j).toNat := by
  induction k, hjk using Nat.le_induction with
  | base => exact le_rfl
  | succ k _ ih =>
    have ih := ih (by omega)
    rcases boundUpto_succ ign firstLba (show k < schem.partCnt.toNat by omega) with
      ⟨-, hlt, he⟩ | ⟨-, he⟩
    · omega
    · rwa [he]

/-- The bound is the last usable sector, or the one before a partition that lowered it. -/
lemma boundUpto_cases (ign : P32) (firstLba : Plba) {k : ℕ} (hk : k ≤ schem.partCnt.toNat) :
    boundUpto schem ign firstLba k = schem.lastUsableLba ∨
      ∃ j < k, j ∈ schem.ahead ign firstLba ∧
        (schem.table j).startLba.toNat < (boundUpto schem ign firstLba j).toNat ∧
        (boundUpto schem ign firstLba k).toNat = (schem.table j).startLba.toNat - 1 := by
  induction k with
  | zero => exact Or.inl rfl
  | succ k ih =>
    rcases boundUpto_succ ign firstLba (show k < schem.partCnt.toNat by omega) with
      ⟨hmem, hlt, he⟩ | ⟨-, he⟩
    · exact Or.inr ⟨k, Nat.lt_succ_self k, hmem, hlt, he⟩
    · rw [he]
      rcases ih (by omega) with h | ⟨j, hj, h⟩
      · exact Or.inl h
      · exact Or.inr ⟨j, by omega, h⟩

/-! ## The partition that is missed -/

/-- The pass misses the partition: it starts at the last usable sector, or an earlier entry,
which is not missed itself, starts directly behind its first sector. -/
def Schem.Missed (schem : Schem) (partIgn : P32) (i : ℕ) : Prop :=
  (schem.table i).startLba.toNat = schem.lastUsableLba.toNat ∨
    (schem.table i).startLba.toNat < schem.lastUsableLba.toNat ∧
      ∃ j, ∃ _ : j < i, j ∈ schem.others partIgn ∧
        (schem.table j).startLba.toNat = (schem.table i).startLba.toNat + 1 ∧
        ¬ schem.Missed partIgn j
termination_by i

/-- What the search for the last sector takes for granted: the used partitions are ranges of
sectors that do not meet, and the first sector is free and not behind the last usable one. -/
structure LastPre (schem : Schem) (partIgn : P32) (firstLba : Plba) : Prop where
  range : ∀ i ∈ schem.usedSet, (schem.table i).startLba ≤ (schem.table i).endLba
  disjoint : ∀ i ∈ schem.usedSet, ∀ j ∈ schem.usedSet, i ≠ j →
    Disjoint (schem.table i).sectors (schem.table j).sectors
  first_le : schem.firstUsableLba ≤ firstLba
  le_last : firstLba ≤ schem.lastUsableLba
  free : schem.Free partIgn firstLba.toNat

/-- Two partitions do not start at the same sector. -/
lemma LastPre.start_ne (h : LastPre schem ign firstLba) {i j : ℕ} (hi : i ∈ schem.others ign)
    (hj : j ∈ schem.others ign) (hij : i ≠ j) :
    (schem.table i).startLba.toNat ≠ (schem.table j).startLba.toNat := by
  intro he
  refine Set.disjoint_left.1 (h.disjoint i hi.1 j hj.1 hij)
    ⟨le_rfl, UInt64.le_iff_toNat_le.1 (h.range i hi.1)⟩ ?_
  rw [he]
  exact ⟨le_rfl, UInt64.le_iff_toNat_le.1 (h.range j hj.1)⟩

/-- A partition before which no further one has had its turn is missed exactly if the bound
has come down to its start. -/
lemma LastPre.missed_iff (h : LastPre schem ign firstLba) {i : ℕ}
    (hi : i ∈ schem.ahead ign firstLba)
    (hlast : (schem.table i).startLba.toNat ≤ schem.lastUsableLba.toNat)
    (hmin : ∀ j < i, j ∈ schem.ahead ign firstLba →
      (schem.table i).startLba.toNat < (schem.table j).startLba.toNat) :
    (boundUpto schem ign firstLba i).toNat ≤ (schem.table i).startLba.toNat ↔
      schem.Missed ign i := by
  induction i using Nat.strong_induction_on with
  | _ i ih =>
    have hlt := schem.others_lt hi.1
    -- the entry that starts next has had no further one before it either
    have hnext : ∀ j < i, j ∈ schem.ahead ign firstLba →
        (schem.table j).startLba.toNat = (schem.table i).startLba.toNat + 1 →
        (schem.table j).startLba.toNat ≤ schem.lastUsableLba.toNat →
        ((boundUpto schem ign firstLba j).toNat ≤ (schem.table j).startLba.toNat ↔
          schem.Missed ign j) := by
      intro j hji hj hstart hle
      refine ih j hji hj hle fun k hkj hk => ?_
      have h1 := hmin k (by omega) hk
      have h2 := h.start_ne hj.1 hk.1 (by omega)
      omega
    rw [Schem.Missed]
    constructor
    · intro hb
      rcases boundUpto_cases ign firstLba hlt.le with
        he | ⟨j, hji, hj, hlow, he⟩
      · rw [he] at hb
        exact Or.inl (le_antisymm hlast hb)
      · have hmin := hmin j hji hj
        have hanti := boundUpto_anti ign firstLba (Nat.zero_le j)
          (schem.others_lt hj.1).le
        have hzero : boundUpto schem ign firstLba 0 = schem.lastUsableLba := rfl
        rw [hzero] at hanti
        have hstart : (schem.table j).startLba.toNat = (schem.table i).startLba.toNat + 1 := by
          omega
        refine Or.inr ⟨by omega, j, hji, hj.1, hstart, ?_⟩
        rw [← hnext j hji hj hstart (by omega)]
        omega
    · rintro (he | ⟨hlow, j, hji, hj, hstart, hno⟩)
      · rw [he]
        exact boundUpto_anti ign firstLba (Nat.zero_le i) hlt.le
      · have hmem : j ∈ schem.ahead ign firstLba := ⟨hj, by have := hi.2; omega⟩
        rw [← hnext j hji hmem hstart (by omega)] at hno
        have hanti := boundUpto_anti ign firstLba (show j + 1 ≤ i from hji)
          hlt.le
        rcases boundUpto_succ ign firstLba (schem.others_lt hj) with ⟨-, -, he⟩ | ⟨hkept, -⟩
        · omega
        · exact absurd ⟨hmem, not_le.1 hno⟩ hkept

/-! ## The bound -/

/-- The next partition behind the first sector. -/
def Schem.NextAt (schem : Schem) (partIgn : P32) (firstLba : Plba) (n : ℕ) : Prop :=
  n ∈ schem.ahead partIgn firstLba ∧
    (schem.table n).startLba.toNat ≤ schem.lastUsableLba.toNat ∧
    ∀ i ∈ schem.ahead partIgn firstLba,
      (schem.table n).startLba.toNat ≤ (schem.table i).startLba.toNat

lemma LastPre.next_unique (h : LastPre schem ign firstLba) {k n : ℕ}
    (hk : schem.NextAt ign firstLba k) (hn : schem.NextAt ign firstLba n) : k = n := by
  by_contra hne
  exact h.start_ne hk.1.1 hn.1.1 hne (le_antisymm (hk.2.2 n hn.1) (hn.2.2 k hk.1))

/-- Either there is a next partition, or all that are further lie behind the last usable
sector. -/
lemma nextAt_or (schem : Schem) (ign : P32) (firstLba : Plba) :
    (∃ n, schem.NextAt ign firstLba n) ∨ ∀ i ∈ schem.ahead ign firstLba,
      schem.lastUsableLba.toNat < (schem.table i).startLba.toNat := by
  by_cases h : ∃ i ∈ schem.ahead ign firstLba,
      (schem.table i).startLba.toNat ≤ schem.lastUsableLba.toNat
  · obtain ⟨i, hi, hle⟩ := h
    obtain ⟨s, ⟨n, hn, rfl⟩, hleast⟩ := exists_isLeast
      (Set.Nonempty.image (fun i => (schem.table i).startLba.toNat) ⟨i, hi⟩)
    exact Or.inl ⟨n, hn, le_trans (hleast ⟨i, hi, rfl⟩) hle, fun j hj => hleast ⟨j, hj, rfl⟩⟩
  · simp only [not_exists, not_and, not_le] at h
    exact Or.inr h

lemma lastBound_of_none (h : ∀ i ∈ schem.ahead ign firstLba,
    schem.lastUsableLba.toNat < (schem.table i).startLba.toNat) :
    lastBound schem ign firstLba = schem.lastUsableLba := by
  rw [lastBound_eq]
  rcases boundUpto_cases ign firstLba (le_refl schem.partCnt.toNat) with
    he | ⟨j, hj, hmem, hlt, -⟩
  · exact he
  · have hanti := boundUpto_anti ign firstLba (Nat.zero_le j) hj.le
    have hzero : boundUpto schem ign firstLba 0 = schem.lastUsableLba := rfl
    have := h j hmem
    rw [hzero] at hanti
    omega

/-- **The bound is the sector before the next partition**, or the first one of it if the
pass misses it. -/
lemma LastPre.lastBound_of_next (h : LastPre schem ign firstLba) {n : ℕ}
    (hn : schem.NextAt ign firstLba n) :
    (schem.Missed ign n → (lastBound schem ign firstLba).toNat = (schem.table n).startLba.toNat) ∧
      (¬ schem.Missed ign n →
        (lastBound schem ign firstLba).toNat + 1 = (schem.table n).startLba.toNat) := by
  obtain ⟨hmem, hle, hmin⟩ := hn
  have hlt := schem.others_lt hmem.1
  have hne : ∀ j ∈ schem.ahead ign firstLba, j ≠ n →
      (schem.table n).startLba.toNat < (schem.table j).startLba.toNat := fun j hj hjn =>
    lt_of_le_of_ne (hmin j hj) (h.start_ne hmem.1 hj.1 (Ne.symm hjn))
  have hmissed := h.missed_iff hmem hle fun j hj hja => hne j hja (Nat.ne_of_lt hj)
  have hcases := boundUpto_cases ign firstLba (le_refl schem.partCnt.toNat)
  have hanti := boundUpto_anti ign firstLba
    (show n + 1 ≤ schem.partCnt.toNat from hlt) le_rfl
  have hpos := hmem.2
  rw [lastBound_eq, ← hmissed]
  constructor
  · intro hb
    have hanti' := boundUpto_anti ign firstLba hlt.le le_rfl
    -- only the other partitions lower the bound, and they start further
    rcases hcases with he | ⟨j, -, hj, hlow, he⟩
    · rw [he] at hanti' ⊢
      omega
    · have := hne j hj fun e => by
        subst e
        omega
      omega
  · intro hb
    rcases boundUpto_succ ign firstLba hlt with ⟨-, -, he⟩ | ⟨hkept, -⟩
    · rcases hcases with he' | ⟨j, -, hj, -, he'⟩
      · rw [he'] at hanti ⊢
        omega
      · have := hmin j hj
        omega
    · exact absurd ⟨hmem, not_le.1 hb⟩ hkept

/-! ## The aligned end -/

/-- Below the bound there is an aligned end that is not before the first sector; the first
sector itself stands for one if it is sector zero. -/
def LastRoom (ctx : ImgCtx) (firstLba : Plba) (bound : ℕ) : Prop :=
  1 < ctx.align.toNat ∧
    (firstLba = 0 ∨ ∃ e, firstLba.toNat ≤ e ∧ e < bound ∧ ctx.align.toNat ∣ e + 1)

lemma alignedEnd_of_align_one (h : ctx.align.toNat = 1) (bound : Plba) :
    alignedEnd ctx bound = bound := by
  have hno : ¬ ctx.align > 1 := by
    rw [gt_iff_lt, UInt64.lt_iff_toNat_lt, h]
    decide
  rw [alignedEnd, if_neg (by simp [hno]), ← UInt64.toNat_inj, toNat_lbaAlign_down, h,
    Nat.div_one, Nat.mul_one]

/-- The aligned end, where segments are longer than one sector. -/
lemma toNat_alignedEnd (h : 1 < ctx.align.toNat) (bound : Plba) :
    (alignedEnd ctx bound).toNat = bound.toNat / ctx.align.toNat * ctx.align.toNat - 1 := by
  have hdown := toNat_lbaAlign_down ctx bound
  have hal : ctx.align > 1 := UInt64.lt_iff_toNat_lt.2 h
  by_cases hpos : lbaAlign ctx bound false > 0
  · have hpos' : 0 < (lbaAlign ctx bound false).toNat := UInt64.lt_iff_toNat_lt.1 hpos
    rw [alignedEnd, if_pos (by simp [hpos, hal]),
      toNat_sub_of_ge (show (1 : Plba).toNat ≤ _ from hpos'), hdown]
    rfl
  · have hzero : (lbaAlign ctx bound false).toNat = 0 := by
      have := UInt64.le_iff_toNat_le.1 (UInt64.not_lt.1 hpos)
      rw [UInt64.toNat_zero] at this
      omega
    rw [alignedEnd, if_neg (by simp [hpos]), ← hdown, hzero]

/-- It is the last aligned end below the bound, if there is one. -/
lemma alignedEnd_max (h : 1 < ctx.align.toNat) {bound : Plba} {e : ℕ} (he : e < bound.toNat)
    (hdvd : ctx.align.toNat ∣ e + 1) : e ≤ (alignedEnd ctx bound).toNat := by
  rw [toNat_alignedEnd h]
  obtain ⟨c, hc⟩ := hdvd
  have hle : c ≤ bound.toNat / ctx.align.toNat :=
    (Nat.le_div_iff_mul_le (by omega)).2 (by rw [Nat.mul_comm]; omega)
  have := Nat.mul_le_mul_right ctx.align.toNat hle
  rw [Nat.mul_comm c] at this
  omega

/-- The aligned end lies between the first sector and the bound if there is room. -/
lemma lastRoom_iff (hal : 1 ≤ ctx.align.toNat) {bound : Plba} (hb : 0 < bound.toNat) :
    (firstLba.toNat ≤ (alignedEnd ctx bound).toNat ∧
      (alignedEnd ctx bound).toNat < bound.toNat) ↔ LastRoom ctx firstLba bound.toNat := by
  rcases hal.lt_or_eq with h | h
  · have hT := toNat_alignedEnd h bound
    have hle := Nat.div_mul_le_self bound.toNat ctx.align.toNat
    constructor
    · rintro ⟨h1, h2⟩
      refine ⟨h, ?_⟩
      by_cases h0 : bound.toNat / ctx.align.toNat * ctx.align.toNat = 0
      · exact Or.inl (eq_zero_iff_toNat.2 (by omega))
      · refine Or.inr ⟨_, h1, h2, ?_⟩
        rw [hT, Nat.sub_add_cancel (by omega)]
        exact Nat.dvd_mul_left _ _
    · rintro ⟨-, rfl | ⟨e, h1, h2, hdvd⟩⟩
      · exact ⟨Nat.zero_le _, by omega⟩
      · exact ⟨le_trans h1 (alignedEnd_max h h2 hdvd), by omega⟩
  · rw [alignedEnd_of_align_one h.symm]
    exact iff_of_false (fun hlt => lt_irrefl _ hlt.2) fun hroom => absurd hroom.1 (by omega)

/-! ## The gap behind the first sector -/

/-- A range from the first sector meets no other partition exactly if it ends before all
that are further. -/
lemma LastPre.overlapping_eq_empty_iff (h : LastPre schem ign firstLba) (r : Plba) :
    schem.overlapping firstLba r ign = ∅ ↔
      ∀ i ∈ schem.ahead ign firstLba, r.toNat < (schem.table i).startLba.toNat := by
  constructor
  · intro hempty i hi
    by_contra hge
    have hrange := UInt64.le_iff_toNat_le.1 (h.range i hi.1.1)
    have hmem : i ∈ schem.overlapping firstLba r ign :=
      ⟨hi.1, (schem.table i).startLba.toNat, ⟨hi.2.le, not_lt.1 hge⟩, le_rfl, hrange⟩
    exact absurd hmem (hempty ▸ Set.notMem_empty i)
  · intro hall
    refine Set.eq_empty_of_forall_notMem ?_
    rintro i ⟨hi, s, ⟨hs1, hs2⟩, hs3, hs4⟩
    by_cases hstart : firstLba.toNat < (schem.table i).startLba.toNat
    · have := hall i ⟨hi, hstart⟩
      omega
    · -- the partition would contain the first sector
      exact h.free i hi ⟨not_lt.1 hstart, le_trans hs1 hs4⟩

/-- The last sector of the free ones that follow the first sector. -/
structure GapEnd (schem : Schem) (partIgn : P32) (firstLba : Plba) (g : ℕ) : Prop where
  first_le : firstLba.toNat ≤ g
  le_last : g ≤ schem.lastUsableLba.toNat
  clear_iff : ∀ r : Plba, r.toNat ≤ schem.lastUsableLba.toNat →
    (schem.overlapping firstLba r partIgn = ∅ ↔ r.toNat ≤ g)
  next : ∀ n, schem.NextAt partIgn firstLba n → (schem.table n).startLba.toNat = g + 1
  none : (∀ n, ¬ schem.NextAt partIgn firstLba n) → g = schem.lastUsableLba.toNat

lemma LastPre.exists_gapEnd (h : LastPre schem ign firstLba) :
    ∃ g, GapEnd schem ign firstLba g := by
  have hle := UInt64.le_iff_toNat_le.1 h.le_last
  rcases nextAt_or schem ign firstLba with ⟨n, hn⟩ | hnone
  · have hstart := hn.1.2
    have hlast := hn.2.1
    refine ⟨(schem.table n).startLba.toNat - 1, by omega, by omega, fun r _ => ?_, fun k hk => ?_,
      fun hno => absurd hn (hno n)⟩
    · rw [h.overlapping_eq_empty_iff]
      refine ⟨fun hall => Nat.le_pred_of_lt (hall n hn.1), fun hr i hi => ?_⟩
      have := hn.2.2 i hi
      omega
    · rw [h.next_unique hk hn]
      omega
  · refine ⟨schem.lastUsableLba.toNat, hle, le_rfl, fun r hr => ?_, fun n hn => ?_, fun _ => rfl⟩
    · rw [h.overlapping_eq_empty_iff]
      exact iff_of_true (fun i hi => lt_of_le_of_lt hr (hnone i hi)) hr
    · exact absurd hn.2.1 (not_le.2 (hnone n hn.1))

/-- Where the pass misses no partition, the bound is the end of the gap. -/
lemma LastPre.lastBound_of_met (h : LastPre schem ign firstLba) {g : ℕ}
    (hg : GapEnd schem ign firstLba g)
    (hmet : ∀ n, schem.NextAt ign firstLba n → ¬ schem.Missed ign n) :
    (lastBound schem ign firstLba).toNat = g := by
  rcases nextAt_or schem ign firstLba with ⟨n, hn⟩ | hnone
  · have := (h.lastBound_of_next hn).2 (hmet n hn)
    have := hg.next n hn
    omega
  · rw [lastBound_of_none hnone, hg.none fun n hn => absurd hn.2.1 (not_le.2 (hnone n hn.1))]

/-! ## The result -/

lemma LastPre.schemFindOverlap_iff (h : LastPre schem ign firstLba) {r : Plba}
    (hr : firstLba ≤ r) : schemFindOverlap schem firstLba r ign = -1 ↔
      schem.overlapping firstLba r ign = ∅ := by
  rcases schemFindOverlap_least h.range hr ign with ⟨he, hempty⟩ | ⟨i, he, hleast⟩
  · exact iff_of_true he hempty
  · rw [he]
    exact iff_of_false (toNat_partRes (schem.others_lt hleast.1.1)).2
      (Set.Nonempty.ne_empty ⟨i, hleast.1⟩)

/-- **The two results of the search**: the aligned end, if it lies in the gap, and the bound
otherwise. -/
lemma LastPre.result_cases (h : LastPre schem ign firstLba) {g : ℕ}
    (hg : GapEnd schem ign firstLba g) (ctx : ImgCtx) :
    (firstLba.toNat ≤ (alignedEnd ctx (lastBound schem ign firstLba)).toNat ∧
        (alignedEnd ctx (lastBound schem ign firstLba)).toNat ≤ g ∧
        schemFindLastSector schem ctx ign firstLba =
          (alignedEnd ctx (lastBound schem ign firstLba)).toInt64) ∨
      (¬ (firstLba.toNat ≤ (alignedEnd ctx (lastBound schem ign firstLba)).toNat ∧
          (alignedEnd ctx (lastBound schem ign firstLba)).toNat ≤ g) ∧
        schemFindLastSector schem ctx ign firstLba = (lastBound schem ign firstLba).toInt64) := by
  obtain ⟨hbound, hbound'⟩ := lastBound_bounds schem ign (UInt64.le_iff_toNat_le.1 h.le_last)
  have hend := alignedEnd_le ctx (lastBound schem ign firstLba)
  have hno : ¬ lastBound schem ign firstLba < firstLba :=
    UInt64.not_lt.2 (UInt64.le_iff_toNat_le.2 hbound)
  rw [schemFindLastSector_eq, if_neg hno]
  by_cases hge : firstLba ≤ alignedEnd ctx (lastBound schem ign firstLba)
  · have hge' := UInt64.le_iff_toNat_le.1 hge
    rw [← hg.clear_iff _ (le_trans hend hbound'), ← h.schemFindOverlap_iff hge]
    by_cases hov : schemFindOverlap schem firstLba
        (alignedEnd ctx (lastBound schem ign firstLba)) ign = -1
    · exact Or.inl ⟨hge', hov, if_pos (by simp [hge, hov])⟩
    · exact Or.inr ⟨fun hc => hov hc.2, if_neg (by simp [hov])⟩
  · exact Or.inr ⟨fun hc => hge (UInt64.le_iff_toNat_le.2 hc.1), if_neg (by simp [hge])⟩

/-- The result is a sector up to which the range is usable and meets no partition that the
search keeps clear of. -/
structure LastSound (schem : Schem) (partIgn : P32) (firstLba : Plba) (res : PlbaRes) :
    Prop where
  found : res ≠ -1
  first_le : firstLba ≤ res.toUInt64
  le_last : res.toUInt64 ≤ schem.lastUsableLba
  clear : schem.overlapping firstLba res.toUInt64 partIgn = ∅
  no_overlap : schemFindOverlap schem firstLba res.toUInt64 partIgn = -1

/-- The only sector that cannot be told from a failure is the very last one. -/
lemma toInt64_eq_neg_one_iff {r : Plba} : r.toInt64 = -1 ↔ r.toNat = 2 ^ 64 - 1 := by
  constructor
  · intro h
    have he := congrArg UInt64.toNat (UInt64.toUInt64_toInt64 r)
    rw [h, show (-1 : PlbaRes).toUInt64.toNat = 2 ^ 64 - 1 from rfl] at he
    exact he.symm
  · intro h
    have he : r = (-1 : PlbaRes).toUInt64 := UInt64.toNat_inj.1 h
    rw [he, Int64.toInt64_toUInt64]

lemma LastPre.sound_iff (h : LastPre schem ign firstLba) {g : ℕ}
    (hg : GapEnd schem ign firstLba g) {r : Plba} (h1 : firstLba.toNat ≤ r.toNat)
    (h2 : r.toNat ≤ schem.lastUsableLba.toNat) :
    LastSound schem ign firstLba r.toInt64 ↔ r.toNat ≠ 2 ^ 64 - 1 ∧ r.toNat ≤ g := by
  have h1 := UInt64.le_iff_toNat_le.2 h1
  rw [← hg.clear_iff r h2]
  constructor
  · intro hs
    have hclear := hs.clear
    rw [UInt64.toUInt64_toInt64] at hclear
    exact ⟨mt toInt64_eq_neg_one_iff.2 hs.found, hclear⟩
  · rintro ⟨hne, hclear⟩
    refine ⟨mt toInt64_eq_neg_one_iff.1 hne, ?_, ?_, ?_, ?_⟩ <;> rw [UInt64.toUInt64_toInt64]
    · exact h1
    · exact UInt64.le_iff_toNat_le.2 h2
    · exact hclear
    · exact (h.schemFindOverlap_iff h1).2 hclear

/-- If the pass misses the next partition, the result has to be an aligned end before it. -/
lemma LastPre.sound_iff_of_missed (h : LastPre schem ign firstLba) (hal : 1 ≤ ctx.align.toNat)
    {n : ℕ} (hn : schem.NextAt ign firstLba n) (hm : schem.Missed ign n) :
    LastSound schem ign firstLba (schemFindLastSector schem ctx ign firstLba) ↔
      LastRoom ctx firstLba (schem.table n).startLba.toNat := by
  obtain ⟨g, hg⟩ := h.exists_gapEnd
  have hbounds := lastBound_bounds schem ign (UInt64.le_iff_toNat_le.1 h.le_last)
  have hb := (h.lastBound_of_next hn).1 hm
  have hgap := hg.next n hn
  have hlast := schem.lastUsableLba.toNat_lt
  rw [← hb, ← lastRoom_iff hal (by omega)]
  rcases h.result_cases hg ctx with ⟨h1, h2, he⟩ | ⟨hno, he⟩
  · rw [he, h.sound_iff hg h1 (by omega)]
    omega
  · rw [he, h.sound_iff hg hbounds.1 hbounds.2]
    omega

/-- If it misses none, the result lies in the gap. -/
lemma LastPre.sound_iff_of_met (h : LastPre schem ign firstLba) (hal : 1 ≤ ctx.align.toNat)
    (hmet : ∀ n, schem.NextAt ign firstLba n → ¬ schem.Missed ign n) :
    LastSound schem ign firstLba (schemFindLastSector schem ctx ign firstLba) ↔
      ((∀ n, ¬ schem.NextAt ign firstLba n) → schem.lastUsableLba.toNat = 2 ^ 64 - 1 →
        LastRoom ctx firstLba schem.lastUsableLba.toNat) := by
  obtain ⟨g, hg⟩ := h.exists_gapEnd
  have hbounds := lastBound_bounds schem ign (UInt64.le_iff_toNat_le.1 h.le_last)
  have hb := h.lastBound_of_met hg hmet
  have hend := alignedEnd_le ctx (lastBound schem ign firstLba)
  have hlast := schem.lastUsableLba.toNat_lt
  by_cases hvery : (∀ n, ¬ schem.NextAt ign firstLba n) ∧ schem.lastUsableLba.toNat = 2 ^ 64 - 1
  · -- the bound is the very last sector
    have hgap := hg.none hvery.1
    rw [← hgap, ← hb, ← lastRoom_iff hal (by omega)]
    rcases h.result_cases hg ctx with ⟨h1, h2, he⟩ | ⟨hno, he⟩
    · rw [he, h.sound_iff hg h1 (by omega)]
      refine ⟨fun hs _ _ => ⟨h1, by omega⟩, fun hc => ⟨?_, h2⟩⟩
      have := (hc hvery.1 (by omega)).2
      omega
    · rw [he, h.sound_iff hg hbounds.1 hbounds.2]
      exact iff_of_false (fun hs => by omega) fun hc => by
        have := hc hvery.1 (by omega)
        omega
  · have hlt : g < 2 ^ 64 - 1 := by
      rcases nextAt_or schem ign firstLba with ⟨n, hn⟩ | hnone
      · have := hg.next n hn
        have := hn.2.1
        omega
      · have hno : ∀ n, ¬ schem.NextAt ign firstLba n := fun n hn =>
          absurd hn.2.1 (not_le.2 (hnone n hn.1))
        have := hg.none hno
        have : schem.lastUsableLba.toNat ≠ 2 ^ 64 - 1 := fun he => hvery ⟨hno, he⟩
        omega
    refine iff_of_true ?_ fun h1 h2 => absurd ⟨h1, h2⟩ hvery
    rcases h.result_cases hg ctx with ⟨h1, h2, he⟩ | ⟨hno, he⟩
    · rw [he, h.sound_iff hg h1 (by omega)]
      omega
    · rw [he, h.sound_iff hg hbounds.1 hbounds.2]
      omega

/-- **When the proposed last sector does not collide**: if the pass misses the next partition
there has to be an aligned end before it, and so before the last usable sector if that is the
very last one and nothing is further. -/
theorem schemFindLastSector_sound_iff (hal : 1 ≤ ctx.align.toNat)
    (h : LastPre schem ign firstLba) :
    LastSound schem ign firstLba (schemFindLastSector schem ctx ign firstLba) ↔
      (∀ n, schem.NextAt ign firstLba n → schem.Missed ign n →
          LastRoom ctx firstLba (schem.table n).startLba.toNat) ∧
        ((∀ n, ¬ schem.NextAt ign firstLba n) → schem.lastUsableLba.toNat = 2 ^ 64 - 1 →
          LastRoom ctx firstLba schem.lastUsableLba.toNat) := by
  by_cases hm : ∃ n, schem.NextAt ign firstLba n ∧ schem.Missed ign n
  · obtain ⟨n, hn, hmissed⟩ := hm
    rw [h.sound_iff_of_missed hal hn hmissed]
    refine ⟨fun hc => ⟨fun k hk _ => ?_, fun hno => absurd hn (hno n)⟩, fun hc => hc.1 n hn hmissed⟩
    rwa [h.next_unique hk hn]
  · have hmet : ∀ n, schem.NextAt ign firstLba n → ¬ schem.Missed ign n :=
      fun n hn hmissed => hm ⟨n, hn, hmissed⟩
    rw [h.sound_iff_of_met hal hmet]
    exact ⟨fun hc => ⟨fun n hn hmissed => absurd hmissed (hmet n hn), hc⟩, fun hc => hc.2⟩

/-! ## Two tables -/

/-- A used partition of the table has one of the given ranges. -/
lemma mbrOfRanges_used {first last : Plba} {ranges : List (Plba × Plba)} {i : ℕ}
    (hi : i ∈ (mbrOfRanges first last ranges).usedSet) :
    ∃ h : i < ranges.length,
      ((mbrOfRanges first last ranges).table i).startLba = ranges[i].1 ∧
        ((mbrOfRanges first last ranges).table i).endLba = ranges[i].2 := by
  by_cases h : i < ranges.length
  · refine ⟨h, ?_, ?_⟩ <;> simp [mbrOfRanges, h]
  · have hzero : (mbrOfRanges first last ranges).table i = SchemPart.zero := by
      simp [mbrOfRanges, not_lt.1 h]
    have hu := hi.2
    rw [hzero] at hu
    exact absurd hu Bool.false_ne_true

/-- Ranges that do not meet, and a first sector in none of them. -/
lemma lastPre_mbrOfRanges {first last firstLba : Plba} {ranges : List (Plba × Plba)}
    (hwf : ∀ r ∈ ranges, r.1 ≤ r.2 ∧ (firstLba < r.1 ∨ r.2 < firstLba))
    (hdisj : ranges.Pairwise fun r r' => r.2 < r'.1 ∨ r'.2 < r.1)
    (h1 : first ≤ firstLba) (h2 : firstLba ≤ last) :
    LastPre (mbrOfRanges first last ranges) (-1) firstLba := by
  refine ⟨fun i hi => ?_, fun i hi j hj hij => ?_, h1, h2, fun i hi hmem => ?_⟩
  · obtain ⟨h, hs, he⟩ := mbrOfRanges_used hi
    rw [hs, he]
    exact (hwf _ (List.getElem_mem h)).1
  · obtain ⟨h, hs, he⟩ := mbrOfRanges_used hi
    obtain ⟨h', hs', he'⟩ := mbrOfRanges_used hj
    have hpair : ranges[i].2 < ranges[j].1 ∨ ranges[j].2 < ranges[i].1 := by
      rcases Nat.lt_or_gt_of_ne hij with hlt | hlt
      · exact List.pairwise_iff_getElem.1 hdisj i j h h' hlt
      · exact (List.pairwise_iff_getElem.1 hdisj j i h' h hlt).symm
    rw [UInt64.lt_iff_toNat_lt, UInt64.lt_iff_toNat_lt] at hpair
    rw [SchemPart.sectors, SchemPart.sectors, hs, he, hs', he']
    refine Set.disjoint_left.2 ?_
    rintro s ⟨h1, h2⟩ ⟨h3, h4⟩
    omega
  · obtain ⟨h, hs, he⟩ := mbrOfRanges_used hi.1
    have hout := (hwf _ (List.getElem_mem h)).2
    rw [SchemPart.sectors, hs, he] at hmem
    obtain ⟨h1, h2⟩ := hmem
    rw [UInt64.lt_iff_toNat_lt, UInt64.lt_iff_toNat_lt] at hout
    omega

/-- A first sector between two partitions. -/
theorem schemFindLastSector_sound_small :
    LastSound (mbrOfRanges 1 9000 [(5000, 6000), (100, 2500)]) (-1) 2600
        (schemFindLastSector (mbrOfRanges 1 9000 [(5000, 6000), (100, 2500)]) smallCtx (-1) 2600) ↔
      (∀ n, (mbrOfRanges 1 9000 [(5000, 6000), (100, 2500)]).NextAt (-1) 2600 n →
          (mbrOfRanges 1 9000 [(5000, 6000), (100, 2500)]).Missed (-1) n →
          LastRoom smallCtx 2600
            ((mbrOfRanges 1 9000 [(5000, 6000), (100, 2500)]).table n).startLba.toNat) ∧
        ((∀ n, ¬ (mbrOfRanges 1 9000 [(5000, 6000), (100, 2500)]).NextAt (-1) 2600 n) →
          (9000 : Plba).toNat = 2 ^ 64 - 1 → LastRoom smallCtx 2600 (9000 : Plba).toNat) :=
  schemFindLastSector_sound_iff (by decide)
    (lastPre_mbrOfRanges (by simp) (by simp) (by decide) (by decide))

/-- A partition at the last usable sector is missed, and the last sector proposed for a
partition that starts before it is that sector. -/
theorem schemFindLastSector_collides :
    LastPre (mbrOfRanges 1 2047 [(2047, 2047)]) (-1) 100 ∧ 1 ≤ smallCtx.align.toNat ∧
      schemFindLastSector (mbrOfRanges 1 2047 [(2047, 2047)]) smallCtx (-1) 100 = 2047 ∧
      schemFindOverlap (mbrOfRanges 1 2047 [(2047, 2047)]) 100 2047 (-1) = 0 ∧
      ¬ LastSound (mbrOfRanges 1 2047 [(2047, 2047)]) (-1) 100
        (schemFindLastSector (mbrOfRanges 1 2047 [(2047, 2047)]) smallCtx (-1) 100) := by
  have hres : schemFindLastSector (mbrOfRanges 1 2047 [(2047, 2047)]) smallCtx (-1) 100 = 2047 := by
    decide
  refine ⟨lastPre_mbrOfRanges (by simp) (by simp) (by decide) (by decide), by decide, hres,
    by decide, ?_⟩
  intro h
  rw [hres] at h
  exact absurd h.no_overlap (by decide)

/-! ## Larger aligned ends -/

/-- No larger aligned end is left out: the range up to every one of them meets a partition. -/
def LastWastesNone (schem : Schem) (ctx : ImgCtx) (partIgn : P32) (firstLba : Plba)
    (res : PlbaRes) : Prop :=
  res ≠ -1 → ¬ ∃ e : Plba, res.toUInt64 < e ∧ e ≤ schem.lastUsableLba ∧
    ctx.align.toNat ∣ e.toNat + 1 ∧ schem.overlapping firstLba e partIgn = ∅

/-- The sectors up to which the range from the first sector is usable and free. -/
def Schem.clearEnds (schem : Schem) (partIgn : P32) (firstLba : Plba) : Set Plba :=
  {e | firstLba ≤ e ∧ e ≤ schem.lastUsableLba ∧ schem.overlapping firstLba e partIgn = ∅}

lemma GapEnd.isGreatest_iff {g : ℕ} (hg : GapEnd schem ign firstLba g) {b : Plba} :
    IsGreatest (schem.clearEnds ign firstLba) b ↔ b.toNat = g := by
  have hlast := schem.lastUsableLba.toNat_lt
  have hto : (UInt64.ofNat g).toNat = g :=
    toNat_ofNat_of_lt (by have := hg.le_last; omega)
  have hmem : UInt64.ofNat g ∈ schem.clearEnds ign firstLba := by
    refine ⟨UInt64.le_iff_toNat_le.2 ?_, UInt64.le_iff_toNat_le.2 ?_, (hg.clear_iff _ ?_).2 ?_⟩ <;>
      rw [hto]
    · exact hg.first_le
    · exact hg.le_last
    · exact hg.le_last
  have hle : ∀ e ∈ schem.clearEnds ign firstLba, e.toNat ≤ g := fun e he =>
    (hg.clear_iff e (UInt64.le_iff_toNat_le.1 he.2.1)).1 he.2.2
  constructor
  · intro hb
    refine le_antisymm (hle b hb.1) ?_
    have := UInt64.le_iff_toNat_le.1 (hb.2 hmem)
    rwa [hto] at this
  · intro hb
    obtain rfl : b = UInt64.ofNat g := UInt64.toNat_inj.1 (hb.trans hto.symm)
    exact ⟨hmem, fun e he => UInt64.le_iff_toNat_le.2 (by rw [hto]; exact hle e he)⟩

/-- A larger aligned end is left out exactly if there is one in the gap. -/
lemma GapEnd.wastesNone_iff {g : ℕ} (hg : GapEnd schem ign firstLba g) (r : Plba) :
    LastWastesNone schem ctx ign firstLba r.toInt64 ↔ r.toNat = 2 ^ 64 - 1 ∨
      ∀ e, r.toNat < e → e ≤ g → ¬ ctx.align.toNat ∣ e + 1 := by
  have hlast := schem.lastUsableLba.toNat_lt
  have hgl := hg.le_last
  rw [LastWastesNone, ne_eq, toInt64_eq_neg_one_iff, UInt64.toUInt64_toInt64, ← or_iff_not_imp_left]
  refine or_congr Iff.rfl ?_
  constructor
  · intro hno e h1 h2 hdvd
    have hto : (UInt64.ofNat e).toNat = e := toNat_ofNat_of_lt (by omega)
    refine hno ⟨UInt64.ofNat e, UInt64.lt_iff_toNat_lt.2 ?_, UInt64.le_iff_toNat_le.2 ?_, ?_,
      (hg.clear_iff _ ?_).2 ?_⟩ <;> rw [hto]
    · exact h1
    · omega
    · exact hdvd
    · omega
    · exact h2
  · rintro hall ⟨e, h1, h2, hdvd, hclear⟩
    have hge := (hg.clear_iff e (UInt64.le_iff_toNat_le.1 h2)).1 hclear
    exact hall e.toNat (UInt64.lt_iff_toNat_lt.1 h1) hge hdvd

/-- Above the aligned end below a bound there is none up to the bound, unless the bound is one
itself. -/
lemma no_alignedEnd_between (hal : 1 < ctx.align.toNat) {bound : Plba} {e : ℕ}
    (h1 : (alignedEnd ctx bound).toNat < e) (h2 : e < bound.toNat) :
    ¬ ctx.align.toNat ∣ e + 1 := fun hdvd => by
  have := alignedEnd_max hal h2 hdvd
  omega

/-- The segment that ends with the bound begins behind the aligned end. -/
lemma alignedEnd_of_dvd (hal : 1 < ctx.align.toNat) {bound : Plba}
    (hdvd : ctx.align.toNat ∣ bound.toNat + 1) :
    (alignedEnd ctx bound).toNat = bound.toNat - ctx.align.toNat := by
  obtain ⟨c, hc⟩ := hdvd
  rw [toNat_alignedEnd hal]
  have hpred : (c - 1) * ctx.align.toNat = bound.toNat + 1 - ctx.align.toNat := by
    rw [Nat.sub_mul, Nat.mul_comm c, ← hc, Nat.one_mul]
  have hdiv : bound.toNat / ctx.align.toNat = c - 1 := by
    refine Nat.div_eq_of_lt_le (by omega) ?_
    rw [Nat.succ_mul, hpred]
    omega
  rw [hdiv, hpred]
  omega

/-- **When the proposed last sector wastes no segment**: the end of the gap is no aligned
end, or there is no room for a whole segment that ends with it, or the pass misses the next
partition. -/
theorem schemFindLastSector_maximal_iff (hal : 1 ≤ ctx.align.toNat)
    (h : LastPre schem ign firstLba) :
    LastWastesNone schem ctx ign firstLba (schemFindLastSector schem ctx ign firstLba) ↔
      ∀ b, IsGreatest (schem.clearEnds ign firstLba) b → 1 < ctx.align.toNat →
        ctx.align.toNat ∣ b.toNat + 1 →
        firstLba = 0 ∨ firstLba.toNat + ctx.align.toNat ≤ b.toNat →
        ∃ n, schem.NextAt ign firstLba n ∧ schem.Missed ign n := by
  obtain ⟨g, hg⟩ := h.exists_gapEnd
  have hlast := schem.lastUsableLba.toNat_lt
  have hgl := hg.le_last
  have hto : (UInt64.ofNat g).toNat = g := toNat_ofNat_of_lt (by omega)
  simp only [hg.isGreatest_iff]
  by_cases hm : ∃ n, schem.NextAt ign firstLba n ∧ schem.Missed ign n
  · refine iff_of_true ?_ fun _ _ _ _ _ => hm
    obtain ⟨n, hn, hmissed⟩ := hm
    have hb := (h.lastBound_of_next hn).1 hmissed
    have hgap := hg.next n hn
    rcases h.result_cases hg ctx with ⟨-, h2, he⟩ | ⟨-, he⟩
    · rw [he, hg.wastesNone_iff]
      refine Or.inr fun e he1 he2 => ?_
      rcases hal.lt_or_eq with hal | hal
      · exact no_alignedEnd_between hal he1 (by omega)
      · -- every sector is an aligned end, so the one tried is the bound, which is taken
        rw [alignedEnd_of_align_one hal.symm] at h2
        omega
    · rw [he, hg.wastesNone_iff]
      exact Or.inr fun e he1 he2 => by omega
  · have hb := h.lastBound_of_met hg fun n hn hmissed => hm ⟨n, hn, hmissed⟩
    rcases h.result_cases hg ctx with ⟨h1, h2, he⟩ | ⟨hno, he⟩
    · rw [he, hg.wastesNone_iff]
      rcases hal.lt_or_eq with hal | hal
      · have hT := toNat_alignedEnd hal (lastBound schem ign firstLba)
        have hle := Nat.div_mul_le_self (lastBound schem ign firstLba).toNat ctx.align.toNat
        constructor
        · rintro (hvery | hall) b rfl _ hdvd
          · omega
          · intro _
            have hpos := Nat.le_of_dvd (Nat.succ_pos _) hdvd
            have := alignedEnd_of_dvd hal (hb.symm ▸ hdvd)
            exact absurd hdvd (hall _ (by omega) le_rfl)
        · intro hc
          refine Or.inr fun e he1 he2 hdvd => ?_
          rcases he2.lt_or_eq with hlt | rfl
          · exact no_alignedEnd_between hal he1 (by omega) hdvd
          · -- the bound itself is an aligned end, and the first sector leaves room for it
            have := alignedEnd_of_dvd hal (hb.symm ▸ hdvd)
            exact hm (hc _ hto hal (hto.symm ▸ hdvd)
              (by rw [hto, eq_zero_iff_toNat]; omega))
      · rw [alignedEnd_of_align_one hal.symm]
        exact iff_of_true (Or.inr fun e he1 he2 => by omega) fun _ _ h1 => by omega
    · rw [he, hg.wastesNone_iff]
      refine iff_of_true (Or.inr fun e he1 he2 => by omega) fun b hbg hal' hdvd hroom => ?_
      rw [hbg, ← hb] at hdvd
      have := alignedEnd_of_dvd hal' hdvd
      rw [eq_zero_iff_toNat] at hroom
      exact absurd ⟨by omega, by omega⟩ hno

/-- The same first sector between two partitions. -/
theorem schemFindLastSector_maximal_small :
    LastWastesNone (mbrOfRanges 1 9000 [(5000, 6000), (100, 2500)]) smallCtx (-1) 2600
        (schemFindLastSector (mbrOfRanges 1 9000 [(5000, 6000), (100, 2500)]) smallCtx (-1) 2600) ↔
      ∀ b, IsGreatest ((mbrOfRanges 1 9000 [(5000, 6000), (100, 2500)]).clearEnds (-1) 2600) b →
        1 < smallCtx.align.toNat → smallCtx.align.toNat ∣ b.toNat + 1 →
        (2600 : Plba) = 0 ∨ (2600 : Plba).toNat + smallCtx.align.toNat ≤ b.toNat →
        ∃ n, (mbrOfRanges 1 9000 [(5000, 6000), (100, 2500)]).NextAt (-1) 2600 n ∧
          (mbrOfRanges 1 9000 [(5000, 6000), (100, 2500)]).Missed (-1) n :=
  schemFindLastSector_maximal_iff (by decide)
    (lastPre_mbrOfRanges (by simp) (by simp) (by decide) (by decide))

/-- On a disk without partitions whose last segment is complete, that segment is wasted. -/
theorem schemFindLastSector_wastes :
    LastPre (mbrOfRanges 1 4095 []) (-1) 1 ∧ 1 ≤ smallCtx.align.toNat ∧
      schemFindLastSector (mbrOfRanges 1 4095 []) smallCtx (-1) 1 = 2047 ∧
      ¬ LastWastesNone (mbrOfRanges 1 4095 []) smallCtx (-1) 1
        (schemFindLastSector (mbrOfRanges 1 4095 []) smallCtx (-1) 1) := by
  have hpre : LastPre (mbrOfRanges 1 4095 []) (-1) 1 :=
    lastPre_mbrOfRanges (by simp) (by simp) (by decide) (by decide)
  have hres : schemFindLastSector (mbrOfRanges 1 4095 []) smallCtx (-1) 1 = 2047 := by
    decide
  refine ⟨hpre, by decide, hres, fun hw => ?_⟩
  rw [hres] at hw
  refine hw (by decide) ⟨4095, by decide, by decide, by decide, ?_⟩
  rw [hpre.overlapping_eq_empty_iff]
  intro i hi
  obtain ⟨hlt, -⟩ := mbrOfRanges_used hi.1.1
  exact absurd hlt (Nat.not_lt_zero i)

end Partman

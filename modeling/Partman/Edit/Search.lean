/-
# The two sector searches

A pass of the start sector search either returns or moves the position under test; over a
scheme that keeps the invariant the position moves up strictly as soon as the aligned
candidate has been given up, so the search returns, and what it returns is a usable sector
outside of every other partition.  The last sector search returns a sector between the
first one and the last usable one, whatever the table holds.
-/
import Partman.Edit.Overlap

namespace Partman

open Lib

variable {schem : Schem} {ctx : ImgCtx}

/-- The sizes under which the searches do not wrap around. -/
structure Schem.Fits (schem : Schem) (ctx : ImgCtx) : Prop where
  range : schem.firstUsableLba.toNat ≤ schem.lastUsableLba.toNat
  room : schem.lastUsableLba.toNat + ctx.align.toNat < 2 ^ 63
  align : 1 ≤ ctx.align.toNat
  /-- The table is an object of the program. -/
  cnt : schem.partCnt.toNat < 2 ^ 63

/-! ## Alignment -/

lemma toNat_lbaAlign_down (ctx : ImgCtx) (lba : Plba) :
    (lbaAlign ctx lba false).toNat = lba.toNat / ctx.align.toNat * ctx.align.toNat := by
  have hle : lba.toNat / ctx.align.toNat * ctx.align.toNat ≤ lba.toNat := Nat.div_mul_le_self _ _
  have hlt := lba.toNat_lt
  simp only [lbaAlign, Bool.false_and, Bool.false_eq_true, if_false, UInt64.add_zero]
  rw [toNat_mul_of_lt (by rw [UInt64.toNat_div]; omega), UInt64.toNat_div]

lemma lbaAlign_down_le (ctx : ImgCtx) (lba : Plba) :
    (lbaAlign ctx lba false).toNat ≤ lba.toNat := by
  rw [toNat_lbaAlign_down]
  exact Nat.div_mul_le_self _ _

/-- Rounding up does not wrap around: where a whole alignment is added to a multiple of it,
either that multiple is zero or the alignment is at most the sector. -/
lemma le_lbaAlign_up {lba : Plba} (hal : 1 ≤ ctx.align.toNat) (h : lba.toNat < 2 ^ 63) :
    lba.toNat ≤ (lbaAlign ctx lba true).toNat := by
  have hdown := toNat_lbaAlign_down ctx lba
  have hdiv := Nat.div_add_mod lba.toNat ctx.align.toNat
  have hmodlt := Nat.mod_lt lba.toNat hal
  have halt := ctx.align.toNat_lt
  have hsplit : lbaAlign ctx lba true =
      lbaAlign ctx lba false + (if lba % ctx.align != 0 then ctx.align else 0) := by
    simp [lbaAlign]
  rw [Nat.mul_comm] at hdiv
  rw [hsplit]
  split
  · -- the next multiple is past the remainder
    have hroom : lba.toNat / ctx.align.toNat * ctx.align.toNat + ctx.align.toNat < 2 ^ 64 := by
      rcases Nat.lt_or_ge lba.toNat ctx.align.toNat with hlt | hge
      · rw [Nat.div_eq_of_lt hlt]
        omega
      · omega
    rw [toNat_add_of_lt (by omega)]
    omega
  · next hmod =>
    have h0 : lba % ctx.align = 0 := by simpa using hmod
    have h0' := congrArg UInt64.toNat h0
    rw [UInt64.toNat_mod, UInt64.toNat_zero] at h0'
    rw [UInt64.add_zero]
    omega

lemma lbaAlign_zero (ctx : ImgCtx) : lbaAlign ctx 0 true = 0 := by
  simp [lbaAlign]

/-! ## Start sector candidates -/

/-- The position of a candidate: where the search continues from. -/
def StartCand.pos (c : StartCand) : ℕ :=
  if c.lbaNoAlign = 0 then c.lba.toNat else c.lbaNoAlign.toNat

/-- Both sectors of a candidate are at most the last usable one. -/
def StartCand.Below (schem : Schem) (c : StartCand) : Prop :=
  c.lba.toNat ≤ schem.lastUsableLba.toNat ∧ c.lbaNoAlign.toNat ≤ schem.lastUsableLba.toNat

/-- The sector under test is at or after the position, which is usable. -/
def StartCand.Above (schem : Schem) (c : StartCand) : Prop :=
  schem.firstUsableLba.toNat ≤ c.pos ∧ c.pos ≤ c.lba.toNat

lemma startCandAt_below {lba : Plba} (h : lba.toNat ≤ schem.lastUsableLba.toNat) :
    (startCandAt schem ctx lba).Below schem := by
  simp only [startCandAt]
  split
  · exact ⟨h, Nat.zero_le _⟩
  · next hle => exact ⟨UInt64.le_iff_toNat_le.1 (UInt64.not_lt.1 hle), h⟩

lemma startCandAt_pos (schem : Schem) (ctx : ImgCtx) (lba : Plba) :
    (startCandAt schem ctx lba).pos = lba.toNat := by
  simp only [startCandAt]
  split
  · simp [StartCand.pos]
  · by_cases h0 : lba = 0
    · subst h0
      simp [StartCand.pos, lbaAlign_zero]
    · simp [StartCand.pos, h0]

lemma startCandAt_above {lba : Plba} (hal : 1 ≤ ctx.align.toNat)
    (hfirst : schem.firstUsableLba.toNat ≤ lba.toNat)
    (hroom : lba.toNat < 2 ^ 63) : (startCandAt schem ctx lba).Above schem := by
  refine ⟨by rwa [startCandAt_pos], ?_⟩
  rw [startCandAt_pos]
  simp only [startCandAt]
  split
  · exact le_rfl
  · exact le_lbaAlign_up hal hroom

/-! ## One pass -/

/-- The cases of one pass. -/
lemma startStep_cases (schem : Schem) (ctx : ImgCtx) (ign : P32) (c : StartCand) :
    (startHit schem ign c.lba = none ∧ startStep schem ctx ign c = .done c.lba.toInt64) ∨
    (startStep schem ctx ign c = .done (-1)) ∨
    (c.lbaNoAlign ≠ 0 ∧ startStep schem ctx ign c = .next ⟨c.lbaNoAlign, 0⟩) ∨
    (c.lbaNoAlign = 0 ∧ ∃ i, startHit schem ign c.lba = some i ∧
      (schem.table i).endLba + 1 ≤ schem.lastUsableLba ∧
      startStep schem ctx ign c = .next (startCandAt schem ctx ((schem.table i).endLba + 1))) := by
  cases hh : startHit schem ign c.lba with
  | none => exact Or.inl ⟨rfl, by rw [startStep, hh]⟩
  | some i =>
    refine Or.inr ?_
    by_cases h0 : c.lbaNoAlign = 0
    · by_cases hlast : (schem.table i).endLba + 1 > schem.lastUsableLba
      · exact Or.inl (by simp [startStep, hh, h0, hlast])
      · refine Or.inr (Or.inr ⟨h0, i, rfl, UInt64.not_lt.1 hlast, ?_⟩)
        simp [startStep, hh, h0, hlast]
    · exact Or.inr (Or.inl ⟨h0, by simp [startStep, hh, h0]⟩)

/-- The partition that a pass has hit contains the sector under test. -/
lemma startHit_some {ign : P32} {lba : Plba} {i : ℕ} (h : startHit schem ign lba = some i) :
    i < schem.partCnt.toNat ∧ schem.considers ign i = true ∧
      (schem.table i).startLba ≤ lba ∧ lba ≤ (schem.table i).endLba := by
  have hp := List.find?_some h
  simp only [Bool.and_eq_true, Bool.not_eq_true', Bool.or_eq_false_iff, decide_eq_false_iff_not,
    gt_iff_lt, UInt64.not_lt] at hp
  exact ⟨List.mem_range.1 (List.mem_of_find?_eq_some h), hp.1, hp.2.1, hp.2.2⟩

/-- A sector that no pass hits lies in no partition. -/
lemma startHit_none {ign : P32} {lba : Plba} (h : startHit schem ign lba = none) :
    ∀ j < schem.partCnt.toNat, schem.considers ign j = true →
      lba < (schem.table j).startLba ∨ (schem.table j).endLba < lba := by
  intro j hj hc
  have := List.find?_eq_none.1 h j (List.mem_range.2 hj)
  rw [hc, Bool.true_and, Bool.not_eq_true', Bool.not_eq_false, Bool.or_eq_true] at this
  simpa only [decide_eq_true_eq] using this

lemma startStep_below {ign : P32} {c c' : StartCand} (h : c.Below schem)
    (hs : startStep schem ctx ign c = .next c') : c'.Below schem := by
  rcases startStep_cases schem ctx ign c with ⟨_, he⟩ | he | ⟨_, he⟩ | ⟨_, i, _, hle, he⟩
  · exact absurd (hs.symm.trans he) (by simp)
  · exact absurd (hs.symm.trans he) (by simp)
  · obtain rfl : c' = ⟨c.lbaNoAlign, 0⟩ := StartStep.next.inj (hs.symm.trans he)
    exact ⟨h.2, Nat.zero_le _⟩
  · obtain rfl := StartStep.next.inj (hs.symm.trans he)
    exact startCandAt_below (UInt64.le_iff_toNat_le.1 hle)

/-- What is left to test: the sectors from the position on, each of them at most twice. -/
def StartCand.left (schem : Schem) (c : StartCand) : ℕ :=
  2 * (schem.lastUsableLba.toNat - c.pos) + (if c.lbaNoAlign = 0 then 0 else 1)

/-- No partition that a search keeps clear of ends at the very last sector number. -/
def Schem.EndsBelow (schem : Schem) (partIgn : P32) : Prop :=
  ∀ i ∈ schem.others partIgn, (schem.table i).endLba.toNat < 2 ^ 64 - 1

lemma Schem.Fits.room' (h : schem.Fits ctx) : schem.lastUsableLba.toNat < 2 ^ 63 :=
  lt_of_le_of_lt (Nat.le_add_right _ _) h.room

lemma Schem.Inv.endsBelow (hinv : schem.Inv) (hfits : schem.Fits ctx) (partIgn : P32) :
    schem.EndsBelow partIgn := by
  intro i hi
  have hbd := (hinv.bounds i hi.1).2.2
  have hroom := hfits.room
  omega

/-- **One pass makes progress.**  Unless a partition ends at the very last sector number, a
pass that does not return leaves a usable position and less to test. -/
lemma startStep_progress (hal : 1 ≤ ctx.align.toNat)
    (hroom : schem.lastUsableLba.toNat < 2 ^ 63) {ign : P32}
    (hends : schem.EndsBelow ign) {c c' : StartCand} (ha : c.Above schem)
    (hs : startStep schem ctx ign c = .next c') :
    c'.Above schem ∧ c'.left schem < c.left schem := by
  rcases startStep_cases schem ctx ign c with ⟨_, he⟩ | he | ⟨h0, he⟩ | ⟨h0, i, hi, hle, he⟩
  · exact absurd (hs.symm.trans he) (by simp)
  · exact absurd (hs.symm.trans he) (by simp)
  · -- the unaligned sector is tried at the same position
    obtain rfl : c' = ⟨c.lbaNoAlign, 0⟩ := StartStep.next.inj (hs.symm.trans he)
    obtain ⟨ha1, ha2⟩ := ha
    simp only [StartCand.pos, if_neg h0] at ha1 ha2
    refine ⟨⟨by simpa [StartCand.pos] using ha1, by simp [StartCand.pos]⟩, ?_⟩
    simp [StartCand.left, StartCand.pos, h0]
  · -- the position moves behind the partition that was hit
    obtain rfl := StartStep.next.inj (hs.symm.trans he)
    obtain ⟨hcnt, hc, _, hend⟩ := startHit_some hi
    have hbd := hends i ((considers_iff_others hcnt).1 hc)
    have hend' : c.lba.toNat ≤ (schem.table i).endLba.toNat := UInt64.le_iff_toNat_le.1 hend
    have hle' := UInt64.le_iff_toNat_le.1 hle
    have hnext : ((schem.table i).endLba + 1).toNat = (schem.table i).endLba.toNat + 1 :=
      toNat_add_of_lt (by simp only [UInt64.toNat_one]; omega)
    have hpos : c.pos = c.lba.toNat := by simp [StartCand.pos, h0]
    obtain ⟨ha1, _⟩ := ha
    refine ⟨startCandAt_above hal (by omega) (by omega), ?_⟩
    simp only [StartCand.left, startCandAt_pos, hnext, hpos, h0, if_true]
    split <;> omega

/-! ## The loop -/

/-- A result of the search: there is none, or a candidate with the property `P` in which
no pass hits a partition. -/
def StartRes (schem : Schem) (ign : P32) (P : StartCand → Prop) (res : PlbaRes) : Prop :=
  res = -1 ∨ ∃ c, P c ∧ res = c.lba.toInt64 ∧ startHit schem ign c.lba = none

/-- What every pass keeps holds of the candidate that is returned. -/
lemma startLoop_res {ign : P32} {P : StartCand → Prop}
    (hstep : ∀ c c', P c → startStep schem ctx ign c = .next c' → P c') (fuel : ℕ)
    {c : StartCand} (hc : P c) {res : PlbaRes}
    (hres : startLoop schem ctx ign fuel c = some res) : StartRes schem ign P res := by
  induction fuel generalizing c with
  | zero => simp [startLoop] at hres
  | succ fuel ih =>
    rw [startLoop] at hres
    cases hs : startStep schem ctx ign c with
    | done r =>
      rw [hs] at hres
      obtain rfl : r = res := by simpa using hres
      rcases startStep_cases schem ctx ign c with ⟨hn, he⟩ | he | ⟨_, he⟩ | ⟨_, _, _, _, he⟩
      · exact Or.inr ⟨c, hc, StartStep.done.inj (hs.symm.trans he), hn⟩
      · exact Or.inl (StartStep.done.inj (hs.symm.trans he))
      · exact absurd (hs.symm.trans he) (by simp)
      · exact absurd (hs.symm.trans he) (by simp)
    | next c' =>
      rw [hs] at hres
      exact ih (hstep c c' hc hs) hres

/-- With enough fuel the loop returns. -/
lemma startLoop_total (hal : 1 ≤ ctx.align.toNat)
    (hroom : schem.lastUsableLba.toNat < 2 ^ 63) {ign : P32}
    (hends : schem.EndsBelow ign) (fuel : ℕ) {c : StartCand} (hc : c.Above schem)
    (hfuel : c.left schem < fuel) : ∃ res, startLoop schem ctx ign fuel c = some res := by
  induction fuel generalizing c with
  | zero => omega
  | succ fuel ih =>
    rw [startLoop]
    cases hs : startStep schem ctx ign c with
    | done r => exact ⟨r, rfl⟩
    | next c' =>
      obtain ⟨hc', hleft⟩ := startStep_progress hal hroom hends hc hs
      exact ih hc' (by omega)

/-- The start sector is usable, unless a partition ends at the very last sector number. -/
lemma schemFindStartSector_usable (hal : 1 ≤ ctx.align.toNat)
    (hrange : schem.firstUsableLba.toNat ≤ schem.lastUsableLba.toNat)
    (hroom : schem.lastUsableLba.toNat < 2 ^ 63) {ign : P32} (hends : schem.EndsBelow ign)
    {fuel : ℕ} {res : PlbaRes} (h : schemFindStartSector fuel schem ctx ign = some res) :
    StartRes schem ign (fun c => c.Below schem ∧ c.Above schem) res := by
  refine startLoop_res (fun c c' hc hs => ?_) fuel
    ⟨startCandAt_below hrange, startCandAt_above hal le_rfl (by omega)⟩ h
  exact ⟨startStep_below hc.1 hs, (startStep_progress hal hroom hends hc.2 hs).1⟩

/-- **The start sector search returns**, whatever ranges the partitions have, unless one of
them ends at the very last sector number. -/
theorem schemFindStartSector_returns (hal : 1 ≤ ctx.align.toNat)
    (hrange : schem.firstUsableLba.toNat ≤ schem.lastUsableLba.toNat)
    (hroom : schem.lastUsableLba.toNat < 2 ^ 63) {ign : P32}
    (hends : schem.EndsBelow ign) {fuel : ℕ} (hfuel : 2 ^ 65 ≤ fuel) :
    ∃ res, schemFindStartSector fuel schem ctx ign = some res := by
  have hleft : (startCandAt schem ctx schem.firstUsableLba).left schem
      ≤ 2 * schem.lastUsableLba.toNat + 1 := by
    rw [StartCand.left]
    split <;> omega
  exact startLoop_total hal hroom hends fuel (startCandAt_above hal le_rfl (by omega))
    (lt_of_le_of_lt hleft (by omega))

/-- Over a scheme that keeps the invariant it finds a usable sector outside of every other
used partition, or none. -/
theorem schemFindStartSector_total (hinv : schem.Inv) (hfits : schem.Fits ctx) (ign : Pu32)
    {fuel : ℕ} (hfuel : 2 ^ 65 ≤ fuel) :
    ∃ res, schemFindStartSector fuel schem ctx ign.toInt64 = some res ∧
      (res = -1 ∨ ∃ lba : Plba, res = lba.toInt64 ∧
        schem.firstUsableLba.toNat ≤ lba.toNat ∧ lba.toNat ≤ schem.lastUsableLba.toNat ∧
        ∀ j ∈ schem.usedSet, j ≠ ign.toNat →
          lba < (schem.table j).startLba ∨ (schem.table j).endLba < lba) := by
  have hends := hinv.endsBelow hfits ign.toInt64
  obtain ⟨res, hres⟩ :=
    schemFindStartSector_returns hfits.align hfits.range hfits.room' hends hfuel
  refine ⟨res, hres, ?_⟩
  rcases schemFindStartSector_usable hfits.align hfits.range hfits.room' hends hres with
    he | ⟨c, ⟨hb, ha⟩, he, hn⟩
  · exact Or.inl he
  · exact Or.inr ⟨c.lba, he, le_trans ha.1 ha.2, hb.1, fun j hj hne =>
      startHit_none hn j hj.1 ((considers_iff rfl hj.1).2 ⟨hne, hj⟩)⟩

/-! ## The last sector -/

lemma lastBound_bounds (schem : Schem) (ign : P32) {firstLba : Plba}
    (h : firstLba.toNat ≤ schem.lastUsableLba.toNat) :
    firstLba.toNat ≤ (lastBound schem ign firstLba).toNat ∧
      (lastBound schem ign firstLba).toNat ≤ schem.lastUsableLba.toNat := by
  have step : ∀ (l : List ℕ) (b : Plba), firstLba.toNat ≤ b.toNat →
      b.toNat ≤ schem.lastUsableLba.toNat →
      firstLba.toNat ≤ (l.foldl (fun bound i =>
        if schem.considers ign i && (schem.table i).startLba > firstLba &&
            (schem.table i).startLba < bound then
          (schem.table i).startLba - 1
        else bound) b).toNat ∧
      (l.foldl (fun bound i =>
        if schem.considers ign i && (schem.table i).startLba > firstLba &&
            (schem.table i).startLba < bound then
          (schem.table i).startLba - 1
        else bound) b).toNat ≤ schem.lastUsableLba.toNat := by
    intro l
    induction l with
    | nil => exact fun b h1 h2 => ⟨h1, h2⟩
    | cons i l ih =>
      intro b h1 h2
      rw [List.foldl_cons]
      split
      · next hcond =>
        simp only [Bool.and_eq_true, decide_eq_true_eq, gt_iff_lt,
          UInt64.lt_iff_toNat_lt] at hcond
        have hsub : ((schem.table i).startLba - 1).toNat = (schem.table i).startLba.toNat - 1 :=
          toNat_sub_of_ge (by simp only [UInt64.toNat_one]; omega)
        exact ih _ (by omega) (by omega)
      · exact ih b h1 h2
  exact step _ _ h le_rfl

/-- The end of the aligned range below a bound. -/
def alignedEnd (ctx : ImgCtx) (bound : Plba) : Plba :=
  if lbaAlign ctx bound false > 0 && ctx.align > 1 then lbaAlign ctx bound false - 1
  else lbaAlign ctx bound false

lemma schemFindLastSector_eq (schem : Schem) (ctx : ImgCtx) (ign : P32) (firstLba : Plba) :
    schemFindLastSector schem ctx ign firstLba =
      if lastBound schem ign firstLba < firstLba then -1
      else if alignedEnd ctx (lastBound schem ign firstLba) ≥ firstLba &&
          schemFindOverlap schem firstLba (alignedEnd ctx (lastBound schem ign firstLba)) ign ==
            -1 then
        (alignedEnd ctx (lastBound schem ign firstLba)).toInt64
      else (lastBound schem ign firstLba).toInt64 := rfl

lemma alignedEnd_le (ctx : ImgCtx) (bound : Plba) :
    (alignedEnd ctx bound).toNat ≤ bound.toNat := by
  have hdown := lbaAlign_down_le ctx bound
  rw [alignedEnd]
  split
  · next hpos =>
    simp only [Bool.and_eq_true, decide_eq_true_eq, gt_iff_lt, UInt64.lt_iff_toNat_lt,
      UInt64.toNat_zero] at hpos
    rw [toNat_sub_of_ge (by simp only [UInt64.toNat_one]; omega)]
    omega
  · exact hdown

/-- **The last sector search stays in range.**  Its result lies between the first sector
and the last usable one, unless there is none. -/
theorem schemFindLastSector_cases (schem : Schem) (ctx : ImgCtx) (ign : P32) (firstLba : Plba) :
    schemFindLastSector schem ctx ign firstLba = -1 ∨
      ∃ lba : Plba, schemFindLastSector schem ctx ign firstLba = lba.toInt64 ∧
        firstLba.toNat ≤ lba.toNat ∧ lba.toNat ≤ (lastBound schem ign firstLba).toNat := by
  by_cases hlt : lastBound schem ign firstLba < firstLba
  · exact Or.inl (by simp [schemFindLastSector, hlt])
  · have hge := UInt64.le_iff_toNat_le.1 (UInt64.not_lt.1 hlt)
    have haligned := alignedEnd_le ctx (lastBound schem ign firstLba)
    rw [schemFindLastSector_eq, if_neg hlt]
    refine Or.inr ?_
    split
    · -- the aligned bound is taken only if it is not before the first sector
      next hcond =>
      rw [Bool.and_eq_true, decide_eq_true_eq] at hcond
      exact ⟨_, rfl, UInt64.le_iff_toNat_le.1 hcond.1, haligned⟩
    · exact ⟨_, rfl, hge, le_rfl⟩

end Partman

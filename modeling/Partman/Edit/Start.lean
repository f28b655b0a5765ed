/-
# What the start sector search returns

The search walks along the table: from a sector it goes to the one behind the first
partition that contains it, and in front of every sector it tries the aligned one that
follows.  `Finds` is this walk without the two candidates of the loop and without fuel; the
loop and the walk have the same results.

Where nothing wraps around, the walk returns the first free sector, or the aligned one
after it.  A partition that ends at the very last sector number sends the walk back to
sector zero, from where it may return a sector that is not usable, or never end.
-/
import Mathlib.Logic.Relation
import Partman.Disk.Context
import Partman.Edit.Search

namespace Partman

open Lib

variable {schem : Schem} {ctx : ImgCtx} {ign : P32} {p : Plba} {res : PlbaRes}

/-! ## Free sectors -/

lemma startHit_mem {i : ℕ} (h : startHit schem ign p = some i) :
    i ∈ schem.others ign ∧ p.toNat ∈ (schem.table i).sectors := by
  obtain ⟨hi, hc, h1, h2⟩ := startHit_some h
  exact ⟨(considers_iff_others hi).1 hc, UInt64.le_iff_toNat_le.1 h1, UInt64.le_iff_toNat_le.1 h2⟩

/-- A pass over the table hits nothing exactly if the sector is free. -/
lemma startHit_none_iff : startHit schem ign p = none ↔ schem.Free ign p.toNat := by
  constructor
  · intro h i hi hmem
    rcases startHit_none h i (schem.others_lt hi) (schem.considers_of_others hi) with h' | h'
    · exact absurd hmem.1 (not_le.2 (UInt64.lt_iff_toNat_lt.1 h'))
    · exact absurd hmem.2 (not_le.2 (UInt64.lt_iff_toNat_lt.1 h'))
  · intro h
    by_contra hne
    obtain ⟨i, hi⟩ := Option.ne_none_iff_exists'.1 hne
    obtain ⟨hmem, hsec⟩ := startHit_mem hi
    exact h i hmem hsec

lemma exists_startHit (h : ¬ schem.Free ign p.toNat) : ∃ i, startHit schem ign p = some i :=
  Option.ne_none_iff_exists'.1 (mt startHit_none_iff.1 h)

/-! ## The walk -/

/-- The sector that is aligned after `p` can be returned. -/
def AlignedFree (schem : Schem) (ctx : ImgCtx) (partIgn : P32) (p : Plba) : Prop :=
  lbaAlign ctx p true ≤ schem.lastUsableLba ∧ schem.Free partIgn (lbaAlign ctx p true).toNat

/-- The results of the search from a position on. -/
inductive Finds (schem : Schem) (ctx : ImgCtx) (partIgn : P32) : Plba → PlbaRes → Prop
  | aligned {p : Plba} (h : AlignedFree schem ctx partIgn p) :
      Finds schem ctx partIgn p (lbaAlign ctx p true).toInt64
  | plain {p : Plba} (h : ¬ AlignedFree schem ctx partIgn p)
      (hfree : schem.Free partIgn p.toNat) : Finds schem ctx partIgn p p.toInt64
  /-- The partition reaches to the end of the usable sectors. -/
  | full {p : Plba} {i : ℕ} (h : ¬ AlignedFree schem ctx partIgn p)
      (hhit : startHit schem partIgn p = some i)
      (hend : schem.lastUsableLba < (schem.table i).endLba + 1) : Finds schem ctx partIgn p (-1)
  | behind {p : Plba} {i : ℕ} {res : PlbaRes} (h : ¬ AlignedFree schem ctx partIgn p)
      (hhit : startHit schem partIgn p = some i)
      (hend : (schem.table i).endLba + 1 ≤ schem.lastUsableLba)
      (hrest : Finds schem ctx partIgn ((schem.table i).endLba + 1) res) :
      Finds schem ctx partIgn p res

/-- The loop at a sector that is not followed by another candidate. -/
lemma startLoop_plain (schem : Schem) (ctx : ImgCtx) (ign : P32) (fuel : ℕ) (p : Plba) :
    startLoop schem ctx ign (fuel + 1) ⟨p, 0⟩ =
      match startHit schem ign p with
      | none => some p.toInt64
      | some i =>
        if (schem.table i).endLba + 1 > schem.lastUsableLba then some (-1)
        else startLoop schem ctx ign fuel (startCandAt schem ctx ((schem.table i).endLba + 1)) := by
  rw [startLoop, startStep]
  cases startHit schem ign p with
  | none => rfl
  | some i =>
    by_cases h : (schem.table i).endLba + 1 > schem.lastUsableLba <;> simp [h]

/-- The candidates at a position: the aligned sector, and the position itself. -/
lemma startCandAt_cases (schem : Schem) (ctx : ImgCtx) (p : Plba) :
    (schem.lastUsableLba < lbaAlign ctx p true ∧ startCandAt schem ctx p = ⟨p, 0⟩) ∨
      (lbaAlign ctx p true ≤ schem.lastUsableLba ∧ p = 0 ∧ startCandAt schem ctx p = ⟨p, 0⟩) ∨
      (lbaAlign ctx p true ≤ schem.lastUsableLba ∧ p ≠ 0 ∧
        startCandAt schem ctx p = ⟨lbaAlign ctx p true, p⟩) := by
  rw [startCandAt]
  split
  · next h => exact Or.inl ⟨h, rfl⟩
  · next h =>
    have hle := UInt64.not_lt.1 h
    by_cases h0 : p = 0
    · -- sector zero is aligned, and stands for no second candidate
      subst h0
      exact Or.inr (Or.inl ⟨hle, rfl, by rw [lbaAlign_zero]⟩)
    · exact Or.inr (Or.inr ⟨hle, h0, rfl⟩)

/-- The loop at the candidates of a position. -/
lemma startLoop_cand {fuel : ℕ}
    (h : startLoop schem ctx ign fuel (startCandAt schem ctx p) = some res) :
    (AlignedFree schem ctx ign p ∧ res = (lbaAlign ctx p true).toInt64) ∨
      (¬ AlignedFree schem ctx ign p ∧
        ∃ k ≤ fuel, startLoop schem ctx ign k ⟨p, 0⟩ = some res) := by
  rcases startCandAt_cases schem ctx p with ⟨hlt, he⟩ | ⟨hle, rfl, he⟩ | ⟨hle, h0, he⟩
  · rw [he] at h
    exact Or.inr ⟨fun ha => absurd ha.1 (UInt64.not_le.2 hlt), fuel, le_rfl, h⟩
  · rw [he] at h
    by_cases hfree : schem.Free ign (0 : Plba).toNat
    · refine Or.inl ⟨⟨hle, by rwa [lbaAlign_zero]⟩, ?_⟩
      cases fuel with
      | zero => simp [startLoop] at h
      | succ fuel =>
        rw [startLoop_plain, startHit_none_iff.2 hfree] at h
        rw [lbaAlign_zero]
        exact (Option.some.inj h).symm
    · refine Or.inr ⟨fun ha => hfree ?_, fuel, le_rfl, h⟩
      have := ha.2
      rwa [lbaAlign_zero] at this
  · rw [he] at h
    cases fuel with
    | zero => simp [startLoop] at h
    | succ fuel =>
      rw [startLoop, startStep] at h
      cases hhit : startHit schem ign (lbaAlign ctx p true) with
      | none =>
        rw [hhit] at h
        exact Or.inl ⟨⟨hle, startHit_none_iff.1 hhit⟩, (Option.some.inj h).symm⟩
      | some i =>
        rw [hhit] at h
        have hb : (p != 0) = true := by simpa using h0
        simp only [hb, if_true] at h
        refine Or.inr ⟨fun ha => ?_, fuel, Nat.le_succ fuel, h⟩
        rw [startHit_none_iff.2 ha.2] at hhit
        exact absurd hhit (by simp)

/-- What the loop returns is what the walk finds. -/
lemma finds_of_startLoop {fuel : ℕ}
    (h : startLoop schem ctx ign fuel (startCandAt schem ctx p) = some res) :
    Finds schem ctx ign p res := by
  induction fuel using Nat.strong_induction_on generalizing p with
  | _ fuel ih =>
    rcases startLoop_cand h with ⟨ha, rfl⟩ | ⟨ha, k, hk, hplain⟩
    · exact .aligned ha
    cases k with
    | zero => simp [startLoop] at hplain
    | succ k =>
      rw [startLoop_plain] at hplain
      cases hhit : startHit schem ign p with
      | none =>
        rw [hhit] at hplain
        obtain rfl := Option.some.inj hplain
        exact .plain ha (startHit_none_iff.1 hhit)
      | some i =>
        rw [hhit] at hplain
        simp only at hplain
        split at hplain
        · next hend =>
          obtain rfl := Option.some.inj hplain
          exact .full ha hhit hend
        · next hend => exact .behind ha hhit (UInt64.not_lt.1 hend) (ih k (by omega) hplain)

/-- From the candidates of a position the loop comes to the position itself, unless the
aligned sector can be returned. -/
lemma startLoop_skip (ha : ¬ AlignedFree schem ctx ign p) {n : ℕ}
    (h : ∀ fuel ≥ n, startLoop schem ctx ign fuel ⟨p, 0⟩ = some res) :
    ∀ fuel ≥ n + 1, startLoop schem ctx ign fuel (startCandAt schem ctx p) = some res := by
  intro fuel hf
  rcases startCandAt_cases schem ctx p with ⟨-, he⟩ | ⟨-, -, he⟩ | ⟨hle, h0, he⟩
  · rw [he]
    exact h fuel (by omega)
  · rw [he]
    exact h fuel (by omega)
  · obtain ⟨k, rfl⟩ : ∃ k, fuel = k + 1 := ⟨fuel - 1, by omega⟩
    obtain ⟨i, hi⟩ := exists_startHit fun hfree => ha ⟨hle, hfree⟩
    have hb : (p != 0) = true := by simpa using h0
    rw [he, startLoop, startStep, hi]
    simp only [hb, if_true]
    exact h k (by omega)

/-- What the walk finds is what the loop returns, with any fuel from some point on. -/
lemma Finds.startLoop (h : Finds schem ctx ign p res) :
    ∃ n, ∀ fuel ≥ n, startLoop schem ctx ign fuel (startCandAt schem ctx p) = some res := by
  induction h with
  | @aligned p ha =>
    refine ⟨1, fun fuel hf => ?_⟩
    obtain ⟨k, rfl⟩ : ∃ k, fuel = k + 1 := ⟨fuel - 1, by omega⟩
    have hhit := startHit_none_iff.2 ha.2
    rcases startCandAt_cases schem ctx p with ⟨hlt, he⟩ | ⟨-, rfl, he⟩ | ⟨-, -, he⟩
    · exact absurd ha.1 (UInt64.not_le.2 hlt)
    · rw [lbaAlign_zero] at hhit ⊢
      rw [he, startLoop_plain, hhit]
    · rw [he, Partman.startLoop, startStep, hhit]
  | @plain p ha hfree =>
    refine ⟨2, startLoop_skip ha fun fuel hf => ?_⟩
    obtain ⟨k, rfl⟩ : ∃ k, fuel = k + 1 := ⟨fuel - 1, by omega⟩
    rw [startLoop_plain, startHit_none_iff.2 hfree]
  | @full p i ha hhit hend =>
    refine ⟨2, startLoop_skip ha fun fuel hf => ?_⟩
    obtain ⟨k, rfl⟩ : ∃ k, fuel = k + 1 := ⟨fuel - 1, by omega⟩
    rw [startLoop_plain, hhit]
    exact if_pos hend
  | @behind p i res ha hhit hend _ ih =>
    obtain ⟨n, hn⟩ := ih
    refine ⟨n + 2, startLoop_skip ha fun fuel hf => ?_⟩
    obtain ⟨k, rfl⟩ : ∃ k, fuel = k + 1 := ⟨fuel - 1, by omega⟩
    rw [startLoop_plain, hhit]
    simp only [if_neg (UInt64.not_lt.2 hend)]
    exact hn k (by omega)

/-- **The search returns what the walk from the first usable sector finds.** -/
theorem schemFindStartSector_iff (schem : Schem) (ctx : ImgCtx) (ign : P32) (res : PlbaRes) :
    (∃ n, ∀ fuel ≥ n, schemFindStartSector fuel schem ctx ign = some res) ↔
      Finds schem ctx ign schem.firstUsableLba res := by
  constructor
  · rintro ⟨n, hn⟩
    exact finds_of_startLoop (hn n le_rfl)
  · exact Finds.startLoop

/-- There is at most one result. -/
lemma Finds.unique {res' : PlbaRes} (h : Finds schem ctx ign p res)
    (h' : Finds schem ctx ign p res') : res = res' := by
  obtain ⟨n, hn⟩ := h.startLoop
  obtain ⟨n', hn'⟩ := h'.startLoop
  have e := hn (max n n') (le_max_left n n')
  rw [hn' (max n n') (le_max_right n n')] at e
  exact (Option.some.inj e).symm

/-! ## Aligned sectors -/

/-- Aligning a sector, as a number without a bound. -/
lemma lbaAlign_up_mod (ctx : ImgCtx) (p : Plba) : (lbaAlign ctx p true).toNat =
    (p.toNat / ctx.align.toNat * ctx.align.toNat +
      if p.toNat % ctx.align.toNat = 0 then 0 else ctx.align.toNat) % 2 ^ 64 := by
  have hdown := toNat_lbaAlign_down ctx p
  have hsplit : lbaAlign ctx p true =
      lbaAlign ctx p false + (if p % ctx.align != 0 then ctx.align else 0) := by
    simp [lbaAlign]
  have hmod : (p % ctx.align != 0) = true ↔ ¬ p.toNat % ctx.align.toNat = 0 := by
    rw [bne_iff_ne, ne_eq, eq_zero_iff_toNat, UInt64.toNat_mod]
  rw [hsplit, UInt64.toNat_add, hdown]
  by_cases h0 : p.toNat % ctx.align.toNat = 0
  · rw [if_neg (by rw [hmod]; exact not_not.2 h0), if_pos h0, UInt64.toNat_zero]
  · rw [if_pos (hmod.2 h0), if_neg h0]

/-- The least multiple that is not below a number. -/
lemma isLeast_multiple {n a : ℕ} (ha : 1 ≤ a) :
    IsLeast {k | n ≤ k ∧ a ∣ k} (n / a * a + if n % a = 0 then 0 else a) := by
  have hdiv := Nat.div_add_mod n a
  have hlt := Nat.mod_lt n ha
  rw [Nat.mul_comm] at hdiv
  constructor
  · constructor
    · split <;> omega
    · split
      · exact ⟨n / a, by rw [Nat.add_zero, Nat.mul_comm]⟩
      · exact ⟨n / a + 1, by rw [Nat.mul_comm a, Nat.add_mul, Nat.one_mul]⟩
  · rintro k ⟨hk, c, rfl⟩
    split
    · omega
    · next h0 =>
      -- the multiple is not the one below
      have hc : n / a < c := by
        by_contra hle
        have := Nat.mul_le_mul_right a (not_lt.1 hle)
        rw [Nat.mul_comm c] at this
        omega
      have := Nat.mul_le_mul_right a hc
      rw [Nat.succ_mul, Nat.mul_comm c] at this
      exact this

/-- Where it does not wrap around, aligning gives the least multiple. -/
lemma lbaAlign_isLeast (hal : 1 ≤ ctx.align.toNat) (h : p.toNat + ctx.align.toNat < 2 ^ 64) :
    IsLeast {k | p.toNat ≤ k ∧ ctx.align.toNat ∣ k} (lbaAlign ctx p true).toNat := by
  have hle := Nat.div_mul_le_self p.toNat ctx.align.toNat
  rw [lbaAlign_up_mod, Nat.mod_eq_of_lt (by split <;> omega)]
  exact isLeast_multiple hal

/-! ## The first free sector -/

/-- The usable sectors that are free. -/
def Schem.FreeUsable (schem : Schem) (partIgn : P32) : Set ℕ :=
  {s | schem.firstUsableLba.toNat ≤ s ∧ s ≤ schem.lastUsableLba.toNat ∧ schem.Free partIgn s}

/-- What the search should return: the aligned sector at or after the first free one, if it
is usable and free, and the first free one otherwise; `-1` if no usable sector is free. -/
structure StartExact (schem : Schem) (ctx : ImgCtx) (partIgn : P32) (res : PlbaRes) : Prop where
  none : schem.FreeUsable partIgn = ∅ → res = -1
  aligned : ∀ g a, IsLeast (schem.FreeUsable partIgn) g →
    IsLeast {k | g ≤ k ∧ ctx.align.toNat ∣ k} a → a ≤ schem.lastUsableLba.toNat →
    schem.Free partIgn a → res.toInt = a
  first : ∀ g a, IsLeast (schem.FreeUsable partIgn) g →
    IsLeast {k | g ≤ k ∧ ctx.align.toNat ∣ k} a →
    ¬ (a ≤ schem.lastUsableLba.toNat ∧ schem.Free partIgn a) → res.toInt = g

/-- Behind a partition that contains `p` the sectors up to its end are not free either. -/
lemma not_free_of_hit {i : ℕ} (hhit : startHit schem ign p = some i) {s : ℕ}
    (h1 : p.toNat ≤ s) (h2 : s ≤ (schem.table i).endLba.toNat) : ¬ schem.Free ign s := by
  obtain ⟨hi, hmem, -⟩ := startHit_mem hhit
  exact fun hfree => hfree i hi ⟨le_trans hmem h1, h2⟩

/-- The end of a partition, where the number of the next sector does not wrap around. -/
lemma toNat_behind (hends : schem.EndsBelow ign) {i : ℕ} (hhit : startHit schem ign p = some i) :
    ((schem.table i).endLba + 1).toNat = (schem.table i).endLba.toNat + 1 := by
  have hlt := hends i (startHit_mem hhit).1
  exact toNat_add_of_lt (by rw [UInt64.toNat_one]; omega)

/-- **The walk is exact** from a position before which no usable sector is free. -/
lemma Finds.exact (hal : 1 ≤ ctx.align.toNat)
    (hroom : schem.lastUsableLba.toNat + ctx.align.toNat < 2 ^ 63) (hends : schem.EndsBelow ign)
    (h : Finds schem ctx ign p res) (h1 : schem.firstUsableLba.toNat ≤ p.toNat)
    (h2 : p.toNat ≤ schem.lastUsableLba.toNat)
    (hused : ∀ s ∈ schem.FreeUsable ign, p.toNat ≤ s) : StartExact schem ctx ign res := by
  induction h with
  | @aligned p ha =>
    obtain ⟨hle, hfree⟩ := ha
    have hle := UInt64.le_iff_toNat_le.1 hle
    have hleast := lbaAlign_isLeast hal (show p.toNat + ctx.align.toNat < 2 ^ 64 by omega)
    have hmem : (lbaAlign ctx p true).toNat ∈ schem.FreeUsable ign :=
      ⟨le_trans h1 hleast.1.1, hle, hfree⟩
    -- the first free sector lies between the position and the aligned sector
    have hsame : ∀ g a, IsLeast (schem.FreeUsable ign) g →
        IsLeast {k | g ≤ k ∧ ctx.align.toNat ∣ k} a → a = (lbaAlign ctx p true).toNat := by
      intro g a hg ha
      have hpg := hused g hg.1
      exact le_antisymm (ha.2 ⟨hg.2 hmem, hleast.1.2⟩) (hleast.2 ⟨le_trans hpg ha.1.1, ha.1.2⟩)
    constructor
    · intro hempty
      rw [hempty] at hmem
      exact absurd hmem (Set.notMem_empty _)
    · intro g a hg ha _ _
      rw [toInt_toInt64_of_lt (by omega), hsame g a hg ha]
    · intro g a hg ha hno
      rw [hsame g a hg ha] at hno
      exact absurd ⟨hle, hfree⟩ hno
  | @plain p ha hfree =>
    have hmem : p.toNat ∈ schem.FreeUsable ign := ⟨h1, h2, hfree⟩
    have hleast := lbaAlign_isLeast hal (show p.toNat + ctx.align.toNat < 2 ^ 64 by omega)
    have hg' : ∀ g, IsLeast (schem.FreeUsable ign) g → g = p.toNat := fun g hg =>
      le_antisymm (hg.2 hmem) (hused g hg.1)
    constructor
    · intro hempty
      rw [hempty] at hmem
      exact absurd hmem (Set.notMem_empty _)
    · intro g a hg ha' hle hfree'
      obtain rfl := hg' g hg
      rw [ha'.unique hleast] at hle hfree'
      exact absurd ⟨UInt64.le_iff_toNat_le.2 hle, hfree'⟩ ha
    · intro g a hg _ _
      rw [toInt_toInt64_of_lt (by omega), hg' g hg]
  | @full p i ha hhit hend =>
    have hto := toNat_behind hends hhit
    have hend := UInt64.lt_iff_toNat_lt.1 hend
    have hempty : ∀ g, g ∉ schem.FreeUsable ign := fun g hg =>
      not_free_of_hit hhit (hused g hg) (by have := hg.2.1; omega) hg.2.2
    exact ⟨fun _ => rfl, fun g a hg => absurd hg.1 (hempty g), fun g a hg => absurd hg.1 (hempty g)⟩
  | @behind p i res ha hhit hend _ ih =>
    have hto := toNat_behind hends hhit
    have hend := UInt64.le_iff_toNat_le.1 hend
    have hp := (startHit_mem hhit).2.2
    refine ih (by omega) hend fun s hs => ?_
    by_contra hlt
    exact not_free_of_hit hhit (hused s hs) (by omega) hs.2.2

/-- A set of numbers has a least element. -/
lemma exists_isLeast {s : Set ℕ} (h : s.Nonempty) : ∃ g, IsLeast s g := by
  classical
  exact ⟨Nat.find h, Nat.find_spec h, fun _ hs => Nat.find_min' h hs⟩

/-- The result is determined by the usable range and the free sectors. -/
lemma StartExact.unique {schem' : Schem} {ign' : P32} {res' : PlbaRes} (hal : 1 ≤ ctx.align.toNat)
    (h : StartExact schem ctx ign res) (h' : StartExact schem' ctx ign' res')
    (hfirst : schem'.firstUsableLba = schem.firstUsableLba)
    (hlast : schem'.lastUsableLba = schem.lastUsableLba)
    (hfree : ∀ s, schem'.Free ign' s ↔ schem.Free ign s) : res = res' := by
  have hset : schem'.FreeUsable ign' = schem.FreeUsable ign := by
    ext s
    simp only [Schem.FreeUsable, hfirst, hlast, hfree]
  rcases Set.eq_empty_or_nonempty (schem.FreeUsable ign) with hempty | hne
  · rw [h.none hempty, h'.none (hset.trans hempty)]
  · obtain ⟨g, hg⟩ := exists_isLeast hne
    have hg' : IsLeast (schem'.FreeUsable ign') g := hset ▸ hg
    obtain ⟨a, ha⟩ : ∃ a, IsLeast {k | g ≤ k ∧ ctx.align.toNat ∣ k} a := ⟨_, isLeast_multiple hal⟩
    rw [← Int64.toInt_inj]
    by_cases hc : a ≤ schem.lastUsableLba.toNat ∧ schem.Free ign a
    · rw [h.aligned g a hg ha hc.1 hc.2, h'.aligned g a hg' ha (by rw [hlast]; exact hc.1)
        ((hfree a).2 hc.2)]
    · rw [h.first g a hg ha hc, h'.first g a hg' ha (by rw [hlast, hfree]; exact hc)]

lemma exists_startExact (hal : 1 ≤ ctx.align.toNat)
    (hrange : schem.firstUsableLba.toNat ≤ schem.lastUsableLba.toNat)
    (hroom : schem.lastUsableLba.toNat + ctx.align.toNat < 2 ^ 63) (hends : schem.EndsBelow ign) :
    ∃ res, (∀ fuel ≥ 2 ^ 65, schemFindStartSector fuel schem ctx ign = some res) ∧
      StartExact schem ctx ign res := by
  obtain ⟨res, hres⟩ := schemFindStartSector_returns hal hrange (by omega) hends (le_refl (2 ^ 65))
  have hfinds := finds_of_startLoop hres
  refine ⟨res, fun fuel hf => ?_, hfinds.exact hal hroom hends le_rfl hrange fun s hs => hs.1⟩
  obtain ⟨res', hres'⟩ := schemFindStartSector_returns hal hrange (by omega) hends hf
  rw [hres', (finds_of_startLoop hres').unique hfinds]

/-- **The start sector search is exact**: with ranges of any kind that end before the very
last sector number it ends with the first free sector, aligned if that is possible, or with
`-1` if no usable sector is free.  The order of the table makes no difference. -/
theorem schemFindStartSector_exact (hal : 1 ≤ ctx.align.toNat)
    (hrange : schem.firstUsableLba ≤ schem.lastUsableLba)
    (hroom : schem.lastUsableLba.toNat + ctx.align.toNat < 2 ^ 63) (ign : P32)
    (hends : ∀ i ∈ schem.usedSet, (schem.table i).endLba.toNat < 2 ^ 64 - 1) :
    ∃ res, (∀ fuel ≥ 2 ^ 65, schemFindStartSector fuel schem ctx ign = some res) ∧
      StartExact schem ctx ign res ∧
      ∀ schem' ign', schem'.firstUsableLba = schem.firstUsableLba →
        schem'.lastUsableLba = schem.lastUsableLba →
        (∀ s, schem'.Free ign' s ↔ schem.Free ign s) →
        ∀ fuel ≥ 2 ^ 65, schemFindStartSector fuel schem' ctx ign' = some res := by
  have hrange' := UInt64.le_iff_toNat_le.1 hrange
  have hends' : schem.EndsBelow ign := fun i hi => hends i hi.1
  obtain ⟨res, hres, hexact⟩ := exists_startExact hal hrange' hroom hends'
  refine ⟨res, hres, hexact, fun schem' ign' hfirst hlast hfree => ?_⟩
  have hends'' : schem'.EndsBelow ign' := by
    -- the very last sector is free, so no partition of the other scheme contains it
    have hvery : schem.Free ign (2 ^ 64 - 1) := by
      intro j hj hmem
      exact absurd hmem.2 (not_le.2 (hends' j hj))
    intro i hi
    by_contra hge
    have hlt := (schem'.table i).startLba.toNat_lt
    exact (hfree _).2 hvery i hi ⟨by omega, not_lt.1 hge⟩
  obtain ⟨res', hres', hexact'⟩ := exists_startExact hal (by rwa [hfirst, hlast])
    (by rwa [hlast]) hends''
  rwa [hexact.unique hal hexact' hfirst hlast hfree]

/-- Partitions that overlap, out of order, one of them empty and one beyond the end. -/
theorem schemFindStartSector_exact_small :
    ∃ res, (∀ fuel ≥ 2 ^ 65, schemFindStartSector fuel
        (mbrOfRanges 1 9000 [(4000, 9999), (1, 2500), (2048, 2200), (8, 7)]) smallCtx (-1) =
          some res) ∧
      StartExact (mbrOfRanges 1 9000 [(4000, 9999), (1, 2500), (2048, 2200), (8, 7)]) smallCtx (-1)
        res ∧
      ∀ schem' ign', schem'.firstUsableLba = (1 : Plba) → schem'.lastUsableLba = (9000 : Plba) →
        (∀ s, schem'.Free ign' s ↔
          (mbrOfRanges 1 9000 [(4000, 9999), (1, 2500), (2048, 2200), (8, 7)]).Free (-1) s) →
        ∀ fuel ≥ 2 ^ 65, schemFindStartSector fuel schem' smallCtx ign' = some res := by
  refine schemFindStartSector_exact (by decide) (by decide) (by decide) (-1) fun i hi => ?_
  have hall : ∀ i < 4,
      ((mbrOfRanges 1 9000 [(4000, 9999), (1, 2500), (2048, 2200), (8, 7)]).table i).endLba.toNat <
        2 ^ 64 - 1 := by
    decide
  exact hall i hi.1

/-! ## Ranges of any kind -/

/-- The sectors that the search may return: the usable ones that are free, and the first
usable one also where it lies behind the last. -/
def Schem.Startable (schem : Schem) (partIgn : P32) : Set Plba :=
  {s | schem.firstUsableLba ≤ s ∧ (s ≤ schem.lastUsableLba ∨ s = schem.firstUsableLba) ∧
    schem.Free partIgn s.toNat}

/-- The search ends, and what it returns is no sector before the first usable one and in no
partition that it keeps clear of. -/
def StartSound (schem : Schem) (ctx : ImgCtx) (partIgn : P32) : Prop :=
  ∃ res : PlbaRes, (∃ n, ∀ fuel ≥ n, schemFindStartSector fuel schem ctx partIgn = some res) ∧
    (res ≠ -1 → schem.firstUsableLba ≤ res.toUInt64 ∧ schem.Free partIgn res.toUInt64.toNat)

/-- Aligning the sector wraps around, to a sector that would be returned. -/
def AlignWraps (schem : Schem) (ctx : ImgCtx) (partIgn : P32) (p : Plba) : Prop :=
  lbaAlign ctx p true < p ∧ AlignedFree schem ctx partIgn p

/-- The partition `i` is the first one of the table that contains the sector. -/
def Schem.FirstAt (schem : Schem) (partIgn : P32) (s : ℕ) : ℕ → Prop :=
  IsLeast {i | i ∈ schem.others partIgn ∧ s ∈ (schem.table i).sectors}

/-- From one sector to the one behind the first partition of the table that contains it,
where the search goes on from there. -/
def Behind (schem : Schem) (ctx : ImgCtx) (partIgn : P32) (p q : Plba) : Prop :=
  ¬ AlignedFree schem ctx partIgn p ∧ ∃ i, schem.FirstAt partIgn p.toNat i ∧
    q = (schem.table i).endLba + 1 ∧ q ≤ schem.lastUsableLba

/-- The partitions lead from a sector to one that reaches to the last usable one, and does
not end at the very last sector number. -/
def LeadsOut (schem : Schem) (ctx : ImgCtx) (partIgn : P32) (p : Plba) : Prop :=
  ∃ q i, Relation.ReflTransGen (Behind schem ctx partIgn) p q ∧
    ¬ AlignedFree schem ctx partIgn q ∧ schem.FirstAt partIgn q.toNat i ∧
    schem.lastUsableLba < (schem.table i).endLba + 1

/-- A pass over the table hits the first partition that contains the sector. -/
lemma startHit_some_iff {i : ℕ} :
    startHit schem ign p = some i ↔ schem.FirstAt ign p.toNat i := by
  constructor
  · intro h
    refine ⟨startHit_mem h, fun j hj => ?_⟩
    -- an earlier one would have been hit first
    by_contra hlt
    have hno := (List.find?_range_eq_some.1 h).2.2 j (by omega)
    rw [schem.considers_of_others hj.1, Bool.true_and, Bool.not_not, Bool.or_eq_true] at hno
    simp only [decide_eq_true_eq, UInt64.lt_iff_toNat_lt] at hno
    rcases hno with hno | hno
    · exact absurd hj.2.1 (not_le.2 hno)
    · exact absurd hj.2.2 (not_le.2 hno)
  · rintro ⟨⟨hi, hmem⟩, hleast⟩
    obtain ⟨j, hj⟩ := exists_startHit fun hfree => hfree i hi hmem
    have hle := hleast (startHit_mem hj)
    by_contra hne
    have hlt : i < j := lt_of_le_of_ne hle fun e => hne (e ▸ hj)
    have hno := (List.find?_range_eq_some.1 hj).2.2 i hlt
    rw [schem.considers_of_others hi, Bool.true_and, Bool.not_not, Bool.or_eq_true] at hno
    simp only [decide_eq_true_eq, UInt64.lt_iff_toNat_lt] at hno
    rcases hno with hno | hno
    · exact absurd hmem.1 (not_le.2 hno)
    · exact absurd hmem.2 (not_le.2 hno)

/-! ## Alignment that wraps around -/

/-- Up to the next multiple, all numbers have the same one. -/
lemma multiple_congr {m n a : ℕ} (ha : 1 ≤ a) (hmn : m ≤ n)
    (h : n ≤ m / a * a + if m % a = 0 then 0 else a) :
    (n / a * a + if n % a = 0 then 0 else a) = m / a * a + if m % a = 0 then 0 else a := by
  have hm := isLeast_multiple (n := m) ha
  refine (isLeast_multiple ha).unique ⟨⟨h, hm.1.2⟩, ?_⟩
  rintro k ⟨hk, hdvd⟩
  exact hm.2 ⟨le_trans hmn hk, hdvd⟩

/-- A sector shares the aligned sector with those that follow: all of them if aligning wraps
around, and the ones up to it otherwise. -/
lemma lbaAlign_congr {g : Plba} (hal : 1 ≤ ctx.align.toNat) (hpg : p ≤ g)
    (h : lbaAlign ctx p true < p ∨ g ≤ lbaAlign ctx p true) :
    lbaAlign ctx g true = lbaAlign ctx p true := by
  have hpg := UInt64.le_iff_toNat_le.1 hpg
  have hp := lbaAlign_up_mod ctx p
  have hlt := g.toNat_lt
  have hge := (isLeast_multiple (n := p.toNat) hal).1.1
  rw [← UInt64.toNat_inj, lbaAlign_up_mod ctx g, multiple_congr hal hpg, ← hp]
  rw [UInt64.lt_iff_toNat_lt, UInt64.le_iff_toNat_le, hp] at h
  by_cases hbig : p.toNat / ctx.align.toNat * ctx.align.toNat +
      (if p.toNat % ctx.align.toNat = 0 then 0 else ctx.align.toNat) < 2 ^ 64
  · rw [Nat.mod_eq_of_lt hbig] at h
    omega
  · omega

/-- Where a free sector can be returned, the search returns one, or the aligned one before it
that aligning it wraps around to. -/
lemma finds_of_isLeast {g : Plba} (hal : 1 ≤ ctx.align.toNat)
    (hg : IsLeast (schem.Startable ign) g) (h1 : schem.firstUsableLba ≤ p) (h2 : p ≤ g) :
    ∃ res, Finds schem ctx ign p res ∧
      (AlignWraps schem ctx ign g → res = (lbaAlign ctx g true).toInt64) ∧
      (¬ AlignWraps schem ctx ign g → res.toUInt64 ∈ schem.Startable ign) := by
  induction hn : g.toNat - p.toNat using Nat.strong_induction_on generalizing p with
  | _ n ih =>
    by_cases ha : AlignedFree schem ctx ign p
    · refine ⟨_, .aligned ha, ?_⟩
      by_cases hw : lbaAlign ctx p true < p
      · have he := lbaAlign_congr hal h2 (Or.inl hw)
        rw [he]
        refine ⟨fun _ => rfl, fun hno => absurd ⟨?_, ?_⟩ hno⟩
        · rw [he]
          exact UInt64.lt_of_lt_of_le hw h2
        · rwa [AlignedFree, he]
      · -- the aligned sector is startable, so it is not before the first such sector
        have hmem : lbaAlign ctx p true ∈ schem.Startable ign :=
          ⟨UInt64.le_trans h1 (UInt64.not_lt.1 hw), Or.inl ha.1, ha.2⟩
        have he := lbaAlign_congr hal h2 (Or.inr (hg.2 hmem))
        rw [UInt64.toUInt64_toInt64, he]
        exact ⟨fun _ => rfl, fun _ => hmem⟩
    · by_cases hfree : schem.Free ign p.toNat
      · have hle : p ≤ schem.lastUsableLba ∨ p = schem.firstUsableLba := by
          rcases hg.1.2.1 with hlast | rfl
          · exact Or.inl (UInt64.le_trans h2 hlast)
          · exact Or.inr (UInt64.le_antisymm h2 h1)
        have hmem : p ∈ schem.Startable ign := ⟨h1, hle, hfree⟩
        obtain rfl := UInt64.le_antisymm h2 (hg.2 hmem)
        refine ⟨_, .plain ha hfree, fun hw => absurd hw.2 ha, fun _ => ?_⟩
        rwa [UInt64.toUInt64_toInt64]
      · obtain ⟨i, hi⟩ := exists_startHit hfree
        have hp := startHit_mem hi
        have h2' := UInt64.le_iff_toNat_le.1 h2
        have hend : (schem.table i).endLba.toNat < g.toNat := by
          by_contra hge
          exact not_free_of_hit hi h2' (not_lt.1 hge) hg.1.2.2
        have hto : ((schem.table i).endLba + 1).toNat = (schem.table i).endLba.toNat + 1 :=
          toNat_add_of_lt (by have := g.toNat_lt; rw [UInt64.toNat_one]; omega)
        have hle : (schem.table i).endLba + 1 ≤ schem.lastUsableLba := by
          rcases hg.1.2.1 with hlast | rfl
          · rw [UInt64.le_iff_toNat_le] at hlast ⊢
            omega
          · -- only the first usable sector itself may lie behind the last, and it is free
            rw [UInt64.le_antisymm h2 h1] at hfree
            exact absurd hg.1.2.2 hfree
        have hpm := hp.2.2
        obtain ⟨res, hres, hrest⟩ := ih (g.toNat - ((schem.table i).endLba + 1).toNat)
          (by omega) (UInt64.le_trans h1 (UInt64.le_iff_toNat_le.2 (by omega)))
          (UInt64.le_iff_toNat_le.2 (by omega)) rfl
        exact ⟨res, .behind ha hi hle hres, hrest⟩

/-- The walk leads out of the usable sectors, or to a free sector. -/
lemma Finds.leadsOut (h : Finds schem ctx ign p res) : LeadsOut schem ctx ign p ∨
    ∃ r : Plba, res = r.toInt64 ∧ schem.Free ign r.toNat ∧ (r ≤ schem.lastUsableLba ∨ r = p) := by
  induction h with
  | aligned ha => exact Or.inr ⟨_, rfl, ha.2, Or.inl ha.1⟩
  | plain _ hfree => exact Or.inr ⟨_, rfl, hfree, Or.inr rfl⟩
  | full ha hhit hend => exact Or.inl ⟨_, _, .refl, ha, startHit_some_iff.1 hhit, hend⟩
  | @behind p i res ha hhit hend _ ih =>
    rcases ih with ⟨q, j, hq, hrest⟩ | ⟨r, he, hfree, hr⟩
    · exact Or.inl ⟨q, j, .head ⟨ha, i, startHit_some_iff.1 hhit, rfl, hend⟩ hq, hrest⟩
    · refine Or.inr ⟨r, he, hfree, Or.inl ?_⟩
      rcases hr with hr | rfl
      · exact hr
      · exact hend

/-- If the partitions lead out of the usable sectors, nothing is found. -/
lemma LeadsOut.finds (h : LeadsOut schem ctx ign p) : Finds schem ctx ign p (-1) := by
  obtain ⟨q, i, hpath, ha, hi, hend⟩ := h
  induction hpath using Relation.ReflTransGen.head_induction_on with
  | refl => exact .full ha (startHit_some_iff.2 hi) hend
  | head hstep _ ih =>
    obtain ⟨ha', j, hj, rfl, hle⟩ := hstep
    exact .behind ha' (startHit_some_iff.2 hj) hle ih

/-- A set of sectors has a first one. -/
lemma exists_isLeast_plba {s : Set Plba} (h : s.Nonempty) : ∃ g, IsLeast s g := by
  obtain ⟨n, ⟨g, hg, rfl⟩, hleast⟩ := exists_isLeast (h.image UInt64.toNat)
  exact ⟨g, hg, fun x hx => UInt64.le_iff_toNat_le.2 (hleast ⟨x, hx, rfl⟩)⟩

/-- **When the start sector search is sound**, whatever ranges the partitions have: where a
sector can be returned, the first such sector does not wrap around to another when it is
aligned; where there is none, the partitions lead out of the usable sectors. -/
theorem schemFindStartSector_sound_iff (hal : 1 ≤ ctx.align.toNat) (schem : Schem) (ign : P32) :
    StartSound schem ctx ign ↔
      (∀ g, IsLeast (schem.Startable ign) g → ¬ AlignWraps schem ctx ign g) ∧
        (schem.Startable ign = ∅ → LeadsOut schem ctx ign schem.firstUsableLba) := by
  simp only [StartSound, schemFindStartSector_iff]
  constructor
  · rintro ⟨res, hres, hsound⟩
    constructor
    · intro g hg hw
      obtain ⟨res', hres', he, -⟩ := finds_of_isLeast hal hg (UInt64.le_refl _) hg.1.1
      obtain rfl := hres.unique hres'
      have hne : res ≠ -1 := by
        rw [he hw]
        have hlt := UInt64.lt_iff_toNat_lt.1 hw.1
        have := g.toNat_lt
        exact toInt64_ne_neg_one (by omega)
      have hfirst := (hsound hne).1
      rw [he hw, UInt64.toUInt64_toInt64] at hfirst
      -- the aligned sector would be a startable one before the first
      exact absurd (hg.2 ⟨hfirst, Or.inl hw.2.1, hw.2.2⟩) (UInt64.not_le.2 hw.1)
    · intro hempty
      rcases hres.leadsOut with h | ⟨r, rfl, hfree, hr⟩
      · exact h
      · have hfirst : schem.firstUsableLba ≤ r := by
          by_cases hne : r.toInt64 = -1
          · -- the result is then the very last sector number
            have he := congrArg UInt64.toNat (UInt64.toUInt64_toInt64 r)
            have hlt := schem.firstUsableLba.toNat_lt
            rw [hne, show (-1 : PlbaRes).toUInt64.toNat = 2 ^ 64 - 1 from rfl] at he
            exact UInt64.le_iff_toNat_le.2 (by omega)
          · simpa using (hsound hne).1
        exact absurd (show r ∈ schem.Startable ign from ⟨hfirst, hr, hfree⟩)
          (hempty ▸ Set.notMem_empty r)
  · rintro ⟨hwraps, hleads⟩
    rcases Set.eq_empty_or_nonempty (schem.Startable ign) with hempty | hne
    · exact ⟨-1, (hleads hempty).finds, fun h => absurd rfl h⟩
    · obtain ⟨g, hg⟩ := exists_isLeast_plba hne
      obtain ⟨res, hres, -, hmem⟩ := finds_of_isLeast hal hg (UInt64.le_refl _) hg.1.1
      have hmem := hmem (hwraps g hg)
      exact ⟨res, hres, fun _ => ⟨hmem.1, hmem.2.2⟩⟩

/-- A partition that ends far before the very last sector number. -/
theorem schemFindStartSector_sound_small :
    StartSound (mbrOfRanges 1 9000 [(1, 100)]) smallCtx (-1) ↔
      (∀ g, IsLeast ((mbrOfRanges 1 9000 [(1, 100)]).Startable (-1)) g →
          ¬ AlignWraps (mbrOfRanges 1 9000 [(1, 100)]) smallCtx (-1) g) ∧
        ((mbrOfRanges 1 9000 [(1, 100)]).Startable (-1) = ∅ →
          LeadsOut (mbrOfRanges 1 9000 [(1, 100)]) smallCtx (-1) 1) :=
  schemFindStartSector_sound_iff (by decide) _ _

/-- If every sector is taken and behind every partition the search goes on, it never ends. -/
lemma startLoop_hangs (hused : ∀ p : Plba, ¬ schem.Free ign p.toNat)
    (hend : ∀ i ∈ schem.others ign, (schem.table i).endLba + 1 ≤ schem.lastUsableLba)
    (fuel : ℕ) : schemFindStartSector fuel schem ctx ign = none := by
  have hno : ∀ p res, ¬ Finds schem ctx ign p res := by
    intro p res h
    induction h with
    | aligned ha => exact hused _ ha.2
    | plain _ hfree => exact hused _ hfree
    | full _ hhit hlast => exact UInt64.not_lt.2 (hend _ (startHit_mem hhit).1) hlast
    | behind _ _ _ _ ih => exact ih
  cases h : schemFindStartSector fuel schem ctx ign with
  | none => rfl
  | some res => exact absurd (finds_of_startLoop h) (hno _ res)

/-- A boot record with one entry, of start and size zero. -/
def emptyEntryImage : Image := fun a =>
  if a = 450 then 0x83 else if a = 510 then 0x55 else if a = 511 then 0xAA else 0

/-- The scheme that is loaded from it. -/
def emptyEntryMbr : Schem := mbrToSchem (schemNew .mbr) (mbrRead emptyEntryImage 0) smallCtx

/-- Only the first of the four entries is used. -/
lemma mem_emptyEntryMbr_others {i : ℕ} : i ∈ emptyEntryMbr.others (-1) ↔ i = 0 := by
  have hused : ∀ i < 4, emptyEntryMbr.partIsUsed (emptyEntryMbr.table i) = decide (i = 0) := by
    decide
  have hcnt : emptyEntryMbr.partCnt.toNat = 4 := rfl
  constructor
  · rintro ⟨⟨hi, hu⟩, -⟩
    rw [hcnt] at hi
    rw [hused i hi] at hu
    exact of_decide_eq_true hu
  · rintro rfl
    exact ⟨⟨by decide, by decide⟩, by decide⟩

/-- The entry of size zero is loaded as a partition of all sectors, in which the search goes
round for ever. -/
theorem schemFindStartSector_hangs :
    imgCtxValidate smallCtx = .ok ∧ 1 ≤ smallCtx.align.toNat ∧
      (schemCtxLoad plainSys emptyEntryImage schemCtxInit smallCtx zeroRng).res = .ok ∧
      ∃ mbr, (schemCtxLoad plainSys emptyEntryImage schemCtxInit smallCtx zeroRng).sc.schemMbr =
          some mbr ∧
        (∀ fuel, schemFindStartSector fuel mbr smallCtx (-1) = none) ∧
        ¬ StartSound mbr smallCtx (-1) := by
  have hv := (imgCtxValidate_ok_iff _).1 smallCtx_valid
  have hzero : ∀ a, ¬ InMbr a → emptyEntryImage a = 0 := by
    intro a ha
    have h : a ≠ 450 ∧ a ≠ 510 ∧ a ≠ 511 := by
      simp only [InMbr] at ha
      omega
    simp [emptyEntryImage, h]
  obtain ⟨hres, hsc⟩ := schemCtxLoad_of_zero hv (plainSys_serves (by decide)) hzero schemCtxInit
    zeroRng
  have hfound : mbrFound emptyEntryImage smallCtx = some emptyEntryMbr := if_pos (by decide)
  have hstart : (emptyEntryMbr.table 0).startLba = 0 := rfl
  have hend : (emptyEntryMbr.table 0).endLba = 0 - 1 := rfl
  have hhangs : ∀ fuel, schemFindStartSector fuel emptyEntryMbr smallCtx (-1) = none := by
    refine startLoop_hangs (fun p hfree => ?_) fun i hi => ?_
    · refine hfree 0 (mem_emptyEntryMbr_others.2 rfl) ⟨?_, ?_⟩
      · rw [hstart]
        exact Nat.zero_le _
      · rw [hend]
        exact Nat.le_pred_of_lt p.toNat_lt
    · rw [mem_emptyEntryMbr_others.1 hi, hend]
      decide
  refine ⟨smallCtx_valid, by decide, hres, emptyEntryMbr, by rw [hsc, hfound], hhangs, ?_⟩
  rintro ⟨res, ⟨n, hn⟩, -⟩
  have h := hn n le_rfl
  rw [hhangs] at h
  exact absurd h (by simp)

end Partman

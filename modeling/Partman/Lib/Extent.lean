/-
# Placing extents on a line

A placement assigns to every index of a set a closed range of a linear order.  The ranges
lie between two bounds, none of them is empty, and no two of them meet.  A placement
survives removing an index, and giving an index a range that lies within the bounds and
meets no range of another index.
-/
import Mathlib.Order.CompletePartialOrder
import Mathlib.Order.Interval.Set.Disjoint
import Mathlib.Data.Set.Pairwise.Basic

namespace Lib

variable {ι α : Type*} [LinearOrder α]

/-- The ranges `[lo i, hi i]`, for `i` in `used`, are placed between `first` and `last`. -/
structure Placement (first last : α) (used : Set ι) (lo hi : ι → α) : Prop where
  /-- Every range lies within the bounds and is not empty. -/
  bounds : ∀ i ∈ used, first ≤ lo i ∧ lo i ≤ hi i ∧ hi i ≤ last
  /-- No two ranges meet. -/
  disjoint : used.PairwiseDisjoint fun i => Set.Icc (lo i) (hi i)

/-- Two nonempty ranges are disjoint exactly when one of them ends before the other
begins. -/
lemma disjoint_Icc_iff {a b c d : α} (hab : a ≤ b) (hcd : c ≤ d) :
    Disjoint (Set.Icc a b) (Set.Icc c d) ↔ b < c ∨ d < a := by
  rw [Set.disjoint_iff_inter_eq_empty, Set.Icc_inter_Icc, Set.Icc_eq_empty_iff, not_le,
    inf_lt_iff, lt_sup_iff, lt_sup_iff]
  constructor
  · rintro ((h | h) | (h | h))
    · exact absurd hab (not_le.2 h)
    · exact Or.inl h
    · exact Or.inr h
    · exact absurd hcd (not_le.2 h)
  · rintro (h | h)
    · exact Or.inl (Or.inr h)
    · exact Or.inr (Or.inl h)

namespace Placement

variable {first last : α} {used used' : Set ι} {lo hi lo' hi' : ι → α}

lemma empty (first last : α) (lo hi : ι → α) : Placement first last ∅ lo hi :=
  ⟨fun _ h => h.elim, Set.pairwiseDisjoint_empty⟩

/-- One index, with a range within the bounds. -/
lemma singleton {i : ι} (h1 : first ≤ lo i) (h2 : lo i ≤ hi i) (h3 : hi i ≤ last) :
    Placement first last {i} lo hi := by
  refine ⟨?_, Set.pairwiseDisjoint_singleton _ _⟩
  rintro j rfl
  exact ⟨h1, h2, h3⟩

/-- Fewer indices are used, and those keep their ranges. -/
lemma anti (h : Placement first last used lo hi) (hsub : used' ⊆ used)
    (hlo : ∀ i ∈ used', lo' i = lo i) (hhi : ∀ i ∈ used', hi' i = hi i) :
    Placement first last used' lo' hi' := by
  refine ⟨fun i hi' => ?_, fun i hi' j hj hij => ?_⟩
  · rw [hlo i hi', hhi i hi']
    exact h.bounds i (hsub hi')
  · have := h.disjoint (hsub hi') (hsub hj) hij
    simpa only [Function.onFun, hlo i hi', hhi i hi', hlo j hj, hhi j hj] using this

/-- The index `i` is given a new range, which meets none of the others. -/
lemma insert {i : ι} (h : Placement first last used lo hi)
    (hsub : ∀ j ∈ used', j ≠ i → j ∈ used)
    (hlo : ∀ j ∈ used', j ≠ i → lo' j = lo j) (hhi : ∀ j ∈ used', j ≠ i → hi' j = hi j)
    (h1 : first ≤ lo' i) (h2 : lo' i ≤ hi' i) (h3 : hi' i ≤ last)
    (hfree : ∀ j ∈ used, j ≠ i → Disjoint (Set.Icc (lo' i) (hi' i)) (Set.Icc (lo j) (hi j))) :
    Placement first last used' lo' hi' := by
  refine ⟨fun j hj => ?_, fun j hj k hk hjk => ?_⟩
  · rcases eq_or_ne j i with rfl | hji
    · exact ⟨h1, h2, h3⟩
    · rw [hlo j hj hji, hhi j hj hji]
      exact h.bounds j (hsub j hj hji)
  · -- the only new range is the one of `i`
    simp only [Function.onFun]
    rcases eq_or_ne j i with rfl | hji
    · rw [hlo k hk hjk.symm, hhi k hk hjk.symm]
      exact hfree k (hsub k hk hjk.symm) hjk.symm
    · rcases eq_or_ne k i with rfl | hki
      · rw [hlo j hj hji, hhi j hj hji]
        exact (hfree j (hsub j hj hji) hji).symm
      · rw [hlo j hj hji, hhi j hj hji, hlo k hk hki, hhi k hk hki]
        exact h.disjoint (hsub j hj hji) (hsub k hk hki) hjk

end Placement

end Lib

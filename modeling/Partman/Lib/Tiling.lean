/-
# Tilings of a range

Half-open ranges of a linear order that follow one another, from one bound to another.  They
are pairwise disjoint, and together they are the range between the two bounds.
-/
import Mathlib.Data.List.Basic
import Mathlib.Order.CompletePartialOrder
import Mathlib.Order.Interval.Set.Disjoint
import Mathlib.Order.Interval.Set.LinearOrder

namespace Lib

variable {α : Type*} [LinearOrder α] {a b : α} {l : List (α × α)}

/-- The ranges `[lo, hi)` of a list are not empty and follow one another from `a` to `b`. -/
inductive Tiles : α → List (α × α) → α → Prop
  | nil (a : α) : Tiles a [] a
  | cons {lo hi b : α} {l : List (α × α)} (hlt : lo < hi) (hrest : Tiles hi l b) :
      Tiles lo ((lo, hi) :: l) b

namespace Tiles

lemma le (h : Tiles a l b) : a ≤ b := by
  induction h with
  | nil a => exact le_rfl
  | cons hlt _ ih => exact hlt.le.trans ih

/-- The points of the ranges are the ones between the bounds. -/
theorem mem_iff (h : Tiles a l b) (s : α) :
    (∃ e ∈ l, s ∈ Set.Ico e.1 e.2) ↔ s ∈ Set.Ico a b := by
  induction h with
  | nil a => simp
  | @cons lo hi b l hlt hrest ih =>
    rw [List.exists_mem_cons_iff, ih, ← Set.mem_union, Set.Ico_union_Ico_eq_Ico hlt.le hrest.le]

lemma range_subset (h : Tiles a l b) {e : α × α} (he : e ∈ l) :
    Set.Ico e.1 e.2 ⊆ Set.Ico a b := fun s hs => (h.mem_iff s).1 ⟨e, he, hs⟩

/-- No two ranges meet. -/
theorem pairwise_disjoint (h : Tiles a l b) :
    l.Pairwise fun e f => Disjoint (Set.Ico e.1 e.2) (Set.Ico f.1 f.2) := by
  induction h with
  | nil a => exact List.Pairwise.nil
  | @cons lo hi b l hlt hrest ih =>
    refine List.Pairwise.cons (fun f hf => ?_) ih
    exact Set.Ico_disjoint_Ico_same.mono_right (hrest.range_subset hf)

end Tiles

end Lib

/-
# Layouts

A layout gives closed ranges of a linear order to some of finitely many entries, so that the
ranges lie between two bounds and no two of them meet.  Taking the range of an entry away,
and giving a free entry a range that meets no other, lead from each layout to every other
one.  Where ranges meet from the start, such changes make no two others meet.
-/
import Mathlib.Data.Finset.Insert
import Mathlib.Logic.Function.Basic
import Mathlib.Logic.Relation
import Mathlib.Order.CompletePartialOrder
import Mathlib.Order.Interval.Set.Disjoint

namespace Lib

variable {ι α : Type*} [DecidableEq ι] [LinearOrder α]

/-- The ranges of the entries of `E` between `first` and `last`. -/
structure IsLayout (first last : α) (E : Finset ι) (L : ι → Option (α × α)) : Prop where
  inside : ∀ i r, L i = some r → i ∈ E ∧ first ≤ r.1 ∧ r.1 ≤ r.2 ∧ r.2 ≤ last
  disjoint : ∀ i j r r', L i = some r → L j = some r' → i ≠ j →
    Disjoint (Set.Icc r.1 r.2) (Set.Icc r'.1 r'.2)

/-- The changes of one entry. -/
inductive LayoutStep (first last : α) (E : Finset ι) (L : ι → Option (α × α)) :
    (ι → Option (α × α)) → Prop
  | put (i : ι) (r : α × α) (hi : i ∈ E) (hfree : L i = none) (h1 : first ≤ r.1)
      (h2 : r.1 ≤ r.2) (h3 : r.2 ≤ last)
      (hdisj : ∀ j r', L j = some r' → Disjoint (Set.Icc r.1 r.2) (Set.Icc r'.1 r'.2)) :
      LayoutStep first last E L (Function.update L i (some r))
  | remove (i : ι) (hused : L i ≠ none) :
      LayoutStep first last E L (Function.update L i none)

variable {first last : α} {E : Finset ι} {L L' : ι → Option (α × α)}

namespace IsLayout

/-- The ranges of the entries of `s` are taken away, one after another. -/
lemma clear (s : Finset ι) : Relation.ReflTransGen (LayoutStep first last E) L
    fun i => if i ∈ s then Option.none else L i := by
  induction s using Finset.induction_on with
  | empty => simpa using Relation.ReflTransGen.refl
  | @insert i s hi ih =>
    by_cases hused : L i = Option.none
    · have heq : (fun j => if j ∈ insert i s then Option.none else L j) =
          fun j => if j ∈ s then Option.none else L j := by
        funext j
        rcases eq_or_ne j i with rfl | hji
        · simp [hused]
        · simp [hji]
      rwa [heq]
    · have heq : (fun j => if j ∈ insert i s then Option.none else L j) =
          Function.update (fun j => if j ∈ s then Option.none else L j) i Option.none := by
        funext j
        rcases eq_or_ne j i with rfl | hji
        · simp
        · simp [hji]
      rw [heq]
      exact ih.tail (.remove i (by simpa [hi] using hused))

/-- The ranges of the entries of `s` are given, one after another. -/
lemma build (h : IsLayout first last E L) (s : Finset ι) :
    Relation.ReflTransGen (LayoutStep first last E) (fun _ => Option.none)
      fun i => if i ∈ s then L i else Option.none := by
  induction s using Finset.induction_on with
  | empty => simpa using Relation.ReflTransGen.refl
  | @insert i s hi ih =>
    have heq : (fun j => if j ∈ insert i s then L j else Option.none) =
        Function.update (fun j => if j ∈ s then L j else Option.none) i (L i) := by
      funext j
      rcases eq_or_ne j i with rfl | hji
      · simp
      · simp [hji]
    rw [heq]
    cases hr : L i with
    | none =>
      rw [Function.update_eq_self_iff.2 (by simp [hi])]
      exact ih
    | some r =>
      obtain ⟨hE, h1, h2, h3⟩ := h.inside i r hr
      refine ih.tail (.put i r hE (by simp [hi]) h1 h2 h3 fun j r' hr' => ?_)
      split_ifs at hr' with hj
      exact h.disjoint i j r r' hr hr' fun hij => hi (hij ▸ hj)

/-- **Every layout leads to every other one.** -/
theorem reaches (h : IsLayout first last E L) (h' : IsLayout first last E L') :
    Relation.ReflTransGen (LayoutStep first last E) L L' := by
  have hout : ∀ {M : ι → Option (α × α)}, IsLayout first last E M → ∀ i ∉ E, M i = Option.none := by
    intro M hM i hi
    by_contra hne
    obtain ⟨r, hr⟩ := Option.ne_none_iff_exists'.1 hne
    exact hi (hM.inside i r hr).1
  have hclear : (fun i => if i ∈ E then Option.none else L i) = fun _ => Option.none := by
    funext i
    split_ifs with hi
    · rfl
    · exact hout h i hi
  have hbuild : (fun i => if i ∈ E then L' i else Option.none) = L' := by
    funext i
    split_ifs with hi
    · rfl
    · exact (hout h' i hi).symm
  have hdown : Relation.ReflTransGen (LayoutStep first last E) L
      fun i => if i ∈ E then Option.none else L i := clear E
  have hup := h'.build E
  rw [hclear] at hdown
  rw [hbuild] at hup
  exact hdown.trans hup

end IsLayout

/-! ## Entries that meet -/

/-- Where two entries of `L` meet, `L₀` has given them the same ranges. -/
def MeetsFrom (L₀ L : ι → Option (α × α)) : Prop :=
  ∀ i j r r', i ≠ j → L i = some r → L j = some r' →
    ¬ Disjoint (Set.Icc r.1 r.2) (Set.Icc r'.1 r'.2) → L₀ i = some r ∧ L₀ j = some r'

namespace MeetsFrom

variable {L₀ : ι → Option (α × α)}

omit [DecidableEq ι] in
lemma refl (L : ι → Option (α × α)) : MeetsFrom L L := fun _ _ _ _ _ hr hr' _ => ⟨hr, hr'⟩

omit [DecidableEq ι] in
/-- A single entry meets no other. -/
lemma single {k : ι} (h : ∀ i, i ≠ k → L i = none) : MeetsFrom L₀ L := by
  intro i j r r' hij hr hr'
  rcases eq_or_ne i k with rfl | hi
  · rw [h j hij.symm] at hr'
    exact absurd hr' (Option.some_ne_none r').symm
  · rw [h i hi] at hr
    exact absurd hr (Option.some_ne_none r).symm

/-- An entry gets a range that it has had or that meets no other. -/
lemma update (h : MeetsFrom L₀ L) {i : ι} {o : Option (α × α)}
    (ho : ∀ r, o = some r → L i = some r ∨
      ∀ j r', j ≠ i → L j = some r' → Disjoint (Set.Icc r.1 r.2) (Set.Icc r'.1 r'.2)) :
    MeetsFrom L₀ (Function.update L i o) := by
  intro j k r r' hjk hr hr' hmeet
  rcases eq_or_ne j i with rfl | hj
  · rw [Function.update_self] at hr
    rw [Function.update_of_ne hjk.symm] at hr'
    rcases ho r hr with hold | hfree
    · exact h j k r r' hjk hold hr' hmeet
    · exact absurd (hfree k r' hjk.symm hr') hmeet
  · rw [Function.update_of_ne hj] at hr
    rcases eq_or_ne k i with rfl | hk
    · rw [Function.update_self] at hr'
      rcases ho r' hr' with hold | hfree
      · exact h j k r r' hjk hr hold hmeet
      · exact absurd (hfree j r hj hr).symm hmeet
    · rw [Function.update_of_ne hk] at hr'
      exact h j k r r' hjk hr hr' hmeet

end MeetsFrom

end Lib

/-
# Texts made of lines

A stop that does not occur in two texts tells where they end.  So a text made of lines can be
taken apart line by line; and a text made of blocks, each headed by a key that names it, can be
taken apart block by block, also where some of the blocks are missing.
-/
import Mathlib.Data.List.Nodup

namespace Lib

variable {ι α : Type*}

/-- Where a stop occurs for the first time. -/
lemma append_stop_inj {a : α} {l l' r r' : List α} (hl : a ∉ l) (hl' : a ∉ l')
    (h : l ++ a :: r = l' ++ a :: r') : l = l' ∧ r = r' := by
  induction l generalizing l' with
  | nil =>
    cases l' with
    | nil => exact ⟨rfl, (List.cons.inj h).2⟩
    | cons b l' =>
      -- the stop would be the first of the other text
      obtain ⟨rfl, -⟩ := List.cons.inj h
      exact absurd List.mem_cons_self hl'
  | cons b l ih =>
    cases l' with
    | nil =>
      obtain ⟨rfl, -⟩ := List.cons.inj h
      exact absurd List.mem_cons_self hl
    | cons b' l' =>
      obtain ⟨rfl, ht⟩ := List.cons.inj h
      obtain ⟨rfl, hr⟩ := ih (fun hc => hl (List.mem_cons_of_mem _ hc))
        (fun hc => hl' (List.mem_cons_of_mem _ hc)) ht
      exact ⟨rfl, hr⟩

/-! ## Blocks -/

/-- Every block is missing, or it is headed by its key. -/
def Headed (key f : ι → List α) : Prop := ∀ i, f i = [] ∨ ∃ t, f i = key i ++ t

/-- The keys tell the blocks apart. -/
def Tells (key : ι → List α) : Prop := ∀ i j r s, key i ++ r = key j ++ s → i = j

variable {key f g : ι → List α}

/-- A text of blocks is empty, or it is headed by the key of one of them. -/
lemma Headed.flatMap (hf : Headed key f) (l : List ι) :
    l.flatMap f = [] ∨ ∃ i ∈ l, ∃ t, l.flatMap f = key i ++ t := by
  induction l with
  | nil => exact Or.inl rfl
  | cons i l ih =>
    rw [List.flatMap_cons]
    rcases hf i with h | ⟨t, h⟩
    · rw [h, List.nil_append]
      refine ih.imp id ?_
      rintro ⟨j, hj, t, h⟩
      exact ⟨j, List.mem_cons_of_mem _ hj, t, h⟩
    · rw [h, List.append_assoc]
      exact Or.inr ⟨i, List.mem_cons_self, _, rfl⟩

/-- The text of the other blocks is not headed by the key of this one. -/
lemma Headed.flatMap_ne (hkey : Tells key) (hne : ∀ i r, key i ++ r ≠ []) (hf : Headed key f)
    {i : ι} {l : List ι} (hi : i ∉ l) (r : List α) : l.flatMap f ≠ key i ++ r := by
  intro h
  rcases hf.flatMap l with h0 | ⟨j, hj, t, ht⟩
  · exact hne i r (h.symm.trans h0)
  · obtain rfl := hkey _ _ _ _ (h.symm.trans ht)
    exact hi hj

/-- **Texts of blocks can be taken apart**, if each block ends where it has to. -/
theorem Headed.eq_of_flatMap (hkey : Tells key) (hne : ∀ i r, key i ++ r ≠ [])
    (hf : Headed key f) (hg : Headed key g)
    {l : List ι} (hends : ∀ i ∈ l, ∀ r s, f i ≠ [] → g i ≠ [] → f i ++ r = g i ++ s →
      f i = g i ∧ r = s) (hl : l.Nodup) (h : l.flatMap f = l.flatMap g) : ∀ i ∈ l, f i = g i := by
  induction l with
  | nil => intro i hi; exact absurd hi List.not_mem_nil
  | cons i l ih =>
    obtain ⟨hi, hl⟩ := List.nodup_cons.1 hl
    rw [List.flatMap_cons, List.flatMap_cons] at h
    have hboth : f i = g i ∧ l.flatMap f = l.flatMap g := by
      rcases hf i with hfi | ⟨t, hfi⟩ <;> rcases hg i with hgi | ⟨u, hgi⟩
      · rw [hfi, hgi] at h ⊢
        exact ⟨rfl, h⟩
      · rw [hfi, hgi, List.nil_append, List.append_assoc] at h
        exact absurd h (hf.flatMap_ne hkey hne hi _)
      · rw [hfi, hgi, List.nil_append, List.append_assoc] at h
        exact absurd h.symm (hg.flatMap_ne hkey hne hi _)
      · exact hends i List.mem_cons_self _ _ (fun h0 => hne i t (hfi.symm.trans h0))
          (fun h0 => hne i u (hgi.symm.trans h0)) h
    intro j hj
    rcases List.mem_cons.1 hj with rfl | hj
    · exact hboth.1
    · exact ih (fun k hk => hends k (List.mem_cons_of_mem _ hk)) hl hboth.2 j hj

end Lib

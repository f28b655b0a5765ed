/-
# Byte-addressed memory as seen by a program that only stores and loads

A memory is a function from addresses to cells.  A writer is described by the list of
the stores it performs, in program order, so that the memory after every prefix of the
writer is a value one can speak about.  `Holds m o l` says that the cells from `o` on
carry the list `l`; a writer that fills consecutive cells is `storeAt o l`, and the two
meet in `holds_stores_storeAt`.
-/
import Mathlib.Logic.Function.Basic
import Mathlib.Data.List.Basic
import Mathlib.Data.Set.Basic
import Mathlib.Tactic.Common

namespace Lib

variable {β : Type*}

/-- The memory left by a sequence of stores, performed in order. -/
def stores (m : ℕ → β) (ss : List (ℕ × β)) : ℕ → β :=
  ss.foldl (fun m s => Function.update m s.1 s.2) m

@[simp] lemma stores_nil (m : ℕ → β) : stores m [] = m := rfl

@[simp] lemma stores_cons (m : ℕ → β) (s : ℕ × β) (ss : List (ℕ × β)) :
    stores m (s :: ss) = stores (Function.update m s.1 s.2) ss := rfl

lemma stores_append (m : ℕ → β) (ss ts : List (ℕ × β)) :
    stores m (ss ++ ts) = stores (stores m ss) ts := by
  simp [stores, List.foldl_append]

/-- A cell that is not the target of a store keeps its value. -/
lemma stores_of_forall_ne {ss : List (ℕ × β)} {a : ℕ} (h : ∀ s ∈ ss, s.1 ≠ a) (m : ℕ → β) :
    stores m ss a = m a := by
  induction ss generalizing m with
  | nil => rfl
  | cons s ss ih =>
    rw [stores_cons, ih (fun t ht => h t (List.mem_cons_of_mem _ ht)),
      Function.update_of_ne (h s List.mem_cons_self).symm]

/-- A cell that is the target of a store gets its value from the last one. -/
lemma stores_eq_of_mem {ss : List (ℕ × β)} {a : ℕ} (h : ∃ s ∈ ss, s.1 = a) (m m' : ℕ → β) :
    stores m ss a = stores m' ss a := by
  induction ss generalizing m m' with
  | nil => simp at h
  | cons s ss ih =>
    rw [stores_cons, stores_cons]
    by_cases hss : ∃ t ∈ ss, t.1 = a
    · exact ih hss _ _
    · have hne : ∀ t ∈ ss, t.1 ≠ a := fun t ht he => hss ⟨t, ht, he⟩
      obtain ⟨t, ht, rfl⟩ := h
      obtain rfl : t = s := (List.mem_cons.1 ht).resolve_right fun hc => hne t hc rfl
      rw [stores_of_forall_ne hne, stores_of_forall_ne hne, Function.update_self,
        Function.update_self]

/-- The last of some stores, performed once more, restore the cells that they have written. -/
lemma stores_again {m m' : ℕ → β} {ss us : List (ℕ × β)} (h : us <:+ ss) {q a : ℕ}
    (hm : ∀ b, b ≠ q → m' b = stores m ss b) (ha : a ≠ q ∨ ∃ s ∈ us, s.1 = q) :
    stores m' us a = stores m ss a := by
  obtain ⟨ts, rfl⟩ := h
  rw [stores_append] at hm ⊢
  by_cases hs : ∃ s ∈ us, s.1 = a
  · exact stores_eq_of_mem hs _ _
  · have hne : ∀ s ∈ us, s.1 ≠ a := fun s hmem he => hs ⟨s, hmem, he⟩
    have haq : a ≠ q := ha.elim id fun hq he => hs (he ▸ hq)
    rw [stores_of_forall_ne hne, hm a haq]

/-! ## Consecutive cells -/

/-- The stores that put the list `l` into the cells from `o` on. -/
def storeAt (o : ℕ) : List β → List (ℕ × β)
  | [] => []
  | b :: l => (o, b) :: storeAt (o + 1) l

@[simp] lemma storeAt_nil (o : ℕ) : storeAt o ([] : List β) = [] := rfl

@[simp] lemma storeAt_cons (o : ℕ) (b : β) (l : List β) :
    storeAt o (b :: l) = (o, b) :: storeAt (o + 1) l := rfl

lemma storeAt_append (o : ℕ) (l l' : List β) :
    storeAt o (l ++ l') = storeAt o l ++ storeAt (o + l.length) l' := by
  induction l generalizing o with
  | nil => simp
  | cons b l ih => simp [ih, Nat.add_assoc, Nat.add_comm 1]

lemma mem_storeAt {o : ℕ} {l : List β} {s : ℕ × β} (h : s ∈ storeAt o l) :
    o ≤ s.1 ∧ s.1 < o + l.length := by
  induction l generalizing o with
  | nil => simp at h
  | cons b l ih =>
    rcases List.mem_cons.1 h with rfl | h
    · simp
    · obtain ⟨h1, h2⟩ := ih h
      simp only [List.length_cons]
      omega

lemma take_storeAt (o : ℕ) (l : List β) (k : ℕ) :
    (storeAt o l).take k = storeAt o (l.take k) := by
  induction l generalizing o k with
  | nil => simp
  | cons b l ih =>
    cases k with
    | zero => rfl
    | succ k => simp [ih]

/-- The cells from `o` on carry the list `l`. -/
def Holds (m : ℕ → β) (o : ℕ) : List β → Prop
  | [] => True
  | b :: l => m o = b ∧ Holds m (o + 1) l

@[simp] lemma holds_nil (m : ℕ → β) (o : ℕ) : Holds m o [] := trivial

@[simp] lemma holds_cons (m : ℕ → β) (o : ℕ) (b : β) (l : List β) :
    Holds m o (b :: l) ↔ m o = b ∧ Holds m (o + 1) l := Iff.rfl

lemma holds_append (m : ℕ → β) (o : ℕ) (l l' : List β) :
    Holds m o (l ++ l') ↔ Holds m o l ∧ Holds m (o + l.length) l' := by
  induction l generalizing o with
  | nil => simp
  | cons b l ih =>
    simp only [List.cons_append, holds_cons, ih, List.length_cons, and_assoc]
    rw [show o + 1 + l.length = o + (l.length + 1) by omega]

lemma holds_iff_getElem {m : ℕ → β} {o : ℕ} {l : List β} :
    Holds m o l ↔ ∀ k (h : k < l.length), m (o + k) = l[k] := by
  induction l generalizing o with
  | nil => simp
  | cons b l ih =>
    rw [holds_cons, ih]
    constructor
    · rintro ⟨h0, h⟩ k hk
      cases k with
      | zero => simpa using h0
      | succ k =>
        have := h k (by simpa using hk)
        rw [show o + (k + 1) = o + 1 + k by omega]
        simpa using this
    · intro h
      refine ⟨h 0 (Nat.succ_pos _), fun k hk => ?_⟩
      have := h (k + 1) (by simpa using hk)
      rw [show o + 1 + k = o + (k + 1) by omega]
      simpa using this

lemma holds_replicate {m : ℕ → β} {o n : ℕ} {b : β} :
    Holds m o (List.replicate n b) ↔ ∀ a, o ≤ a → a < o + n → m a = b := by
  simp only [holds_iff_getElem, List.length_replicate, List.getElem_replicate]
  constructor
  · intro h a h1 h2
    have := h (a - o) (by omega)
    rwa [Nat.add_sub_of_le h1] at this
  · intro h k hk
    exact h (o + k) (Nat.le_add_right _ _) (by omega)

/-- `Holds` only looks at the cells it names. -/
lemma Holds.congr {m m' : ℕ → β} {o : ℕ} {l : List β} (h : Holds m o l)
    (hm : ∀ a, o ≤ a → a < o + l.length → m' a = m a) : Holds m' o l := by
  rw [holds_iff_getElem] at h ⊢
  intro k hk
  rw [hm (o + k) (by omega) (by omega), h k hk]

lemma holds_stores_storeAt (m : ℕ → β) (o : ℕ) (l : List β) :
    Holds (stores m (storeAt o l)) o l := by
  induction l generalizing m o with
  | nil => trivial
  | cons b l ih =>
    refine ⟨?_, ih _ _⟩
    rw [storeAt_cons, stores_cons, stores_of_forall_ne]
    · simp
    · intro s hs
      have := (mem_storeAt hs).1
      omega

/-- Writers of two cells each, one cell apart: every writer but the last one loses its
second cell to the next. -/
lemma stores_overlap (m : ℕ → β) (o : ℕ) (lo hi : ℕ → β) (n : ℕ) :
    stores m ((List.range (n + 1)).flatMap fun k => storeAt (o + k) [lo k, hi k]) =
      stores m (storeAt o ((List.range (n + 1)).map lo ++ [hi n])) := by
  induction n with
  | zero => rfl
  | succ n ih =>
    obtain ⟨xs, hxs⟩ : ∃ xs, xs = (List.range (n + 1)).map lo := ⟨_, rfl⟩
    have hlen : xs.length = n + 1 := by simp [hxs]
    -- the cell that the last but one writer has put behind its own is overwritten
    calc stores m ((List.range (n + 1 + 1)).flatMap fun k => storeAt (o + k) [lo k, hi k])
        = stores (stores m (storeAt o (xs ++ [hi n])))
            (storeAt (o + (n + 1)) [lo (n + 1), hi (n + 1)]) := by
          rw [List.range_succ, List.flatMap_append, stores_append, ih, hxs]
          simp
      _ = stores (stores m (storeAt o xs)) (storeAt (o + (n + 1)) [lo (n + 1), hi (n + 1)]) := by
          rw [storeAt_append, stores_append, hlen]
          simp
      _ = stores m (storeAt o ((List.range (n + 1 + 1)).map lo ++ [hi (n + 1)])) := by
          rw [List.range_succ, List.map_append, List.append_assoc, ← hxs, storeAt_append o xs,
            stores_append, hlen]
          rfl

/-- Stores outside of the cells of `l` do not disturb it. -/
lemma Holds.stores {m : ℕ → β} {o : ℕ} {l : List β} (h : Holds m o l) {ss : List (ℕ × β)}
    (hs : ∀ s ∈ ss, s.1 < o ∨ o + l.length ≤ s.1) : Holds (stores m ss) o l :=
  h.congr fun a h1 h2 => stores_of_forall_ne (fun s hmem => by have := hs s hmem; omega) m

/-- Writers that leave each other's cells alone, one after another. -/
lemma holds_flatMap {f : ℕ → List (ℕ × β)} {o : ℕ → ℕ} {l : ℕ → List β}
    (hf : ∀ m i, Holds (Lib.stores m (f i)) (o i) (l i))
    (hdisj : ∀ i j, i ≠ j → ∀ s ∈ f j, s.1 < o i ∨ o i + (l i).length ≤ s.1)
    (m : ℕ → β) (n : ℕ) : ∀ i < n, Holds (Lib.stores m ((List.range n).flatMap f)) (o i) (l i) := by
  induction n with
  | zero => intro i hi; omega
  | succ n ih =>
    intro i hi
    rw [List.range_succ, List.flatMap_append, stores_append]
    rcases Nat.lt_or_ge i n with hlt | hge
    · refine (ih i hlt).stores fun s hs => hdisj i n (by omega) s ?_
      simpa using hs
    · obtain rfl : i = n := by omega
      simpa using hf _ i

/-! ## Interrupted writers -/

/-- A list of stores that is cut off ends in its first or in its second part. -/
lemma prefix_append_cases {α : Type*} {l l₁ l₂ : List α} (h : l <+: l₁ ++ l₂) :
    l <+: l₁ ∨ ∃ t, t <+: l₂ ∧ l = l₁ ++ t := by
  rcases List.prefix_or_prefix_of_prefix h (List.prefix_append l₁ l₂) with h₁ | ⟨t, rfl⟩
  · exact Or.inl h₁
  · exact Or.inr ⟨t, (List.prefix_append_right_inj l₁).1 h, rfl⟩

/-- Every cell of a block whose writer is cut off carries its old or its new value. -/
lemma stores_prefix_storeAt {m : ℕ → β} {o : ℕ} {l : List β} {ss ts : List (ℕ × β)}
    (h : ss <+: storeAt o l ++ ts) (hts : ∀ s ∈ ts, s.1 < o ∨ o + l.length ≤ s.1) {a : ℕ}
    (h1 : o ≤ a) (h2 : a < o + l.length) :
    stores m ss a = m a ∨ stores m ss a = stores m (storeAt o l) a := by
  rcases prefix_append_cases h with h | ⟨t, ht, rfl⟩
  · obtain ⟨k, rfl⟩ : ∃ k, ss = storeAt o (l.take k) :=
      ⟨ss.length, by rw [← take_storeAt]; exact List.prefix_iff_eq_take.1 h⟩
    obtain ⟨j, rfl⟩ : ∃ j, a = o + j := ⟨a - o, by omega⟩
    by_cases hj : j < (l.take k).length
    · -- the cell has been written
      right
      rw [holds_iff_getElem.1 (holds_stores_storeAt m o _) j hj,
        holds_iff_getElem.1 (holds_stores_storeAt m o _) j (by omega), List.getElem_take]
    · left
      refine stores_of_forall_ne (fun s hs => ?_) m
      have := mem_storeAt hs
      omega
  · right
    rw [stores_append]
    refine stores_of_forall_ne (fun s hs => ?_) _
    have := hts s (ht.subset hs)
    omega

/-! ## Reading back -/

/-- The `n` cells from `o` on. -/
def loadAt (m : ℕ → β) (o n : ℕ) : List β := (List.range n).map fun k => m (o + k)

@[simp] lemma length_loadAt (m : ℕ → β) (o n : ℕ) : (loadAt m o n).length = n := by
  simp [loadAt]

@[simp] lemma loadAt_zero (m : ℕ → β) (o : ℕ) : loadAt m o 0 = [] := rfl

lemma loadAt_succ (m : ℕ → β) (o n : ℕ) :
    loadAt m o (n + 1) = m o :: loadAt m (o + 1) n := by
  simp [loadAt, List.range_succ_eq_map, Function.comp_def, Nat.add_assoc, Nat.add_comm 1]

lemma loadAt_add (m : ℕ → β) (o a b : ℕ) :
    loadAt m o (a + b) = loadAt m o a ++ loadAt m (o + a) b := by
  simp [loadAt, List.range_add, Function.comp_def, Nat.add_assoc]

lemma holds_iff_loadAt {m : ℕ → β} {o : ℕ} {l : List β} :
    Holds m o l ↔ loadAt m o l.length = l := by
  rw [holds_iff_getElem]
  constructor
  · intro h
    exact List.ext_getElem (by simp) fun k h1 h2 => by simpa [loadAt] using h k h2
  · intro h k hk
    have hget : (loadAt m o l.length)[k]? = l[k]? := by rw [h]
    simpa [loadAt, hk] using hget

lemma loadAt_congr {m m' : ℕ → β} {o n : ℕ} (h : ∀ a, o ≤ a → a < o + n → m a = m' a) :
    loadAt m o n = loadAt m' o n :=
  List.map_congr_left fun k hk => h _ (by omega) (by have := List.mem_range.1 hk; omega)

/-- Two memories show the same cells exactly when they agree on each of them. -/
lemma loadAt_eq_iff {m m' : ℕ → β} {o o' n : ℕ} :
    loadAt m o n = loadAt m' o' n ↔ ∀ k < n, m (o + k) = m' (o' + k) := by
  simp [loadAt, List.map_inj_left]

/-- Cells side by side, read piece by piece. -/
lemma flatMap_loadAt (m : ℕ → β) (o w n : ℕ) :
    ((List.range n).flatMap fun i => loadAt m (o + w * i) w) = loadAt m o (w * n) := by
  induction n with
  | zero => rfl
  | succ n ih =>
    rw [List.range_succ, List.flatMap_append, ih, Nat.mul_succ, loadAt_add]
    simp

/-- A mixture of two memories that show the same cells shows them too. -/
lemma loadAt_mix {m m₁ m₂ : ℕ → β} {o n : ℕ} (h : loadAt m₁ o n = loadAt m₂ o n)
    (hmix : ∀ a, o ≤ a → a < o + n → m a = m₁ a ∨ m a = m₂ a) : loadAt m o n = loadAt m₁ o n := by
  rw [loadAt_eq_iff] at h ⊢
  intro k hk
  rcases hmix (o + k) (by omega) (by omega) with e | e
  · exact e
  · rw [e, h k hk]

/-- One cell among those that are read. -/
lemma loadAt_split (m : ℕ → β) {o n k : ℕ} (h : k < n) :
    loadAt m o n = loadAt m o k ++ [m (o + k)] ++ loadAt m (o + (k + 1)) (n - (k + 1)) := by
  rw [show n = k + 1 + (n - (k + 1)) by omega, loadAt_add, loadAt_add,
    show k + 1 + (n - (k + 1)) - (k + 1) = n - (k + 1) by omega]
  rfl

lemma loadAt_update_of_lt (m : ℕ → β) {o n a : ℕ} (v : β) (h : a < o ∨ o + n ≤ a) :
    loadAt (Function.update m a v) o n = loadAt m o n :=
  loadAt_congr fun b h1 h2 => Function.update_of_ne (by omega) v m

/-! ## Views -/

/-- The view `f` shows the cell `p` as one block of `n` copies, whatever the cell holds. -/
def Shows (f : (ℕ → β) → List β) (m : ℕ → β) (p n : ℕ) : Prop :=
  ∃ pre post, ∀ v, f (Function.update m p v) = pre ++ List.replicate n v ++ post

lemma shows_loadAt (m : ℕ → β) {o n k : ℕ} (h : k < n) :
    Shows (fun m => loadAt m o n) m (o + k) 1 := by
  refine ⟨loadAt m o k, loadAt m (o + (k + 1)) (n - (k + 1)), fun v => ?_⟩
  show loadAt (Function.update m (o + k) v) o n = _
  rw [loadAt_split _ h, Function.update_self, loadAt_update_of_lt m v (Or.inr le_rfl),
    loadAt_update_of_lt m v (Or.inl (by omega))]
  rfl

namespace Shows

variable {f g : (ℕ → β) → List β} {m : ℕ → β} {p n : ℕ}

/-- A part of the view that does not depend on the cell may follow. -/
lemma append_right (h : Shows f m p n) (hg : ∀ v, g (Function.update m p v) = g m) :
    Shows (fun m => f m ++ g m) m p n := by
  obtain ⟨pre, post, hf⟩ := h
  exact ⟨pre, post ++ g m, fun v => by simp only [hf v, hg v, List.append_assoc]⟩

/-- A part of the view that does not depend on the cell may precede. -/
lemma append_left (h : Shows f m p n) (hg : ∀ v, g (Function.update m p v) = g m) :
    Shows (fun m => g m ++ f m) m p n := by
  obtain ⟨pre, post, hf⟩ := h
  exact ⟨g m ++ pre, post, fun v => by simp only [hf v, hg v, List.append_assoc]⟩

/-- One view among several, the others not depending on the cell. -/
lemma flatMap {F : (ℕ → β) → ℕ → List β} {j N : ℕ} (hj : j < N)
    (h : Shows (fun m => F m j) m p n)
    (hF : ∀ i < N, i ≠ j → ∀ v, F (Function.update m p v) i = F m i) :
    Shows (fun m => (List.range N).flatMap (F m)) m p n := by
  induction N with
  | zero => omega
  | succ N ih =>
    simp only [List.range_succ, List.flatMap_append, List.flatMap_singleton]
    rcases Nat.lt_or_ge j N with hlt | hge
    · exact (ih hlt fun i hi => hF i (by omega)).append_right fun v =>
        hF N (by omega) (by omega) v
    · obtain rfl : j = N := by omega
      exact h.append_left fun v => List.flatMap_congr fun i hi => by
        have := List.mem_range.1 hi
        exact hF i (by omega) (by omega) v

end Shows

/-- A view of pairs of cells, one cell apart, shows every cell once or twice. -/
lemma shows_pairs (m : ℕ → β) (o : ℕ) {N q : ℕ} (hN : 0 < N) (hq : q ≤ N) :
    ∃ n, 1 ≤ n ∧ n ≤ 2 ∧
      Shows (fun m => (List.range N).flatMap fun k => loadAt m (o + k) 2) m (o + q) n := by
  have hother : ∀ k, k ≠ q → k + 1 ≠ q → ∀ v,
      loadAt (Function.update m (o + q) v) (o + k) 2 = loadAt m (o + k) 2 :=
    fun k h1 h2 v => loadAt_update_of_lt m v (by omega)
  rcases Nat.eq_zero_or_pos q with rfl | hpos
  · -- the first cell is only in the first pair
    exact ⟨1, le_rfl, by decide, Shows.flatMap hN (shows_loadAt m (by decide))
      fun i _ hi => hother i hi (by omega)⟩
  obtain ⟨q, rfl⟩ : ∃ r, q = r + 1 := ⟨q - 1, by omega⟩
  rcases Nat.lt_or_ge (q + 1) N with hlt | hge
  · -- a cell in the middle is at the end of one pair and at the beginning of the next
    obtain ⟨r, rfl⟩ : ∃ r, N = q + 2 + r := ⟨N - (q + 2), by omega⟩
    refine ⟨2, by decide, le_rfl, ?_⟩
    have hsplit : ∀ m : ℕ → β,
        ((List.range (q + 2 + r)).flatMap fun k => loadAt m (o + k) 2) =
        ((List.range q).flatMap fun k => loadAt m (o + k) 2) ++
          (loadAt m (o + q) 2 ++ loadAt m (o + (q + 1)) 2) ++
          (List.range r).flatMap fun k => loadAt m (o + (q + 2 + k)) 2 := by
      intro m
      rw [List.range_add, List.flatMap_append, List.range_succ, List.range_succ,
        List.flatMap_append, List.flatMap_append, List.flatMap_map]
      simp
    simp only [hsplit]
    refine (Shows.append_left ?_ fun v => List.flatMap_congr fun k hk => ?_).append_right
      fun v => List.flatMap_congr fun k _ => hother _ (by omega) (by omega) v
    · refine ⟨[m (o + q)], [m (o + (q + 1) + 1)], fun v => ?_⟩
      simp [loadAt_succ, Nat.add_assoc, List.replicate]
    · have := List.mem_range.1 hk
      exact hother _ (by omega) (by omega) v
  · -- the last cell is only in the last pair
    obtain rfl : N = q + 1 := by omega
    refine ⟨1, le_rfl, by decide, Shows.flatMap (Nat.lt_succ_self q) ?_
      fun i hi hne => hother i (by omega) (by omega)⟩
    have := shows_loadAt m (o := o + q) (show 1 < 2 by decide)
    rwa [Nat.add_assoc] at this

end Lib

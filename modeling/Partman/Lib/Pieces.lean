/-
# Texts that are read in pieces

A reader with room for `n` letters takes letters up to a stop, as long as there is room.  A text
is taken apart by such a reader in exactly one way: into pieces that have a stop at most at their
end, and that are full or have one, except for the last.
-/
import Mathlib.Data.List.Basic

namespace Lib

variable {α : Type*} [DecidableEq α] {a : α} {n : ℕ}

/-- The next piece of a text, and the rest. -/
def piece (a : α) : ℕ → List α → List α × List α
  | 0, l => ([], l)
  | _ + 1, [] => ([], [])
  | n + 1, b :: l => if b = a then ([b], l) else (b :: (piece a n l).1, (piece a n l).2)

/-- What can be read at once. -/
structure IsPiece (a : α) (n : ℕ) (p : List α) : Prop where
  ne_nil : p ≠ []
  length_le : p.length ≤ n
  stop : a ∉ p.dropLast

/-- The piece ends with a stop, or it is full. -/
def Ended (a : α) (n : ℕ) (p : List α) : Prop := p.getLast? = some a ∨ p.length = n

lemma piece_append (a : α) (n : ℕ) (l : List α) : (piece a n l).1 ++ (piece a n l).2 = l := by
  induction n generalizing l with
  | zero => rfl
  | succ n ih =>
    cases l with
    | nil => rfl
    | cons b l =>
      rw [piece]
      split_ifs
      · rfl
      · rw [List.cons_append, ih]

lemma piece_isPiece (a : α) (n : ℕ) (b : α) (l : List α) :
    IsPiece a (n + 1) (piece a (n + 1) (b :: l)).1 := by
  induction n generalizing b l with
  | zero =>
    rw [piece]
    split_ifs <;> exact ⟨List.cons_ne_nil _ _, Nat.le_refl 1, List.not_mem_nil⟩
  | succ n ih =>
    rw [piece]
    split_ifs with h
    · exact ⟨List.cons_ne_nil _ _, by simp, List.not_mem_nil⟩
    · cases l with
      | nil => exact ⟨List.cons_ne_nil _ _, by simp [piece], List.not_mem_nil⟩
      | cons c l =>
        obtain ⟨hne, hlen, hstop⟩ := ih c l
        refine ⟨List.cons_ne_nil _ _, by simpa using hlen, ?_⟩
        rw [List.dropLast_cons_of_ne_nil hne]
        rintro (_ | ⟨_, hc⟩)
        · exact h rfl
        · exact hstop hc

/-- A piece that is not the last one is ended. -/
lemma piece_ended (a : α) (n : ℕ) (b : α) (l : List α)
    (h : (piece a (n + 1) (b :: l)).2 ≠ []) : Ended a (n + 1) (piece a (n + 1) (b :: l)).1 := by
  induction n generalizing b l with
  | zero =>
    rw [piece]
    split_ifs <;> exact Or.inr rfl
  | succ n ih =>
    rw [piece] at h ⊢
    split_ifs at h ⊢ with hb
    · exact Or.inl (by rw [hb]; rfl)
    · cases l with
      | nil => exact absurd rfl h
      | cons c l =>
        have hne := (piece_isPiece a n c l).ne_nil
        refine (ih c l h).imp (fun hlast => ?_) fun hlen => ?_
        · rw [List.getLast?_cons_of_ne_nil hne]
          exact hlast
        · rw [List.length_cons, hlen]

/-- What can be read at once is read at once, if nothing comes behind it or it is ended. -/
lemma piece_of_isPiece {p r : List α} (h : IsPiece a n p) (hend : r = [] ∨ Ended a n p) :
    piece a n (p ++ r) = (p, r) := by
  induction n generalizing p with
  | zero => exact absurd (List.length_eq_zero_iff.1 (Nat.le_zero.1 h.length_le)) h.ne_nil
  | succ n ih =>
    obtain ⟨hne, hlen, hstop⟩ := h
    cases p with
    | nil => exact absurd rfl hne
    | cons b p =>
      rw [List.cons_append, piece]
      cases p with
      | nil =>
        split_ifs with hb
        · rfl
        · -- the piece is not ended by its only letter
          rcases hend with rfl | hlast | hfull
          · cases n <;> rfl
          · exact absurd (Option.some.inj hlast) hb
          · obtain rfl : n = 0 := by simpa using hfull.symm
            rfl
      | cons c p =>
        rw [List.dropLast_cons_of_ne_nil (List.cons_ne_nil c p), List.mem_cons, not_or] at hstop
        rw [if_neg fun hb => hstop.1 hb.symm]
        have hrest := @ih (c :: p) ⟨List.cons_ne_nil _ _, by simpa using hlen, hstop.2⟩
          (hend.imp id fun hend => hend.imp
            (fun hlast => by rwa [List.getLast?_cons_of_ne_nil (List.cons_ne_nil c p)] at hlast)
            fun hfull => by simpa using hfull)
        rw [hrest]

/-- The pieces of a text that are read one after another, with room for `n + 1` letters. -/
def pieces (a : α) (n : ℕ) : List α → List (List α)
  | [] => []
  | b :: l => (piece a (n + 1) (b :: l)).1 :: pieces a n (piece a (n + 1) (b :: l)).2
termination_by l => l.length
decreasing_by
  have hne := (piece_isPiece a n b l).ne_nil
  have hlen := congrArg List.length (piece_append a (n + 1) (b :: l))
  rw [List.length_append] at hlen
  have := List.length_pos_iff.2 hne
  omega

lemma pieces_nil (a : α) (n : ℕ) : pieces a n [] = [] := by
  rw [pieces]

lemma pieces_of_ne_nil {l : List α} (h : l ≠ []) :
    pieces a n l = (piece a (n + 1) l).1 :: pieces a n (piece a (n + 1) l).2 := by
  cases l with
  | nil => exact absurd rfl h
  | cons b l => rw [pieces]

/-- The pieces that are read. -/
lemma pieces_spec (a : α) (n : ℕ) (l : List α) : (pieces a n l).flatten = l ∧
    (∀ p ∈ pieces a n l, IsPiece a (n + 1) p) ∧
    ∀ p ∈ (pieces a n l).dropLast, Ended a (n + 1) p := by
  induction l using pieces.induct a n with
  | case1 => simp [pieces_nil]
  | case2 b l ih =>
    obtain ⟨hflat, hpiece, hended⟩ := ih
    rw [pieces_of_ne_nil (List.cons_ne_nil b l)]
    refine ⟨?_, ?_, ?_⟩
    · rw [List.flatten_cons, hflat, piece_append]
    · rintro p (_ | ⟨_, hp⟩)
      · exact piece_isPiece a n b l
      · exact hpiece p hp
    · by_cases hrest : pieces a n (piece a (n + 1) (b :: l)).2 = []
      · rw [hrest]
        exact fun p hp => absurd hp List.not_mem_nil
      · rw [List.dropLast_cons_of_ne_nil hrest]
        rintro p (_ | ⟨_, hp⟩)
        · refine piece_ended a n b l fun h => hrest ?_
          rw [h, pieces_nil]
        · exact hended p hp

/-- **The pieces of a text are determined** by what a reader does. -/
theorem pieces_eq_iff (a : α) (n : ℕ) (l : List α) (ps : List (List α)) : pieces a n l = ps ↔
    ps.flatten = l ∧ (∀ p ∈ ps, IsPiece a (n + 1) p) ∧ ∀ p ∈ ps.dropLast, Ended a (n + 1) p := by
  constructor
  · rintro rfl
    exact pieces_spec a n l
  · rintro ⟨rfl, hpiece, hended⟩
    induction ps with
    | nil => exact pieces_nil a n
    | cons p ps ih =>
      have hp := hpiece p List.mem_cons_self
      have hend : ps.flatten = [] ∨ Ended a (n + 1) p := by
        cases ps with
        | nil => exact Or.inl rfl
        | cons q ps => exact Or.inr (hended p List.mem_cons_self)
      rw [List.flatten_cons, pieces_of_ne_nil (List.append_ne_nil_of_left_ne_nil hp.ne_nil _),
        piece_of_isPiece hp hend]
      refine congrArg (p :: ·) (ih (fun q hq => hpiece q (List.mem_cons_of_mem _ hq)) ?_)
      cases ps with
      | nil => exact fun q hq => absurd hq List.not_mem_nil
      | cons r ps => exact fun q hq => hended q (List.mem_cons_of_mem _ hq)

/-- Lines that there is room for are read one after another. -/
lemma pieces_of_lines {ls : List (List α)} (hstop : ∀ l ∈ ls, a ∉ l)
    (hlen : ∀ l ∈ ls, l.length ≤ n) :
    pieces a n (ls.map (· ++ [a])).flatten = ls.map (· ++ [a]) := by
  refine (pieces_eq_iff a n _ _).2 ⟨rfl, fun p hp => ?_, fun p hp => ?_⟩
  · obtain ⟨l, hl, rfl⟩ := List.mem_map.1 hp
    refine ⟨List.append_ne_nil_of_right_ne_nil _ (List.cons_ne_nil _ _), ?_, ?_⟩
    · rw [List.length_append, List.length_singleton]
      exact Nat.succ_le_succ (hlen l hl)
    · rw [List.dropLast_concat]
      exact hstop l hl
  · obtain ⟨l, -, rfl⟩ := List.mem_map.1 (List.dropLast_subset _ hp)
    exact Or.inl List.getLast?_concat

end Lib

/-
# Loops whose passes meet an environment

A pass of a loop takes a state to the next one or leaves the loop with a result; it may also
not return.  Every pass meets a member of a list of environments, one after another, and the
list bounds the number of passes.  What one pass preserves holds whenever the loop is
entered again, and a loop whose passes return and come down in a measure ends.
-/
import Mathlib.Data.Nat.Notation
import Mathlib.Logic.Relation

namespace Lib

variable {ε σ ρ : Type*}

/-- How one pass of a loop ends. -/
inductive Pass (σ ρ : Type*)
  | again (s : σ)
  | exit (r : ρ)

/-- The loop; `none` when a pass does not return or the environments are used up. -/
def loop (pass : ε → σ → Option (Pass σ ρ)) : List ε → σ → Option ρ
  | [], _ => none
  | e :: es, s =>
    match pass e s with
    | none => none
    | some (.again s') => loop pass es s'
    | some (.exit r) => some r

/-- A pass in one of the environments `E` that enters the loop again. -/
def Again (pass : ε → σ → Option (Pass σ ρ)) (E : List ε) (s s' : σ) : Prop :=
  ∃ e ∈ E, pass e s = some (.again s')

/-- The states with which the loop is entered, from the first one on. -/
def AtHead (pass : ε → σ → Option (Pass σ ρ)) (E : List ε) : σ → σ → Prop :=
  Relation.ReflTransGen (Again pass E)

variable {pass : ε → σ → Option (Pass σ ρ)} {E es : List ε} {s s' : σ} {r : ρ}

lemma loop_again {e : ε} (h : pass e s = some (.again s')) :
    loop pass (e :: es) s = loop pass es s' := by
  rw [loop, h]

lemma loop_exit {e : ε} (h : pass e s = some (.exit r)) : loop pass (e :: es) s = some r := by
  rw [loop, h]

/-- What a pass preserves holds at the head of the loop. -/
lemma AtHead.invariant {P : σ → Prop}
    (hstep : ∀ e ∈ E, ∀ t t', AtHead pass E s t → P t → pass e t = some (.again t') → P t')
    (h : AtHead pass E s s') (hs : P s) : P s' := by
  induction h with
  | refl => exact hs
  | tail hhead hpass ih =>
    obtain ⟨e, he, hpass⟩ := hpass
    exact hstep e he _ _ hhead ih hpass

lemma AtHead.mono {E' : List ε} (hE : E ⊆ E') (h : AtHead pass E s s') : AtHead pass E' s s' := by
  refine Relation.ReflTransGen.mono ?_ _ _ h
  rintro a b ⟨e, he, hpass⟩
  exact ⟨e, hE he, hpass⟩

/-- The loop reaches the states at its head. -/
lemma AtHead.loop_eq {e : ε} (h : AtHead pass [e] s s') :
    ∃ n, ∀ es, loop pass (List.replicate n e ++ es) s = loop pass es s' := by
  induction h using Relation.ReflTransGen.head_induction_on with
  | refl => exact ⟨0, fun es => rfl⟩
  | head hpass _ ih =>
    obtain ⟨e', he, hpass⟩ := hpass
    obtain rfl := List.mem_singleton.1 he
    obtain ⟨n, hn⟩ := ih
    exact ⟨n + 1, fun es => (loop_again hpass).trans (hn es)⟩

/-- A loop that is left has been entered with a state from which a pass leaves it. -/
lemma exists_exit_of_loop (h : loop pass es s = some r) :
    ∃ s', AtHead pass es s s' ∧ ∃ e ∈ es, pass e s' = some (.exit r) := by
  induction es generalizing s with
  | nil => simp [loop] at h
  | cons e es ih =>
    rw [loop] at h
    rcases hp : pass e s with _ | p
    · simp [hp] at h
    cases p with
    | again t =>
      rw [hp] at h
      obtain ⟨u, hu, e', he', hexit⟩ := ih h
      refine ⟨u, .head ⟨e, by simp, hp⟩ (hu.mono (List.subset_cons_self e es)), e', ?_, hexit⟩
      exact List.mem_cons_of_mem _ he'
    | exit r' =>
      rw [hp] at h
      obtain rfl := Option.some.inj h
      exact ⟨s, .refl, e, by simp, hp⟩

/-- A loop ends if every pass returns, and comes down in a measure whenever it does not
leave the loop. -/
lemma exists_loop {P : σ → Prop} {μ : σ → ℕ}
    (hstep : ∀ e ∈ es, ∀ s, P s → ∃ p, pass e s = some p ∧
      ∀ s', p = .again s' → P s' ∧ μ s' < μ s)
    (hs : P s) (hlen : μ s < es.length) : ∃ r, loop pass es s = some r := by
  induction es generalizing s with
  | nil => simp at hlen
  | cons e es ih =>
    obtain ⟨p, hp, hdown⟩ := hstep e (by simp) s hs
    rw [loop, hp]
    cases p with
    | exit r => exact ⟨r, rfl⟩
    | again t =>
      obtain ⟨ht, hlt⟩ := hdown t rfl
      refine ih (fun e he => hstep e (List.mem_cons_of_mem _ he)) ht ?_
      rw [List.length_cons] at hlen
      omega

end Lib

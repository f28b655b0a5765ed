/-
# What the prompt for the last sector accepts

The prompt is meant to accept an empty line, for its default, and the answers.  It accepts
more: a line is cut at a carriage return or a zero character, and what `sscanf` passes over
in a reading is not looked at.
-/
import Partman.Text.Size

namespace Partman

variable {sys : Sys} {start last dflt : Plba} {secSz : Pu64} {inp : Input}

/-- What was typed: the line without its end, a newline with or without a carriage return. -/
def lineText (s : List Char) : List Char :=
  let t := s.takeWhile (· != '\n')
  if t.getLast? = some '\r' then t.dropLast else t

/-- The part of the line that the prompt looks at. -/
def lineCut (s : List Char) : List Char := s.takeWhile fun c => !endsLine c

/-- The prompt accepts only an empty line, for the default, and answers between blanks. -/
def OnlyAnswers (sys : Sys) (start last dflt : Plba) (secSz : Pu64) (inp : Input)
    (s : List Char) : Prop :=
  ∀ v inp', promptSectorExt sys start last dflt secSz (.line s :: inp) = (.ok, v, inp') →
    lineText s = [] ∧ v = dflt ∨ ∃ a : Answer, strTrim (lineText s) = a.text

/-- The lines on which it does so: empty ones, answers, and lines whose part that is looked at
is not empty and has no reading with a sector in the range. -/
def Discerned (sys : Sys) (start last : Plba) (secSz : Pu64) (s : List Char) : Prop :=
  lineText s = [] ∨ (∃ a : Answer, strTrim (lineText s) = a.text) ∨
    lineCut s ≠ [] ∧
      ∀ r : Reading, r.text = strTrim (lineCut s) → ¬ r.Accepted sys start last secSz

/-- An empty line ends where it begins. -/
lemma lineCut_eq_nil {s : List Char} (h : lineText s = []) : lineCut s = [] := by
  unfold lineText at h
  simp only at h
  cases s with
  | nil => rfl
  | cons c s =>
    by_cases hc : c = '\n'
    · simp [lineCut, hc, endsLine]
    · have hn : (c :: s).takeWhile (· != '\n') = c :: s.takeWhile (· != '\n') := by simp [hc]
      rw [hn] at h
      split at h
      · -- the first character is also the last one, a carriage return
        rename_i hlast
        have hnil : s.takeWhile (· != '\n') = [] := by
          simpa using congrArg List.length h
        rw [hnil] at hlast
        have : c = '\r' := by simpa using hlast
        simp [lineCut, this, endsLine]
      · exact absurd h (by simp)

lemma mem_strTrim {s : List Char} {c : Char} (h : c ∈ strTrim s) : c ∈ s := by
  rw [strTrim, List.mem_reverse] at h
  have h1 := (List.dropWhile_suffix _).subset h
  rw [List.mem_reverse] at h1
  exact (List.dropWhile_suffix _).subset h1

lemma zero_not_mem_lineCut (s : List Char) : '\x00' ∉ strTrim (lineCut s) := by
  intro h
  have := List.mem_takeWhile_imp (mem_strTrim h)
  simp [endsLine] at this

/-- **Which lines the prompt accepts**: the empty ones, and the ones with a reading that has
its sector in the range. -/
lemma promptSectorExt_ok_iff {s : List Char} {v : Plba} {inp' : Input} :
    promptSectorExt sys start last dflt secSz (.line s :: inp) = (.ok, v, inp') ↔
      inp' = inp ∧ (lineCut s = [] ∧ v = dflt ∨
        lineCut s ≠ [] ∧ ∃ r : Reading, r.text = strTrim (lineCut s) ∧
          r.Accepted sys start last secSz ∧ r.target sys start last secSz = v) := by
  rw [promptSectorExt_line, show (s.takeWhile fun c => !endsLine c) = lineCut s from rfl]
  have h0 := zero_not_mem_lineCut s
  by_cases hcut : lineCut s = []
  · rw [if_pos hcut]
    simp only [Prod.mk.injEq, true_and, hcut, ne_eq, not_true_eq_false, false_and, or_false]
    exact ⟨fun h => ⟨h.2.symm, h.1.symm⟩, fun h => ⟨h.2.symm, h.1.symm⟩⟩
  · rw [if_neg hcut]
    simp only [hcut, false_and, false_or, ne_eq, not_false_eq_true, true_and]
    constructor
    · intro h
      cases hx : sectorExtOf sys start last secSz (lineCut s) with
      | none => simp [hx] at h
      | some w =>
        simp only [hx, Prod.mk.injEq, true_and] at h
        obtain ⟨r, hr⟩ := exists_reading_of_sectorExtOf h0 hx
        obtain ⟨hacc, ht⟩ := (r.sectorExtOf_iff hr h0).1 hx
        exact ⟨h.2.symm, r, hr, hacc, ht.trans h.1⟩
    · rintro ⟨rfl, r, hr, hacc, ht⟩
      rw [(r.sectorExtOf_iff hr h0).2 ⟨hacc, ht⟩]

/-- **Where the prompt accepts only its grammar**, for every line. -/
theorem onlyAnswers_iff (s : List Char) : OnlyAnswers sys start last dflt secSz inp s ↔
    Discerned sys start last secSz s := by
  rw [OnlyAnswers, Discerned]
  constructor
  · intro h
    by_cases hempty : lineText s = []
    · exact Or.inl hempty
    · by_cases ha : ∃ a : Answer, strTrim (lineText s) = a.text
      · exact Or.inr (Or.inl ha)
      · -- nothing may be accepted then
        have hno : ∀ v inp', promptSectorExt sys start last dflt secSz (.line s :: inp) ≠
            (.ok, v, inp') := fun v inp' hv =>
          (h v inp' hv).elim (fun h => hempty h.1) ha
        refine Or.inr (Or.inr ⟨fun hcut => ?_, fun r hr hacc => ?_⟩)
        · exact hno dflt inp (promptSectorExt_ok_iff.2 ⟨rfl, Or.inl ⟨hcut, rfl⟩⟩)
        · by_cases hcut : lineCut s = []
          · exact hno dflt inp (promptSectorExt_ok_iff.2 ⟨rfl, Or.inl ⟨hcut, rfl⟩⟩)
          · exact hno _ inp (promptSectorExt_ok_iff.2 ⟨rfl, Or.inr ⟨hcut, r, hr, hacc, rfl⟩⟩)
  · rintro (hempty | ha | ⟨hcut, hno⟩) v inp' hv
    · have hcut := lineCut_eq_nil hempty
      rcases (promptSectorExt_ok_iff.1 hv).2 with ⟨-, rfl⟩ | ⟨hne, -⟩
      · exact Or.inl ⟨hempty, rfl⟩
      · exact absurd hcut hne
    · exact Or.inr ha
    · rcases (promptSectorExt_ok_iff.1 hv).2 with ⟨hnil, -⟩ | ⟨-, r, hr, hacc, -⟩
      · exact absurd hnil hcut
      · exact absurd hacc (hno r hr)

lemma Answer.mem_text {a : Answer} {c : Char} (h : c ∈ a.text) :
    IsSign c ∨ isDigit c = true ∨ toUpper c ∈ modifiers := by
  simp only [Answer.text, List.mem_append, Option.mem_toList] at h
  rcases h with (h | h) | h
  · exact Or.inl (a.sign_isSign c h)
  · exact Or.inr (Or.inl (a.digits_isDigit c h))
  · exact Or.inr (Or.inr (a.unit_mem c h))

/-- A number with text behind it is taken for the number. -/
theorem promptSectorExt_garbage :
    promptSectorExt plainSys 1 10 10 512 [.line "5x6\n".toList] = (.ok, 5, []) ∧
      ¬ OnlyAnswers plainSys 1 10 10 512 [] "5x6\n".toList := by
  have hrun : promptSectorExt plainSys 1 10 10 512 [.line "5x6\n".toList] = (.ok, 5, []) := by
    decide
  refine ⟨hrun, fun h => ?_⟩
  rcases h _ _ hrun with ⟨hempty, -⟩ | ⟨a, ha⟩
  · exact absurd hempty (by decide)
  · have hx : 'x' ∈ a.text := ha ▸ by decide
    rcases Answer.mem_text hx with h | h | h
    · exact absurd h (by simp [IsSign])
    · exact absurd h (by decide)
    · exact absurd h (by decide)

end Partman

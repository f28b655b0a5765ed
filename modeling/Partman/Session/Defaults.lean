/-
# Filling a disk with empty lines

The command `n`, answered with empty lines again and again, adds partitions until there is no
free entry or no free sector left.
-/
import Partman.Edit.Defaults
import Partman.Session.Layouts

namespace Partman

open Lib

variable {sys : Sys} {ctx : ImgCtx} {fuel : ℕ} {schem schem₀ : Schem} {p p₀ : Prog}

/-! ## Entries that are free -/

/-- The number of the free entries. -/
def Schem.freeCnt (schem : Schem) : ℕ :=
  ((Finset.range schem.partCnt.toNat).filter fun i =>
    schem.partIsUsed (schem.table i) = false).card

lemma Schem.freeCnt_le (schem : Schem) : schem.freeCnt ≤ schem.partCnt.toNat :=
  (Finset.card_filter_le _ _).trans (Finset.card_range _).le

lemma Schem.full_of_freeCnt (h : schem.freeCnt = 0) : schem.Full := by
  refine Or.inl fun i hi => ⟨hi, ?_⟩
  have hnot := Finset.filter_eq_empty_iff.1 (Finset.card_eq_zero.1 h) (Finset.mem_range.2 hi)
  simpa using hnot

/-- One entry fewer is free once a free one is used. -/
lemma Schem.freeCnt_setPart {i : ℕ} (hi : i < schem.partCnt.toNat) (hfree : i ∉ schem.usedSet)
    {part : SchemPart} (hused : schem.partIsUsed part = true) :
    (schem.setPart i part).freeCnt < schem.freeCnt := by
  refine Finset.card_lt_card (Finset.ssubset_iff_of_subset ?_ |>.2 ⟨i, ?_, ?_⟩)
  · intro j hj
    rw [Finset.mem_filter] at hj ⊢
    refine ⟨hj.1, ?_⟩
    rcases eq_or_ne j i with rfl | hji
    · rw [Schem.setPart_same, Schem.setPart_partIsUsed, hused] at hj
      exact absurd hj.2 (by decide)
    · rw [Schem.setPart_of_ne _ _ hji] at hj
      exact hj.2
  · rw [Finset.mem_filter]
    refine ⟨Finset.mem_range.2 hi, ?_⟩
    rw [← Bool.not_eq_true]
    exact fun hu => hfree ⟨hi, hu⟩
  · rw [Finset.mem_filter, Schem.setPart_same, Schem.setPart_partIsUsed, hused]
    rintro ⟨-, h⟩
    exact absurd h (by decide)

/-- The partitions of the one scheme are partitions of the other. -/
def Schem.Extends (schem schem' : Schem) : Prop :=
  ∀ i r, schem.layout i = some r → schem'.layout i = some r

lemma Schem.Extends.trans {schem₁ schem₂ : Schem} (h : schem.Extends schem₁)
    (h' : schem₁.Extends schem₂) : schem.Extends schem₂ :=
  fun i r hr => h' i r (h i r hr)

lemma Schem.Extends.used {schem' : Schem} (h : schem.Extends schem') {i : ℕ}
    (hi : i ∈ schem.usedSet) :
    i ∈ schem'.usedSet ∧ (schem'.table i).sectors = (schem.table i).sectors := by
  obtain ⟨hi', he⟩ := Schem.layout_some (h i _ (Schem.layout_of_used hi))
  rw [Prod.mk.injEq] at he
  exact ⟨hi', by rw [SchemPart.sectors, SchemPart.sectors, he.1, he.2]⟩

/-- A full scheme stays full. -/
lemma Schem.Full.extends {schem' : Schem} (h : schem.Full) (hext : schem.Extends schem')
    (hframe : schem.SameFrame schem') : schem'.Full := by
  refine h.imp (fun hall i hi => ?_) fun hcov s h1 h2 => ?_
  · rw [hframe.partCnt] at hi
    exact (hext.used (hall i hi)).1
  · rw [hframe.firstUsableLba] at h1
    rw [hframe.lastUsableLba] at h2
    obtain ⟨i, hi, hs⟩ := hcov s h1 h2
    obtain ⟨hi', he⟩ := hext.used hi
    exact ⟨i, hi', he ▸ hs⟩

lemma Schem.extends_setPart {i : ℕ} (hi : i < schem.partCnt.toNat) (hfree : i ∉ schem.usedSet)
    (part : SchemPart) : schem.Extends (schem.setPart i part) := by
  intro j r hr
  have hji : j ≠ i := by
    rintro rfl
    exact hfree (Schem.layout_some hr).1
  rw [Schem.layout_setPart hi, Function.update_of_ne hji, hr]

/-! ## Rounds -/

/-- The command `n` with three empty lines. -/
def blankRound : Input := [.line ['n', '\n'], blank, blank, blank]

/-- An empty line at a prompt for a command is read over. -/
lemma routinePass_blank {rest : Input} (hinp : p.inp = blank :: rest) :
    routinePass fuel ctx sys p = some (.again { p with inp := rest }) := by
  obtain ⟨sc, cur, inp, rng, m⟩ := p
  simp only at hinp
  rw [hinp]
  rfl

lemma atPrompt_blanks (sys : Sys) (fuel : ℕ) (rest : Input) (n : ℕ) {p : Prog}
    (hinp : p.inp = List.replicate n blank ++ rest) :
    AtPrompt fuel ctx [sys] p { p with inp := rest } := by
  induction n generalizing p with
  | zero =>
    obtain rfl : rest = p.inp := hinp.symm
    exact .refl
  | succ n ih =>
    have hstep : routinePass fuel ctx sys p = _ := routinePass_blank hinp
    exact .head ⟨sys, List.mem_singleton_self sys, hstep⟩
      (ih (p := { p with inp := List.replicate n blank ++ rest }) rfl)

section Rounds

variable (hcur : p₀.schemCurT ≠ .cnt) (hfuncs : schem₀.funcs ≠ .cnt) (hfuel : 2 ^ 65 ≤ fuel)
include hcur hfuncs hfuel

/-- One round adds a partition unless the scheme is full. -/
lemma Drawn.round (h : Drawn ctx p₀ schem₀ schem p) (hshort : schem.ShortAligned ctx)
    {rest : Input} (hinp : p.inp = blankRound ++ rest) (sys : Sys) :
    ∃ schem' p', AtPrompt fuel ctx [sys] p p' ∧ Drawn ctx p₀ schem₀ schem' p' ∧
      schem'.ShortAligned ctx ∧ p'.inp = rest ∧ schem.Extends schem' ∧
      (schem.Full ∧ schem' = schem ∨ schem'.freeCnt < schem.freeCnt) := by
  obtain ⟨e, ed, hal, hed⟩ := pmPartAlter_blank sys rest p.rng h.inv h.fits hfuel
    (h.frame.funcs ▸ hfuncs) hshort
  have hpass := routinePass_edit (f := fun ed => pmPartAlter fuel sys ctx ed true)
    (fun _ _ _ _ _ => rfl) hinp (h.schemes hcur) hal
  have hone : AtPrompt fuel ctx [sys] p _ := .single ⟨sys, List.mem_singleton_self sys, hpass⟩
  cases hed with
  | full hfull n rng =>
    refine ⟨schem, _, hone.trans (atPrompt_blanks sys fuel rest n rfl), ?_, hshort, rfl,
      fun i r hr => hr, Or.inl ⟨hfull, rfl⟩⟩
    exact ⟨by rw [h.sc, h.schemCurT, setSchem_setSchem], h.schemCurT, h.img, h.inv, h.fits,
      h.frame⟩
  | added i part rng hi hfree hused hinv hshort' =>
    exact ⟨_, _, hone, h.setPart hinv _ _, hshort', rfl, Schem.extends_setPart hi hfree part,
      Or.inr (Schem.freeCnt_setPart hi hfree hused)⟩

/-- Rounds add partitions until the scheme is full. -/
lemma Drawn.rounds (rest : Input) (sys : Sys) (n : ℕ) (h : Drawn ctx p₀ schem₀ schem p)
    (hshort : schem.ShortAligned ctx)
    (hinp : p.inp = (List.replicate n blankRound).flatten ++ rest) :
    ∃ schem' p', AtPrompt fuel ctx [sys] p p' ∧ Drawn ctx p₀ schem₀ schem' p' ∧ p'.inp = rest ∧
      schem.Extends schem' ∧ (schem'.Full ∨ schem'.freeCnt + n ≤ schem.freeCnt) := by
  induction n generalizing schem p with
  | zero => exact ⟨schem, p, .refl, h, hinp, fun i r hr => hr, Or.inr le_rfl⟩
  | succ n ih =>
    rw [List.replicate_succ, List.flatten_cons, List.append_assoc] at hinp
    obtain ⟨schem₁, p₁, hrun, h₁, hshort₁, hinp₁, hext₁, hless⟩ :=
      h.round hcur hfuncs hfuel hshort hinp sys
    obtain ⟨schem₂, p₂, hrun', h₂, hinp₂, hext₂, hfull⟩ := ih h₁ hshort₁ hinp₁
    refine ⟨schem₂, p₂, hrun.trans hrun', h₂, hinp₂, hext₁.trans hext₂, ?_⟩
    rcases hless with ⟨hfull₁, rfl⟩ | hless
    · exact Or.inl (hfull₁.extends hext₂ (h₁.frame.symm.trans h₂.frame))
    · exact hfull.imp id fun hle => by omega

end Rounds

/-- **Empty lines fill the disk.**  From every scheme that is in order, in which a partition of
one sector is aligned or has nothing free before it: the command `n`, answered with empty lines,
as often as there are entries.  All partitions are still there, no two overlap, and every entry
is used or every usable sector belongs to a partition. -/
theorem full_of_blankRounds (p₀ : Prog) (hsc : p₀.sc.schemes p₀.schemCurT = some schem)
    (hinv : schem.Inv) (hfits : schem.Fits ctx) (hfuncs : schem.funcs ≠ .cnt)
    (hfuel : 2 ^ 65 ≤ fuel) (hshort : schem.ShortAligned ctx) (sys : Sys) {n : ℕ}
    (hn : schem.partCnt.toNat ≤ n) (rest : Input) :
    ∃ p schem', AtPrompt fuel ctx [sys]
        { p₀ with inp := (List.replicate n blankRound).flatten ++ rest } p ∧
      p.sc = p₀.sc.setSchem p₀.schemCurT (some schem') ∧ p.schemCurT = p₀.schemCurT ∧
      p.img = p₀.img ∧ p.inp = rest ∧ schem'.Inv ∧ schem.Extends schem' ∧ schem'.Full := by
  have hcur : p₀.schemCurT ≠ .cnt := by
    intro hc
    rw [hc] at hsc
    exact absurd hsc (by simp [SchemCtx.schemes])
  have h₀ : Drawn ctx p₀ schem schem { p₀ with
      inp := (List.replicate n blankRound).flatten ++ rest } :=
    ⟨(setSchem_schemes_self hsc).symm, rfl, rfl, hinv, hfits, ⟨rfl, rfl, rfl, rfl⟩⟩
  obtain ⟨schem', p, hrun, h, hinp, hext, hfull⟩ :=
    h₀.rounds hcur hfuncs hfuel rest sys n hshort rfl
  refine ⟨p, schem', hrun, h.sc, h.schemCurT, h.img, hinp, h.inv, hext, ?_⟩
  rcases hfull with hfull | hle
  · exact hfull
  · have := schem.freeCnt_le
    exact Schem.full_of_freeCnt (by omega)

/-- A new GPT is filled. -/
theorem full_of_blankRounds_small :
    ∃ p schem', AtPrompt (2 ^ 65) smallCtx [plainSys]
        ⟨(schemCtxNew schemCtxInit smallCtx .gpt zeroRng).2.1, .gpt,
          (List.replicate 128 blankRound).flatten ++ [], zeroRng, zeroImage⟩ p ∧
      p.sc = (schemCtxNew schemCtxInit smallCtx .gpt zeroRng).2.1.setSchem .gpt (some schem') ∧
      p.schemCurT = .gpt ∧ p.img = zeroImage ∧ p.inp = [] ∧ schem'.Inv ∧
      (schemNewInit .gpt smallCtx zeroRng).1.Extends schem' ∧ schem'.Full := by
  have hv := (imgCtxValidate_ok_iff _).1 smallCtx_valid
  obtain ⟨hinv, hfits⟩ := schemInitGpt_good hv (by decide) (by decide) (schemNew .gpt) zeroRng
  have hshort : (schemNewInit .gpt smallCtx zeroRng).1.ShortAligned smallCtx := by
    rintro i ⟨-, hu⟩
    -- no entry of a new scheme is used
    have hzero : schemPartIsUsedGpt SchemPart.zero = true := hu
    exact absurd hzero (by decide)
  exact full_of_blankRounds ⟨(schemCtxNew schemCtxInit smallCtx .gpt zeroRng).2.1, .gpt, [],
    zeroRng, zeroImage⟩ rfl hinv hfits (by decide) le_rfl hshort plainSys (by decide) []

end Partman

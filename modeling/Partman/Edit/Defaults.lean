/-
# Commands with default answers

An empty line answers a prompt with its default.  The command `n`, answered with three empty
lines, adds a partition whenever there is a free entry and a free sector, as long as the search
for a last sector misses no partition; it can only miss those that have one sector.
-/
import Partman.Edit.Answers
import Partman.Edit.Last

namespace Partman

open Lib

variable {sys : Sys} {ctx : ImgCtx} {fuel : ℕ} {schem : Schem} {inp : Input} {i : Pu32}

/-- A line on which nothing is typed. -/
def blank : Fgets := .line ['\n']

lemma promptRange_blank (start last dflt : Pu64) (inp : Input) :
    promptRange start last dflt (blank :: inp) = (.ok, dflt, inp) := rfl

lemma promptSectorExt_blank (sys : Sys) (start last dflt : Plba) (secSz : Pu64) (inp : Input) :
    promptSectorExt sys start last dflt secSz (blank :: inp) = (.ok, dflt, inp) := rfl

/-! ## Full schemes -/

/-- Every usable sector belongs to a partition. -/
def Schem.Covered (schem : Schem) : Prop :=
  ∀ s, schem.firstUsableLba.toNat ≤ s → s ≤ schem.lastUsableLba.toNat →
    ∃ i ∈ schem.usedSet, s ∈ (schem.table i).sectors

/-- There is nothing left to be given away: no entry, or no sector. -/
def Schem.Full (schem : Schem) : Prop :=
  (∀ i < schem.partCnt.toNat, i ∈ schem.usedSet) ∨ schem.Covered

/-- A partition of one sector begins with a multiple of the alignment, or there is no free
sector before it. -/
def Schem.ShortAligned (schem : Schem) (ctx : ImgCtx) : Prop :=
  ∀ i ∈ schem.usedSet, (schem.table i).startLba = (schem.table i).endLba →
    (1 < ctx.align.toNat ∧ ctx.align.toNat ∣ (schem.table i).startLba.toNat) ∨
      ∀ s, schem.firstUsableLba.toNat ≤ s → s < (schem.table i).startLba.toNat →
        ∃ j ∈ schem.usedSet, s ∈ (schem.table j).sectors

/-- To ignore an entry that is not used is to ignore none. -/
lemma others_of_unused (hi : i.toNat ∉ schem.usedSet) :
    schem.others i.toInt64 = schem.usedSet := by
  ext j
  rw [Schem.others, Set.mem_ofPred_eq, UInt64.toUInt64_toInt64]
  constructor
  · rintro ⟨hj, -⟩
    exact hj
  · intro hj
    refine ⟨hj, ?_⟩
    rintro rfl
    exact hi hj

lemma not_free_iff (hi : i.toNat ∉ schem.usedSet) {s : ℕ} :
    ¬ schem.Free i.toInt64 s ↔ ∃ j ∈ schem.usedSet, s ∈ (schem.table j).sectors := by
  rw [Schem.Free, others_of_unused hi]
  push Not
  rfl

lemma covered_of_empty (hi : i.toNat ∉ schem.usedSet) (h : schem.FreeUsable i.toInt64 = ∅) :
    schem.Covered := by
  intro s h1 h2
  rw [← not_free_iff hi]
  intro hfree
  exact (Set.eq_empty_iff_forall_notMem.1 h s) ⟨h1, h2, hfree⟩

/-! ## Missed partitions -/

/-- A partition that is missed has one sector only. -/
lemma Schem.Missed.single {ign : P32} {n : ℕ} (hinv : schem.Inv) (hn : n ∈ schem.usedSet)
    (h : schem.Missed ign n) : (schem.table n).startLba = (schem.table n).endLba := by
  obtain ⟨-, h1, h2⟩ := hinv.bounds n hn
  rw [Schem.Missed] at h
  rw [← UInt64.toNat_inj]
  rcases h with h | ⟨-, j, hlt, hj, hnext, -⟩
  · omega
  · -- the next partition begins right behind the first sector
    obtain ⟨-, h3, -⟩ := hinv.bounds j hj.1
    have hdisj : Disjoint (schem.table n).sectors (schem.table j).sectors :=
      hinv.disjoint hn hj.1 hlt.ne'
    have hapart := (disjoint_Icc_iff h1 h3).1 hdisj
    omega

/-- What the search for a last sector needs. -/
lemma lastPre_of_free (hinv : schem.Inv) {startLba : Plba}
    (h : startLba.toNat ∈ schem.FreeUsable i.toInt64) : LastPre schem i.toInt64 startLba where
  range _ hj := (hinv.bounds _ hj).2.1
  disjoint _ hj _ hk hjk := hinv.disjoint hj hk hjk
  first_le := h.1
  le_last := h.2.1
  free := h.2.2

/-- The proposed last sector does not collide. -/
lemma lastSound_of_shortAligned (hinv : schem.Inv) (hfits : schem.Fits ctx)
    (hshort : schem.ShortAligned ctx) (hi : i.toNat ∉ schem.usedSet) {startLba : Plba}
    (h : startLba.toNat ∈ schem.FreeUsable i.toInt64) :
    LastSound schem i.toInt64 startLba (schemFindLastSector schem ctx i.toInt64 startLba) := by
  have hpre := lastPre_of_free hinv h
  by_cases hmissed : ∃ n, schem.NextAt i.toInt64 startLba n ∧ schem.Missed i.toInt64 n
  · obtain ⟨n, hn, hm⟩ := hmissed
    rw [hpre.sound_iff_of_missed hfits.align hn hm]
    have hused : n ∈ schem.usedSet := hn.1.1.1
    have hlt : startLba.toNat < (schem.table n).startLba.toNat := hn.1.2
    rcases hshort n hused (hm.single hinv hused) with ⟨hal, hdvd⟩ | hnone
    · -- the sector before it is an aligned end
      refine ⟨hal, Or.inr ⟨(schem.table n).startLba.toNat - 1, by omega, by omega, ?_⟩⟩
      rwa [Nat.sub_add_cancel (by omega)]
    · exact absurd h.2.2 ((not_free_iff hi).2 (hnone _ h.1 hlt))
  · rw [hpre.sound_iff_of_met hfits.align fun n hn hm => hmissed ⟨n, hn, hm⟩]
    intro _ hlast
    have := hfits.room'
    omega

/-! ## The command `n` -/

/-- The prompt for an index proposes an entry that is as asked for, if there is one. -/
lemma pmPartPrompt_blank (schem : Schem) (findUsed : Pflag) (inp : Input) :
    (∃ why, pmPartPrompt schem findUsed (blank :: inp) = (.error why, blank :: inp) ∧
        ∀ j < schem.partCnt.toNat, schem.partIsUsed (schem.table j) ≠ findUsed) ∨
      ∃ i : Pu32, pmPartPrompt schem findUsed (blank :: inp) = (.ok i, inp) ∧
        i.toNat < schem.partCnt.toNat ∧ schem.partIsUsed (schem.table i.toNat) = findUsed := by
  rw [pmPartPrompt]
  rcases schemFindPartIndex_cases schem findUsed with hno | ⟨j, hj, he, hused⟩
  · refine Or.inl ⟨_, by rw [if_pos (by simpa using hno)], fun j hj h => ?_⟩
    exact schemFindPartIndex_ne hj h hno
  · obtain ⟨hto, hne⟩ := toNat_partRes hj
    refine Or.inr ⟨(partRes j).toUInt64, ?_, hto.symm ▸ hj, hto.symm ▸ hused⟩
    rw [he, if_neg (by simpa using hne)]
    simp only [promptRange_blank, UInt64.add_sub_cancel, hto, hused]
    cases findUsed <;> simp

/-- The entry that is added does not spoil the order of short partitions. -/
lemma Schem.ShortAligned.setPart (h : schem.ShortAligned ctx)
    (hfree : i.toNat ∉ schem.usedSet) {part : SchemPart}
    (hstart : (1 < ctx.align.toNat ∧ ctx.align.toNat ∣ part.startLba.toNat) ∨
      ∀ s ∈ schem.FreeUsable i.toInt64, part.startLba.toNat ≤ s)
    (hle : part.startLba.toNat ≤ schem.lastUsableLba.toNat) :
    (schem.setPart i.toNat part).ShortAligned ctx := by
  -- what has been used is used still, with the same sectors
  have hkeep : ∀ j ∈ schem.usedSet, j ∈ (schem.setPart i.toNat part).usedSet ∧
      (schem.setPart i.toNat part).table j = schem.table j := by
    intro j hj
    have hji : j ≠ i.toNat := by
      rintro rfl
      exact hfree hj
    have htab := Schem.setPart_of_ne schem part hji
    refine ⟨⟨hj.1, ?_⟩, htab⟩
    rw [htab]
    exact hj.2
  have hbefore : ∀ s, (∃ j ∈ schem.usedSet, s ∈ (schem.table j).sectors) →
      ∃ j ∈ (schem.setPart i.toNat part).usedSet,
        s ∈ ((schem.setPart i.toNat part).table j).sectors := by
    rintro s ⟨j, hj, hs⟩
    obtain ⟨hj', htab⟩ := hkeep j hj
    exact ⟨j, hj', htab ▸ hs⟩
  rintro j ⟨hj, hju⟩ hsingle
  rcases eq_or_ne j i.toNat with rfl | hji
  · rw [Schem.setPart_same]
    refine hstart.imp id fun hleast s h1 h2 => hbefore s ?_
    rw [← not_free_iff hfree]
    exact fun hs => absurd (hleast s ⟨h1, h2.le.trans hle, hs⟩) (by omega)
  · rw [Schem.setPart_of_ne _ _ hji] at hju hsingle ⊢
    exact (h j ⟨hj, hju⟩ hsingle).imp id fun hno s h1 h2 => hbefore s (hno s h1 h2)

/-- What the command `n` does if it is answered with empty lines. -/
inductive Filled (ctx : ImgCtx) (schem : Schem) (inp : Input) : Ed → Prop
  | full (hfull : schem.Full) (n : ℕ) (rng : Rng) :
      Filled ctx schem inp ⟨schem, List.replicate n blank ++ inp, rng⟩
  | added (i : Pu32) (part : SchemPart) (rng : Rng) (hi : i.toNat < schem.partCnt.toNat)
      (hfree : i.toNat ∉ schem.usedSet) (hused : schem.partIsUsed part = true)
      (hinv : (schem.setPart i.toNat part).Inv)
      (hshort : (schem.setPart i.toNat part).ShortAligned ctx) :
      Filled ctx schem inp ⟨schem.setPart i.toNat part, inp, rng⟩

/-- The command `n`, answered with empty lines, adds a partition unless the scheme is full. -/
lemma pmPartAlter_blank (sys : Sys) (inp : Input) (rng : Rng) (hinv : schem.Inv)
    (hfits : schem.Fits ctx) (hfuel : 2 ^ 65 ≤ fuel) (hfuncs : schem.funcs ≠ .cnt)
    (hshort : schem.ShortAligned ctx) :
    ∃ e ed, pmPartAlter fuel sys ctx ⟨schem, blank :: blank :: blank :: inp, rng⟩ true =
      some (e, ed) ∧ Filled ctx schem inp ed := by
  rw [pmPartAlter]
  rcases pmPartPrompt_blank schem false (blank :: blank :: inp) with
    ⟨why, hprompt, hall⟩ | ⟨i, hprompt, hi, hused⟩
  · simp only [Bool.not_true, hprompt]
    refine ⟨_, _, rfl, .full (Or.inl fun j hj => ⟨hj, ?_⟩) 3 rng⟩
    simpa using hall j hj
  have hfree : i.toNat ∉ schem.usedSet := fun hc => absurd (hused.symm.trans hc.2) (by decide)
  simp only [Bool.not_true, hprompt]
  rcases (schem.FreeUsable i.toInt64).eq_empty_or_nonempty with hempty | hsome
  · obtain ⟨res, hres, hexact⟩ := exists_startExact hfits.align hfits.range hfits.room
      (hinv.endsBelow hfits i.toInt64)
    simp only [hres fuel hfuel, hexact.none hempty, Option.map_some]
    exact ⟨_, _, rfl, .full (Or.inr (covered_of_empty hfree hempty)) 2 rng⟩
  obtain ⟨res, hres, hne, hstart, hleast⟩ := exists_startProposed hinv hfits hfuel hsome
  have hsound := lastSound_of_shortAligned hinv hfits hshort hfree hstart
  simp only [hres, Option.map_some, beq_iff_eq, hne, if_false, promptRange_blank, ne_eq,
    not_true_eq_false, pmPartAlterEnd, hsound.found, promptSectorExt_blank, hsound.no_overlap]
  have hroom : schem.Room i res.toUInt64
      (schemFindLastSector schem ctx i.toInt64 res.toUInt64).toUInt64 := by
    refine ⟨hstart.1, hsound.first_le, hsound.le_last, ?_⟩
    rw [← schemFindOverlap_neg_iff hinv hfits.cnt hsound.first_le, hsound.no_overlap]
    decide
  refine ⟨_, _, rfl, .added i _ _ hi hfree ?_ (hroom.inv hinv hfits.cnt)
    (hshort.setPart hfree hleast hstart.2.1)⟩
  rw [partIsUsed_range]
  exact funcsPartInit_used hfuncs _ _

end Partman

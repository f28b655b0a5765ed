/-
# Well-formed contexts over runs of commands

A GPT is never without an MBR beside it, every scheme is kept in the slot of its own type
with the functions of that type and counts no more entries than were allocated, and the
scheme that editing commands apply to is there whenever there is a scheme.  A load that
succeeds establishes this on any platform, and every command keeps it.
-/
import Partman.Disk.Unedited
import Partman.Disk.Context
import Partman.Edit.Invariant

namespace Partman

open Lib

variable {sys : Sys} {ctx : ImgCtx} {m : Image} {schem : Schem} {sc : SchemCtx}

/-- A scheme of type `t` with the functions of `t`, whose entries have been allocated. -/
structure Schem.Formed (schem : Schem) (t : SchemType) : Prop where
  type : schem.type = t
  funcs : schem.funcs = t
  tableLen : schem.tableLen = (schemGetMaxPartCnt t).toNat
  partCnt : schem.partCnt.toNat ≤ schem.tableLen

/-- Every scheme of the context is formed. -/
def SchemCtx.AllFormed (sc : SchemCtx) : Prop :=
  ∀ t schem, sc.schemes t = some schem → schem.Formed t

/-- What holds of the context between two commands. -/
structure SchemCtx.WellFormed (sc : SchemCtx) : Prop where
  mbr_of_gpt : sc.schemGpt ≠ none → sc.schemMbr ≠ none
  formed : sc.AllFormed

/-- The selector names a scheme, or it is `cnt` and there is no scheme. -/
def Prog.Selected (p : Prog) : Prop :=
  p.sc.schemes p.schemCurT ≠ none ∨ (p.schemCurT = .cnt ∧ ∀ t, p.sc.schemes t = none)

/-- What holds of the program between two commands. -/
structure Prog.WellFormed (p : Prog) : Prop where
  sc : p.sc.WellFormed
  selected : p.Selected

/-! ## Schemes that are made or loaded -/

lemma schemInitMbr_formed (r : Rng) (hf : schem.funcs = .mbr) (hl : schem.tableLen = 4) :
    (schemInitMbr schem ctx r).1.Formed .mbr :=
  ⟨rfl, hf, hl, hl.ge⟩

lemma Schem.Formed.setProt {t : SchemType} (h : schem.Formed t) :
    (schemMbrSetProt schem).Formed t :=
  ⟨h.type, h.funcs, h.tableLen, h.partCnt⟩

lemma Schem.Formed.setPart {t : SchemType} (h : schem.Formed t) (i : ℕ) (part : SchemPart) :
    (schem.setPart i part).Formed t :=
  ⟨h.type, h.funcs, h.tableLen, h.partCnt⟩

lemma schemNewInit_formed {t : SchemType} (ht : t ≠ .cnt) (ctx : ImgCtx) (r : Rng) :
    (schemNewInit t ctx r).1.Formed t := by
  cases t with
  | mbr => exact schemInitMbr_formed r rfl rfl
  | gpt => exact ⟨rfl, rfl, rfl, le_rfl⟩
  | cnt => exact absurd rfl ht

/-- Where a copy that is loaded comes from: its header counts no more entries than are
allocated. -/
lemma gptPairLoad_of_ok {hdr : GptHdr} {table : GptTable} {lba : Plba}
    (h : (gptPairLoad sys m hdr table ctx lba).res = .ok) :
    ∃ hdrReg tableReg, (gptPairLoad sys m hdr table ctx lba).hdr = gptHdrRead m hdrReg ∧
      (gptHdrRead m hdrReg).partTableEntryCnt.toNat ≤ 128 ∧
      (gptPairLoad sys m hdr table ctx lba).table = gptTableRead m tableReg table
        (gptHdrRead m hdrReg).partTableEntryCnt (gptHdrRead m hdrReg).partEntrySz := by
  unfold gptPairLoad at h ⊢
  rcases hmap : mapSecs sys ctx lba 1 with _ | hdrReg
  · rw [hmap] at h
    exact absurd h (by simp)
  simp only [hmap] at h ⊢
  by_cases hpres : (!gptIsPresent m hdrReg.toNat) = true
  · rw [if_pos hpres] at h
    exact absurd h (by split <;> simp)
  by_cases hval : (!gptHdrIsValid (gptHdrRead m hdrReg.toNat) lba) = true
  · rw [if_neg hpres, if_pos hval] at h
    exact absurd h (by simp only; split <;> simp)
  by_cases hcnt : (gptHdrRead m hdrReg.toNat).partTableEntryCnt > gptMaxPartCnt
  · rw [if_neg hpres, if_neg hval, if_pos hcnt] at h
    exact absurd h (by simp)
  rw [if_neg hpres, if_neg hval, if_neg hcnt] at h ⊢
  unfold gptPairLoadTable at h ⊢
  rcases hmap' : mapSecs sys ctx (gptHdrRead m hdrReg.toNat).partTableLba
    (gptTableSzSecs ctx (gptHdrRead m hdrReg.toNat)) with _ | tableReg
  · simp only [hmap'] at h
    exact absurd h (by split <;> simp)
  · simp only [hmap']
    exact ⟨hdrReg.toNat, tableReg.toNat, rfl, UInt64.le_iff_toNat_le.1 (UInt64.not_lt.1 hcnt), rfl⟩

lemma gptPairLoad_cnt {hdr : GptHdr} {table : GptTable} {lba : Plba}
    (h : (gptPairLoad sys m hdr table ctx lba).res = .ok) :
    (gptPairLoad sys m hdr table ctx lba).hdr.partTableEntryCnt.toNat ≤ 128 := by
  obtain ⟨hdrReg, tableReg, hhdr, hcnt, -⟩ := gptPairLoad_of_ok h
  rwa [hhdr]

lemma schemLoadGpt_formed (h : (schemLoadGpt sys m (schemNew .gpt) ctx).1 = .ok) :
    (schemLoadGpt sys m (schemNew .gpt) ctx).2.1.Formed .gpt := by
  rcases schemLoadGpt_cases h with ⟨hres, he⟩ | ⟨-, hres, he⟩
  · rw [he]
    exact ⟨rfl, rfl, rfl, gptPairLoad_cnt hres⟩
  · rw [he]
    exact ⟨rfl, rfl, rfl, gptPairLoad_cnt hres⟩

lemma schemLoadMbr_formed (h : (schemLoadMbr sys m (schemNew .mbr) ctx).1 = .ok) :
    (schemLoadMbr sys m (schemNew .mbr) ctx).2.1.Formed .mbr := by
  rw [(schemLoadMbr_ok h).2]
  exact ⟨rfl, rfl, rfl, le_rfl⟩

lemma funcsLoad_formed {t : SchemType} (h : (funcsLoad t sys m (schemNew t) ctx).1 = .ok) :
    (funcsLoad t sys m (schemNew t) ctx).2.1.Formed t := by
  cases t with
  | mbr => exact schemLoadMbr_formed h
  | gpt => exact schemLoadGpt_formed h
  | cnt => exact absurd h (by simp [funcsLoad])

/-! ## Contexts -/

lemma SchemCtx.AllFormed.setSchem (h : sc.AllFormed) {t : SchemType} (hschem : schem.Formed t) :
    (sc.setSchem t (some schem)).AllFormed :=
  forall_setSchem (P := fun u s => s.Formed u) h hschem

lemma schemCtxReset_allFormed (sc : SchemCtx) (keep : Pflag) :
    (schemCtxReset sc keep).AllFormed := by
  intro t schem hs
  cases t <;> exact absurd hs (by simp [schemCtxReset, SchemCtx.schemes])

/-- Loading one scheme keeps the others. -/
lemma schemCtxLoadOne_allFormed (sys : Sys) (m : Image) (ctx : ImgCtx) {l : CtxLoad}
    (h : l.sc.AllFormed) (t : SchemType) :
    (schemCtxLoadOne sys m ctx t l).sc.AllFormed := by
  have hload : (funcsLoad t sys m (schemNew t) ctx).1 = .ok →
      (funcsLoad t sys m (schemNew t) ctx).2.1.Formed t := funcsLoad_formed
  rw [schemCtxLoadOne]
  rcases hl : funcsLoad t sys m (schemNew t) ctx with ⟨_ | _ | _, schem, reads⟩
  · rw [hl] at hload
    intro u s hs
    simp only [setInImg_schemes] at hs
    exact h.setSchem (hload rfl) u s hs
  · exact h
  · exact h

lemma schemCtxCheckProt_wellFormed {l : CtxLoad} (h : l.sc.AllFormed) :
    (schemCtxCheckProt ctx l).sc.WellFormed := by
  rcases schemCtxCheckProt_cases ctx l with ⟨he, hkind⟩ | ⟨mbr, hmbr, -, he⟩ <;> rw [he]
  · refine ⟨fun hne => ?_, h⟩
    obtain ⟨mbr, hm, -⟩ := hkind.resolve_left hne
    simp [hm]
  · -- a protective MBR is made beside the GPT
    have hform : mbr.Formed .mbr := by
      rcases hmbr with ⟨-, rfl⟩ | ⟨hm, -⟩
      · exact ⟨rfl, rfl, rfl, Nat.zero_le _⟩
      · exact h .mbr mbr hm
    refine ⟨fun _ => by simp [SchemCtx.setSchem], ?_⟩
    exact h.setSchem (schemInitMbr_formed l.rng hform.funcs hform.tableLen).setProt

/-- **A load that succeeds leaves a well-formed context**, whatever the platform and the
image. -/
lemma schemCtxLoad_wellFormed {r : Rng} (h : (schemCtxLoad sys m sc ctx r).res = .ok) :
    (schemCtxLoad sys m sc ctx r).sc.WellFormed := by
  have hmbr := schemCtxLoadOne_allFormed sys m ctx (l := ⟨.ok, schemCtxReset sc false, r, []⟩)
    (schemCtxReset_allFormed sc false) .mbr
  have hgpt := schemCtxLoadOne_allFormed sys m ctx hmbr .gpt
  rw [schemCtxLoad_passes h]
  exact schemCtxCheckProt_wellFormed hgpt

lemma schemCtxNew_wellFormed (sc : SchemCtx) (ctx : ImgCtx) (t : SchemType) (r : Rng) :
    (schemCtxNew sc ctx t r).2.1.WellFormed := by
  have hreset := schemCtxReset_allFormed sc true
  cases t with
  | mbr =>
    refine ⟨fun _ => by simp [schemCtxNew], ?_⟩
    exact hreset.setSchem (schemNewInit_formed (t := .mbr) (by decide) ctx r)
  | gpt =>
    refine ⟨fun _ => by simp [schemCtxNew, schemCtxNewGpt], ?_⟩
    have hgpt := hreset.setSchem (schemNewInit_formed (t := .gpt) (by decide) ctx r)
    have hmbr := schemNewInit_formed (t := .mbr) (by decide) ctx (schemNewInit .gpt ctx r).2
    exact hgpt.setSchem hmbr.setProt
  | cnt =>
    exact ⟨fun hne => absurd rfl hne, hreset⟩

/-! ## One command -/

/-- Replacing a scheme that is present does not change which schemes are present. -/
lemma setSchem_eq_none_iff {t : SchemType} (h : sc.schemes t ≠ none) (new : Schem)
    (u : SchemType) : (sc.setSchem t (some new)).schemes u = none ↔ sc.schemes u = none := by
  by_cases hu : u = t
  · obtain rfl := hu
    have hne : u ≠ .cnt := by
      rintro rfl
      exact h rfl
    rw [schemes_setSchem_self _ hne]
    simp [h]
  · rw [schemes_setSchem_of_ne _ hu]

lemma SchemCtx.WellFormed.setSchem (h : sc.WellFormed) {t : SchemType}
    (hne : sc.schemes t ≠ none) (hschem : schem.Formed t) :
    (sc.setSchem t (some schem)).WellFormed := by
  refine ⟨fun hgpt => ?_, h.formed.setSchem hschem⟩
  have hmbr := setSchem_eq_none_iff hne schem .mbr
  have hgpt' := setSchem_eq_none_iff hne schem .gpt
  exact fun hm => h.mbr_of_gpt (fun hg => hgpt (hgpt'.2 hg)) (hmbr.1 hm)

/-- A command keeps the context well-formed. -/
lemma ActionSpec.wellFormed {p : Prog} {a : Action} (hp : p.sc.WellFormed)
    (h : ActionSpec sys ctx p a) : a.prog.sc.WellFormed := by
  cases h with
  | keep hsc _ _ => rwa [hsc]
  | edit schem schem' e hcur hspec hsc _ _ =>
    have hform := hp.formed _ _ hcur
    rw [hsc]
    refine hp.setSchem (by simp [hcur]) ?_
    cases e with
    | refused why =>
      obtain rfl : schem' = schem := hspec
      exact hform
    | accepted i =>
      obtain ⟨-, part, -, rfl⟩ := hspec
      exact hform.setPart _ part
  | new t _ hsc _ _ =>
    rw [hsc]
    exact schemCtxNew_wellFormed _ _ _ _
  | resetProt mbr hmbr hsc _ _ =>
    have hform : mbr.Formed .mbr := hp.formed .mbr mbr hmbr
    rw [hsc]
    exact hp.setSchem (t := .mbr) (by simp [SchemCtx.schemes, hmbr])
      (schemInitMbr_formed p.rng hform.funcs hform.tableLen).setProt
  | write hsc _ _ =>
    have hsch : a.prog.sc.schemes = p.sc.schemes := by rw [hsc, schemCtxSave_schemes]
    have hmbr : a.prog.sc.schemMbr = p.sc.schemMbr := congrFun hsch .mbr
    have hgpt : a.prog.sc.schemGpt = p.sc.schemGpt := congrFun hsch .gpt
    refine ⟨?_, fun t schem hs => hp.formed t schem ?_⟩
    · rw [hmbr, hgpt]
      exact hp.mbr_of_gpt
    · rwa [← hsch]

/-- The type of the context names a scheme if there is one. -/
lemma selected_of_getType {p : Prog} (h : p.schemCurT = schemCtxGetType p.sc) : p.Selected := by
  rw [Prog.Selected, h, schemCtxGetType]
  split_ifs with hgpt hmbr
  · exact Or.inl fun hn => by simp [show p.sc.schemGpt = none from hn] at hgpt
  · exact Or.inl fun hn => by simp [show p.sc.schemMbr = none from hn] at hmbr
  · refine Or.inr ⟨rfl, fun t => ?_⟩
    rw [Bool.not_eq_true, Option.isSome_eq_false_iff, Option.isNone_iff_eq_none] at hgpt hmbr
    cases t
    · exact hmbr
    · exact hgpt
    · rfl

/-- Where the same schemes are present the same selector is good. -/
lemma Prog.Selected.congr {p q : Prog} (hp : p.Selected) (hcur : q.schemCurT = p.schemCurT)
    (hsc : ∀ t, q.sc.schemes t = none ↔ p.sc.schemes t = none) : q.Selected := by
  rcases hp with hp | ⟨hcnt, hp⟩
  · refine Or.inl fun hn => hp ?_
    rw [← hsc, ← hcur]
    exact hn
  · exact Or.inr ⟨hcur.trans hcnt, fun t => (hsc t).2 (hp t)⟩

lemma actionEdit_selected {p : Prog} {f : Ed → Option (Edit × Ed)} {a : Action}
    (hp : p.Selected) (h : actionEdit p f = some a) : a.prog.Selected := by
  rcases actionEdit_cases h with rfl | ⟨schem, edit, ed, hs, -, rfl⟩
  · exact hp
  · exact hp.congr rfl (setSchem_eq_none_iff (by simp [hs]) _)

lemma actionResetProt_selected {p : Prog} (hp : p.Selected) :
    (actionResetProt ctx p).prog.Selected := by
  rw [actionResetProt]
  split
  · next gpt mbr hgpt hmbr =>
    exact hp.congr rfl (setSchem_eq_none_iff (t := .mbr) (by simp [SchemCtx.schemes, hmbr]) _)
  · exact hp

/-- A command leaves a good selector. -/
lemma actionHandle_selected {fuel : ℕ} {p : Prog} {sym : Char} {a : Action} (hp : p.Selected)
    (h : actionHandle fuel sys ctx p sym = some a) : a.prog.Selected := by
  by_cases hsym : isEditing sym
  · obtain ⟨f, hf, -⟩ := actionHandle_edit hsym
    exact actionEdit_selected hp (hf.symm.trans h)
  obtain ⟨a', ha', hother⟩ := actionHandle_other hsym
  obtain rfl := Option.some.inj (ha'.symm.trans h)
  cases hother with
  | keep res => exact hp
  | write _ =>
    -- saving changes no scheme
    refine hp.congr rfl fun t => ?_
    rw [show (actionWrite sys ctx p).prog.sc.schemes = p.sc.schemes from
      schemCtxSave_schemes sys p.sc ctx]
  | new t _ => exact selected_of_getType rfl
  | enterProt hmbr => exact Or.inl hmbr
  | resetProt => exact actionResetProt_selected hp
  | leaveProt => exact selected_of_getType rfl

/-- **One command keeps the program well-formed.** -/
lemma actionHandle_wellFormed {fuel : ℕ} {p : Prog} {sym : Char} {a : Action}
    (hp : p.WellFormed) (h : actionHandle fuel sys ctx p sym = some a) : a.prog.WellFormed :=
  ⟨(actionHandle_spec h).1.wellFormed hp.sc, actionHandle_selected hp.selected h⟩

/-- A run of commands keeps the program well-formed. -/
lemma runActions_keeps_wellFormed {fuel : ℕ} (cmds : List (Sys × Char)) {p p' : Prog}
    (hp : p.WellFormed) (h : runActions fuel ctx p cmds = some p') : p'.WellFormed := by
  induction cmds generalizing p with
  | nil =>
    obtain rfl := Option.some.inj h
    exact hp
  | cons cmd cmds ih =>
    obtain ⟨a, ha, hrest⟩ := Option.bind_eq_some_iff.1 h
    exact ih (actionHandle_wellFormed hp ha) hrest

end Partman

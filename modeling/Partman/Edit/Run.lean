/-
# Runs of commands

`ActionSpec` lists what a command can do to the context and to the image.  The partition
invariant is preserved by each of these, and the searches return as long as it holds, so a
run of commands never gets stuck and never leaves the invariant.
-/
import Partman.Disk.Geometry
import Partman.Edit.Change

namespace Partman

open Lib

variable {ctx : ImgCtx}

/-! ## The effect of a command -/

/-- What a command can do. -/
inductive ActionSpec (sys : Sys) (ctx : ImgCtx) (p : Prog) (a : Action) : Prop
  | keep (hsc : a.prog.sc = p.sc) (himg : a.prog.img = p.img)
      (hedit : a.edit = none ∨ a.edit = some (.refused .noScheme))
  | edit (schem schem' : Schem) (e : Edit) (hcur : p.sc.schemes p.schemCurT = some schem)
      (hspec : EditSpec ctx schem schem' e)
      (hsc : a.prog.sc = p.sc.setSchem p.schemCurT (some schem')) (himg : a.prog.img = p.img)
      (hedit : a.edit = some e)
  | new (t : SchemType) (ht : t = .mbr ∨ t = .gpt)
      (hsc : a.prog.sc = (schemCtxNew p.sc ctx t p.rng).2.1) (himg : a.prog.img = p.img)
      (hedit : a.edit = none)
  | resetProt (mbr : Schem) (hmbr : p.sc.schemMbr = some mbr)
      (hsc : a.prog.sc =
        p.sc.setSchem .mbr (some (schemMbrSetProt (schemInitMbr mbr ctx p.rng).1)))
      (himg : a.prog.img = p.img) (hedit : a.edit = none)
  | write (hsc : a.prog.sc = (schemCtxSave sys p.sc ctx).sc)
      (himg : a.prog.img = stores p.img (schemCtxSave sys p.sc ctx).stores)
      (hedit : a.edit = none)

/-- The commands that edit the table of the current scheme. -/
def isEditing (sym : Char) : Prop := sym = 'n' ∨ sym = 'e' ∨ sym = 't' ∨ sym = 'a' ∨ sym = 'd'

/-- An editing command finds no scheme to edit, or edits the current one. -/
lemma actionEdit_cases {p : Prog} {f : Ed → Option (Edit × Ed)} {a : Action}
    (h : actionEdit p f = some a) : a = ⟨p, .cont, some (.refused .noScheme)⟩ ∨
      ∃ schem edit ed, p.sc.schemes p.schemCurT = some schem ∧
        f ⟨schem, p.inp, p.rng⟩ = some (edit, ed) ∧
        a = ⟨{ p with
            sc := p.sc.setSchem p.schemCurT (some ed.schem)
            inp := ed.inp
            rng := ed.rng }, .cont, some edit⟩ := by
  unfold actionEdit at h
  cases hs : p.sc.schemes p.schemCurT with
  | none =>
    rw [hs] at h
    exact Or.inl (Option.some.inj h).symm
  | some schem =>
    rw [hs] at h
    obtain ⟨⟨edit, ed⟩, he, rfl⟩ := Option.map_eq_some_iff.1 h
    exact Or.inr ⟨schem, edit, ed, rfl, he, rfl⟩

lemma actionEdit_spec {sys : Sys} {p : Prog} {f : Ed → Option (Edit × Ed)} {a : Action}
    (hf : ∀ ed e, f ed = some e → EditSpec ctx ed.schem e.2.schem e.1)
    (h : actionEdit p f = some a) : ActionSpec sys ctx p a ∧ a.edit ≠ none := by
  rcases actionEdit_cases h with rfl | ⟨schem, edit, ed, hs, he, rfl⟩
  · exact ⟨.keep rfl rfl (Or.inr rfl), by simp⟩
  · exact ⟨.edit schem ed.schem edit hs (hf _ _ he) rfl rfl rfl, by simp⟩

lemma actionHandle_edit {fuel : ℕ} {sys : Sys} {p : Prog} {sym : Char} (hsym : isEditing sym) :
    ∃ f, actionHandle fuel sys ctx p sym = actionEdit p f ∧
      ∀ ed e, f ed = some e → EditSpec ctx ed.schem e.2.schem e.1 := by
  rcases hsym with rfl | rfl | rfl | rfl | rfl
  · exact ⟨_, rfl, fun ed e h => pmPartAlter_spec h⟩
  · exact ⟨_, rfl, fun ed e h => pmPartAlter_spec h⟩
  · exact ⟨_, rfl, fun ed e h => Option.some.inj h ▸ pmPartChangeType_spec ctx ed⟩
  · exact ⟨_, rfl, fun ed e h => Option.some.inj h ▸ pmPartToggleBoot_spec ctx ed⟩
  · exact ⟨_, rfl, fun ed e h => Option.some.inj h ▸ pmPartDelete_spec ctx ed⟩

lemma actionResetProt_spec (sys : Sys) (ctx : ImgCtx) (p : Prog) :
    ActionSpec sys ctx p (actionResetProt ctx p) := by
  unfold actionResetProt
  split
  · next gpt mbr hgpt hmbr => exact .resetProt mbr hmbr rfl rfl rfl
  · exact .keep rfl rfl (Or.inl rfl)

/-- What a command that is not an editing one comes to. -/
inductive OtherSpec (sys : Sys) (ctx : ImgCtx) (p : Prog) (sym : Char) : Action → Prop
  | keep (res : ActionRes) : OtherSpec sys ctx p sym { actionKeep p with res := res }
  | write (hw : sym = 'w') : OtherSpec sys ctx p sym (actionWrite sys ctx p)
  | new (t : SchemType) (ht : t = .mbr ∨ t = .gpt) : OtherSpec sys ctx p sym (actionNew ctx p t)
  | enterProt (hmbr : p.sc.schemMbr ≠ none) :
      OtherSpec sys ctx p sym (actionKeep { p with schemCurT := .mbr })
  | resetProt : OtherSpec sys ctx p sym (actionResetProt ctx p)
  | leaveProt : OtherSpec sys ctx p sym (actionKeep { p with schemCurT := schemCtxGetType p.sc })

/-- A command that is not an editing one returns at once. -/
lemma actionHandle_other {fuel : ℕ} {sys : Sys} {p : Prog} {sym : Char} (hsym : ¬ isEditing sym) :
    ∃ a, actionHandle fuel sys ctx p sym = some a ∧ OtherSpec sys ctx p sym a := by
  obtain ⟨hn, he, ht, ha, hd⟩ : sym ≠ 'n' ∧ sym ≠ 'e' ∧ sym ≠ 't' ∧ sym ≠ 'a' ∧ sym ≠ 'd' := by
    simpa [isEditing] using hsym
  unfold actionHandle
  rw [if_neg hn, if_neg he, if_neg ht, if_neg ha, if_neg hd]
  split_ifs with hq hw ho hg hM hprot hh hr
  · exact ⟨_, rfl, .keep _⟩
  · exact ⟨_, rfl, .write hw⟩
  · exact ⟨_, rfl, .new .mbr (Or.inl rfl)⟩
  · exact ⟨_, rfl, .new .gpt (Or.inr rfl)⟩
  · exact ⟨_, rfl, .keep _⟩
  · refine ⟨_, rfl, .enterProt fun hm => hprot (Or.inr ?_)⟩
    rw [hm]
    rfl
  · exact ⟨_, rfl, .resetProt⟩
  · exact ⟨_, rfl, .leaveProt⟩
  · exact ⟨_, rfl, .keep _⟩

lemma OtherSpec.actionSpec {sys : Sys} {p : Prog} {sym : Char} {a : Action}
    (h : OtherSpec sys ctx p sym a) : ActionSpec sys ctx p a := by
  cases h with
  | keep res => exact .keep rfl rfl (Or.inl rfl)
  | write _ =>
    rw [actionWrite]
    exact .write rfl rfl rfl
  | new t ht => exact .new t ht rfl rfl rfl
  | enterProt _ => exact .keep rfl rfl (Or.inl rfl)
  | resetProt => exact actionResetProt_spec sys ctx p
  | leaveProt => exact .keep rfl rfl (Or.inl rfl)

/-- The inversion of a command. -/
lemma actionHandle_spec {fuel : ℕ} {sys : Sys} {p : Prog} {sym : Char} {a : Action}
    (h : actionHandle fuel sys ctx p sym = some a) :
    ActionSpec sys ctx p a ∧ (isEditing sym → a.edit ≠ none) := by
  by_cases hsym : isEditing sym
  · obtain ⟨f, hf, hspec⟩ := actionHandle_edit hsym
    rw [hf] at h
    obtain ⟨h1, h2⟩ := actionEdit_spec hspec h
    exact ⟨h1, fun _ => h2⟩
  · obtain ⟨a', ha', hother⟩ := actionHandle_other hsym
    obtain rfl := Option.some.inj (ha'.symm.trans h)
    exact ⟨hother.actionSpec, fun h => absurd h hsym⟩

end Partman

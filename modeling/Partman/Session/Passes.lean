/-
# Passes of the user interface

What one pass of the loop does: it reads a line, and then at most the lines that the prompts
of its command ask for, so the input gets shorter with every pass.  The loop is left at the
end of the input, by the command `q`, and by a save that fails.
-/
import Partman.Edit.Storable
import Partman.Model.Session

namespace Partman

open Lib

variable {sys : Sys} {ctx : ImgCtx} {fuel : ℕ} {inp : Input}

/-! ## The input that is left -/

lemma scanStr_rest (inp : Input) : (scanStr inp).2.2 = inp.tail := by
  rcases inp with _ | ⟨_ | _ | _, inp⟩ <;> rfl

lemma scanInt_rest (base : ℕ) (inp : Input) : (scanInt base inp).2.2 = inp.tail := by
  rw [scanInt]
  have h := scanStr_rest inp
  generalize scanStr inp = r at h ⊢
  obtain ⟨res, s, rest⟩ := r
  simp only at h ⊢
  split_ifs
  · exact h
  · split <;> exact h

lemma scanGuid_rest (inp : Input) : (scanGuid inp).2.2 = inp.tail := by
  rw [scanGuid]
  have h := scanStr_rest inp
  generalize scanStr inp = r at h ⊢
  obtain ⟨res, s, rest⟩ := r
  simp only at h ⊢
  split_ifs
  · exact h
  · split <;> exact h

lemma scanChar_rest (inp : Input) : (scanChar inp).2.2 = inp.tail := by
  rw [scanChar]
  have h := scanStr_rest inp
  generalize scanStr inp = r at h ⊢
  obtain ⟨res, s, rest⟩ := r
  simp only at h ⊢
  split_ifs
  · exact h
  · split <;> exact h

lemma promptRange_rest (start last dflt : Pu64) (inp : Input) :
    (promptRange start last dflt inp).2.2 = inp.tail := by
  rw [promptRange]
  have h := scanInt_rest 10 inp
  generalize scanInt 10 inp = r at h ⊢
  obtain ⟨res, i, rest⟩ := r
  simp only at h ⊢
  split_ifs <;> exact h

lemma promptSectorExt_rest (sys : Sys) (start last dflt : Plba) (secSz : Pu64) (inp : Input) :
    (promptSectorExt sys start last dflt secSz inp).2.2 = inp.tail := by
  rw [promptSectorExt]
  have h := scanStr_rest inp
  generalize scanStr inp = r at h ⊢
  obtain ⟨res, s, rest⟩ := r
  simp only at h ⊢
  split_ifs
  · exact h
  · exact h
  · split <;> exact h

/-- The prompt for an index reads a line, or none if there is no entry to choose. -/
lemma pmPartPrompt_rest (schem : Schem) (findUsed : Pflag) (inp : Input) :
    (pmPartPrompt schem findUsed inp).2 <:+ inp := by
  rw [pmPartPrompt]
  have h := promptRange_rest 1 schem.partCnt
    ((schemFindPartIndex schem findUsed).toUInt64 + 1) inp
  generalize promptRange 1 schem.partCnt
    ((schemFindPartIndex schem findUsed).toUInt64 + 1) inp = r at h ⊢
  obtain ⟨res, i, rest⟩ := r
  simp only at h ⊢
  subst h
  split_ifs
  · exact List.suffix_rfl
  · exact List.suffix_rfl
  all_goals exact List.tail_suffix inp

lemma pmPartDelete_rest (ed : Ed) : (pmPartDelete ed).2.inp <:+ ed.inp := by
  rw [pmPartDelete]
  have h := pmPartPrompt_rest ed.schem true ed.inp
  generalize pmPartPrompt ed.schem true ed.inp = r at h ⊢
  rcases r with ⟨why | i, rest⟩ <;> exact h

lemma pmPartToggleBoot_rest (ed : Ed) : (pmPartToggleBoot ed).2.inp <:+ ed.inp := by
  rw [pmPartToggleBoot]
  split_ifs
  · exact List.suffix_rfl
  have h := pmPartPrompt_rest ed.schem true ed.inp
  generalize pmPartPrompt ed.schem true ed.inp = r at h ⊢
  rcases r with ⟨why | i, rest⟩ <;> exact h

lemma pmPartChangeTypeMbr_rest (ed : Ed) (i : Pu32) :
    (pmPartChangeTypeMbr ed i).2.inp <:+ ed.inp := by
  rw [pmPartChangeTypeMbr]
  have h := scanInt_rest 16 ed.inp
  generalize scanInt 16 ed.inp = r at h ⊢
  obtain ⟨res, t, rest⟩ := r
  simp only at h ⊢
  subst h
  split_ifs <;> exact List.tail_suffix ed.inp

lemma pmPartChangeTypeGpt_rest (ed : Ed) (i : Pu32) :
    (pmPartChangeTypeGpt ed i).2.inp <:+ ed.inp := by
  rw [pmPartChangeTypeGpt]
  have h := scanGuid_rest ed.inp
  generalize scanGuid ed.inp = r at h ⊢
  obtain ⟨res, guid, rest⟩ := r
  simp only at h ⊢
  subst h
  split_ifs <;> exact List.tail_suffix ed.inp

lemma pmPartChangeType_rest (ed : Ed) : (pmPartChangeType ed).2.inp <:+ ed.inp := by
  rw [pmPartChangeType]
  have h := pmPartPrompt_rest ed.schem true ed.inp
  generalize pmPartPrompt ed.schem true ed.inp = r at h ⊢
  rcases r with ⟨why | i, rest⟩
  · exact h
  simp only
  split
  · exact (pmPartChangeTypeMbr_rest _ i).trans h
  · exact (pmPartChangeTypeGpt_rest _ i).trans h
  · exact h

lemma pmPartAlterEnd_rest (sys : Sys) (ctx : ImgCtx) (ed : Ed) (isNew : Pflag) (i : Pu32)
    (startLba : Plba) : (pmPartAlterEnd sys ctx ed isNew i startLba).2.inp <:+ ed.inp := by
  rw [pmPartAlterEnd]
  have h := promptSectorExt_rest sys startLba ed.schem.lastUsableLba
    (schemFindLastSector ed.schem ctx i.toInt64 startLba).toUInt64 ctx.secSz ed.inp
  generalize promptSectorExt sys startLba ed.schem.lastUsableLba
    (schemFindLastSector ed.schem ctx i.toInt64 startLba).toUInt64 ctx.secSz ed.inp = r at h ⊢
  obtain ⟨res, endLba, rest⟩ := r
  simp only at h ⊢
  subst h
  split_ifs
  · exact List.suffix_rfl
  all_goals exact List.tail_suffix ed.inp

lemma pmPartAlter_rest {ed : Ed} {isNew : Pflag} {e : Edit × Ed}
    (h : pmPartAlter fuel sys ctx ed isNew = some e) : e.2.inp <:+ ed.inp := by
  rw [pmPartAlter] at h
  have hp := pmPartPrompt_rest ed.schem (!isNew) ed.inp
  generalize pmPartPrompt ed.schem (!isNew) ed.inp = r at h hp
  rcases r with ⟨why | i, rest⟩
  · obtain rfl := Option.some.inj h
    exact hp
  simp only [Option.map_eq_some_iff] at h
  obtain ⟨defLba, -, rfl⟩ := h
  have hr := promptRange_rest ed.schem.firstUsableLba ed.schem.lastUsableLba defLba.toUInt64 rest
  generalize promptRange ed.schem.firstUsableLba ed.schem.lastUsableLba defLba.toUInt64 rest = r
    at hr ⊢
  obtain ⟨res, startLba, rest'⟩ := r
  simp only at hp hr ⊢
  subst hr
  split_ifs
  · exact hp
  · exact (List.tail_suffix rest).trans hp
  · exact (pmPartAlterEnd_rest sys ctx _ isNew i startLba).trans
      ((List.tail_suffix rest).trans hp)

lemma actionEdit_rest {p : Prog} {f : Ed → Option (Edit × Ed)} {a : Action}
    (hf : ∀ ed e, f ed = some e → e.2.inp <:+ ed.inp) (h : actionEdit p f = some a) :
    a.prog.inp <:+ p.inp := by
  rcases actionEdit_cases h with rfl | ⟨schem, edit, ed, -, hed, rfl⟩
  · exact List.suffix_rfl
  · exact hf _ _ hed

/-- A command leaves an end of the input. -/
lemma actionHandle_rest {p : Prog} {sym : Char} {a : Action}
    (h : actionHandle fuel sys ctx p sym = some a) : a.prog.inp <:+ p.inp := by
  by_cases hed : isEditing sym
  · rcases hed with rfl | rfl | rfl | rfl | rfl
    · exact actionEdit_rest (fun ed e he => pmPartAlter_rest he) h
    · exact actionEdit_rest (fun ed e he => pmPartAlter_rest he) h
    · exact actionEdit_rest (fun ed e he => Option.some.inj he ▸ pmPartChangeType_rest ed) h
    · exact actionEdit_rest (fun ed e he => Option.some.inj he ▸ pmPartToggleBoot_rest ed) h
    · exact actionEdit_rest (fun ed e he => Option.some.inj he ▸ pmPartDelete_rest ed) h
  obtain ⟨a', ha', hother⟩ := actionHandle_other hed
  obtain rfl := Option.some.inj (ha'.symm.trans h)
  cases hother with
  | resetProt =>
    rw [actionResetProt]
    split <;> exact List.suffix_rfl
  | _ => exact List.suffix_rfl

/-! ## How a command leaves the loop -/

lemma schemCtxNew_ok (sc : SchemCtx) (ctx : ImgCtx) {t : SchemType} (ht : t = .mbr ∨ t = .gpt)
    (r : Rng) : (schemCtxNew sc ctx t r).1 = .ok := by
  rcases ht with rfl | rfl <;> rfl

/-- The loop goes on after a command, except for `q` and for a save that fails. -/
inductive Stops (sys : Sys) (ctx : ImgCtx) (p : Prog) (sym : Char) (a : Action) : Prop
  | cont (hres : a.res = .cont)
      (hsave : sym = 'w' → (schemCtxSave sys p.sc ctx).res = .ok)
  | quit (hsym : sym = 'q') (hprog : a.prog = p) (hres : a.res = .exitOk)
  | failed (hsym : sym = 'w') (ha : a = actionWrite sys ctx p)
      (hsave : (schemCtxSave sys p.sc ctx).res = .fail) (hres : a.res = .exitFatal)

lemma actionHandle_stops {p : Prog} {sym : Char} {a : Action}
    (h : actionHandle fuel sys ctx p sym = some a) : Stops sys ctx p sym a := by
  by_cases hq : sym = 'q'
  · subst hq
    obtain rfl := Option.some.inj h
    exact .quit rfl rfl rfl
  by_cases hw : sym = 'w'
  · subst hw
    obtain rfl : actionWrite sys ctx p = a := Option.some.inj h
    rcases hs : (schemCtxSave sys p.sc ctx).res
    · exact .failed rfl rfl hs (by simp [actionWrite, hs, actionRes])
    · exact .cont (by simp [actionWrite, hs, actionRes]) fun _ => hs
  refine .cont ?_ fun hw' => absurd hw' hw
  by_cases hed : isEditing sym
  · obtain ⟨f, hf, -⟩ := actionHandle_edit hed
    rcases actionEdit_cases (hf.symm.trans h) with rfl | ⟨schem, edit, ed, -, -, rfl⟩ <;> rfl
  rw [isEditing, not_or, not_or, not_or, not_or] at hed
  obtain ⟨hn, he, ht, ha, hd⟩ := hed
  rw [actionHandle, if_neg hq, if_neg hn, if_neg he, if_neg ht, if_neg ha, if_neg hd,
    if_neg hw] at h
  split_ifs at h
  all_goals obtain rfl := Option.some.inj h
  · simp [actionNew, schemCtxNew_ok, actionRes]
  · simp [actionNew, schemCtxNew_ok, actionRes]
  · rfl
  · rfl
  · rw [actionResetProt]
    split <;> rfl
  · rfl
  · rfl

@[simp] lemma actionWrite_sc (sys : Sys) (ctx : ImgCtx) (p : Prog) :
    (actionWrite sys ctx p).prog.sc = (schemCtxSave sys p.sc ctx).sc := rfl

@[simp] lemma actionWrite_img (sys : Sys) (ctx : ImgCtx) (p : Prog) :
    (actionWrite sys ctx p).prog.img = stores p.img (schemCtxSave sys p.sc ctx).stores := rfl

/-- The session goes on behind a `w` only if it has saved. -/
lemma actionHandle_write {p : Prog} {a : Action} (h : actionHandle fuel sys ctx p 'w' = some a)
    (hres : a.res = .cont) : (schemCtxSave sys p.sc ctx).res = .ok ∧
      a.prog.sc = (schemCtxSave sys p.sc ctx).sc ∧
      a.prog.img = stores p.img (schemCtxSave sys p.sc ctx).stores := by
  have ha : actionWrite sys ctx p = a := Option.some.inj h
  rw [← ha, actionWrite_sc, actionWrite_img]
  refine ⟨?_, rfl, rfl⟩
  cases actionHandle_stops h with
  | cont _ hsave => exact hsave rfl
  | quit hq _ _ => simp at hq
  | failed _ _ _ hf => simp [hf] at hres

/-! ## One pass -/

/-- The command that the next line is handled as. -/
def lineSym (inp : Input) : Char := if (scanChar inp).1 ≠ .ok then '\x00' else (scanChar inp).2.1

/-- The program once the next line has been read. -/
def Prog.readLine (p : Prog) : Prog := { p with inp := p.inp.tail }

@[simp] lemma Prog.readLine_sc (p : Prog) : p.readLine.sc = p.sc := rfl

@[simp] lemma Prog.readLine_img (p : Prog) : p.readLine.img = p.img := rfl

lemma Prog.WellFormed.readLine {p : Prog} (h : p.WellFormed) : p.readLine.WellFormed :=
  ⟨h.sc, h.selected⟩

/-- What a pass does: it meets the end of the input, or it handles a command. -/
inductive PassSpec (fuel : ℕ) (ctx : ImgCtx) (sys : Sys) (p : Prog) :
    Pass Prog (Pres × Prog) → Prop
  | eof (hres : (scanChar p.inp).1 = .eof) : PassSpec fuel ctx sys p (.exit (.ok, p.readLine))
  | command (a : Action) (hshort : p.inp.tail.length < p.inp.length)
      (ha : actionHandle fuel sys ctx p.readLine (lineSym p.inp) = some a) :
      PassSpec fuel ctx sys p a.pass

lemma routinePass_spec {p : Prog} {x : Pass Prog (Pres × Prog)}
    (h : routinePass fuel ctx sys p = some x) : PassSpec fuel ctx sys p x := by
  rw [routinePass] at h
  simp only [scanChar_rest] at h
  by_cases heof : (scanChar p.inp).1 = .eof
  · rw [if_pos heof] at h
    obtain rfl := Option.some.inj h
    exact .eof heof
  · rw [if_neg heof, Option.map_eq_some_iff] at h
    obtain ⟨a, ha, rfl⟩ := h
    refine .command a ?_ ha
    -- without a line there would have been the end of the input
    cases hi : p.inp with
    | nil => exact absurd (congrArg (fun i => (scanChar i).1) hi) heof
    | cons line inp => simp

/-- A pass returns if its command does. -/
lemma exists_routinePass {p : Prog}
    (h : ∃ a, actionHandle fuel sys ctx p.readLine (lineSym p.inp) = some a) :
    ∃ x, routinePass fuel ctx sys p = some x := by
  obtain ⟨a, ha⟩ := h
  rw [routinePass]
  simp only [scanChar_rest]
  by_cases heof : (scanChar p.inp).1 = .eof
  · exact ⟨_, if_pos heof⟩
  · rw [if_neg heof]
    exact ⟨a.pass, Option.map_eq_some_iff.2 ⟨a, ha, rfl⟩⟩

/-- A pass that enters the loop again has handled a command and shortened the input. -/
lemma routinePass_again {p p' : Prog} (h : routinePass fuel ctx sys p = some (.again p')) :
    p'.inp.length < p.inp.length ∧ ∃ a,
      actionHandle fuel sys ctx p.readLine (lineSym p.inp) = some a ∧ a.res = .cont ∧
        a.prog = p' := by
  generalize hx : Pass.again p' = x at h
  cases routinePass_spec h with
  | eof _ => simp at hx
  | command a hshort ha =>
    rw [Action.pass] at hx
    rcases hr : a.res <;> simp only [hr] at hx
    · obtain rfl := Pass.again.inj hx
      exact ⟨lt_of_le_of_lt (actionHandle_rest ha).length_le hshort, a, ha, hr, rfl⟩
    · simp at hx
    · simp at hx

end Partman

/-
# Saves and partition space

A save puts both tables where a table of 128 entries has its place, and as many entries
there as the scheme counts, but keeps the usable range that was loaded.  So it stays out of
that range exactly when neither of the two places reaches into it.  No command changes the
range or the count, so this is decided by what was loaded.
-/
import Partman.Edit.Allocated
import Partman.Disk.Flags

namespace Partman

open Lib

variable {sys : Sys} {ctx : ImgCtx} {m : Image} {schem gpt : Schem} {sc : SchemCtx}

/-! ## What one save writes -/

/-- The byte lies in a usable sector. -/
def Schem.InUsable (schem : Schem) (ctx : ImgCtx) (a : ℕ) : Prop :=
  schem.firstUsableLba.toNat * ctx.sec ≤ a ∧ a < (schem.lastUsableLba.toNat + 1) * ctx.sec

/-- The byte lies in a sector of the partition. -/
def SchemPart.InPart (part : SchemPart) (ctx : ImgCtx) (a : ℕ) : Prop :=
  part.startLba.toNat * ctx.sec ≤ a ∧ a < (part.endLba.toNat + 1) * ctx.sec

/-- The counted entries, from the given offset on, end before the usable sectors or start
behind them. -/
def Schem.ClearAt (schem : Schem) (ctx : ImgCtx) (off : ℕ) : Prop :=
  off + 128 * schem.partCnt.toNat ≤ schem.firstUsableLba.toNat * ctx.sec ∨
    (schem.lastUsableLba.toNat + 1) * ctx.sec ≤ off

/-- There is no entry, or both tables are clear of the usable sectors where a save puts
them. -/
def Schem.TablesClear (schem : Schem) (ctx : ImgCtx) : Prop :=
  schem.partCnt = 0 ∨ (schem.ClearAt ctx ctx.primTabOff ∧ schem.ClearAt ctx ctx.secTabOff)

/-- The usable sectors are a range between the two headers. -/
structure Schem.BetweenHdrs (schem : Schem) (ctx : ImgCtx) : Prop where
  first : 2 ≤ schem.firstUsableLba.toNat
  range : schem.firstUsableLba.toNat ≤ schem.lastUsableLba.toNat
  last : schem.lastUsableLba.toNat + 1 < ctx.secs

/-- What a save writes comes from one of its four operations. -/
lemma mem_schemCtxSave {s : Store} (hs : s ∈ (schemCtxSave sys sc ctx).stores) :
    ∃ t, s ∈ (removal sys sc ctx t).2 ∨ s ∈ (saving sys sc ctx t).2 := by
  rw [schemCtxSave_eq] at hs
  split_ifs at hs
  all_goals simp only [List.mem_append] at hs
  · exact ⟨.mbr, Or.inl hs⟩
  · rcases hs with hs | hs
    · exact ⟨.mbr, Or.inl hs⟩
    · exact ⟨.gpt, Or.inl hs⟩
  · rcases hs with (hs | hs) | hs
    · exact ⟨.mbr, Or.inl hs⟩
    · exact ⟨.gpt, Or.inl hs⟩
    · exact ⟨.mbr, Or.inr hs⟩
  all_goals
    rcases hs with ((hs | hs) | hs) | hs
    · exact ⟨.mbr, Or.inl hs⟩
    · exact ⟨.gpt, Or.inl hs⟩
    · exact ⟨.mbr, Or.inr hs⟩
    · exact ⟨.gpt, Or.inr hs⟩

/-- With a GPT in the context a save writes to the boot record and to the pieces of the
GPT. -/
lemma mem_schemCtxSave_gpt (hsc : sc.WellFormed) (hgpt : sc.schemGpt = some gpt) {s : Store}
    (hs : s ∈ (schemCtxSave sys sc ctx).stores) : InMbr s.1 ∨ s ∈ saveStores gpt ctx := by
  have hfuncs : gpt.funcs = .gpt := (hsc.formed .gpt gpt hgpt).funcs
  obtain ⟨t, hs | hs⟩ := mem_schemCtxSave hs
  · rw [removal] at hs
    split_ifs at hs with hcond
    · cases t with
      | mbr =>
        rcases mbrSave_cases sys Mbr.zero ctx with e | e
        · simp [funcsRemove, schemRemoveMbr, e] at hs
        · rw [funcsRemove, schemRemoveMbr, e] at hs
          exact Or.inl (mem_mbrWrite hs)
      | gpt =>
        -- the GPT of the context is not removed
        exact absurd hcond.2 (by simp [SchemCtx.schemes, hgpt])
      | cnt => exact absurd hcond.1 (by simp [SchemCtx.schemesInImg])
    · exact absurd hs (by simp)
  · cases t with
    | mbr =>
      exact Or.inl (mem_saving_mbr (fun mbr hm => (hsc.formed .mbr mbr hm).funcs) hs)
    | gpt =>
      rw [saving_gpt hgpt hfuncs] at hs
      exact Or.inr ((schemSaveGpt_spec sys gpt ctx).1.subset hs)
    | cnt => exact absurd hs (by simp [saving_none .cnt rfl])

lemma Schem.ClearAt.not_inUsable {off a : ℕ} (h : schem.ClearAt ctx off) (h1 : off ≤ a)
    (h2 : a < off + 128 * schem.partCnt.toNat) : ¬ schem.InUsable ctx a := by
  rintro ⟨h3, h4⟩
  rcases h with h | h <;> omega

/-- **A save stays out of the usable sectors** when both tables are clear of them. -/
lemma not_inUsable_of_clear (hv : ctx.Valid) (hsc : sc.WellFormed)
    (hgpt : sc.schemGpt = some gpt) (hbetween : gpt.BetweenHdrs ctx)
    (hclear : gpt.TablesClear ctx) {s : Store} (hs : s ∈ (schemCtxSave sys sc ctx).stores) :
    ¬ gpt.InUsable ctx s.1 := by
  obtain ⟨h0, h1, h2, h3, h4⟩ := hv.layout
  have hprim : ctx.primTabOff ≤ gpt.firstUsableLba.toNat * ctx.sec :=
    Nat.mul_le_mul_right _ hbetween.first
  have hsec : (gpt.lastUsableLba.toNat + 1) * ctx.sec ≤ ctx.secHdrOff :=
    Nat.mul_le_mul_right _ (Nat.le_sub_one_of_lt hbetween.last)
  have hcnt : gpt.partCnt.toNat ≤ 128 := by
    have hform := hsc.formed .gpt gpt hgpt
    exact le_of_le_of_eq hform.partCnt hform.tableLen
  rintro ⟨h5, h6⟩
  have hlen : ctx.primHdrOff = ctx.sec := rfl
  -- the tables, at either of the two places
  have htable : ∀ off, (ctx.primTabOff = off ∨ ctx.secTabOff = off) → off ≤ s.1 →
      ¬ s.1 < off + 128 * gpt.partCnt.toNat := by
    intro off hoff h7 h8
    rcases hclear with hz | ⟨hc1, hc2⟩
    · rw [hz, UInt64.toNat_zero] at h8
      omega
    · rcases hoff with rfl | rfl
      · exact hc1.not_inUsable h7 h8 ⟨h5, h6⟩
      · exact hc2.not_inUsable h7 h8 ⟨h5, h6⟩
  rcases mem_schemCtxSave_gpt hsc hgpt hs with hm | hs
  · rcases hm with hm | hm <;> omega
  · rcases mem_saveStores hv hcnt hs with (h7 | h7) | (h7 | h7)
    · omega
    · exact htable _ (Or.inr rfl) h7.1 h7.2
    · omega
    · exact htable _ (Or.inl rfl) h7.1 h7.2

/-! ## What one save overwrites -/

/-- The first byte of an entry is written. -/
lemma exists_mem_gptPartEntWrite (buf : ℕ) (entry : GptPartEnt) :
    ∃ s ∈ gptPartEntWrite buf entry, s.1 = buf := by
  have hmem : ∃ s ∈ guidWrite buf entry.typeGuid, s.1 = buf := by
    rw [guidWrite_eq]
    rcases hb : guidBytes entry.typeGuid with _ | ⟨b, bs⟩
    · exact absurd (congrArg List.length hb) (by simp)
    · exact ⟨(buf, b), by simp [storeAt], rfl⟩
  obtain ⟨s, hs, ha⟩ := hmem
  refine ⟨s, ?_, ha⟩
  simp only [gptPartEntWrite, List.mem_append]
  exact Or.inl (Or.inl (Or.inl (Or.inl (Or.inl hs))))

/-- A table that is not clear of the usable sectors has an entry that starts in them: both
the table and the sectors are made of whole entries. -/
lemma exists_entry_inUsable (hv : ctx.Valid) {k : ℕ} (hcnt : 0 < schem.partCnt.toNat)
    (hrange : schem.firstUsableLba.toNat ≤ schem.lastUsableLba.toNat)
    (h : ¬ schem.ClearAt ctx (k * ctx.sec)) :
    ∃ i < schem.partCnt.toNat, schem.InUsable ctx (k * ctx.sec + 128 * i) := by
  rw [Schem.ClearAt, not_or, Nat.not_le, Nat.not_le] at h
  obtain ⟨h1, h2⟩ := h
  have hlt := Nat.mul_lt_mul_of_pos_right (Nat.lt_succ_of_le hrange) hv.sec_pos
  rw [Nat.succ_eq_add_one] at hlt
  by_cases hk : schem.firstUsableLba.toNat * ctx.sec ≤ k * ctx.sec
  · exact ⟨0, hcnt, by omega, by omega⟩
  · -- the entry at the first usable sector
    obtain ⟨q, hq⟩ : 128 ∣ ctx.sec := by
      rcases hv.sec_cases with e | e | e | e <;> rw [e] <;> decide
    have hi : k * ctx.sec + 128 * ((schem.firstUsableLba.toNat - k) * q) =
        schem.firstUsableLba.toNat * ctx.sec := by
      have hle : k ≤ schem.firstUsableLba.toNat := by
        by_contra hgt
        exact hk (Nat.mul_le_mul_right _ (by omega))
      rw [Nat.mul_left_comm, ← hq, ← Nat.add_mul, Nat.add_sub_of_le hle]
    exact ⟨(schem.firstUsableLba.toNat - k) * q, by omega, by omega, by omega⟩

/-- On a platform that serves the image a save of a context with a GPT ends with all of the
stores of the GPT. -/
lemma saveStores_suffix (hv : ctx.Valid) (hs : sys.Serves ctx) (hsc : sc.WellFormed)
    (hgpt : sc.schemGpt = some gpt) (hcnt : gpt.partCnt ≠ 0) :
    saveStores gpt ctx <:+ (schemCtxSave sys sc ctx).stores := by
  have hform := hsc.formed .gpt gpt hgpt
  have hle : gpt.partCnt.toNat ≤ 128 := le_of_le_of_eq hform.partCnt hform.tableLen
  have hremM : (removal sys sc ctx .mbr).1 ≠ .fail := by
    rw [removal]
    split_ifs
    · simp [funcsRemove, schemRemoveMbr, mbrSave_of_serves hv hs]
    · simp
  have hremG : removal sys sc ctx .gpt = (.ok, []) :=
    if_neg fun h => absurd h.2 (by simp [SchemCtx.schemes, hgpt])
  have hsavM : (saving sys sc ctx .mbr).1 ≠ .fail := by
    cases hm : sc.schemMbr with
    | none => simp [saving_none .mbr hm]
    | some mbr =>
      simp [saving_mbr hm (hsc.formed .mbr mbr hm).funcs, mbrSave_of_serves hv hs]
  have hsavG : saving sys sc ctx .gpt = (.ok, saveStores gpt ctx) := by
    rw [saving_gpt hgpt hform.funcs]
    exact schemSaveGpt_of_serves hv hs hle
      ((tableWindow_iff hv sys hle rfl).2 (Or.inl hcnt))
      ((tableWindow_iff hv sys hle rfl).2 (Or.inl hcnt))
  rw [schemCtxSave_eq, if_neg hremM, hremG, if_neg (by simp), if_neg hsavM, hsavG,
    if_neg (by simp)]
  exact List.suffix_append _ _

/-- **A save reaches into the usable sectors** when a table is not clear of them. -/
lemma exists_inUsable_of_not_clear (hv : ctx.Valid) (hs : sys.Serves ctx) (hsc : sc.WellFormed)
    (hgpt : sc.schemGpt = some gpt) (hbetween : gpt.BetweenHdrs ctx)
    (hclear : ¬ gpt.TablesClear ctx) :
    ∃ s ∈ (schemCtxSave sys sc ctx).stores, gpt.InUsable ctx s.1 := by
  simp only [Schem.TablesClear, not_or, not_and_or] at hclear
  obtain ⟨hcnt, hnot⟩ := hclear
  have hform := hsc.formed .gpt gpt hgpt
  have hle : gpt.partCnt.toNat ≤ 128 := le_of_le_of_eq hform.partCnt hform.tableLen
  have hpos : 0 < gpt.partCnt.toNat := Nat.pos_of_ne_zero fun h => hcnt (eq_zero_iff_toNat.2 h)
  have hrange := hbetween.range
  -- an entry of either table that starts in the usable sectors
  have hstore : ∀ off, tableStores gpt off ⊆ saveStores gpt ctx → ∀ i < gpt.partCnt.toNat,
      gpt.InUsable ctx (off + 128 * i) →
      ∃ s ∈ (schemCtxSave sys sc ctx).stores, gpt.InUsable ctx s.1 := by
    intro off hsub i hi hin
    obtain ⟨s, hmem, ha⟩ := exists_mem_gptPartEntWrite (off + 128 * i) (savedTable gpt i)
    refine ⟨s, (saveStores_suffix hv hs hsc hgpt hcnt).subset (hsub ?_), ha ▸ hin⟩
    rw [tableStores, gptTableWrite_eq hle]
    exact List.mem_flatMap.2 ⟨i, List.mem_range.2 hi, hmem⟩
  rcases hnot with hnot | hnot
  · obtain ⟨i, hi, hin⟩ := exists_entry_inUsable hv hpos hrange hnot
    refine hstore _ (fun s hs => ?_) i hi hin
    rw [saveStores_eq hv]
    exact List.mem_append_right _ (List.mem_append_right _ hs)
  · obtain ⟨i, hi, hin⟩ := exists_entry_inUsable hv hpos hrange hnot
    refine hstore _ (fun s hs => ?_) i hi hin
    rw [saveStores_eq hv]
    exact List.mem_append_left _ (List.mem_append_right _ hs)

/-! ## Partitions stay inside the usable sectors -/

/-- Every used partition lies in the usable sectors. -/
def Schem.UsedInside (schem : Schem) : Prop :=
  ∀ i ∈ schem.usedSet, schem.firstUsableLba.toNat ≤ (schem.table i).startLba.toNat ∧
    (schem.table i).startLba.toNat ≤ (schem.table i).endLba.toNat ∧
    (schem.table i).endLba.toNat ≤ schem.lastUsableLba.toNat

lemma Schem.UsedInside.setPart (h : schem.UsedInside) (i : ℕ) {part : SchemPart}
    (hpart : i < schem.partCnt.toNat → schem.partIsUsed part = true →
      schem.firstUsableLba.toNat ≤ part.startLba.toNat ∧
        part.startLba.toNat ≤ part.endLba.toNat ∧
        part.endLba.toNat ≤ schem.lastUsableLba.toNat) :
    (schem.setPart i part).UsedInside := by
  rintro j ⟨hj, hused⟩
  by_cases hji : j = i
  · obtain rfl := hji
    rw [Schem.setPart_same] at hused ⊢
    exact hpart hj hused
  · rw [Schem.setPart_of_ne _ _ hji] at hused ⊢
    exact h j ⟨hj, hused⟩

/-- A change of an entry keeps the used partitions inside, whether or not they overlap. -/
lemma PartChange.usedInside (hal : 1 ≤ ctx.align.toNat)
    (hrange : schem.firstUsableLba.toNat ≤ schem.lastUsableLba.toNat)
    (hroom : schem.lastUsableLba.toNat < 2 ^ 63) (hin : schem.UsedInside) {i : Pu32}
    {part : SchemPart} (h : PartChange ctx schem i part) :
    (schem.setPart i.toNat part).UsedInside := by
  cases h with
  | delete =>
    refine hin.setPart _ fun _ hu => ?_
    rw [partIsUsed_zero] at hu
    exact absurd hu (by simp)
  | boot _ hused => exact hin.setPart _ fun hi _ => hin _ ⟨hi, hused⟩
  | typeMbr _ _ hused => exact hin.setPart _ fun hi _ => hin _ ⟨hi, hused⟩
  | typeGpt _ _ _ _ hused => exact hin.setPart _ fun hi _ => hin _ ⟨hi, hused⟩
  | keep _ hused => exact hin.setPart _ fun hi _ => hin _ ⟨hi, hused⟩
  | alter part startLba endLba hpart hstart hend hfree =>
    have hends : schem.EndsBelow i.toInt64 := by
      intro j hj
      have := (hin j hj.1).2.2
      omega
    obtain ⟨h1, h2⟩ := hstart.bounds hal hrange hroom hends
    obtain ⟨h3, h4⟩ := hend.bounds h2
    exact hin.setPart _ fun _ _ => ⟨h1, h3, h4⟩

/-! ## Runs -/

/-- A GPT whose saves stay out of its usable sectors, with its partitions inside of them. -/
structure Schem.Safe (gpt : Schem) (ctx : ImgCtx) : Prop where
  between : gpt.BetweenHdrs ctx
  clear : gpt.TablesClear ctx
  inside : gpt.UsedInside

lemma Schem.BetweenHdrs.room (h : gpt.BetweenHdrs ctx) (hv : ctx.Valid) :
    gpt.lastUsableLba.toNat < 2 ^ 63 := by
  have hlast := h.last
  have hle := ctx.secs_mul_le
  have hsz := ctx.imgSz.toNat_lt
  have hsec := hv.sec_bounds.1
  have := Nat.mul_le_mul_left ctx.secs hsec
  omega

/-- A new GPT is safe: its usable sectors are what is left between tables of 128 entries. -/
lemma schemInitGpt_safe (hv : ctx.Valid) (schem : Schem) (r : Rng) :
    (schemInitGpt schem ctx r).1.Safe ctx := by
  have hsecs := hv.secs_bound
  have hts := hv.tableSecs_bounds
  have hmul := hv.tableSecs_mul
  obtain ⟨hfirst, hlast⟩ := toNat_schemInitGpt_usable hv schem r
  have hcnt : (schemInitGpt schem ctx r).1.partCnt.toNat = 128 := rfl
  have hlast' : (schemInitGpt schem ctx r).1.lastUsableLba.toNat + 1 =
      ctx.secs - 1 - ctx.tableSecs := by omega
  refine ⟨⟨by omega, by omega, by omega⟩, Or.inr ⟨Or.inl ?_, Or.inr ?_⟩, ?_⟩
  · rw [hcnt, hfirst, ImgCtx.primTabOff, Nat.add_mul, hmul]
  · rw [hlast', ImgCtx.secTabOff]
  · rintro i ⟨-, hused⟩
    rw [show (schemInitGpt schem ctx r).1.table i = SchemPart.zero from rfl,
      partIsUsed_zero] at hused
    exact absurd hused (by simp)

/-- The GPT of the context, if there is one, is safe. -/
def SchemCtx.Safe (sc : SchemCtx) (ctx : ImgCtx) : Prop :=
  ∀ gpt, sc.schemGpt = some gpt → gpt.Safe ctx

lemma schemCtxNew_safe (hv : ctx.Valid) (sc : SchemCtx) (t : SchemType) (r : Rng) :
    (schemCtxNew sc ctx t r).2.1.Safe ctx := by
  intro gpt hgpt
  cases t with
  | mbr => exact absurd hgpt (by simp [schemCtxNew, schemCtxReset])
  | gpt =>
    obtain rfl := Option.some.inj hgpt
    exact schemInitGpt_safe hv _ _
  | cnt => exact absurd hgpt (by simp [schemCtxNew, schemCtxReset])

/-- A command keeps the GPT safe. -/
lemma ActionSpec.safe (hv : ctx.Valid) (hal : 1 ≤ ctx.align.toNat) {p : Prog} {a : Action}
    (hp : p.sc.Safe ctx) (h : ActionSpec sys ctx p a) : a.prog.sc.Safe ctx := by
  cases h with
  | keep hsc _ _ => rwa [hsc]
  | edit schem schem' e hcur hspec hsc _ _ =>
    rw [hsc]
    intro gpt hgpt
    cases ht : p.schemCurT with
    | mbr =>
      rw [ht] at hgpt
      exact hp gpt hgpt
    | gpt =>
      rw [ht] at hgpt hcur
      obtain rfl := Option.some.inj hgpt
      have hsafe := hp schem hcur
      cases e with
      | refused why =>
        obtain rfl : schem' = schem := hspec
        exact hsafe
      | accepted i =>
        obtain ⟨-, part, hpart, rfl⟩ := hspec
        have hin := hpart.usedInside hal hsafe.between.range (hsafe.between.room hv) hsafe.inside
        exact ⟨⟨hsafe.between.first, hsafe.between.range, hsafe.between.last⟩, hsafe.clear, hin⟩
    | cnt =>
      rw [ht] at hcur
      exact absurd hcur (by simp [SchemCtx.schemes])
  | new t _ hsc _ _ =>
    rw [hsc]
    exact schemCtxNew_safe hv _ _ _
  | resetProt mbr _ hsc _ _ =>
    rw [hsc]
    exact fun gpt hgpt => hp gpt hgpt
  | write hsc _ _ =>
    rw [hsc]
    intro gpt hgpt
    refine hp gpt ?_
    rw [← hgpt]
    exact (congrFun (schemCtxSave_schemes sys p.sc ctx) .gpt).symm

lemma runActions_safe (hv : ctx.Valid) (hal : 1 ≤ ctx.align.toNat) {fuel : ℕ}
    (cmds : List (Sys × Char)) {p p' : Prog} (hp : p.sc.Safe ctx)
    (h : runActions fuel ctx p cmds = some p') : p'.sc.Safe ctx := by
  induction cmds generalizing p with
  | nil =>
    obtain rfl := Option.some.inj h
    exact hp
  | cons cmd cmds ih =>
    obtain ⟨a, ha, hrest⟩ := Option.bind_eq_some_iff.1 h
    exact ih ((actionHandle_spec ha).1.safe hv hal hp) hrest

/-- No save of the program, on whatever platform, writes to a usable sector of the GPT or
to a sector of one of its used partitions. -/
def Prog.SavesOutside (ctx : ImgCtx) (p : Prog) : Prop :=
  ∀ gpt, p.sc.schemGpt = some gpt → ∀ (sys : Sys), ∀ s ∈ (schemCtxSave sys p.sc ctx).stores,
    ¬ gpt.InUsable ctx s.1 ∧ ∀ i ∈ gpt.usedSet, ¬ (gpt.table i).InPart ctx s.1

lemma savesOutside_of_safe (hv : ctx.Valid) {p : Prog} (hwf : p.sc.WellFormed)
    (hp : p.sc.Safe ctx) : p.SavesOutside ctx := by
  intro gpt hgpt sys s hs
  obtain ⟨hbetween, hclear, hin⟩ := hp gpt hgpt
  have hnot := not_inUsable_of_clear hv hwf hgpt hbetween hclear hs
  refine ⟨hnot, ?_⟩
  rintro i hi ⟨h1, h2⟩
  obtain ⟨h3, h4, h5⟩ := hin i hi
  have h6 := Nat.mul_le_mul_right ctx.sec h3
  have h7 := Nat.mul_le_mul_right ctx.sec (Nat.succ_le_succ h5)
  rw [Nat.succ_eq_add_one, Nat.succ_eq_add_one] at h7
  exact hnot ⟨by omega, by omega⟩

/-! ## A GPT that has been loaded -/

/-- The two headers that a load has found, or restored, agree with one another and with the
image, and the used partitions lie in the usable sectors. -/
structure Gpt.Consistent (gpt : Gpt) (ctx : ImgCtx) : Prop where
  primTable : 2 ≤ gpt.hdrPrim.partTableLba.toNat ∧
    gpt.hdrPrim.partTableLba.toNat + (gptTableSzSecs ctx gpt.hdrPrim).toNat ≤
      gpt.hdrPrim.firstUsableLba.toNat
  usable : gpt.hdrPrim.firstUsableLba.toNat ≤ gpt.hdrPrim.lastUsableLba.toNat
  secTable : gpt.hdrPrim.lastUsableLba.toNat < gpt.hdrSec.partTableLba.toNat ∧
    gpt.hdrSec.partTableLba.toNat + (gptTableSzSecs ctx gpt.hdrSec).toNat ≤
      gpt.hdrPrim.altLba.toNat
  altLba : gpt.hdrPrim.altLba = imgLastLba ctx
  used : ∀ i < gpt.hdrPrim.partTableEntryCnt.toNat, gptIsPartUsed (gpt.tablePrim i) = true →
    gpt.hdrPrim.firstUsableLba.toNat ≤ (gpt.tablePrim i).startLba.toNat ∧
      (gpt.tablePrim i).startLba.toNat ≤ (gpt.tablePrim i).endLba.toNat ∧
      (gpt.tablePrim i).endLba.toNat ≤ gpt.hdrPrim.lastUsableLba.toNat

/-- The load of a GPT by the load of its two copies. -/
lemma schemLoadGpt_eq_gptLoad (sys : Sys) (m : Image) (schem : Schem) (ctx : ImgCtx) :
    schemLoadGpt sys m schem ctx =
      if (gptLoad sys m Gpt.zero ctx).1 = .ok then
        (.ok, gptToSchem schem (gptLoad sys m Gpt.zero ctx).2.1, (gptLoad sys m Gpt.zero ctx).2.2)
      else ((gptLoad sys m Gpt.zero ctx).1, schem, (gptLoad sys m Gpt.zero ctx).2.2) := rfl

/-- The GPT of a context that has been loaded is the one on the disk. -/
lemma schemCtxLoad_gpt {r : Rng} (h : (schemCtxLoad sys m sc ctx r).res = .ok)
    (hgpt : (schemCtxLoad sys m sc ctx r).sc.schemGpt = some gpt) :
    gpt = gptToSchem (schemNew .gpt) (gptLoad sys m Gpt.zero ctx).2.1 := by
  have hmbr : (schemCtxLoadOne sys m ctx .mbr ⟨.ok, schemCtxReset sc false, r, []⟩).sc.schemGpt =
      none := by
    rw [schemCtxLoadOne]
    rcases funcsLoad .mbr sys m (schemNew .mbr) ctx with ⟨_ | _ | _, schem, reads⟩ <;> rfl
  rw [schemCtxLoad_passes h, schemCtxCheckProt_schemGpt] at hgpt
  generalize schemCtxLoadOne sys m ctx .mbr ⟨.ok, schemCtxReset sc false, r, []⟩ = l at hmbr hgpt
  rw [schemCtxLoadOne, funcsLoad, schemLoadGpt_eq_gptLoad] at hgpt
  by_cases hok : (gptLoad sys m Gpt.zero ctx).1 = .ok
  · rw [if_pos hok] at hgpt
    exact (Option.some.inj hgpt).symm
  · rw [if_neg hok] at hgpt
    -- the context is the one before
    cases hres : (gptLoad sys m Gpt.zero ctx).1 with
    | ok => exact absurd hres hok
    | notFound =>
      simp only [hres] at hgpt
      exact absurd (hmbr.symm.trans hgpt) (by simp)
    | fatal =>
      simp only [hres] at hgpt
      exact absurd (hmbr.symm.trans hgpt) (by simp)

lemma Gpt.Consistent.between (hv : ctx.Valid) {G : Gpt} (h : G.Consistent ctx) :
    (gptToSchem schem G).BetweenHdrs ctx := by
  have hlast := toNat_imgLastLba hv
  obtain ⟨h1, h2⟩ := h.primTable
  obtain ⟨h3, h4⟩ := h.secTable
  rw [h.altLba, hlast] at h4
  exact ⟨show 2 ≤ G.hdrPrim.firstUsableLba.toNat by omega, h.usable,
    show G.hdrPrim.lastUsableLba.toNat + 1 < ctx.secs by omega⟩

lemma Gpt.Consistent.usedInside {G : Gpt} (h : G.Consistent ctx) :
    (gptToSchem (schemNew .gpt) G).UsedInside := by
  rintro i ⟨hi, hused⟩
  have hi' : i < G.hdrPrim.partTableEntryCnt.toNat := hi
  have htab : (gptToSchem (schemNew .gpt) G).table i =
      if gptIsPartUsed (G.tablePrim i) then gptPartToSchem (G.tablePrim i)
      else SchemPart.zero := if_pos hi'
  by_cases hu : gptIsPartUsed (G.tablePrim i) = true
  · rw [htab, if_pos hu]
    exact h.used i hi' hu
  · rw [htab, if_neg hu, partIsUsed_zero] at hused
    exact absurd hused (by simp)

/-- **Saves stay out of partition space** after every run of commands from a new GPT; and
from a consistent one that has been loaded, exactly when the table of 128 entries that a
save makes room for, as far as it is used, is clear of the usable sectors that were loaded. -/
theorem savesOutside_iff (hctx : imgCtxValidate ctx = .ok) (hsz : ctx.imgSz.toNat < 2 ^ 63)
    (hal : 1 ≤ ctx.align.toNat) :
    (∀ sc m r r' inp fuel cmds p, runActions fuel ctx
        ⟨(schemCtxNew sc ctx .gpt r).2.1, .gpt, inp, r', m⟩ cmds = some p →
      p.SavesOutside ctx) ∧
    ∀ sys m sc r gpt, (schemCtxLoad sys m sc ctx r).res = .ok →
      (schemCtxLoad sys m sc ctx r).sc.schemGpt = some gpt →
      (gptLoad sys m Gpt.zero ctx).2.1.Consistent ctx →
      ((∀ inp fuel cmds p,
          runActions fuel ctx (startProg (schemCtxLoad sys m sc ctx r) inp m) cmds = some p →
          p.SavesOutside ctx) ↔ gpt.TablesClear ctx) := by
  have hv := (imgCtxValidate_ok_iff _).1 hctx
  constructor
  · intro sc m r r' inp fuel cmds p hrun
    have hwf : (⟨(schemCtxNew sc ctx .gpt r).2.1, .gpt, inp, r', m⟩ : Prog).WellFormed :=
      ⟨schemCtxNew_wellFormed sc ctx .gpt r, Or.inl (by simp [schemCtxNew, schemCtxNewGpt,
        SchemCtx.schemes])⟩
    exact savesOutside_of_safe hv (runActions_keeps_wellFormed cmds hwf hrun).sc
      (runActions_safe hv hal cmds (schemCtxNew_safe hv sc .gpt r) hrun)
  · intro sys m sc r gpt hload hgpt hcons
    have hwf := schemCtxLoad_wellFormed hload
    have he := schemCtxLoad_gpt hload hgpt
    have hbetween : gpt.BetweenHdrs ctx := he ▸ hcons.between hv
    constructor
    · -- the very first save shows a table that is not clear
      intro hall
      by_contra hclear
      obtain ⟨s, hs, hin⟩ := exists_inUsable_of_not_clear hv (plainSys_serves hsz) hwf hgpt
        hbetween hclear
      exact (hall [] 0 [] _ rfl gpt hgpt plainSys s hs).1 hin
    · intro hclear inp fuel cmds p hrun
      have hstart : (startProg (schemCtxLoad sys m sc ctx r) inp m).WellFormed :=
        ⟨hwf, selected_of_getType rfl⟩
      have hsafe : (schemCtxLoad sys m sc ctx r).sc.Safe ctx := by
        intro g hg
        obtain rfl := Option.some.inj (hgpt.symm.trans hg)
        exact ⟨hbetween, hclear, he ▸ hcons.usedInside⟩
      exact savesOutside_of_safe hv (runActions_keeps_wellFormed cmds hstart hrun).sc
        (runActions_safe hv hal cmds hsafe hrun)

/-! ## A short table -/

/-- Where both copies are on the disk, a load delivers both headers. -/
lemma gptLoad_of_copies (hv : ctx.Valid) (hs : sys.Serves ctx) {hdr hdr' : GptHdr}
    {table table' : GptTable} (hp : CopyAt sys m ctx 1 hdr table)
    (hsec : CopyAt sys m ctx hdr.altLba hdr' table') :
    (gptLoad sys m Gpt.zero ctx).1 = .ok ∧
      (gptLoad sys m Gpt.zero ctx).2.1.hdrPrim = hdr ∧
      (gptLoad sys m Gpt.zero ctx).2.1.hdrSec = hdr' ∧
      ∀ i < hdr.partTableEntryCnt.toNat,
        (gptLoad sys m Gpt.zero ctx).2.1.tablePrim i = table i := by
  have h1 : Loaded (loadCopy sys m ctx 1) hdr table := hp.loaded hv hs _ _
  have h2 : Loaded (loadCopy sys m ctx hdr.altLba) hdr' table' := hsec.loaded hv hs _ _
  rw [gptLoad_eq, secLba_of_ok h1.res, h1.hdrEq, h1.res, h2.res, gptLoadPair_ok_ok,
    if_neg (by decide), if_neg (by decide)]
  exact ⟨rfl, h1.hdrEq, h2.hdrEq, h1.tableEq⟩

/-- A partition that fills the usable sectors of a GPT with one entry. -/
def shortEnt : GptPartEnt :=
  { GptPartEnt.zero with typeGuid := gptPartTypeDef, startLba := 34, endLba := 2045 }

/-- Its table. -/
def shortTable : GptTable := fun i => if i = 0 then shortEnt else GptPartEnt.zero

/-- The primary header, up to its checksum: the secondary table needs one sector only, so
the usable sectors go on to the one before it. -/
def shortHdr₀ : GptHdr where
  rev := gptHdrRev
  hdrSz := gptHdrSz
  hdrCrc32 := 0
  myLba := 1
  altLba := 2047
  firstUsableLba := 34
  lastUsableLba := 2045
  diskGuid := Guid.zero
  partTableLba := 2
  partTableEntryCnt := 1
  partEntrySz := gptPartEntSz
  partTableCrc32 := gptTableCrcCreate shortTable 1

/-- The primary header with its checksum. -/
def shortHdr : GptHdr := { shortHdr₀ with hdrCrc32 := gptHdrCrcCreate shortHdr₀ }

/-- The secondary header. -/
def shortHdrSec : GptHdr := gptRestoreHdr shortHdr 2046

/-- The small image with both copies. -/
def shortImage : Image :=
  stores zeroImage (pairStores smallCtx shortHdrSec shortTable ++
    pairStores smallCtx shortHdr shortTable)

lemma shortHdr_bounded : shortHdr.Bounded where
  rev := show gptHdrRev.toNat < 2 ^ 32 by decide
  hdrSz := show gptHdrSz.toNat < 2 ^ 32 by decide
  hdrCrc32 := gptHdrCrcCreate_lt shortHdr₀
  diskGuid := show Guid.zero.timeLo.toNat < 2 ^ 32 by decide
  partTableEntryCnt := show (1 : UInt64).toNat < 2 ^ 32 by decide
  partEntrySz := show gptPartEntSz.toNat < 2 ^ 32 by decide
  partTableCrc32 := gptTableCrcCreate_lt _ _

lemma shortTable_codable (i : ℕ) : (shortTable i).Codable := by
  rw [shortTable]
  split
  · exact ⟨⟨by decide, by decide, fun _ => by simp [shortEnt, GptPartEnt.zero]⟩, nameChained_zero⟩
  · exact zero_codable

/-- A header over the short table that is bounded and has its checksum stands for a copy,
wherever it and its table lie inside the image. -/
lemma shortTable_copyOk {hdr : GptHdr} (hb : hdr.Bounded)
    (hcrc : hdr.hdrCrc32 = gptHdrCrcCreate hdr) (hcnt : hdr.partTableEntryCnt = 1)
    (hes : hdr.partEntrySz = gptPartEntSz)
    (htab : hdr.partTableCrc32 = gptTableCrcCreate shortTable 1)
    (hin : smallCtx.Inside hdr.myLba 1) (htin : TableInside smallCtx hdr) :
    CopyOk plainSys smallCtx hdr shortTable where
  bounded := hb
  crc := hcrc
  inside := hin
  cnt := by rw [hcnt]; decide
  entrySz := hes
  tableInside := htin
  window := by
    have hv := (imgCtxValidate_ok_iff _).1 smallCtx_valid
    rw [tableWindow_iff hv _ (by rw [hcnt]; decide) hes, hcnt]
    exact Or.inl (by decide)
  codable := fun i _ => shortTable_codable i
  tableCrc := by rw [hcnt, htab]

/-- The stores of one copy over the short table. -/
lemma shortTable_stores {hdr : GptHdr} {o o' : ℕ} (hcnt : hdr.partTableEntryCnt = 1)
    (hes : hdr.partEntrySz = gptPartEntSz) (ho : (lbaToByte smallCtx hdr.myLba).toNat = o)
    (ho' : (lbaToByte smallCtx hdr.partTableLba).toNat = o') :
    pairStores smallCtx hdr shortTable =
      storeAt o (hdrBytes hdr) ++ gptPartEntWrite o' shortEnt := by
  rw [pairStores, gptHdrWrite_eq, ho, ho', hcnt, hes, gptTableWrite_eq (by decide),
    UInt64.toNat_one, List.range_one, List.flatMap_singleton, Nat.mul_zero, Nat.add_zero,
    shortTable, if_pos rfl]

lemma shortImage_eq : shortImage = stores zeroImage
    ((storeAt 1048064 (hdrBytes shortHdrSec) ++ gptPartEntWrite 1047552 shortEnt) ++
      (storeAt 512 (hdrBytes shortHdr) ++ gptPartEntWrite 1024 shortEnt)) := by
  have hprim : pairStores smallCtx shortHdr shortTable =
      storeAt 512 (hdrBytes shortHdr) ++ gptPartEntWrite 1024 shortEnt :=
    shortTable_stores rfl rfl (show (lbaToByte smallCtx 1).toNat = 512 by decide)
      (show (lbaToByte smallCtx 2).toNat = 1024 by decide)
  have hsec : pairStores smallCtx shortHdrSec shortTable =
      storeAt 1048064 (hdrBytes shortHdrSec) ++ gptPartEntWrite 1047552 shortEnt :=
    shortTable_stores rfl rfl (show (lbaToByte smallCtx 2047).toNat = 1048064 by decide)
      (show (lbaToByte smallCtx 2046).toNat = 1047552 by decide)
  rw [shortImage, hprim, hsec]

lemma shortImage_holds :
    (Holds shortImage 512 (hdrBytes shortHdr) ∧ Holds shortImage 1024 (entPacked shortEnt)) ∧
      Holds shortImage 1048064 (hdrBytes shortHdrSec) ∧
      Holds shortImage 1047552 (entPacked shortEnt) := by
  rw [shortImage_eq, stores_append, stores_append, stores_append]
  refine ⟨⟨?_, ?_⟩, ?_, ?_⟩
  · refine (holds_stores_storeAt _ _ _).stores fun s hs => ?_
    have := mem_gptPartEntWrite hs
    rw [length_hdrBytes]
    omega
  · rw [stores_gptPartEntWrite]
    exact holds_stores_storeAt _ _ _
  · refine (((holds_stores_storeAt _ _ _).stores fun s hs => ?_).stores fun s hs => ?_).stores
      fun s hs => ?_
    · have := mem_gptPartEntWrite hs
      omega
    · have := mem_storeAt_hdrBytes hs
      omega
    · have := mem_gptPartEntWrite hs
      omega
  · rw [stores_gptPartEntWrite _ 1047552]
    refine ((holds_stores_storeAt _ _ _).stores fun s hs => ?_).stores fun s hs => ?_
    · have := mem_storeAt_hdrBytes hs
      omega
    · have := mem_gptPartEntWrite hs
      omega

lemma shortImage_prim : CopyAt plainSys shortImage smallCtx 1 shortHdr shortTable := by
  have hcrc : shortHdr.hdrCrc32 = gptHdrCrcCreate shortHdr :=
    (gptHdrCrcCreate_setCrc shortHdr₀ _).symm
  refine (shortTable_copyOk shortHdr_bounded hcrc rfl rfl rfl ?_ ?_).copyAt ?_ fun i hi => ?_
  · exact inside_one ((imgCtxValidate_ok_iff _).1 smallCtx_valid)
  · show smallCtx.Inside 2 (byteToLba smallCtx (1 * gptPartEntSz) true)
    rw [ImgCtx.Inside]
    decide
  · exact shortImage_holds.1.1
  · obtain rfl : i = 0 := Nat.lt_one_iff.1 hi
    exact shortImage_holds.1.2

lemma shortImage_sec : CopyAt plainSys shortImage smallCtx 2047 shortHdrSec shortTable := by
  have hb : shortHdrSec.Bounded := shortHdr_bounded.restore 2046
  have hcrc : shortHdrSec.hdrCrc32 = gptHdrCrcCreate shortHdrSec := gptRestoreHdr_crc shortHdr 2046
  have hmy : shortHdrSec.myLba = 2047 := rfl
  have hlba : shortHdrSec.partTableLba = 2046 := rfl
  have hcnt : shortHdrSec.partTableEntryCnt = 1 := rfl
  have hes : shortHdrSec.partEntrySz = gptPartEntSz := rfl
  have htab : shortHdrSec.partTableCrc32 = gptTableCrcCreate shortTable 1 := rfl
  have hok : CopyOk plainSys smallCtx shortHdrSec shortTable := by
    refine shortTable_copyOk hb hcrc hcnt hes htab ?_ ?_
    · rw [hmy, ImgCtx.Inside]
      decide
    · rw [TableInside, gptTableSzSecs, hlba, hcnt, hes, ImgCtx.Inside]
      decide
  rw [← hmy]
  refine hok.copyAt ?_ fun i hi => ?_
  · exact shortImage_holds.2.1
  · obtain rfl : i = 0 := Nat.lt_one_iff.1 hi
    exact shortImage_holds.2.2

/-- What a load of the image delivers. -/
lemma shortImage_gptLoad :
    (gptLoad plainSys shortImage Gpt.zero smallCtx).1 = .ok ∧
      (gptLoad plainSys shortImage Gpt.zero smallCtx).2.1.hdrPrim = shortHdr ∧
      (gptLoad plainSys shortImage Gpt.zero smallCtx).2.1.hdrSec = shortHdrSec ∧
      (gptLoad plainSys shortImage Gpt.zero smallCtx).2.1.tablePrim 0 = shortEnt := by
  have hv := (imgCtxValidate_ok_iff _).1 smallCtx_valid
  have hs : plainSys.Serves smallCtx := plainSys_serves (by decide)
  have halt : shortHdr.altLba = 2047 := rfl
  obtain ⟨h1, h2, h3, h4⟩ := gptLoad_of_copies hv hs shortImage_prim (halt ▸ shortImage_sec)
  exact ⟨h1, h2, h3, h4 0 (by decide)⟩

lemma shortImage_consistent :
    (gptLoad plainSys shortImage Gpt.zero smallCtx).2.1.Consistent smallCtx := by
  obtain ⟨-, hprim, hsec, hent⟩ := shortImage_gptLoad
  refine ⟨?_, ?_, ?_, ?_, fun i hi _ => ?_⟩
  · rw [hprim]
    show 2 ≤ (2 : Plba).toNat ∧
      (2 : Plba).toNat + (byteToLba smallCtx (1 * gptPartEntSz) true).toNat ≤ (34 : Plba).toNat
    decide
  · rw [hprim]
    show (34 : Plba).toNat ≤ (2045 : Plba).toNat
    decide
  · rw [hprim, hsec]
    show (2045 : Plba).toNat < (2046 : Plba).toNat ∧
      (2046 : Plba).toNat + (byteToLba smallCtx (1 * gptPartEntSz) true).toNat ≤
        (2047 : Plba).toNat
    decide
  · rw [hprim]
    show (2047 : Plba) = imgLastLba smallCtx
    decide
  · rw [hprim] at hi ⊢
    obtain rfl : i = 0 := Nat.lt_one_iff.1 hi
    rw [hent]
    exact ⟨le_rfl, by decide, le_rfl⟩

/-- The GPT of the image in memory. -/
def shortGpt : Schem :=
  gptToSchem (schemNew .gpt) (gptLoad plainSys shortImage Gpt.zero smallCtx).2.1

lemma shortGpt_table : shortGpt.partCnt = 1 ∧ shortGpt.firstUsableLba = 34 ∧
    shortGpt.lastUsableLba = 2045 ∧ shortGpt.table 0 = gptPartToSchem shortEnt := by
  obtain ⟨-, hprim, -, hent⟩ := shortImage_gptLoad
  have hused : gptIsPartUsed shortEnt = true := by decide
  rw [shortGpt]
  generalize (gptLoad plainSys shortImage Gpt.zero smallCtx).2.1 = G at hprim hent
  obtain ⟨prim, table, sec, table'⟩ := G
  simp only at hprim hent
  subst hprim
  refine ⟨rfl, rfl, rfl, ?_⟩
  have htab : (gptToSchem (schemNew .gpt) ⟨shortHdr, table, sec, table'⟩).table 0 =
      if gptIsPartUsed (table 0) then gptPartToSchem (table 0) else SchemPart.zero := rfl
  rw [htab, hent, if_pos hused]

lemma shortImage_load :
    (schemCtxLoad plainSys shortImage schemCtxInit smallCtx zeroRng).res = .ok ∧
      (schemCtxLoad plainSys shortImage schemCtxInit smallCtx zeroRng).sc.schemGpt =
        some shortGpt := by
  have hv := (imgCtxValidate_ok_iff _).1 smallCtx_valid
  have hs : plainSys.Serves smallCtx := plainSys_serves (by decide)
  obtain ⟨hok, -⟩ := shortImage_gptLoad
  have hload : schemLoadGpt plainSys shortImage (schemNew .gpt) smallCtx =
      (.ok, shortGpt, (gptLoad plainSys shortImage Gpt.zero smallCtx).2.2) := by
    rw [schemLoadGpt_eq_gptLoad, if_pos hok, shortGpt]
  have hres := (schemCtxLoad_ok_iff hv hs schemCtxInit zeroRng).2
    (by rw [hload]; decide : (schemLoadGpt plainSys shortImage (schemNew .gpt) smallCtx).1 ≠ .fatal)
  refine ⟨hres, ?_⟩
  rw [(schemCtxLoad_spec hv hs schemCtxInit zeroRng hres).schemGpt, gptFound, hload]
  rfl

/-- The condition decides for this image, and is not met. -/
theorem savesOutside_iff_small :
    ¬ shortGpt.TablesClear smallCtx ∧
    ((∀ inp fuel cmds p, runActions fuel smallCtx
        (startProg (schemCtxLoad plainSys shortImage schemCtxInit smallCtx zeroRng) inp shortImage)
        cmds = some p → p.SavesOutside smallCtx) ↔ shortGpt.TablesClear smallCtx) := by
  obtain ⟨hcnt, hfirst, hlast, -⟩ := shortGpt_table
  refine ⟨?_, (savesOutside_iff smallCtx_valid (by decide) (by decide)).2 plainSys shortImage
    schemCtxInit zeroRng shortGpt shortImage_load.1 shortImage_load.2 shortImage_consistent⟩
  simp only [Schem.TablesClear, Schem.ClearAt, hcnt, hfirst, hlast]
  decide

/-- **A save of what was just loaded overwrites a partition**: the first byte of the place
of the secondary table belongs to the partition, and changes. -/
theorem savesOutside_short : ∃ sc : SchemCtx,
    (schemCtxLoad plainSys shortImage schemCtxInit smallCtx zeroRng).res = .ok ∧
      (schemCtxLoad plainSys shortImage schemCtxInit smallCtx zeroRng).sc = sc ∧
      sc.schemGpt = some shortGpt ∧
      (gptLoad plainSys shortImage Gpt.zero smallCtx).2.1.Consistent smallCtx ∧
      0 ∈ shortGpt.usedSet ∧ shortGpt.InUsable smallCtx smallCtx.secTabOff ∧
      (shortGpt.table 0).InPart smallCtx smallCtx.secTabOff ∧
      stores shortImage (schemCtxSave plainSys sc smallCtx).stores smallCtx.secTabOff ≠
        shortImage smallCtx.secTabOff := by
  have hv := (imgCtxValidate_ok_iff _).1 smallCtx_valid
  have hs : plainSys.Serves smallCtx := plainSys_serves (by decide)
  obtain ⟨hload, hgpt⟩ := shortImage_load
  obtain ⟨hcnt, hfirst, hlast, htab⟩ := shortGpt_table
  have hwf := schemCtxLoad_wellFormed hload
  generalize hsc : (schemCtxLoad plainSys shortImage schemCtxInit smallCtx zeroRng).sc = sc
    at hgpt hwf
  have hused : schemPartIsUsedGpt (shortGpt.table 0) = true := by
    rw [htab]
    decide
  refine ⟨sc, hload, rfl, hgpt, shortImage_consistent, ⟨by rw [hcnt]; decide, hused⟩, ?_, ?_, ?_⟩
  · rw [Schem.InUsable, hfirst, hlast]
    decide
  · rw [htab, SchemPart.InPart]
    decide
  · -- the save writes an entry there, where there was nothing
    obtain ⟨pre, hpre⟩ := saveStores_suffix hv hs hwf hgpt (by rw [hcnt]; decide)
    have hle : shortGpt.partCnt.toNat ≤ 128 := by rw [hcnt]; decide
    have hent := (holds_save hv hle (stores shortImage pre)).2.2 0 (by rw [hcnt]; decide)
    have hsaved : savedTable shortGpt 0 = shortEnt := by
      rw [savedTable, gptTableFromSchem, if_pos ⟨by rw [hcnt]; decide, hused⟩, htab]
      rfl
    rw [← stores_append, hpre, hsaved, Nat.mul_zero, Nat.add_zero] at hent
    have hnew := holds_iff_getElem.1 hent 0 (by simp)
    rw [Nat.add_zero] at hnew
    have hold : shortImage smallCtx.secTabOff = 0 := by
      have hoff : smallCtx.secTabOff = 1031680 := by decide
      rw [shortImage_eq]
      refine stores_of_forall_ne (fun s hs => ?_) zeroImage
      simp only [List.mem_append] at hs
      rcases hs with (hs | hs) | (hs | hs)
      · have := mem_storeAt_hdrBytes hs
        omega
      · have := mem_gptPartEntWrite hs
        omega
      · have := mem_storeAt_hdrBytes hs
        omega
      · have := mem_gptPartEntWrite hs
        omega
    rw [hnew, hold]
    decide

end Partman

/-
# A save that is cut off

The stores of a save reach the image in order, up to some point.  Until the secondary copy
is complete the primary one is as it was, and from then on the secondary one is the new
one.  The copy that is being written has a header of old and new bytes, which may or may
not pass its checks; what matters is that it cannot point at a table that is refused.
-/
import Partman.Disk.Recovery

namespace Partman

open Lib

variable {sys sys₀ : Sys} {ctx : ImgCtx} {m m₁ m₂ : Image} {lba : Plba} {hdr hdr' : GptHdr}
  {table table' : GptTable} {O N schem : Schem} {ss ts : List Store}

/-! ## A header of old and new bytes -/

lemma readPu64_mix {buf : ℕ} (h : readPu64 m₁ buf = readPu64 m₂ buf)
    (hmix : ∀ a, buf ≤ a → a < buf + 8 → m a = m₁ a ∨ m a = m₂ a) :
    readPu64 m buf = readPu64 m₁ buf := by
  refine le64_inj ?_
  rw [leBytes_readPu64, leBytes_readPu64]
  refine loadAt_mix ?_ hmix
  rw [← leBytes_readPu64, ← leBytes_readPu64, h]

lemma readPu32_mix {buf : ℕ} (h : readPu32 m₁ buf = readPu32 m₂ buf)
    (hmix : ∀ a, buf ≤ a → a < buf + 4 → m a = m₁ a ∨ m a = m₂ a) :
    readPu32 m buf = readPu32 m₁ buf := by
  refine le32_inj (readPu32_lt _ _) (readPu32_lt _ _) ?_
  rw [leBytes_readPu32, leBytes_readPu32]
  refine loadAt_mix ?_ hmix
  rw [← leBytes_readPu32, ← leBytes_readPu32, h]

/-- Numbers of one byte do not mix. -/
lemma readPu32_mix_of_lt {buf : ℕ} (h₁ : (readPu32 m₁ buf).toNat < 256)
    (h₂ : (readPu32 m₂ buf).toNat < 256)
    (hmix : ∀ a, buf ≤ a → a < buf + 4 → m a = m₁ a ∨ m a = m₂ a) :
    readPu32 m buf = readPu32 m₁ buf ∨ readPu32 m buf = readPu32 m₂ buf := by
  have e0 := hmix buf le_rfl (by omega)
  have e1 := hmix (buf + 1) (by omega) (by omega)
  have e2 := hmix (buf + 2) (by omega) (by omega)
  have e3 := hmix (buf + 3) (by omega) (by omega)
  simp only [← UInt64.toNat_inj, toNat_readPu32, ← UInt8.toNat_inj] at *
  simp only [loadAt_succ, loadAt_zero, ofLe_cons, ofLe_nil, Nat.add_assoc, Nat.reduceAdd] at *
  omega

/-- A header of old and new bytes has the place and the entry size of both, and the count
of one of them. -/
lemma gptHdrRead_mix {buf : ℕ} (h₁ : gptHdrRead m₁ buf = hdr) (h₂ : gptHdrRead m₂ buf = hdr')
    (hlba : hdr.partTableLba = hdr'.partTableLba) (hes : hdr.partEntrySz = hdr'.partEntrySz)
    (hcnt : hdr.partTableEntryCnt.toNat ≤ 128) (hcnt' : hdr'.partTableEntryCnt.toNat ≤ 128)
    (hmix : ∀ a, buf ≤ a → a < buf + 92 → m a = m₁ a ∨ m a = m₂ a) :
    (gptHdrRead m buf).partTableLba = hdr.partTableLba ∧
      (gptHdrRead m buf).partEntrySz = hdr.partEntrySz ∧
      ((gptHdrRead m buf).partTableEntryCnt = hdr.partTableEntryCnt ∨
        (gptHdrRead m buf).partTableEntryCnt = hdr'.partTableEntryCnt) := by
  subst h₁ h₂
  simp only [gptHdrRead] at *
  exact ⟨readPu64_mix hlba fun a h1 h2 => hmix a (by omega) (by omega),
    readPu32_mix hes fun a h1 h2 => hmix a (by omega) (by omega),
    readPu32_mix_of_lt (by omega) (by omega) fun a h1 h2 => hmix a (by omega) (by omega)⟩

/-- A load is not fatal as long as no accepted header points at a table that is refused. -/
lemma loadCopy_not_fatal (hv : ctx.Valid) (hs : sys.Serves ctx) (hin : ctx.Inside lba 1)
    (h : ∀ hdr, HdrAt m ctx lba hdr →
      hdr.partTableEntryCnt.toNat ≤ 128 ∧ TableInside ctx hdr ∧ TableWindow sys ctx hdr) :
    (loadCopy sys m ctx lba).res ≠ .fatal := by
  by_cases hex : ∃ hdr, HdrAt m ctx lba hdr
  · obtain ⟨hdr, hhdr⟩ := hex
    obtain ⟨hcnt, htab, hwin⟩ := h hdr hhdr
    rw [loadCopy, (gptPairLoad_table hv hs hin hhdr hcnt htab hwin _ _).1]
    split <;> decide
  · rw [loadCopy, gptPairLoad_hdrInv hv hs hin fun hdr hhdr => hex ⟨hdr, hhdr⟩]
    decide

/-- Where the table lies is told by three fields. -/
lemma table_congr (sys : Sys) (ctx : ImgCtx) (hlba : hdr.partTableLba = hdr'.partTableLba)
    (hes : hdr.partEntrySz = hdr'.partEntrySz)
    (hcnt : hdr.partTableEntryCnt = hdr'.partTableEntryCnt) :
    (TableInside ctx hdr ↔ TableInside ctx hdr') ∧
      (TableWindow sys ctx hdr ↔ TableWindow sys ctx hdr') := by
  simp only [TableInside, TableWindow, gptTableSzSecs, hlba, hes, hcnt, and_self]

/-- **Writing one copy over another is never fatal**, wherever it is cut off. -/
lemma loadCopy_of_prefix (hv : ctx.Valid) (hs : sys.Serves ctx)
    (hO : CopyAt sys m ctx lba hdr table) (hN : CopyOk sys ctx hdr' table')
    (hlba : hdr.partTableLba = hdr'.partTableLba) (ts : List Store)
    (hss : ss <+: storeAt (ctx.off lba) (hdrBytes hdr') ++ ts)
    (hts : ∀ s ∈ ts, s.1 < ctx.off lba ∨ ctx.off lba + 92 ≤ s.1) :
    (loadCopy sys (stores m ss) ctx lba).res ≠ .fatal := by
  refine loadCopy_not_fatal hv hs hO.inside fun hdr'' h => ?_
  have hnew : gptHdrRead (stores m (storeAt (ctx.off lba) (hdrBytes hdr'))) (ctx.off lba) = hdr' :=
    (gptHdrRead_of_holds hN.bounded (holds_stores_storeAt _ _ _)).2
  have hes : hdr.partEntrySz = hdr'.partEntrySz := hO.entrySz.trans hN.entrySz.symm
  obtain ⟨e1, e2, e3⟩ := gptHdrRead_mix (m := stores m ss) hO.read hnew hlba hes hO.cnt hN.cnt
    fun a h1 h2 => stores_prefix_storeAt hss (by rwa [length_hdrBytes]) h1
      (by rwa [length_hdrBytes])
  rw [h.read] at e1 e2 e3
  rcases e3 with e3 | e3
  · have hcongr := table_congr sys ctx e1 e2 e3
    rw [hcongr.1, hcongr.2, e3]
    exact ⟨hO.cnt, hO.tableInside, hO.window⟩
  · have hcongr := table_congr sys ctx (e1.trans hlba) (e2.trans hes) e3
    rw [hcongr.1, hcongr.2, e3]
    exact ⟨hN.cnt, hN.tableInside, hN.window⟩

/-! ## The two phases of a save -/

/-- A primary copy passes its checks without being the one of either scheme. -/
def Collides (sys : Sys) (m : Image) (ctx : ImgCtx) (O N : Schem) : Prop :=
  (loadCopy sys m ctx 1).res = .ok ∧
    ¬ Loaded (loadCopy sys m ctx 1) (savedPrim O ctx) (savedTable O) ∧
    ¬ Loaded (loadCopy sys m ctx 1) (savedPrim N ctx) (savedTable N)

/-- The outcome of a load is one of two schemes. -/
def LoadsOneOf (sys : Sys) (m : Image) (ctx : ImgCtx) (O N : Schem) : Prop :=
  ∀ schem₀ : Schem, (schemLoadGpt sys m schem₀ ctx).1 = .ok ∧
    (O.SameGpt (schemLoadGpt sys m schem₀ ctx).2.1 ∨ N.SameGpt (schemLoadGpt sys m schem₀ ctx).2.1)

/-- Stores from the secondary table on leave the primary copy alone. -/
lemma copyAt_prim_of_below (hv : ctx.Valid) {table : GptTable}
    (hprim : CopyAt sys m ctx 1 (savedPrim O ctx) table) {m' : Image}
    (hkeep : ∀ a < ctx.secTabOff, m' a = m a) : CopyAt sys m' ctx 1 (savedPrim O ctx) table := by
  obtain ⟨h0, h1, h2, h3, h4⟩ := hv.layout
  have hcnt := hprim.cnt
  refine hprim.congr (fun a _ ha => hkeep a ?_) fun a _ ha => hkeep a ?_
  · rw [off_one] at ha
    omega
  · rw [off_savedPrim_table] at ha
    omega

/-- While the secondary copy is being written, the old primary one is loaded. -/
lemma loadsOneOf_of_sec (hv : ctx.Valid) (hs : sys.Serves ctx) (hN : N.GptOk)
    (hprim : CopyAt sys m ctx 1 (savedPrim O ctx) (savedTable O))
    (hsec : CopyAt sys m ctx (imgLastLba ctx) (savedSec O ctx) (savedTable O))
    (hwin : TableWindow sys ctx (savedSec N ctx))
    (hss : ss <+: storeAt ctx.secHdrOff (hdrBytes (savedSec N ctx)) ++
      tableStores N ctx.secTabOff) :
    LoadsOneOf sys (stores m ss) ctx O N := by
  intro schem₀
  obtain ⟨h0, h1, h2, h3, h4⟩ := hv.layout
  have hout : ∀ s ∈ ss, ctx.secTabOff ≤ s.1 := by
    intro s hs
    rcases List.mem_append.1 (hss.subset hs) with hs | hs
    · have := mem_storeAt_hdrBytes hs
      omega
    · exact (mem_tableStores hN.cnt hs).1
  have hp : CopyAt sys (stores m ss) ctx 1 (savedPrim O ctx) (savedTable O) :=
    copyAt_prim_of_below hv hprim fun a ha =>
      stores_of_forall_ne (fun s hs => by have := hout s hs; omega) m
  have hnf : (loadCopy sys (stores m ss) ctx (imgLastLba ctx)).res ≠ .fatal := by
    refine loadCopy_of_prefix hv hs hsec (savedSec_ok hv hN hwin)
      (by rw [savedSec_partTableLba, savedSec_partTableLba]) (tableStores N ctx.secTabOff)
      (by rwa [off_imgLastLba hv]) fun s hs => ?_
    have := mem_tableStores hN.cnt hs
    have hcntN := hN.cnt
    rw [off_imgLastLba hv]
    omega
  obtain ⟨e1, e2⟩ := load_of_prim hv hs hp hnf schem₀
  exact ⟨e1, Or.inl e2⟩

/-- While the primary copy is being written, the new secondary one is there. -/
lemma loadsOneOf_of_prim (hv : ctx.Valid) (hs : sys.Serves ctx) (hN : N.GptOk)
    (hprim : CopyAt sys m ctx 1 (savedPrim O ctx) (savedTable O))
    (hsec : CopyAt sys (stores m ss) ctx (imgLastLba ctx) (savedSec N ctx) (savedTable N))
    (hwin : TableWindow sys ctx (savedPrim N ctx))
    (hss : ss <+: storeAt ctx.primHdrOff (hdrBytes (savedPrim N ctx)) ++
      tableStores N ctx.primTabOff)
    (hcol : ¬ Collides sys (stores m ss) ctx O N) : LoadsOneOf sys (stores m ss) ctx O N := by
  intro schem₀
  obtain ⟨h0, h1, h2, h3, h4⟩ := hv.layout
  have hpf : (loadCopy sys (stores m ss) ctx 1).res ≠ .fatal := by
    refine loadCopy_of_prefix hv hs hprim (savedPrim_ok hv hN hwin)
      (by rw [savedPrim_partTableLba, savedPrim_partTableLba]) (tableStores N ctx.primTabOff)
      (by rwa [off_one]) fun s hs => ?_
    have := mem_tableStores hN.cnt hs
    rw [off_one]
    omega
  have hsf : (loadCopy sys (stores m ss) ctx (imgLastLba ctx)).res ≠ .fatal := by
    rw [loadCopy, (hsec.loaded hv hs _ _).res]
    decide
  by_cases hp : (loadCopy sys (stores m ss) ctx 1).res = .ok
  · by_cases hO : Loaded (loadCopy sys (stores m ss) ctx 1) (savedPrim O ctx) (savedTable O)
    · obtain ⟨e1, e2⟩ := schemLoadGpt_prim schem₀ hO hsf
      rw [e2]
      exact ⟨e1, Or.inl (schemOfCopy_savedPrim O schem₀ ctx)⟩
    · have hN' : Loaded (loadCopy sys (stores m ss) ctx 1) (savedPrim N ctx) (savedTable N) := by
        by_contra hn
        exact hcol ⟨hp, hO, hn⟩
      obtain ⟨e1, e2⟩ := schemLoadGpt_prim schem₀ hN' hsf
      rw [e2]
      exact ⟨e1, Or.inr (schemOfCopy_savedPrim N schem₀ ctx)⟩
  · obtain ⟨e1, e2⟩ := load_of_sec hv hs hp hpf hsec schem₀
    exact ⟨e1, Or.inr e2⟩

/-- A scheme with entries, or with tables that do not begin a page, is saved step by step. -/
lemma loadsOneOf_of_prefix (hv : ctx.Valid) (hs : sys.Serves ctx) (hN : N.GptOk)
    (hprim : CopyAt sys m ctx 1 (savedPrim O ctx) (savedTable O))
    (hsec : CopyAt sys m ctx (imgLastLba ctx) (savedSec O ctx) (savedTable O))
    (hwin : TableWindow sys ctx (savedPrim N ctx)) (hwin' : TableWindow sys ctx (savedSec N ctx))
    (hss : ss <+: saveStores N ctx) (hcol : ¬ Collides sys (stores m ss) ctx O N) :
    LoadsOneOf sys (stores m ss) ctx O N := by
  obtain ⟨h0, h1, h2, h3, h4⟩ := hv.layout
  rw [saveStores_eq hv] at hss
  rcases prefix_append_cases hss with hss | ⟨t, ht, rfl⟩
  · exact loadsOneOf_of_sec hv hs hN hprim hsec hwin' hss
  · -- the secondary stores are done, and none of them has touched the primary copy
    have hbelow : ∀ s ∈ t, s.1 < ctx.secTabOff := by
      intro s hs
      rcases List.mem_append.1 (ht.subset hs) with hs | hs
      · have := mem_storeAt_hdrBytes hs
        omega
      · have := mem_tableStores hN.cnt hs
        have hcnt := hN.cnt
        omega
    have hsec' := copyAt_sec hv hN hwin' (holds_sec hv hN.cnt m hbelow rfl)
    have hprim' : CopyAt sys (stores m (storeAt ctx.secHdrOff (hdrBytes (savedSec N ctx)) ++
        tableStores N ctx.secTabOff)) ctx 1 (savedPrim O ctx) (savedTable O) := by
      refine copyAt_prim_of_below hv hprim fun a ha => stores_of_forall_ne (fun s hs => ?_) m
      rcases List.mem_append.1 hs with hs | hs
      · have := mem_storeAt_hdrBytes hs
        omega
      · have := mem_tableStores hN.cnt hs
        omega
    rw [stores_append] at hcol hsec' ⊢
    exact loadsOneOf_of_prim hv hs hN hprim' hsec' hwin ht hcol

/-! ## A table that is refused -/

/-- A secondary table that is refused leaves a header on the disk that no load survives. -/
lemma fatal_of_sec_window (hv : ctx.Valid) (hs : sys.Serves ctx) (hN : N.GptOk)
    (hprim : CopyAt sys m ctx 1 (savedPrim O ctx) (savedTable O))
    (hwin : ¬ TableWindow sys ctx (savedSec N ctx)) :
    ¬ Collides sys (stores m (schemSaveGpt sys N ctx).2) ctx O N ∧
      ∀ schem₀, (schemLoadGpt sys (stores m (schemSaveGpt sys N ctx).2) schem₀ ctx).1 = .fatal := by
  obtain ⟨h0, h1, h2, h3, h4⟩ := hv.layout
  have hsave := gptPairSave_of_not_window hv hs (imgLastLba_inside hv)
    (savedSec_tableInside hv hN.cnt) hwin (savedTable N)
  rw [schemSaveGpt_eq, hsave]
  obtain ⟨m', hm'⟩ : ∃ m', m' = stores m
      (storeAt (ctx.off (savedSec N ctx).myLba) (hdrBytes (savedSec N ctx))) := ⟨_, rfl⟩
  have hp : CopyAt sys m' ctx 1 (savedPrim O ctx) (savedTable O) := by
    refine copyAt_prim_of_below hv hprim fun a ha => ?_
    rw [hm']
    refine stores_of_forall_ne (fun s hs => ?_) m
    have := mem_storeAt_hdrBytes hs
    rw [savedSec_myLba, off_imgLastLba hv] at this
    omega
  have hl : Loaded (loadCopy sys m' ctx 1) (savedPrim O ctx) (savedTable O) := hp.loaded hv hs _ _
  have hhdr : HdrAt m' ctx (imgLastLba ctx) (savedSec N ctx) := by
    rw [hm', ← savedSec_myLba N ctx]
    exact hdrAt_of_holds (savedSec_bounded ctx hN) (gptRestoreHdr_crc _ _)
      (holds_stores_storeAt _ _ _)
  show ¬ Collides sys (stores m (storeAt _ _)) ctx O N ∧
    ∀ schem₀, (schemLoadGpt sys (stores m (storeAt _ _)) schem₀ ctx).1 = .fatal
  rw [← hm']
  refine ⟨fun hcol => hcol.2.1 hl, fun schem₀ => schemLoadGpt_fatal_sec schem₀ ?_⟩
  rw [secLba_of_ok hl.res, hl.hdrEq, savedPrim_altLba]
  exact gptPairLoad_fatal_window hv hs (imgLastLba_inside hv) hhdr
    (savedSec_tableInside hv hN.cnt) hwin

/-- And so does a primary one. -/
lemma fatal_of_prim_window (hv : ctx.Valid) (hs : sys.Serves ctx) (hN : N.GptOk) (m : Image)
    (hwin' : TableWindow sys ctx (savedSec N ctx))
    (hwin : ¬ TableWindow sys ctx (savedPrim N ctx)) :
    ¬ Collides sys (stores m (schemSaveGpt sys N ctx).2) ctx O N ∧
      ∀ schem₀, (schemLoadGpt sys (stores m (schemSaveGpt sys N ctx).2) schem₀ ctx).1 = .fatal := by
  have hsave := gptPairSave_of_serves hv hs (imgLastLba_inside hv)
    (savedSec_tableInside hv hN.cnt) hwin' (savedTable N)
  have hsave' := gptPairSave_of_not_window hv hs (savedPrim_inside hv N)
    (savedPrim_tableInside hv hN.cnt) hwin (savedTable N)
  obtain ⟨m', hm'⟩ : ∃ m', m' = stores m (schemSaveGpt sys N ctx).2 := ⟨_, rfl⟩
  have hhdr : HdrAt m' ctx 1 (savedPrim N ctx) := by
    rw [hm', schemSaveGpt_eq, hsave, hsave']
    show HdrAt (stores m (_ ++ storeAt _ _)) ctx (savedPrim N ctx).myLba _
    rw [stores_append]
    exact hdrAt_of_holds (savedPrim_bounded ctx hN) (savedPrim_crc _ _)
      (holds_stores_storeAt _ _ _)
  have hf : (loadCopy sys m' ctx 1).res = .fatal :=
    gptPairLoad_fatal_window hv hs (savedPrim_inside hv N) hhdr (savedPrim_tableInside hv hN.cnt)
      hwin
  rw [← hm']
  refine ⟨fun hcol => ?_, fun schem₀ => schemLoadGpt_fatal_prim schem₀ hf⟩
  have := hcol.1
  rw [hf] at this
  exact absurd this (by decide)

/-- **A save that is cut off leaves one of the two schemes**, provided that the table of the
new one is never refused. -/
theorem schemLoadGpt_of_interrupted (hctx : imgCtxValidate ctx = .ok) (hs : sys.Serves ctx)
    (hpg : sys₀.pgSz = sys.pgSz) (O N : Schem) (hO : O.GptOk) (hN : N.GptOk)
    (hsave : (schemSaveGpt sys₀ O ctx).1 = .ok) (m : Image) :
    (∀ sys₁ : Sys, sys₁.pgSz = sys.pgSz → ∀ ss, ss <+: (schemSaveGpt sys₁ N ctx).2 →
      ¬ Collides sys (stores (stores m (schemSaveGpt sys₀ O ctx).2) ss) ctx O N →
      LoadsOneOf sys (stores (stores m (schemSaveGpt sys₀ O ctx).2) ss) ctx O N) ↔
    (N.partCnt ≠ 0 ∨
      (¬ sys.pgSz.toNat ∣ ctx.primTabOff ∧ ¬ sys.pgSz.toNat ∣ ctx.secTabOff)) := by
  have hv := (imgCtxValidate_ok_iff ctx).1 hctx
  obtain ⟨hprim, hsec⟩ := copies_of_schemSaveGpt hv hpg hO hsave m
  have hwp : TableWindow sys ctx (savedPrim N ctx) ↔
      N.partCnt ≠ 0 ∨ ¬ sys.pgSz.toNat ∣ ctx.primTabOff := by
    rw [tableWindow_iff hv sys hN.cnt rfl, savedPrim_cnt, off_savedPrim_table]
  have hws : TableWindow sys ctx (savedSec N ctx) ↔
      N.partCnt ≠ 0 ∨ ¬ sys.pgSz.toNat ∣ ctx.secTabOff := by
    rw [tableWindow_iff hv sys hN.cnt rfl, savedSec_cnt, off_savedSec_table hv]
  rw [or_and_left, ← hwp, ← hws]
  constructor
  · -- the whole of a save that is refused is one of the prefixes
    intro h
    have hall := h sys rfl _ (List.prefix_refl _)
    have hsecw : TableWindow sys ctx (savedSec N ctx) := by
      by_contra hw
      obtain ⟨hcol, hf⟩ := fatal_of_sec_window hv hs hN hprim hw
      have := (hall hcol O).1
      rw [hf O] at this
      exact absurd this (by decide)
    refine ⟨?_, hsecw⟩
    by_contra hw
    obtain ⟨hcol, hf⟩ := fatal_of_prim_window (O := O) hv hs hN _ hsecw hw
    have := (hall hcol O).1
    rw [hf O] at this
    exact absurd this (by decide)
  · rintro ⟨hw, hw'⟩ sys₁ - ss hss hcol
    exact loadsOneOf_of_prefix hv hs hN hprim hsec hw hw'
      (hss.trans (schemSaveGpt_spec sys₁ N ctx).1) hcol

/-- A GPT without entries. -/
def emptyGpt : Schem := { smallGpt with partCnt := 0 }

lemma emptyGpt_ok : emptyGpt.GptOk :=
  ⟨by decide, smallGpt_ok.idGuid, fun i hi => absurd hi (Nat.not_lt_zero i)⟩

/-- 2049 sectors of 512 bytes: the secondary table begins a page. -/
def oddCtx : ImgCtx := imgCtxInit 1049088

lemma oddCtx_valid : imgCtxValidate oddCtx = .ok := by decide

/-- The small GPT gives way to one with four entries. -/
theorem schemLoadGpt_of_interrupted_small :
    (∀ sys₁ : Sys, sys₁.pgSz = plainSys.pgSz →
      ∀ ss, ss <+: (schemSaveGpt sys₁ { smallGpt with partCnt := 4 } oddCtx).2 →
      ¬ Collides plainSys (stores (stores zeroImage (schemSaveGpt plainSys smallGpt oddCtx).2) ss)
        oddCtx smallGpt { smallGpt with partCnt := 4 } →
      LoadsOneOf plainSys
        (stores (stores zeroImage (schemSaveGpt plainSys smallGpt oddCtx).2) ss)
        oddCtx smallGpt { smallGpt with partCnt := 4 }) ↔
    ((4 : Pu32) ≠ 0 ∨
      (¬ plainSys.pgSz.toNat ∣ oddCtx.primTabOff ∧ ¬ plainSys.pgSz.toNat ∣ oddCtx.secTabOff)) :=
  schemLoadGpt_of_interrupted oddCtx_valid (plainSys_serves (by decide)) rfl smallGpt
    { smallGpt with partCnt := 4 } smallGpt_ok
    ⟨by decide, smallGpt_ok.idGuid, fun i hi => smallGpt_ok.entries i (lt_trans hi (by decide))⟩
    (by rw [smallGpt_saved oddCtx_valid (by decide)]) zeroImage

/-- The save of a GPT without entries loses the GPT that was there: its secondary table is
refused, and the header that has already been written stops every load. -/
theorem schemLoadGpt_of_interrupted_empty :
    (schemSaveGpt plainSys smallGpt oddCtx).1 = .ok ∧
    ∃ ss, ss <+: (schemSaveGpt plainSys emptyGpt oddCtx).2 ∧
      ¬ Collides plainSys (stores (stores zeroImage (schemSaveGpt plainSys smallGpt oddCtx).2) ss)
        oddCtx smallGpt emptyGpt ∧
      ∀ schem₀, (schemLoadGpt plainSys
        (stores (stores zeroImage (schemSaveGpt plainSys smallGpt oddCtx).2) ss)
        schem₀ oddCtx).1 = .fatal := by
  have hv := (imgCtxValidate_ok_iff _).1 oddCtx_valid
  have hs : plainSys.Serves oddCtx := plainSys_serves (by decide)
  have hsave : (schemSaveGpt plainSys smallGpt oddCtx).1 = .ok := by
    rw [smallGpt_saved oddCtx_valid (by decide)]
  have hprim := (copies_of_schemSaveGpt hv rfl smallGpt_ok hsave zeroImage).1
  have hwin : ¬ TableWindow plainSys oddCtx (savedSec emptyGpt oddCtx) := by
    rw [tableWindow_iff hv _ emptyGpt_ok.cnt rfl, savedSec_cnt, off_savedSec_table hv]
    rintro (h | h)
    · exact h rfl
    · exact h (by decide)
  exact ⟨hsave, _, List.prefix_refl _, fatal_of_sec_window hv hs emptyGpt_ok hprim hwin⟩

end Partman

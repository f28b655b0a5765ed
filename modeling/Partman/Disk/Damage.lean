/-
# One damaged byte

Every byte that the reader of a copy decodes is shown to one of the two checksums as a
block of one or two bytes, so a change of it is detected; the bytes that are not decoded
have no effect.  A damaged copy is therefore loaded as it was, or given up in a way that
leaves the other copy its turn.
-/
import Partman.Disk.Saved

namespace Partman

open Lib

variable {sys : Sys} {ctx : ImgCtx} {m : Image} {lba : Plba} {hdr : GptHdr} {table : GptTable}

/-- A view that shows a byte in a short block has another checksum when the byte
changes. -/
lemma crc32Of_ne_of_shows {f : Image → List UInt8} {p n : ℕ} (h : Shows f m p n) (h1 : 1 ≤ n)
    (h4 : n ≤ 4) {v : UInt8} (hv : v ≠ m p) :
    crc32Of (f (Function.update m p v)) ≠ crc32Of (f m) := by
  obtain ⟨pre, post, hf⟩ := h
  have hm := hf (m p)
  rw [Function.update_eq_self] at hm
  rw [hf v, hm]
  refine crc32Of_ne_of_block (by simp) (by simpa using h4) fun he => hv ?_
  obtain ⟨k, rfl⟩ : ∃ k, n = k + 1 := ⟨n - 1, by omega⟩
  rw [List.replicate_succ, List.replicate_succ] at he
  exact (List.cons.inj he).1

/-! ## The header -/

/-- The bytes over which the checksum of a header that has been read is taken. -/
def hdrSeen (m : Image) (buf : ℕ) : List UInt8 :=
  loadAt m buf 16 ++ leBytes 4 0 ++ leBytes 4 0 ++ loadAt m (buf + 24) 68

lemma gptHdrCrcCreate_read {buf : ℕ} (h : gptIsPresent m buf = true) :
    gptHdrCrcCreate (gptHdrRead m buf) = crc32Of (hdrSeen m buf) := by
  have hlo : hdrLo { gptHdrRead m buf with hdrCrc32 := 0 } = loadAt m buf 16 ++ leBytes 4 0 := by
    rw [hdrLo, ← gptIsPresent_iff.1 h]
    simp only [gptHdrRead, leBytes_readPu32]
    simp only [← loadAt_add, Nat.reduceAdd]
    rfl
  have hhi : hdrHi { gptHdrRead m buf with hdrCrc32 := 0 } = loadAt m (buf + 24) 68 :=
    hdrHi_read m buf
  rw [gptHdrCrcCreate_eq, hdrBytes, hlo, hhi, hdrSeen]

lemma gptIsPresent_congr {m' : Image} {buf : ℕ} (h : loadAt m' buf 8 = loadAt m buf 8) :
    gptIsPresent m' buf = gptIsPresent m buf := by
  rw [Bool.eq_iff_iff, gptIsPresent_iff, gptIsPresent_iff, h]

/-- The reserved bytes apart, a header is read from its bytes. -/
lemma gptHdrRead_congr {m' : Image} {buf : ℕ} (hp : gptIsPresent m buf = true)
    (hlo : loadAt m' buf 20 = loadAt m buf 20)
    (hhi : loadAt m' (buf + 24) 68 = loadAt m (buf + 24) 68) :
    gptIsPresent m' buf = true ∧ gptHdrRead m' buf = gptHdrRead m buf := by
  have h8 : loadAt m' buf 8 = loadAt m buf 8 := by
    rw [show (20 : ℕ) = 8 + 12 from rfl, loadAt_add, loadAt_add] at hlo
    exact (List.append_inj hlo (by simp)).1
  have hp' : gptIsPresent m' buf = true := by rwa [gptIsPresent_congr h8]
  refine ⟨hp', hdrBytes_inj (gptHdrRead_bounded _ _) (gptHdrRead_bounded _ _) ?_ ?_⟩
  · rw [hdrLo_read hp', hdrLo_read hp, hlo]
  · rw [hdrHi_read, hdrHi_read, hhi]

lemma HdrAt.congr {m' : Image} (h : HdrAt m ctx lba hdr)
    (hlo : loadAt m' (ctx.off lba) 20 = loadAt m (ctx.off lba) 20)
    (hhi : loadAt m' (ctx.off lba + 24) 68 = loadAt m (ctx.off lba + 24) 68) :
    HdrAt m' ctx lba hdr := by
  obtain ⟨hp, hr⟩ := gptHdrRead_congr h.present hlo hhi
  exact ⟨hp, hr.trans h.read, h.valid⟩

/-- The checksum that the header carries is the one of the bytes that were seen. -/
lemma HdrAt.crc_eq (h : HdrAt m ctx lba hdr) :
    hdr.hdrCrc32 = crc32Of (hdrSeen m (ctx.off lba)) := by
  have hv := h.valid
  rw [gptHdrIsValid, Bool.and_eq_true, beq_iff_eq] at hv
  rw [← gptHdrCrcCreate_read h.present, h.read]
  exact hv.1

/-- The stored checksum, as bytes. -/
lemma HdrAt.crc_bytes (h : HdrAt m ctx lba hdr) :
    leBytes 4 hdr.hdrCrc32.toNat = loadAt m (ctx.off lba + 16) 4 := by
  rw [← h.read]
  exact leBytes_readPu32 m (ctx.off lba + 16)

/-- **A change of one byte of a header is detected**, or has no effect. -/
lemma HdrAt.damage (h : HdrAt m ctx lba hdr) (p : ℕ) (v : UInt8) :
    HdrAt (Function.update m p v) ctx lba hdr ∨
      ∀ hdr', ¬ HdrAt (Function.update m p v) ctx lba hdr' := by
  obtain ⟨buf, hbuf⟩ : ∃ buf, buf = ctx.off lba := ⟨_, rfl⟩
  rcases eq_or_ne v (m p) with rfl | hv
  · rw [Function.update_eq_self]
    exact Or.inl h
  by_cases hout : p < buf ∨ (buf + 20 ≤ p ∧ p < buf + 24) ∨ buf + 92 ≤ p
  · -- the byte is not one of the header, or it is a reserved one
    refine Or.inl (h.congr ?_ ?_) <;> rw [← hbuf] <;>
      exact loadAt_update_of_lt m v (by omega)
  refine Or.inr fun hdr' h' => ?_
  by_cases hcrc : buf + 16 ≤ p ∧ p < buf + 20
  · -- the stored checksum changes, the computed one does not
    have hseen : hdrSeen (Function.update m p v) buf = hdrSeen m buf := by
      rw [hdrSeen, hdrSeen, loadAt_update_of_lt m v (by omega), loadAt_update_of_lt m v (by omega)]
    have he : loadAt (Function.update m p v) (buf + 16) 4 = loadAt m (buf + 16) 4 := by
      rw [hbuf, ← h.crc_bytes, ← h'.crc_bytes, h.crc_eq, h'.crc_eq, ← hbuf, hseen]
    have := loadAt_eq_iff.1 he (p - (buf + 16)) (by omega)
    rw [show buf + 16 + (p - (buf + 16)) = p by omega, Function.update_self] at this
    exact hv this
  · -- the computed checksum changes, the stored one does not
    have he : loadAt (Function.update m p v) (buf + 16) 4 = loadAt m (buf + 16) 4 :=
      loadAt_update_of_lt m v (by omega)
    have hcrc' : hdr'.hdrCrc32 = hdr.hdrCrc32 := by
      rw [hbuf, ← h.crc_bytes, ← h'.crc_bytes] at he
      rw [← h.read, ← h'.read] at he ⊢
      exact le32_inj (readPu32_lt _ _) (readPu32_lt _ _) he
    have hshow : Shows (fun m => hdrSeen m buf) m p 1 := by
      simp only [hdrSeen]
      by_cases hlo : p < buf + 16
      · have hs := shows_loadAt m (o := buf) (show p - buf < 16 by omega)
        rw [show buf + (p - buf) = p by omega] at hs
        exact ((hs.append_right fun _ => rfl).append_right fun _ => rfl).append_right
          fun w => loadAt_update_of_lt m w (by omega)
      · have hs := shows_loadAt m (o := buf + 24) (show p - (buf + 24) < 68 by omega)
        rw [show buf + 24 + (p - (buf + 24)) = p by omega] at hs
        refine hs.append_left fun w => ?_
        rw [loadAt_update_of_lt m w (by omega)]
    refine crc32Of_ne_of_shows hshow le_rfl (by decide) hv ?_
    rw [hbuf, ← h.crc_eq, ← h'.crc_eq, hcrc']

/-! ## The table -/

lemma gptPartEntRead_congr {m' : Image} {buf : ℕ}
    (h : ∀ a, buf ≤ a → a < buf + 93 → m' a = m a) :
    gptPartEntRead m' buf = gptPartEntRead m buf := by
  refine ent_ext (gptPartEntRead_bounded _ _) (gptPartEntRead_bounded _ _) ?_ fun k hk => ?_
  · rw [entHead_read, entHead_read]
    exact loadAt_congr fun a h1 h2 => h a h1 (by omega)
  · rw [nameUnit_read _ _ _ hk, nameUnit_read _ _ _ hk, toNat_readPu16, toNat_readPu16]
    rw [loadAt_congr fun a h1 h2 => h a (by omega) (by omega)]

lemma entSeen_congr {m' : Image} {buf : ℕ} (h : ∀ a, buf ≤ a → a < buf + 93 → m' a = m a) :
    entSeen m' buf = entSeen m buf := by
  rw [← entStream_read, ← entStream_read, gptPartEntRead_congr h]

/-- Every byte that is read of an entry is seen once or twice. -/
lemma shows_entSeen (m : Image) (buf : ℕ) {k : ℕ} (hk : k < 93) :
    ∃ n, 1 ≤ n ∧ n ≤ 2 ∧ Shows (fun m => entSeen m buf) m (buf + k) n := by
  rcases Nat.lt_or_ge k 56 with hlt | hge
  · refine ⟨1, le_rfl, by decide, (shows_loadAt m hlt).append_right fun v => ?_⟩
    exact List.flatMap_congr fun i _ => loadAt_update_of_lt m v (by omega)
  · obtain ⟨n, h1, h2, hs⟩ := shows_pairs m (buf + 56) (show 0 < 36 by decide)
      (show k - 56 ≤ 36 by omega)
    rw [show buf + 56 + (k - 56) = buf + k by omega] at hs
    exact ⟨n, h1, h2, hs.append_left fun v => loadAt_update_of_lt m v (by omega)⟩

/-- The entries that are read from an offset. -/
def entriesAt (m : Image) (off : ℕ) : GptTable := fun i => gptPartEntRead m (off + 128 * i)

lemma tableStream_entriesAt (m : Image) (off n : ℕ) : tableStream (entriesAt m off) n =
    (List.range n).flatMap fun i => entSeen m (off + 128 * i) := by
  rw [tableStream]
  exact List.flatMap_congr fun i _ => entStream_read m (off + 128 * i)

/-- **A change of one byte of a table is detected**, or has no effect. -/
lemma entriesAt_damage (m : Image) (off : ℕ) (cnt : Pu32) (p : ℕ) (v : UInt8) :
    (∀ i < cnt.toNat, entriesAt (Function.update m p v) off i = entriesAt m off i) ∨
      gptTableCrcCreate (entriesAt (Function.update m p v) off) cnt ≠
        gptTableCrcCreate (entriesAt m off) cnt := by
  rcases eq_or_ne v (m p) with rfl | hv
  · rw [Function.update_eq_self]
    exact Or.inl fun _ _ => rfl
  by_cases hex : ∃ j < cnt.toNat, off + 128 * j ≤ p ∧ p < off + 128 * j + 93
  · obtain ⟨j, hj, h1, h2⟩ := hex
    obtain ⟨n, hn1, hn2, hs⟩ := shows_entSeen m (off + 128 * j)
      (show p - (off + 128 * j) < 93 by omega)
    rw [show off + 128 * j + (p - (off + 128 * j)) = p by omega] at hs
    right
    rw [gptTableCrcCreate_eq, gptTableCrcCreate_eq, tableStream_entriesAt, tableStream_entriesAt]
    refine crc32Of_ne_of_shows (f := fun m => (List.range cnt.toNat).flatMap fun i =>
      entSeen m (off + 128 * i)) (Shows.flatMap hj hs fun i hi hne w => ?_) hn1 (by omega) hv
    exact entSeen_congr fun a _ _ => Function.update_of_ne (by omega) w m
  · -- the byte lies outside of the entries, or behind what is read of one
    refine Or.inl fun i hi => gptPartEntRead_congr fun a h1 h2 => Function.update_of_ne ?_ v m
    rintro rfl
    exact hex ⟨i, hi, h1, h2⟩

/-! ## A damaged copy -/

/-- A load that either delivers the copy or gives it up without a fatal error. -/
def Survives (l : GptPairLoad) (hdr : GptHdr) (table : GptTable) : Prop :=
  Loaded l hdr table ∨ l.res = .hdrInv ∨ l.res = .tableInv

lemma Survives.not_fatal {l : GptPairLoad} (h : Survives l hdr table) : l.res ≠ .fatal := by
  rcases h with h | h | h
  · rw [h.res]
    decide
  · rw [h]
    decide
  · rw [h]
    decide

/-- A copy whose bytes have not changed is still there. -/
lemma CopyAt.congr {m' : Image} (h : CopyAt sys m ctx lba hdr table)
    (hh : ∀ a, ctx.off lba ≤ a → a < ctx.off lba + 92 → m' a = m a)
    (ht : ∀ a, ctx.off hdr.partTableLba ≤ a →
      a < ctx.off hdr.partTableLba + 128 * hdr.partTableEntryCnt.toNat → m' a = m a) :
    CopyAt sys m' ctx lba hdr table := by
  have hhdr : HdrAt m' ctx lba hdr := by
    refine h.toHdrAt.congr ?_ ?_
    · exact loadAt_congr fun a h1 h2 => hh a h1 (by omega)
    · exact loadAt_congr fun a h1 h2 => hh a (by omega) (by omega)
  refine { h with toHdrAt := hhdr, entries := fun i hi => ?_ }
  rw [← h.entries i hi]
  exact gptPartEntRead_congr fun a h1 h2 => ht a (by omega) (by omega)

/-- **A copy with one damaged byte is loaded as it was or given up.** -/
theorem CopyAt.damage (hv : ctx.Valid) (hs : sys.Serves ctx) (h : CopyAt sys m ctx lba hdr table)
    (hsep : ctx.off lba + 92 ≤ ctx.off hdr.partTableLba ∨
      ctx.off hdr.partTableLba + 128 * hdr.partTableEntryCnt.toNat ≤ ctx.off lba)
    (p : ℕ) (v : UInt8) : Survives (loadCopy sys (Function.update m p v) ctx lba) hdr table := by
  obtain ⟨off, hoff⟩ : ∃ off, off = ctx.off hdr.partTableLba := ⟨_, rfl⟩
  have hentries : ∀ i < hdr.partTableEntryCnt.toNat, entriesAt m off i = table i := by
    rw [hoff]
    exact h.entries
  by_cases hp : off ≤ p ∧ p < off + 128 * hdr.partTableEntryCnt.toNat
  · -- the header is as it was, and the table is checked
    have hhdr : HdrAt (Function.update m p v) ctx lba hdr := by
      refine h.toHdrAt.congr ?_ ?_ <;> exact loadAt_update_of_lt m v (by omega)
    obtain ⟨h1, h2, h3⟩ := gptPairLoad_table hv hs h.inside hhdr h.cnt h.tableInside h.window
      GptHdr.zero gptTableZero
    have htab : ∀ i < hdr.partTableEntryCnt.toNat,
        tableOf (Function.update m p v) ctx hdr gptTableZero i =
          entriesAt (Function.update m p v) off i := by
      intro i hi
      rw [tableOf_of_lt h.cnt h.entrySz hi, hoff]
      rfl
    rcases entriesAt_damage m off hdr.partTableEntryCnt p v with hsame | hcrc
    · have hall : ∀ i < hdr.partTableEntryCnt.toNat,
          tableOf (Function.update m p v) ctx hdr gptTableZero i = table i := by
        intro i hi
        rw [htab i hi, hsame i hi, hentries i hi]
      refine Or.inl ⟨?_, h2, fun i hi => ?_⟩
      · rw [loadCopy, h1, gptTableIsValid_congr hall, h.tableValid]
        rfl
      · rw [loadCopy, h3, hall i hi]
    · refine Or.inr (Or.inr ?_)
      have hvalid : hdr.partTableCrc32 = gptTableCrcCreate table hdr.partTableEntryCnt := by
        simpa [gptTableIsValid] using h.tableValid
      have hinv : gptTableIsValid hdr (tableOf (Function.update m p v) ctx hdr gptTableZero)
          = false := by
        rw [gptTableIsValid_congr htab, gptTableIsValid, hvalid,
          ← gptTableCrcCreate_congr hentries]
        exact beq_false_of_ne hcrc.symm
      rw [loadCopy, h1, hinv]
      rfl
  · rcases h.toHdrAt.damage p v with hhdr | hnone
    · -- neither the header nor an entry has changed
      refine Or.inl (CopyAt.loaded hv hs { h with toHdrAt := hhdr, entries := fun i hi => ?_ } _ _)
      rw [← h.entries i hi]
      exact gptPartEntRead_congr fun a h1 h2 => Function.update_of_ne (by omega) v m
    · exact Or.inr (Or.inl (gptPairLoad_hdrInv hv hs h.inside hnone))

end Partman

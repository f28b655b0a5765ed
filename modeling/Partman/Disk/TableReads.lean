/-
# The bytes of a table that are read

The sectors of a table are mapped for the size that the header gives to its entries, and the
reader takes 93 bytes from the beginning of each entry.  The last entry decides whether these
lie in the mapped sectors: it may reach over its own end into what is left of the last
sector.
-/
import Partman.Disk.Header

namespace Partman

open Lib

variable {ctx : ImgCtx} {m : Image} {lba : Plba} {hdr : GptHdr} {len es : Pu32} {o : ℕ}

/-- `gpt_table_read` accesses the byte at this offset of the table: it has an effect on the
result. -/
def TableByte (len es : Pu32) (o : ℕ) : Prop :=
  ∃ (m : Image) (buf : ℕ) (v : UInt8) (table : GptTable),
    gptTableRead (Function.update m (buf + o) v) buf table len es ≠ gptTableRead m buf table len es

/-- Every byte that is accessed lies in the sectors that are mapped. -/
def TableStays (ctx : ImgCtx) (hdr : GptHdr) : Prop :=
  ∀ o, TableByte hdr.partTableEntryCnt hdr.partEntrySz o →
    o < (gptTableSzSecs ctx hdr).toNat * ctx.sec

/-- What is left of the last sector behind this number of bytes. -/
def secPadding (ctx : ImgCtx) (bytes : ℕ) : ℕ := (ctx.sec - bytes % ctx.sec) % ctx.sec

/-- There are no entries, or one of them with what is left behind the last one has room for
the 93 bytes that are read. -/
def EntriesReach (ctx : ImgCtx) (hdr : GptHdr) : Prop :=
  hdr.partTableEntryCnt.toNat = 0 ∨ 93 ≤ hdr.partEntrySz.toNat +
    secPadding ctx (hdr.partTableEntryCnt.toNat * hdr.partEntrySz.toNat)

/-! ## What is read -/

/-- Another value of one of the 93 bytes makes another entry. -/
lemma gptPartEntRead_update_ne {buf k : ℕ} (hk : k < 93) {v : UInt8} (hv : v ≠ m (buf + k)) :
    gptPartEntRead (Function.update m (buf + k) v) buf ≠ gptPartEntRead m buf := by
  intro he
  obtain ⟨n, h1, h2, hs⟩ := shows_entSeen m buf hk
  refine crc32Of_ne_of_shows hs h1 (by omega) hv ?_
  rw [← entStream_read, ← entStream_read, he]

/-- **The bytes that are accessed** are the first 93 ones of every entry. -/
lemma tableByte_iff (hlen : len.toNat ≤ 128) (hes : es.toNat < 2 ^ 32) : TableByte len es o ↔
    ∃ i < len.toNat, i * es.toNat ≤ o ∧ o < i * es.toNat + 93 := by
  have hread : ∀ (m : Image) (buf : ℕ) (table : GptTable) (i : ℕ),
      gptTableRead m buf table len es i =
        if i < len.toNat then gptPartEntRead m (buf + i * es.toNat) else table i := by
    intro m buf table i
    rw [gptTableRead, tableLen_min hlen]
    split
    · next hi =>
      have hle := Nat.mul_le_mul (show i ≤ 128 by omega) (Nat.le_of_lt hes)
      rw [entOff_of_lt (by omega) (by omega)]
    · rfl
  constructor
  · rintro ⟨m, buf, v, table, hne⟩
    by_contra hout
    refine hne (funext fun i => ?_)
    rw [hread, hread]
    split
    · next hi =>
      refine gptPartEntRead_congr fun a h1 h2 => Function.update_of_ne ?_ v m
      rintro rfl
      exact hout ⟨i, hi, by omega, by omega⟩
    · rfl
  · rintro ⟨i, hi, h1, h2⟩
    obtain ⟨k, rfl⟩ := Nat.exists_eq_add_of_le h1
    refine ⟨zeroImage, 0, 1, gptTableZero, fun heq => ?_⟩
    have hi' := congrFun heq i
    rw [hread, hread, if_pos hi, if_pos hi, ← Nat.add_assoc] at hi'
    exact gptPartEntRead_update_ne (by omega) (show (1 : UInt8) ≠ 0 by decide) hi'

/-! ## What is mapped -/

/-- The mapped sectors are the entries and what is left behind the last one. -/
lemma ceil_mul_eq (hpos : 0 < ctx.sec) (bytes : ℕ) :
    (bytes + ctx.sec - 1) / ctx.sec * ctx.sec = bytes + secPadding ctx bytes := by
  have hdiv := Nat.div_add_mod bytes ctx.sec
  have hlt := Nat.mod_lt bytes hpos
  rw [Nat.mul_comm] at hdiv
  rw [secPadding]
  by_cases h : bytes % ctx.sec = 0
  · rw [ceilDiv_of_mod_eq hpos h, h, Nat.sub_zero, Nat.mod_self]
    omega
  · rw [ceilDiv_of_mod_ne hpos h, Nat.mod_eq_of_lt (by omega), Nat.add_mul]
    omega

lemma tableStays_iff (hpos : 0 < ctx.sec) (hcnt : hdr.partTableEntryCnt.toNat ≤ 128)
    (hes : hdr.partEntrySz.toNat < 2 ^ 32) : TableStays ctx hdr ↔ EntriesReach ctx hdr := by
  rw [TableStays, EntriesReach]
  simp only [tableByte_iff hcnt hes, toNat_tableSzSecs hpos hcnt hes, ceil_mul_eq hpos]
  generalize secPadding ctx (hdr.partTableEntryCnt.toNat * hdr.partEntrySz.toNat) = pad
  generalize hdr.partTableEntryCnt.toNat = n
  generalize hdr.partEntrySz.toNat = sz
  cases n with
  | zero => simp
  | succ n =>
    rw [Nat.succ_mul]
    constructor
    · intro h
      -- the last byte of the last entry
      have := h (n * sz + 92) ⟨n, by omega, by omega, by omega⟩
      omega
    · rintro hroom o ⟨i, hi, -, h2⟩
      have := Nat.mul_le_mul_right sz (show i ≤ n by omega)
      omega

/-- **Where the reader stays in the mapped sectors**, for every header that is accepted. -/
theorem tableStays_iff_of_hdrAt (hsec : 512 ≤ ctx.secSz ∧ ctx.secSz ≤ 4096)
    (h : HdrAt m ctx lba hdr) (hcnt : ¬ hdr.partTableEntryCnt > gptMaxPartCnt) :
    TableStays ctx hdr ↔ EntriesReach ctx hdr := by
  have hpos : 0 < ctx.sec := by
    have := UInt64.le_iff_toNat_le.1 hsec.1
    rw [show (512 : UInt64).toNat = 512 from rfl] at this
    exact lt_of_lt_of_le (by decide) this
  exact tableStays_iff hpos (UInt64.le_iff_toNat_le.1 (UInt64.not_lt.1 hcnt)) h.bounded.partEntrySz

/-! ## A header with short entries -/

lemma hdrAt_hdrOfEntrySz {entrySz : Pu32} (h : entrySz.toNat < 2 ^ 32) :
    HdrAt (stores zeroImage (gptHdrWrite 512 (hdrOfEntrySz entrySz))) smallCtx 1
      (hdrOfEntrySz entrySz) := by
  have hoff : smallCtx.off (hdrOfEntrySz entrySz).myLba = 512 :=
    show smallCtx.off 1 = 512 by decide
  rw [gptHdrWrite_eq, ← hoff]
  exact hdrAt_of_holds (hdrOfEntrySz_bounded h) (gptHdrCrcCreate_setCrc _ _).symm
    (holds_stores_storeAt _ _ _)

theorem tableStays_iff_of_hdrAt_small :
    TableStays smallCtx (hdrOfEntrySz 128) ↔ EntriesReach smallCtx (hdrOfEntrySz 128) :=
  tableStays_iff_of_hdrAt (by decide) (hdrAt_hdrOfEntrySz (by decide))
    (show ¬ (128 : UInt64) > gptMaxPartCnt by decide)

/-- With entries of four bytes one sector is mapped, and the reader goes on to byte 600. -/
theorem not_tableStays_short :
    HdrAt (stores zeroImage (gptHdrWrite 512 (hdrOfEntrySz 4))) smallCtx 1 (hdrOfEntrySz 4) ∧
      ¬ (hdrOfEntrySz 4).partTableEntryCnt > gptMaxPartCnt ∧
      ¬ TableStays smallCtx (hdrOfEntrySz 4) := by
  refine ⟨hdrAt_hdrOfEntrySz (by decide), show ¬ (128 : UInt64) > gptMaxPartCnt by decide, ?_⟩
  rw [tableStays_iff (by decide) (show (128 : UInt64).toNat ≤ 128 by decide)
    (show (4 : UInt64).toNat < 2 ^ 32 by decide), EntriesReach]
  show ¬ ((128 : UInt64).toNat = 0 ∨ 93 ≤ (4 : UInt64).toNat +
    secPadding smallCtx ((128 : UInt64).toNat * (4 : UInt64).toNat))
  decide

end Partman

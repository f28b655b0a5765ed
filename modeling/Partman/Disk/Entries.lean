/-
# Writing and reading a table of entries

The entries of a table are written one after another, at any distance that leaves room for
an entry.  What is read back is what was written but for the names, whose units overlap on
the disk: a name comes back exactly if the high byte of every unit is the low byte of the
next one.
-/
import Partman.Disk.Checksums

namespace Partman

open Lib

variable {len entrySz : Pu32} {table : GptTable}

/-- The buffer of the table does not wrap around. -/
def TableFits (len entrySz : Pu32) : Prop :=
  (len.toNat - 1) * entrySz.toNat + 128 ≤ 2 ^ 64

instance : Decidable (TableFits len entrySz) := inferInstanceAs (Decidable (_ ≤ _))

lemma entOff_of_fits (hlen : len.toNat ≤ 128) (hfit : TableFits len entrySz) {i : ℕ}
    (hi : i < len.toNat) : entOff i entrySz = i * entrySz.toNat := by
  have hle : i * entrySz.toNat ≤ (len.toNat - 1) * entrySz.toNat :=
    Nat.mul_le_mul_right _ (by omega)
  rw [TableFits] at hfit
  exact entOff_of_lt (by omega) (by omega)

/-- Every entry of a table that has been written is there. -/
lemma holds_gptTableWrite_of_fits (hlen : len.toNat ≤ 128) (hsz : 128 ≤ entrySz.toNat)
    (hfit : TableFits len entrySz) (m : Image) (buf : ℕ) (table : GptTable) :
    ∀ i < len.toNat, Holds (stores m (gptTableWrite buf table len entrySz))
      (buf + i * entrySz.toNat) (entPacked (table i)) := by
  have heq : gptTableWrite buf table len entrySz = (List.range len.toNat).flatMap fun i =>
      gptPartEntWrite (buf + i * entrySz.toNat) (table i) := by
    rw [gptTableWrite, tableLen_min hlen]
    exact List.flatMap_congr fun i hi => by rw [entOff_of_fits hlen hfit (List.mem_range.1 hi)]
  rw [heq]
  refine holds_flatMap (fun m i => ?_) (fun i j hij s hs => ?_) m len.toNat
  · rw [stores_gptPartEntWrite]
    exact holds_stores_storeAt _ _ _
  · -- two entries are at least the size of one apart
    have hs := mem_gptPartEntWrite hs
    rw [length_entPacked]
    rcases Nat.lt_or_gt_of_ne hij with hlt | hlt
    · have := Nat.mul_le_mul_right entrySz.toNat hlt
      rw [Nat.succ_mul] at this
      omega
    · have := Nat.mul_le_mul_right entrySz.toNat hlt
      rw [Nat.succ_mul] at this
      omega

/-- **When a table comes back as it was written**: exactly if every name in it survives the
overlap of its units, whatever the buffer held before. -/
theorem gptTableRead_of_write_iff (hlen : len.toNat ≤ 128) (hsz : 128 ≤ entrySz.toNat)
    (hfit : TableFits len entrySz) (hb : ∀ i < len.toNat, (table i).Bounded) (m : Image)
    (buf : ℕ) (table₀ : GptTable) :
    (∀ i < len.toNat, gptTableRead (stores m (gptTableWrite buf table len entrySz)) buf table₀ len
        entrySz i = table i) ↔
      ∀ i < len.toNat, NameChained (table i).name := by
  refine forall₂_congr fun i hi => ?_
  rw [gptTableRead, tableLen_min hlen, if_pos hi, entOff_of_fits hlen hfit hi]
  exact gptPartEntRead_iff_of_holds (hb i hi)
    (holds_gptTableWrite_of_fits hlen hsz hfit m buf table i hi)

/-- A table with one entry, which has the name `AB`. -/
def namedTable : GptTable := fun _ => { GptPartEnt.zero with name := shortName }

lemma namedTable_bounded (i : ℕ) : (namedTable i).Bounded :=
  ⟨zero_codable.typeGuid, zero_codable.uniqueGuid, show ∀ k, (shortName k).toNat < 2 ^ 16 by decide⟩

/-- A name in which every unit ends in the byte that the next one begins with. -/
def chainedName : Fin 36 → PcharUcs := fun k =>
  if k.val = 0 then 0x4241 else if k.val = 1 then 0x42 else 0

lemma chainedName_chained : NameChained chainedName := by
  rw [NameChained]
  decide

/-- Entries with this name. -/
def chainedTable : GptTable := fun i =>
  { GptPartEnt.zero with startLba := .ofNat i, name := chainedName }

lemma chainedTable_bounded (i : ℕ) : (chainedTable i).Bounded :=
  ⟨zero_codable.typeGuid, zero_codable.uniqueGuid,
    show ∀ k, (chainedName k).toNat < 2 ^ 16 by decide⟩

/-- Three named entries come back, further apart than their size. -/
theorem gptTableRead_of_write_small :
    (∃ k, (chainedTable 0).name k ≠ 0) ∧ ∀ i < (3 : Pu32).toNat, gptTableRead
      (stores zeroImage (gptTableWrite 1024 chainedTable 3 256)) 1024 gptTableZero 3 256 i =
        chainedTable i :=
  ⟨⟨0, by decide⟩, (gptTableRead_of_write_iff (by decide) (by decide) (by decide)
    (fun i _ => chainedTable_bounded i) _ _ _).2 fun _ _ => chainedName_chained⟩

/-- The name `AB` does not come back: its first unit is read as `BA`, one character. -/
theorem gptTableRead_of_write_named :
    (∀ i < (1 : Pu32).toNat, (namedTable i).Bounded) ∧
      (gptTableRead (stores zeroImage (gptTableWrite 1024 namedTable 1 128)) 1024 gptTableZero 1
        128 0).name 0 = 0x4241 ∧
      gptTableRead (stores zeroImage (gptTableWrite 1024 namedTable 1 128)) 1024 gptTableZero 1
        128 0 ≠ namedTable 0 := by
  have hunit : (gptTableRead (stores zeroImage (gptTableWrite 1024 namedTable 1 128)) 1024
      gptTableZero 1 128 0).name 0 = 0x4241 := by
    decide
  refine ⟨fun i _ => namedTable_bounded i, hunit, fun h => ?_⟩
  rw [h] at hunit
  exact absurd hunit (by decide)

end Partman

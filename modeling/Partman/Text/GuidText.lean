/-
# Identifiers as text

`guid_to_str` writes the eleven fields of an identifier with all their digits; `str_to_guid`
scans eleven fields, each with a conversion of its own width, and hyphens between some of
them.  Text in the registry format is read field by field and written again in upper case.
Other text of the same length is read as well, when every conversion finds a numeral.
-/
import Mathlib.Data.List.Forall2
import Partman.Disk.Codec
import Partman.Lib.Word
import Partman.Text.Number

namespace Partman

open Lib

/-! ## Hexadecimal digits -/

lemma digitVal_hexDigit {d : ℕ} (h : d < 16) : digitVal (hexDigit d) = some d := by
  revert d
  decide

lemma toUpper_hexDigit {d : ℕ} (h : d < 16) : toUpper (hexDigit d) = hexDigit d := by
  revert d
  decide

lemma isBaseDigit_hexDigit {d : ℕ} (h : d < 16) : isBaseDigit 16 (hexDigit d) = true := by
  simp [isBaseDigit, digitVal_hexDigit h, h]

/-- A digit written again is the digit in upper case. -/
lemma hexDigit_digitVal {c : Char} (h : isBaseDigit 16 c = true) :
    hexDigit ((digitVal c).getD 0) = toUpper c := by
  by_cases hd : isDigit c = true
  · have hc := isDigit_iff.1 hd
    rw [toUpper_of_isDigit hd]
    simp only [digitVal, hd, if_true, Option.getD_some, hexDigit, Char.reduceToNat]
    rw [if_pos (by omega), show 48 + (c.toNat - 48) = c.toNat by omega, Char.ofNat_toNat]
  · rw [isBaseDigit] at h
    unfold digitVal at h ⊢
    simp only [hd, Bool.false_eq_true, if_false] at h ⊢
    split_ifs at h ⊢ with hu
    · simp only [Bool.and_eq_true, decide_eq_true_eq, char_le_iff, Char.reduceToNat] at hu
      simp only [Option.getD_some, hexDigit, Char.reduceToNat]
      rw [if_neg (by omega), show 55 + ((toUpper c).toNat - 65 + 10) = (toUpper c).toNat by omega,
        Char.ofNat_toNat]

/-! ## Numbers with all their digits -/

@[simp] lemma length_nibbles (w n : ℕ) : (nibbles w n).length = w := by simp [nibbles]

lemma nibbles_succ (w n : ℕ) : nibbles (w + 1) n = nibbles w (n / 16) ++ [hexDigit (n % 16)] := by
  rw [nibbles, List.range_succ, List.map_append]
  congr 1
  · refine List.map_congr_left fun i hi => ?_
    have hi := List.mem_range.1 hi
    rw [Nat.div_div_eq_div_mul, ← pow_succ', show w + 1 - 1 - i = w - 1 - i + 1 by omega]
  · simp

lemma mem_nibbles {w n : ℕ} {c : Char} (h : c ∈ nibbles w n) : ∃ d < 16, c = hexDigit d := by
  rw [nibbles] at h
  obtain ⟨i, -, rfl⟩ := List.mem_map.1 h
  exact ⟨_, Nat.mod_lt _ (by decide), rfl⟩

lemma nibbles_isBaseDigit {w n : ℕ} : ∀ c ∈ nibbles w n, isBaseDigit 16 c = true := by
  intro c hc
  obtain ⟨d, hd, rfl⟩ := mem_nibbles hc
  exact isBaseDigit_hexDigit hd

lemma map_toUpper_nibbles (w n : ℕ) : (nibbles w n).map toUpper = nibbles w n := by
  refine List.map_congr_left (g := id) (fun c hc => ?_) |>.trans (List.map_id _)
  obtain ⟨d, hd, rfl⟩ := mem_nibbles hc
  exact toUpper_hexDigit hd

lemma digitsVal_nibbles (w n : ℕ) : digitsVal 16 (nibbles w n) = n % 16 ^ w := by
  induction w generalizing n with
  | zero => simp [nibbles, digitsVal, Nat.mod_one]
  | succ w ih =>
    rw [nibbles_succ, digitsVal_append_one, ih, digitVal_hexDigit (Nat.mod_lt _ (by decide)),
      Option.getD_some, pow_succ', Nat.mod_mul]
    ring

/-- Digits that are read and written again come back in upper case. -/
lemma nibbles_digitsVal {ds : List Char} (h : ∀ c ∈ ds, isBaseDigit 16 c = true) :
    nibbles ds.length (digitsVal 16 ds) = ds.map toUpper := by
  induction ds using List.reverseRecOn with
  | nil => rfl
  | append_singleton ds c ih =>
    have hc := h c (by simp)
    have hlt := digitVal_getD_lt hc
    have hdiv : (digitsVal 16 ds * 16 + (digitVal c).getD 0) / 16 = digitsVal 16 ds := by omega
    have hmod : (digitsVal 16 ds * 16 + (digitVal c).getD 0) % 16 = (digitVal c).getD 0 := by omega
    rw [List.length_append, List.length_singleton, nibbles_succ, digitsVal_append_one, hdiv, hmod,
      ih fun d hd => h d (by simp [hd]), hexDigit_digitVal hc, List.map_append]
    rfl

lemma nibbles_add (k w n : ℕ) : nibbles (k + w) n = nibbles k (n / 16 ^ w) ++ nibbles w n := by
  induction w generalizing n with
  | zero => simp [nibbles]
  | succ w ih =>
    rw [← add_assoc, nibbles_succ, ih, nibbles_succ w, Nat.div_div_eq_div_mul, ← pow_succ',
      List.append_assoc]

/-- A number that fits is written with exactly the digits asked for. -/
lemma hexPad_eq {w : ℕ} {n : Pu64} (hw : w ≤ 16) (h : n.toNat < 16 ^ w) :
    hexPad w n = nibbles w n.toNat := by
  have hzero : nibbles (16 - w) 0 = List.replicate (16 - w) '0' := by
    simp [nibbles, hexDigit, List.map_const']
  have hsplit : nibbles 16 n.toNat = List.replicate (16 - w) '0' ++ nibbles w n.toNat := by
    rw [← hzero, ← Nat.div_eq_of_lt h, ← nibbles_add, Nat.sub_add_cancel hw]
  rw [hexPad, hsplit, List.takeWhile_append_of_pos (by simp [List.mem_replicate])]
  rw [List.length_append, List.length_replicate, min_eq_right (Nat.le_add_right _ _)]
  exact List.drop_left' (by simp)

/-! ## The fields of an identifier -/

/-- The widths of the eleven conversions, and whether a hyphen follows. -/
def guidFormat : List (ℕ × Bool) :=
  [(8, true), (4, true), (4, true), (2, false), (2, true), (2, false), (2, false), (2, false),
    (2, false), (2, false), (2, false)]

/-- The scans of `str_to_guid`, one field after another. -/
def scanFields : List (ℕ × Bool) → List Char → Option (List Pu64)
  | [], _ => some []
  | (w, hyphen) :: fs, s =>
    (scanUInt 16 w s).bind fun x =>
      (if hyphen then scanLit '-' x.2 else some x.2).bind fun s =>
        (scanFields fs s).bind fun vs => some (x.1 :: vs)

/-- The identifier that `str_to_guid` makes of the values of its fields. -/
def guidOfFields : List Pu64 → Option Guid
  | [timeLo, timeMid, timeHiVer, clSeqHiRes, clSeqLo, n0, n1, n2, n3, n4, n5] =>
    some ⟨timeLo, timeMid.toUInt16, timeHiVer.toUInt16, clSeqHiRes.toUInt8, clSeqLo.toUInt8,
      ![n0.toUInt8, n1.toUInt8, n2.toUInt8, n3.toUInt8, n4.toUInt8, n5.toUInt8]⟩
  | _ => none

lemma dropWhile_dropWhile {p : Char → Bool} (s : List Char) :
    (s.dropWhile p).dropWhile p = s.dropWhile p := by
  have := dropWhile_append_stop (p := p) (l := []) (r := s.dropWhile p) (by simp)
    head?_dropWhile_false
  simpa using this

lemma scanUInt_dropWhile (base w : ℕ) (s : List Char) :
    scanUInt base w (s.dropWhile isSpace) = scanUInt base w s := by
  rw [scanUInt_eq, scanUInt_eq, dropWhile_dropWhile]

section Steps

variable {w : ℕ} {fs : List (ℕ × Bool)} {s : List Char} {g : List Pu64 → Option Guid}
  {step : Pu64 × List Char → Option Guid} {cont : Pu64 → List Char → Option Guid}

/-- A field with a hyphen behind it. -/
lemma scanFields_hyphen (hstep : ∀ v t, step (v, t) = (scanLit '-' t).bind (cont v))
    (hcont : ∀ v t, cont v t = (scanFields fs t).bind fun vs => g (v :: vs)) :
    (scanUInt 16 w s).bind step = (scanFields ((w, true) :: fs) s).bind g := by
  rcases hx : scanUInt 16 w s with _ | ⟨v, t⟩
  · simp [scanFields, hx]
  · rcases hl : scanLit '-' t with _ | t'
    · simp [scanFields, hx, hstep, hl]
    · simp [scanFields, hx, hstep, hl, hcont, Option.bind_assoc]

/-- A field with the next one behind it. -/
lemma scanFields_plain (hcont : ∀ v t, step (v, t) = (scanFields fs t).bind fun vs => g (v :: vs)) :
    (scanUInt 16 w s).bind step = (scanFields ((w, false) :: fs) s).bind g := by
  rcases hx : scanUInt 16 w s with _ | ⟨v, t⟩
  · simp [scanFields, hx]
  · simp [scanFields, hx, hcont, Option.bind_assoc]

end Steps

/-- `str_to_guid` scans its fields and puts the identifier together. -/
lemma strToGuid_eq (s : List Char) :
    strToGuid s = if s.length ≠ 36 then none else (scanFields guidFormat s).bind guidOfFields := by
  rw [strToGuid]
  by_cases hlen : s.length = 36
  · rw [if_neg (by simp [hlen]), if_neg (by simp [hlen]), scanUInt_dropWhile]
    refine scanFields_hyphen (fun _ _ => rfl) fun timeLo s => ?_
    refine scanFields_hyphen (fun _ _ => rfl) fun timeMid s => ?_
    refine scanFields_hyphen (fun _ _ => rfl) fun timeHiVer s => ?_
    refine scanFields_plain fun clSeqHiRes s => ?_
    refine scanFields_hyphen (fun _ _ => rfl) fun clSeqLo s => ?_
    refine scanFields_plain fun n0 s => ?_
    refine scanFields_plain fun n1 s => ?_
    refine scanFields_plain fun n2 s => ?_
    refine scanFields_plain fun n3 s => ?_
    refine scanFields_plain fun n4 s => ?_
    refine scanFields_plain fun n5 s => ?_
    rfl
  · rw [if_pos hlen, if_pos (by simpa using hlen)]
    rfl

/-! ## Letter case -/

lemma isDigit_toUpper (c : Char) : isDigit (toUpper c) = isDigit c := by
  rw [Bool.eq_iff_iff, isDigit_iff, isDigit_iff]
  rcases toUpper_cases c with h | ⟨h1, h2, h3⟩
  · rw [h]
  · omega

lemma toUpper_toUpper (c : Char) : toUpper (toUpper c) = toUpper c := by
  rcases toUpper_cases c with h | ⟨h1, h2, h3⟩
  · rw [h, h]
  · rcases toUpper_cases (toUpper c) with h | ⟨h4, h5, -⟩
    · exact h
    · omega

lemma digitVal_toUpper (c : Char) : digitVal (toUpper c) = digitVal c := by
  unfold digitVal
  rw [isDigit_toUpper, toUpper_toUpper]
  by_cases hd : isDigit c = true
  · rw [toUpper_of_isDigit hd]
  · simp [hd]

lemma isBaseDigit_toUpper (base : ℕ) (c : Char) :
    isBaseDigit base (toUpper c) = isBaseDigit base c := by
  unfold isBaseDigit
  rw [digitVal_toUpper]

lemma digitsVal_toUpper (base : ℕ) (ds : List Char) :
    digitsVal base (ds.map toUpper) = digitsVal base ds := by
  unfold digitsVal
  rw [List.foldl_map]
  simp only [digitVal_toUpper]

lemma toUpper_eq_hyphen {c : Char} (h : toUpper c = '-') : c = '-' := by
  rcases toUpper_cases c with hc | ⟨h1, h2, h3⟩
  · exact hc.symm.trans h
  · rw [h] at h3
    have : ('-' : Char).toNat = 45 := rfl
    omega

/-! ## Fields that are full of digits -/

/-- The text of fields with these digits. -/
def fieldsText : List (ℕ × Bool) → List (List Char) → List Char
  | (_, hyphen) :: fs, d :: ds => d ++ ((if hyphen then ['-'] else []) ++ fieldsText fs ds)
  | _, _ => []

/-- The text of fields with these values: every field has all its digits. -/
def valuesText (fs : List (ℕ × Bool)) (ns : List ℕ) : List Char :=
  fieldsText fs (List.zipWith (fun f n => nibbles f.1 n) fs ns)

lemma valuesText_cons (w : ℕ) (hyphen : Bool) (fs : List (ℕ × Bool)) (n : ℕ) (ns : List ℕ) :
    valuesText ((w, hyphen) :: fs) (n :: ns) =
      nibbles w n ++ ((if hyphen then ['-'] else []) ++ valuesText fs ns) := rfl

/-- The values fit into their fields. -/
abbrev Fits : List (ℕ × Bool) → List ℕ → Prop := List.Forall₂ fun f n => n < 16 ^ f.1

lemma length_valuesText {fs : List (ℕ × Bool)} {ns : List ℕ} (h : Fits fs ns) :
    (valuesText fs ns).length = (fs.map fun f => f.1 + f.2.toNat).sum := by
  induction h with
  | nil => rfl
  | @cons f n fs ns _ _ ih =>
    obtain ⟨w, hyphen⟩ := f
    rw [valuesText_cons, List.length_append, List.length_append, length_nibbles, ih,
      List.map_cons, List.sum_cons]
    cases hyphen <;> simp [add_assoc]

/-- A conversion reads the digits up to its width. -/
lemma scanUInt_full {w : ℕ} {ds rest : List Char} (hw : 2 ≤ w) (hw16 : w ≤ 16)
    (hlen : ds.length = w) (hd : ∀ c ∈ ds, isBaseDigit 16 c = true) :
    scanUInt 16 w (ds ++ rest) = some (UInt64.ofNat (digitsVal 16 ds), rest) := by
  have hne : ds ≠ [] := List.ne_nil_of_length_pos (by omega)
  have hval : digitsVal 16 ds < 2 ^ 64 := by
    calc digitsVal 16 ds < 16 ^ ds.length := digitsVal_lt hd
      _ ≤ 16 ^ 16 := Nat.pow_le_pow_right (by decide) (by omega)
  have h := @scanUInt_complete 16 w rest
    ⟨[], none, [], ds, by simp, by simp, Or.inl rfl, hne, hd, by simp [hlen]⟩
    ⟨Or.inl (by simp [hlen]), fun _ _ _ h0 => by simp only at h0; simp [h0] at hlen; omega⟩
  simp only [Numeral.text, Numeral.value, strtoul] at h
  rw [if_neg (not_le.2 hval)] at h
  simpa using h

/-- **Text with these values in either case is scanned to them.** -/
lemma scanFields_of_upper {fs : List (ℕ × Bool)} {ns : List ℕ} {s : List Char} (h : Fits fs ns)
    (hw : ∀ f ∈ fs, 2 ≤ f.1 ∧ f.1 ≤ 16) (hs : s.map toUpper = valuesText fs ns) :
    scanFields fs s = some (ns.map UInt64.ofNat) := by
  induction h generalizing s with
  | nil => rfl
  | @cons f n fs ns hn _ ih =>
    obtain ⟨w, hyphen⟩ := f
    obtain ⟨h2, h16⟩ := hw (w, hyphen) (by simp)
    rw [valuesText_cons] at hs
    obtain ⟨d, t, rfl, hd, ht⟩ := List.map_eq_append_iff.1 hs
    obtain ⟨y, r, rfl, hy, hr⟩ := List.map_eq_append_iff.1 ht
    have hlen : d.length = w := by rw [← List.length_map toUpper, hd, length_nibbles]
    have hdig : ∀ c ∈ d, isBaseDigit 16 c = true := fun c hc => by
      rw [← isBaseDigit_toUpper]
      exact nibbles_isBaseDigit (w := w) (n := n) _ (hd ▸ List.mem_map_of_mem hc)
    have hval : digitsVal 16 d = n := by
      rw [← digitsVal_toUpper, hd, digitsVal_nibbles, Nat.mod_eq_of_lt hn]
    have hrest := ih (fun f hf => hw f (by simp [hf])) hr
    cases hyphen with
    | false =>
      obtain rfl : y = [] := by simpa using hy
      simp [scanFields, scanUInt_full h2 h16 hlen hdig, hval, hrest]
    | true =>
      obtain ⟨c, rfl⟩ : ∃ c, y = [c] := by
        rw [← List.length_eq_one_iff, ← List.length_map toUpper, hy]
        rfl
      obtain rfl : c = '-' := toUpper_eq_hyphen (by simpa using hy)
      simp [scanFields, scanUInt_full h2 h16 hlen hdig, hval, hrest, scanLit]

/-! ## Identifiers -/

/-- The values of the fields of an identifier. -/
def Guid.values (guid : Guid) : List ℕ :=
  [guid.timeLo.toNat, guid.timeMid.toNat, guid.timeHiVer.toNat, guid.clSeqHiRes.toNat,
    guid.clSeqLo.toNat, (guid.nodes 0).toNat, (guid.nodes 1).toNat, (guid.nodes 2).toNat,
    (guid.nodes 3).toNat, (guid.nodes 4).toNat, (guid.nodes 5).toNat]

variable {guid : Guid} {s : List Char}

lemma Guid.fits_values (h : guid.timeLo.toNat < 2 ^ 32) : Fits guidFormat guid.values := by
  refine .cons h (.cons (UInt16.toNat_lt _) (.cons (UInt16.toNat_lt _) ?_))
  refine .cons (UInt8.toNat_lt _) (.cons (UInt8.toNat_lt _) (.cons (UInt8.toNat_lt _) ?_))
  refine .cons (UInt8.toNat_lt _) (.cons (UInt8.toNat_lt _) (.cons (UInt8.toNat_lt _) ?_))
  exact .cons (UInt8.toNat_lt _) (.cons (UInt8.toNat_lt _) .nil)

/-- The text of an identifier is the text of its values. -/
lemma guidToStr_eq (h : guid.timeLo.toNat < 2 ^ 32) :
    guidToStr guid = valuesText guidFormat guid.values := by
  have h16 : ∀ n : Pu16, hexPad 4 n.toUInt64 = nibbles 4 n.toNat := fun n =>
    hexPad_eq (by decide) (by simpa using n.toNat_lt)
  have h8 : ∀ n : Pu8, hexPad 2 n.toUInt64 = nibbles 2 n.toNat := fun n =>
    hexPad_eq (by decide) (by simpa using n.toNat_lt)
  have hfin : List.finRange 6 = [0, 1, 2, 3, 4, 5] := by decide
  simp only [guidToStr, hexPad_eq (w := 8) (by decide) h, h16, h8, hfin, guidFormat, Guid.values,
    valuesText_cons, List.flatMap_cons, List.flatMap_nil, if_true, Bool.false_eq_true, if_false,
    List.append_assoc, List.cons_append, List.nil_append]
  rfl

lemma guidOfFields_values (guid : Guid) :
    guidOfFields (guid.values.map UInt64.ofNat) = some guid := by
  have h16 : ∀ n : Pu16, (UInt64.ofNat n.toNat).toUInt16 = n := fun n => by
    rw [← UInt16.toNat_inj]
    have := n.toNat_lt
    simp
  have h8 : ∀ n : Pu8, (UInt64.ofNat n.toNat).toUInt8 = n := fun n => by
    rw [← UInt8.toNat_inj]
    have := n.toNat_lt
    simp
  have hnodes : ![guid.nodes 0, guid.nodes 1, guid.nodes 2, guid.nodes 3, guid.nodes 4,
      guid.nodes 5] = guid.nodes := by
    funext i
    match i with
    | 0 | 1 | 2 | 3 | 4 | 5 => rfl
  simp only [Guid.values, List.map_cons, List.map_nil, guidOfFields, h16, h8, hnodes,
    UInt64.ofNat_toNat]

lemma length_guidToStr (h : guid.timeLo.toNat < 2 ^ 32) : (guidToStr guid).length = 36 := by
  rw [guidToStr_eq h, length_valuesText (Guid.fits_values h)]
  decide

/-- **The text of an identifier, in either case, is read back to it.** -/
lemma strToGuid_of_upper (h : guid.timeLo.toNat < 2 ^ 32) (hs : s.map toUpper = guidToStr guid) :
    strToGuid s = some guid := by
  have hlen : s.length = 36 := by
    rw [← List.length_map toUpper, hs, length_guidToStr h]
  rw [strToGuid_eq, if_neg (not_not.2 hlen),
    scanFields_of_upper (Guid.fits_values h) (by decide) (hs.trans (guidToStr_eq h)),
    Option.bind_some, guidOfFields_values]

/-- Two texts that differ in letter case only. -/
def SameUpToCase (s t : List Char) : Prop := s.map toUpper = t.map toUpper

lemma map_toUpper_fieldsText (fs : List (ℕ × Bool)) (ds : List (List Char)) :
    (fieldsText fs ds).map toUpper = fieldsText fs (ds.map fun d => d.map toUpper) := by
  induction fs generalizing ds with
  | nil => rfl
  | cons f fs ih =>
    obtain ⟨w, hyphen⟩ := f
    cases ds with
    | nil => rfl
    | cons d ds =>
      have hy : ((if hyphen then ['-'] else []) : List Char).map toUpper =
          if hyphen then ['-'] else [] := by cases hyphen <;> rfl
      rw [fieldsText, List.map_append, List.map_append, hy, ih]
      rfl

/-- The text of an identifier is in upper case. -/
lemma map_toUpper_guidToStr (h : guid.timeLo.toNat < 2 ^ 32) :
    (guidToStr guid).map toUpper = guidToStr guid := by
  rw [guidToStr_eq h, valuesText, map_toUpper_fieldsText, List.map_zipWith]
  simp only [map_toUpper_nibbles]

/-- **The round trips of an identifier** whose first field has 32 bits: through its text in
either case, and through its sixteen bytes, which the checksum is fed in their order. -/
theorem guid_roundTrip (guid : Guid) (h : guid.timeLo.toNat < 2 ^ 32) :
    (guidToStr guid).length = 36 ∧
    (∀ s, SameUpToCase s (guidToStr guid) → strToGuid s = some guid) ∧
    ∀ (m : Image) (buf : ℕ),
      guidRead (stores m (guidWrite buf guid)) buf = guid ∧
      ∀ crc32, guidCrcCompute crc32 guid =
        crc32Feed crc32 (loadAt (stores m (guidWrite buf guid)) buf 16) := by
  refine ⟨length_guidToStr h, fun s hs => strToGuid_of_upper h ?_, fun m buf => ?_⟩
  · rw [hs, map_toUpper_guidToStr h]
  · have hload : loadAt (stores m (guidWrite buf guid)) buf 16 = guidBytes guid := by
      rw [guidWrite_eq, ← length_guidBytes guid]
      exact holds_iff_loadAt.1 (holds_stores_storeAt _ _ _)
    refine ⟨guidBytes_inj (guidRead_timeLo_lt _ _) h ?_, fun crc32 => ?_⟩
    · rw [guidBytes_read, hload]
    · rw [guidCrcCompute_eq, hload]

/-- An identifier with letters and leading zeros in its fields. -/
def efiSystem : Guid :=
  ⟨0xC12A7328, 0x0F81, 0x11D2, 0xBA, 0x4B, ![0x00, 0xA0, 0xC9, 0x3E, 0xC9, 0x3B]⟩

theorem guid_roundTrip_small : (guidToStr efiSystem).length = 36 ∧
    (∀ s, SameUpToCase s (guidToStr efiSystem) → strToGuid s = some efiSystem) ∧
    ∀ (m : Image) (buf : ℕ),
      guidRead (stores m (guidWrite buf efiSystem)) buf = efiSystem ∧
      ∀ crc32, guidCrcCompute crc32 efiSystem =
        crc32Feed crc32 (loadAt (stores m (guidWrite buf efiSystem)) buf 16) :=
  guid_roundTrip efiSystem (by decide)

end Partman

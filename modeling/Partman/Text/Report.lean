/-
# What a listing tells

The listing of a scheme shows neither more nor less than its identifier and its used partitions:
two schemes are listed alike if and only if they agree in these.  The lines end at their
newlines, the blocks of the partitions begin with the number of the partition, and the numbers
and identifiers can be read back.
-/
import Partman.Edit.Reload
import Partman.Lib.Lines
import Partman.Model.Report
import Partman.Text.GuidText
import Partman.Text.Typed

namespace Partman

open Lib

variable {ctx : ImgCtx} {schem schem' : Schem} {part part' : SchemPart} {i : ℕ}

/-! ## Values -/

lemma decimal_inj {n n' : ℕ} (h : decimal n = decimal n') : n = n' := by
  rw [← digitsVal_decimal n, h, digitsVal_decimal]

lemma mem_hexPad {w : ℕ} {n : Pu64} {c : Char} (h : c ∈ hexPad w n) : ∃ d < 16, c = hexDigit d :=
  mem_nibbles (List.mem_of_mem_drop h)

lemma not_mem_hexPad {c : Char} (hc : digitVal c = none) (w : ℕ) (n : Pu64) :
    c ∉ hexPad w n := by
  intro h
  obtain ⟨d, hd, rfl⟩ := mem_hexPad h
  rw [digitVal_hexDigit hd] at hc
  exact absurd hc (Option.some_ne_none d)

lemma toUpper_toLower_hexDigit {d : ℕ} (h : d < 16) :
    toUpper (hexDigit d).toLower = hexDigit d := by
  decide +revert

lemma map_toUpper_hexPadLower (w : ℕ) (n : Pu64) :
    (hexPadLower w n).map toUpper = hexPad w n := by
  rw [hexPadLower, List.map_map]
  conv_rhs => rw [← List.map_id (hexPad w n)]
  refine List.map_congr_left fun c hc => ?_
  obtain ⟨d, hd, rfl⟩ := mem_hexPad hc
  exact toUpper_toLower_hexDigit hd

lemma newline_not_mem_hexPadLower (w : ℕ) (n : Pu64) : '\n' ∉ hexPadLower w n := by
  intro h
  have hup := List.mem_map_of_mem (f := toUpper) h
  rw [map_toUpper_hexPadLower] at hup
  exact not_mem_hexPad (by decide) w n hup

lemma digitsVal_zeros {zs : List Char} (h : ∀ c ∈ zs, c = '0') (ds : List Char) :
    digitsVal 16 (zs ++ ds) = digitsVal 16 ds := by
  induction zs with
  | nil => rfl
  | cons c zs ih =>
    obtain rfl := h c List.mem_cons_self
    exact ih fun d hd => h d (List.mem_cons_of_mem _ hd)

/-- The digits that are not printed are zeros. -/
lemma digitsVal_hexPad (w : ℕ) (n : Pu64) : digitsVal 16 (hexPad w n) = n.toNat := by
  rw [hexPad]
  generalize hk : min ((nibbles 16 n.toNat).takeWhile (· == '0')).length (16 - w) = k
  have hzero : ∀ c ∈ (nibbles 16 n.toNat).take k, c = '0' := by
    intro c hc
    have hpre : (nibbles 16 n.toNat).take k <+: (nibbles 16 n.toNat).takeWhile (· == '0') := by
      refine List.prefix_of_prefix_length_le (List.take_prefix _ _)
        (List.takeWhile_prefix _) ?_
      rw [List.length_take]
      omega
    simpa using List.mem_takeWhile_imp (hpre.subset hc)
  rw [← digitsVal_zeros hzero, List.take_append_drop, digitsVal_nibbles]
  exact Nat.mod_eq_of_lt n.toNat_lt

lemma hexPad_inj {w : ℕ} {n n' : Pu64} (h : hexPad w n = hexPad w n') : n = n' := by
  rw [← UInt64.toNat_inj, ← digitsVal_hexPad w n, h, digitsVal_hexPad]

lemma hexPadLower_inj {w : ℕ} {n n' : Pu64} (h : hexPadLower w n = hexPadLower w n') : n = n' := by
  have hup := congrArg (List.map toUpper) h
  rw [map_toUpper_hexPadLower, map_toUpper_hexPadLower] at hup
  exact hexPad_inj hup

lemma newline_not_mem_guidToStr (guid : Guid) : '\n' ∉ guidToStr guid := by
  have hex := not_mem_hexPad (c := '\n') (by decide)
  simp [guidToStr, hex]

/-- The text of an identifier tells it, whatever the width of its first field is. -/
lemma guidToStr_inj {guid guid' : Guid} (h : guidToStr guid = guidToStr guid') : guid = guid' := by
  obtain ⟨hlo, hrest⟩ := append_stop_inj (not_mem_hexPad (by decide) _ _)
    (not_mem_hexPad (by decide) _ _) h
  -- the rest is read back behind eight zeros
  have hread : ∀ g : Guid, g.timeLo = 0 → strToGuid (guidToStr g) = some g := by
    intro g hg
    have hlt : g.timeLo.toNat < 2 ^ 32 := by
      rw [hg]
      decide
    exact strToGuid_of_upper hlt (map_toUpper_guidToStr hlt)
  have h0 : guidToStr { guid with timeLo := 0 } = guidToStr { guid' with timeLo := 0 } := by
    simp only [guidToStr]
    rw [hrest]
  have he : some { guid with timeLo := 0 } = some { guid' with timeLo := 0 } := by
    rw [← hread _ rfl, h0, hread _ rfl]
  cases guid
  cases guid'
  cases hexPad_inj hlo
  simpa using he

/-! ## Lines -/

lemma row_eq (label : String) (value r : List Char) :
    row label value ++ r = label.toList ++ (value ++ '\n' :: r) := by
  simp [row]

/-- A line ends at its newline. -/
lemma row_inj {label : String} {v v' r r' : List Char} (hv : '\n' ∉ v) (hv' : '\n' ∉ v')
    (h : row label v ++ r = row label v' ++ r') : v = v' ∧ r = r' := by
  rw [row_eq, row_eq] at h
  exact append_stop_inj hv hv' (List.append_cancel_left h)

lemma row_decimal {label : String} {n n' : ℕ} {r r' : List Char}
    (h : row label (decimal n) ++ r = row label (decimal n') ++ r') : n = n' ∧ r = r' := by
  obtain ⟨hd, hr⟩ := row_inj (newline_not_mem_decimal n) (newline_not_mem_decimal n') h
  exact ⟨decimal_inj hd, hr⟩

lemma row_guid {label : String} {guid guid' : Guid} {r r' : List Char}
    (h : row label (guidToStr guid) ++ r = row label (guidToStr guid') ++ r') :
    guid = guid' ∧ r = r' := by
  obtain ⟨hg, hr⟩ := row_inj (newline_not_mem_guidToStr guid) (newline_not_mem_guidToStr guid') h
  exact ⟨guidToStr_inj hg, hr⟩

/-- The lines of a range tell its first and its last sector. -/
lemma rowsRange_inj {start last sectors size : String} {r r' : List Char}
    (h : rowsRange ctx start last sectors size part ++ r =
      rowsRange ctx start last sectors size part' ++ r') :
    part.startLba = part'.startLba ∧ part.endLba = part'.endLba ∧ r = r' := by
  simp only [rowsRange, List.append_assoc] at h
  obtain ⟨hstart, h⟩ := row_decimal h
  obtain ⟨hend, h⟩ := row_decimal h
  obtain ⟨-, h⟩ := row_decimal h
  have hbytes : ∀ n : ℕ, '\n' ∉ decimal n ++ " bytes".toList := by
    intro n hc
    rcases List.mem_append.1 hc with hc | hc
    · exact newline_not_mem_decimal n hc
    · exact absurd hc (by decide)
  obtain ⟨-, h⟩ := row_inj (hbytes _) (hbytes _) h
  exact ⟨UInt64.toNat_inj.1 hstart, UInt64.toNat_inj.1 hend, h⟩

/-! ## Blocks -/

/-- The line at the head of a partition. -/
def partKey (i : ℕ) : List Char := row "Partition #" (decimal (i + 1))

lemma partKey_tells : Tells partKey := by
  intro i j r s h
  exact Nat.succ.inj (row_decimal h).1

lemma partKey_ne (i : ℕ) (r : List Char) : partKey i ++ r ≠ [] := by
  rw [partKey, row_eq]
  exact List.cons_ne_nil _ _

lemma pmPrintMbrPart_headed (schem : Schem) (ctx : ImgCtx) :
    Headed partKey (pmPrintMbrPart schem ctx) := by
  intro i
  rw [pmPrintMbrPart]
  split_ifs
  · exact Or.inl rfl
  · simp only [List.append_assoc]
    exact Or.inr ⟨_, rfl⟩

lemma pmPrintGptPart_headed (schem : Schem) (ctx : ImgCtx) :
    Headed partKey (pmPrintGptPart schem ctx) := by
  intro i
  rw [pmPrintGptPart]
  split_ifs
  · exact Or.inl rfl
  · simp only [List.append_assoc]
    exact Or.inr ⟨_, rfl⟩

lemma pmPrintMbrPart_ne : pmPrintMbrPart schem ctx i ≠ [] ↔
    schem.partIsUsed (schem.table i) = true := by
  rw [pmPrintMbrPart]
  split_ifs with h
  · simpa using h
  · simp only [List.append_assoc]
    exact iff_of_true (partKey_ne i _) (by simpa using h)

lemma pmPrintGptPart_ne : pmPrintGptPart schem ctx i ≠ [] ↔
    schem.partIsUsed (schem.table i) = true := by
  rw [pmPrintGptPart]
  split_ifs with h
  · simpa using h
  · simp only [List.append_assoc]
    exact iff_of_true (partKey_ne i _) (by simpa using h)

lemma newline_not_mem_chsText (chs : Pchs) : '\n' ∉ chsText chs := by
  have hdec := newline_not_mem_decimal
  simp [chsText, hdec]

/-- The block of a partition of an MBR tells its type, its flag and its range. -/
lemma pmPrintMbrPart_inj {r r' : List Char} (hu : schem.partIsUsed (schem.table i) = true)
    (hu' : schem'.partIsUsed (schem'.table i) = true)
    (h : pmPrintMbrPart schem ctx i ++ r = pmPrintMbrPart schem' ctx i ++ r') :
    ((schem.table i).typeI = (schem'.table i).typeI ∧
      (schem.table i).bootInd = (schem'.table i).bootInd ∧
      (schem.table i).startLba = (schem'.table i).startLba ∧
      (schem.table i).endLba = (schem'.table i).endLba) ∧ r = r' := by
  have hinj : ∀ n n' : UInt8, n.toUInt64 = n'.toUInt64 → n = n' := by
    intro n n' he
    have := congrArg UInt64.toNat he
    exact UInt8.toNat_inj.1 (by simpa using this)
  have hflag : ∀ (n : UInt8) (b : Bool), '\n' ∉ hexPadLower 2 n.toUInt64 ++
      (if b then " (Yes)".toList else " (No)".toList) := by
    intro n b hc
    rcases List.mem_append.1 hc with hc | hc
    · exact newline_not_mem_hexPadLower _ _ hc
    · revert hc
      cases b <;> decide
  simp only [pmPrintMbrPart, hu, hu', Bool.not_true, Bool.false_eq_true, if_false,
    List.append_assoc] at h
  obtain ⟨-, h⟩ := row_decimal h
  obtain ⟨hboot, h⟩ := row_inj (hflag _ _) (hflag _ _) h
  obtain ⟨htype, h⟩ := row_inj (newline_not_mem_hexPadLower _ _) (newline_not_mem_hexPadLower _ _) h
  obtain ⟨hstart, hend, h⟩ := rowsRange_inj h
  obtain ⟨-, h⟩ := row_inj (newline_not_mem_chsText _) (newline_not_mem_chsText _) h
  obtain ⟨-, h⟩ := row_inj (newline_not_mem_chsText _) (newline_not_mem_chsText _) h
  -- the flag is printed with two digits
  have hlen : ∀ n : UInt8, (hexPadLower 2 n.toUInt64).length = 2 := by
    intro n
    rw [hexPadLower, List.length_map, hexPad_eq (by decide) (by simpa using n.toNat_lt),
      length_nibbles]
  obtain ⟨hboot, -⟩ := List.append_inj hboot ((hlen _).trans (hlen _).symm)
  exact ⟨⟨hinj _ _ (hexPadLower_inj htype), hinj _ _ (hexPadLower_inj hboot), hstart, hend⟩, h⟩

/-- The block of a partition of a GPT tells its identifiers and its range. -/
lemma pmPrintGptPart_inj {r r' : List Char} (hu : schem.partIsUsed (schem.table i) = true)
    (hu' : schem'.partIsUsed (schem'.table i) = true)
    (h : pmPrintGptPart schem ctx i ++ r = pmPrintGptPart schem' ctx i ++ r') :
    ((schem.table i).typeGuid = (schem'.table i).typeGuid ∧
      (schem.table i).uniqueGuid = (schem'.table i).uniqueGuid ∧
      (schem.table i).startLba = (schem'.table i).startLba ∧
      (schem.table i).endLba = (schem'.table i).endLba) ∧ r = r' := by
  simp only [pmPrintGptPart, hu, hu', Bool.not_true, Bool.false_eq_true, if_false,
    List.append_assoc] at h
  obtain ⟨-, h⟩ := row_decimal h
  obtain ⟨hunique, h⟩ := row_guid h
  obtain ⟨htype, h⟩ := row_guid h
  obtain ⟨hstart, hend, h⟩ := rowsRange_inj h
  exact ⟨⟨htype, hunique, hstart, hend⟩, h⟩

/-! ## Schemes -/

/-- What a listing shows of a GPT. -/
structure Schem.GptListed (schem schem' : Schem) : Prop where
  idGuid : schem'.idGuid = schem.idGuid
  partCnt : schem'.partCnt = schem.partCnt
  used : ∀ i < schem.partCnt.toNat,
    schemPartIsUsedGpt (schem'.table i) = schemPartIsUsedGpt (schem.table i)
  part : ∀ i < schem.partCnt.toNat, schemPartIsUsedGpt (schem.table i) = true →
    (schem'.table i).typeGuid = (schem.table i).typeGuid ∧
      (schem'.table i).uniqueGuid = (schem.table i).uniqueGuid ∧
      (schem'.table i).startLba = (schem.table i).startLba ∧
      (schem'.table i).endLba = (schem.table i).endLba

lemma pmPrintMbr_congr (hf : schem.funcs = .mbr) (hf' : schem'.funcs = .mbr)
    (h : schem.MbrAgain schem') (ctx : ImgCtx) : pmPrintMbr schem' ctx = pmPrintMbr schem ctx := by
  have hparts : (List.range schem.partCnt.toNat).flatMap (pmPrintMbrPart schem' ctx) =
      (List.range schem.partCnt.toNat).flatMap (pmPrintMbrPart schem ctx) := by
    refine List.flatMap_congr fun i hi => ?_
    have hlt := List.mem_range.1 hi
    have hused := h.used i hlt
    simp only [pmPrintMbrPart, Schem.partIsUsed, hf, hf', hused]
    by_cases hu : schemPartIsUsedMbr (schem.table i) = true
    · obtain ⟨htype, hboot, hstart, hend⟩ := h.part i hlt hu
      simp only [rowsRange, schemMbrPartIsProt, htype, hboot, hstart, hend]
    · simp only [hu, Bool.not_false, if_true]
  simp only [pmPrintMbr, h.idI, h.partCnt, hparts]

lemma pmPrintGpt_congr (hf : schem.funcs = .gpt) (hf' : schem'.funcs = .gpt)
    (h : schem.GptListed schem') (ctx : ImgCtx) : pmPrintGpt schem' ctx = pmPrintGpt schem ctx := by
  have hparts : (List.range schem.partCnt.toNat).flatMap (pmPrintGptPart schem' ctx) =
      (List.range schem.partCnt.toNat).flatMap (pmPrintGptPart schem ctx) := by
    refine List.flatMap_congr fun i hi => ?_
    have hlt := List.mem_range.1 hi
    have hused := h.used i hlt
    simp only [pmPrintGptPart, Schem.partIsUsed, hf, hf', hused]
    by_cases hu : schemPartIsUsedGpt (schem.table i) = true
    · obtain ⟨htype, hunique, hstart, hend⟩ := h.part i hlt hu
      simp only [rowsRange, htype, hunique, hstart, hend]
    · simp only [hu, Bool.not_false, if_true]
  simp only [pmPrintGpt, h.idGuid, h.partCnt, hparts]

/-- What the blocks tell of each partition, the whole text tells of all of them. -/
lemma parts_of_flatMap {f g : ℕ → List Char} {P : ℕ → Prop} {n : ℕ} (hf : Headed partKey f)
    (hg : Headed partKey g) (htell : ∀ i < n, ∀ r s, f i ≠ [] → g i ≠ [] → f i ++ r = g i ++ s →
      P i ∧ r = s) (h : (List.range n).flatMap f = (List.range n).flatMap g) :
    ∀ i < n, (g i ≠ [] ↔ f i ≠ []) ∧ (f i ≠ [] → P i) := by
  have hends : ∀ i ∈ List.range n, ∀ r s, f i ≠ [] → g i ≠ [] → f i ++ r = g i ++ s →
      f i = g i ∧ r = s := by
    intro i hi r s hfi hgi he
    obtain ⟨-, rfl⟩ := htell i (List.mem_range.1 hi) r s hfi hgi he
    exact ⟨List.append_cancel_right he, rfl⟩
  intro i hi
  have he : f i = g i := Headed.eq_of_flatMap partKey_tells partKey_ne hf hg hends
    List.nodup_range h i (List.mem_range.2 hi)
  refine ⟨by rw [he], fun hfi => ?_⟩
  exact (htell i hi [] [] hfi (he ▸ hfi) (by rw [he])).1

/-- The listing of an MBR tells all that a save of it writes. -/
lemma mbrAgain_of_pmPrintMbr (hf : schem.funcs = .mbr) (hf' : schem'.funcs = .mbr)
    (h : pmPrintMbr schem ctx = pmPrintMbr schem' ctx) : schem.MbrAgain schem' := by
  simp only [pmPrintMbr, List.append_assoc] at h
  obtain ⟨-, h⟩ := row_inj (by decide) (by decide) h
  obtain ⟨hi, h⟩ := row_inj (newline_not_mem_hexPadLower _ _) (newline_not_mem_hexPadLower _ _) h
  obtain ⟨hcnt, h⟩ := row_decimal h
  obtain ⟨-, h⟩ := row_inj List.not_mem_nil List.not_mem_nil h
  obtain ⟨-, h⟩ := row_inj List.not_mem_nil List.not_mem_nil h
  rw [← hcnt] at h
  have hparts := parts_of_flatMap (pmPrintMbrPart_headed schem ctx)
    (pmPrintMbrPart_headed schem' ctx) (fun i _ r s hi hi' he =>
      pmPrintMbrPart_inj (pmPrintMbrPart_ne.1 hi) (pmPrintMbrPart_ne.1 hi') he) h
  simp only [pmPrintMbrPart_ne, Schem.partIsUsed, hf, hf'] at hparts
  refine ⟨(hexPadLower_inj hi).symm, UInt64.toNat_inj.1 hcnt.symm,
    fun i hi => Bool.eq_iff_iff.2 (hparts i hi).1, fun i hi hu => ?_⟩
  obtain ⟨htype, hboot, hstart, hend⟩ := (hparts i hi).2 hu
  exact ⟨htype.symm, hboot.symm, hstart.symm, hend.symm⟩

/-- The listing of a GPT tells its identifiers and its ranges. -/
lemma gptListed_of_pmPrintGpt (hf : schem.funcs = .gpt) (hf' : schem'.funcs = .gpt)
    (h : pmPrintGpt schem ctx = pmPrintGpt schem' ctx) : schem.GptListed schem' := by
  simp only [pmPrintGpt, List.append_assoc] at h
  obtain ⟨-, h⟩ := row_inj (by decide) (by decide) h
  obtain ⟨hid, h⟩ := row_guid h
  obtain ⟨hcnt, h⟩ := row_decimal h
  obtain ⟨-, h⟩ := row_inj List.not_mem_nil List.not_mem_nil h
  obtain ⟨-, h⟩ := row_inj List.not_mem_nil List.not_mem_nil h
  rw [← hcnt] at h
  have hparts := parts_of_flatMap (pmPrintGptPart_headed schem ctx)
    (pmPrintGptPart_headed schem' ctx) (fun i _ r s hi hi' he =>
      pmPrintGptPart_inj (pmPrintGptPart_ne.1 hi) (pmPrintGptPart_ne.1 hi') he) h
  simp only [pmPrintGptPart_ne, Schem.partIsUsed, hf, hf'] at hparts
  refine ⟨hid.symm, UInt64.toNat_inj.1 hcnt.symm, fun i hi =>
    Bool.eq_iff_iff.2 (hparts i hi).1, fun i hi hu => ?_⟩
  obtain ⟨htype, hunique, hstart, hend⟩ := (hparts i hi).2 hu
  exact ⟨htype.symm, hunique.symm, hstart.symm, hend.symm⟩

/-! ## Listings -/

/-- A scheme of one of the two kinds, with the functions of its kind. -/
inductive Schem.Listable (schem : Schem) : Prop
  | mbr (type : schem.type = .mbr) (funcs : schem.funcs = .mbr)
  | gpt (type : schem.type = .gpt) (funcs : schem.funcs = .gpt)

lemma Schem.Listable.funcs_eq (h : schem.Listable) : schem.funcs = schem.type := by
  rcases h with ⟨type, funcs⟩ | ⟨type, funcs⟩ <;> rw [type, funcs]

/-- Two schemes, or none, that agree in what is listed of them. -/
inductive SameListing : Option Schem → Option Schem → Prop
  | none : SameListing none none
  | mbr {schem schem' : Schem} (type : schem.type = .mbr) (type' : schem'.type = .mbr)
      (again : schem.MbrAgain schem') : SameListing (some schem) (some schem')
  | gpt {schem schem' : Schem} (type : schem.type = .gpt) (type' : schem'.type = .gpt)
      (listed : schem.GptListed schem') : SameListing (some schem) (some schem')

/-- The word behind the label of the partitioning scheme. -/
def listingKind : Option Schem → List Char
  | none => "None".toList
  | some schem => if schem.type = .mbr then "MBR".toList else "GPT".toList

lemma newline_not_mem_listingKind (o : Option Schem) : '\n' ∉ listingKind o := by
  cases o with
  | none => decide
  | some schem =>
    rw [listingKind]
    split_ifs <;> decide

/-- The lines behind the common ones begin with the kind of the scheme. -/
lemma pmPrintScheme_kind (imgName : List Char) (ctx : ImgCtx) {o : Option Schem}
    (ho : ∀ schem, o = some schem → schem.Listable) :
    ∃ r, pmPrintScheme imgName o ctx =
      pmPrintCommon imgName ctx ++ (row "Partitioning scheme      " (listingKind o) ++ r) := by
  cases o with
  | none => exact ⟨[], by rw [List.append_nil]; rfl⟩
  | some schem =>
    cases ho schem rfl with
    | mbr type =>
      rw [pmPrintScheme, listingKind, if_pos type]
      simp only [type, pmPrintMbr, List.append_assoc]
      exact ⟨_, rfl⟩
    | gpt type =>
      rw [pmPrintScheme, listingKind, if_neg (by rw [type]; decide)]
      simp only [type, pmPrintGpt, List.append_assoc]
      exact ⟨_, rfl⟩

lemma pmPrintScheme_congr (imgName : List Char) (ctx : ImgCtx) {o o' : Option Schem}
    (ho : ∀ schem, o = some schem → schem.Listable)
    (ho' : ∀ schem, o' = some schem → schem.Listable) (h : SameListing o o') :
    pmPrintScheme imgName o' ctx = pmPrintScheme imgName o ctx := by
  cases h with
  | none => rfl
  | @mbr schem schem' type type' again =>
    have hf := (ho _ rfl).funcs_eq.trans type
    have hf' := (ho' _ rfl).funcs_eq.trans type'
    simp only [pmPrintScheme, type, type']
    rw [pmPrintMbr_congr hf hf' again]
  | @gpt schem schem' type type' listed =>
    have hf := (ho _ rfl).funcs_eq.trans type
    have hf' := (ho' _ rfl).funcs_eq.trans type'
    simp only [pmPrintScheme, type, type']
    rw [pmPrintGpt_congr hf hf' listed]

/-- The text tells what the schemes agree in. -/
lemma sameListing_of_pmPrintScheme {imgName : List Char} {o o' : Option Schem}
    (ho : ∀ schem, o = some schem → schem.Listable)
    (ho' : ∀ schem, o' = some schem → schem.Listable)
    (h : pmPrintScheme imgName o ctx = pmPrintScheme imgName o' ctx) : SameListing o o' := by
  have hkind : listingKind o = listingKind o' := by
    obtain ⟨r, hr⟩ := pmPrintScheme_kind imgName ctx ho
    obtain ⟨r', hr'⟩ := pmPrintScheme_kind imgName ctx ho'
    rw [hr, hr'] at h
    exact (row_inj (newline_not_mem_listingKind o) (newline_not_mem_listingKind o')
      (List.append_cancel_left h)).1
  have hcommon := List.append_cancel_left h
  rcases o with _ | schem <;> rcases o' with _ | schem'
  · exact .none
  · rw [listingKind, listingKind] at hkind
    split_ifs at hkind <;> exact absurd hkind (by decide)
  · rw [listingKind, listingKind] at hkind
    split_ifs at hkind <;> exact absurd hkind (by decide)
  · cases ho schem rfl with
    | mbr type funcs =>
      cases ho' schem' rfl with
      | mbr type' funcs' =>
        simp only [type, type'] at hcommon
        exact .mbr type type' (mbrAgain_of_pmPrintMbr funcs funcs' hcommon)
      | gpt type' =>
        rw [listingKind, listingKind, if_pos type, if_neg (by rw [type']; decide)] at hkind
        exact absurd hkind (by decide)
    | gpt type funcs =>
      cases ho' schem' rfl with
      | mbr type' =>
        rw [listingKind, listingKind, if_pos type', if_neg (by rw [type]; decide)] at hkind
        exact absurd hkind (by decide)
      | gpt type' funcs' =>
        simp only [type, type'] at hcommon
        exact .gpt type type' (gptListed_of_pmPrintGpt funcs funcs' hcommon)

/-- **What a listing tells.**  Two contexts of one image are listed with the same text if and
only if both have no scheme, or both have an MBR with the same identifier, the same number of
entries, the same used ones and the same types, flags and ranges of these, or both have a GPT
with the same identifiers, number of entries, used entries and ranges. -/
theorem pmPrintScheme_eq_iff (imgName : List Char) (ctx : ImgCtx) {o o' : Option Schem}
    (ho : ∀ schem, o = some schem → schem.Listable)
    (ho' : ∀ schem, o' = some schem → schem.Listable) :
    pmPrintScheme imgName o ctx = pmPrintScheme imgName o' ctx ↔ SameListing o o' :=
  ⟨sameListing_of_pmPrintScheme ho ho', fun h => (pmPrintScheme_congr imgName ctx ho ho' h).symm⟩

/-- An MBR with one partition, which ends with the sector `endLba`. -/
def endingMbr (endLba : Plba) (attr : Pu64) : Schem :=
  { (schemInitMbr (schemNew .mbr) smallCtx zeroRng).1 with
    table := fun i => if i = 0 then
        { SchemPart.zero with typeI := 0x83, startLba := 100, endLba := endLba, attr := attr }
      else SchemPart.zero }

lemma endingMbr_listable {endLba : Plba} {attr : Pu64} :
    ∀ schem, some (endingMbr endLba attr) = some schem → schem.Listable := by
  intro schem hs
  obtain rfl := Option.some.inj hs
  exact .mbr rfl rfl

/-- The end of a partition is listed, and the attributes are not, which an MBR does not have. -/
theorem pmPrintScheme_eq_iff_small :
    pmPrintScheme "disk.img".toList (some (endingMbr 199 0)) smallCtx =
        pmPrintScheme "disk.img".toList (some (endingMbr 199 1)) smallCtx ∧
      pmPrintScheme "disk.img".toList (some (endingMbr 199 0)) smallCtx ≠
        pmPrintScheme "disk.img".toList (some (endingMbr 299 0)) smallCtx := by
  refine ⟨(pmPrintScheme_eq_iff "disk.img".toList smallCtx endingMbr_listable
    endingMbr_listable).2 (.mbr rfl rfl ⟨rfl, rfl, ?_, ?_⟩), fun h => ?_⟩
  · decide
  · decide
  · cases (pmPrintScheme_eq_iff "disk.img".toList smallCtx endingMbr_listable
      endingMbr_listable).1 h with
    | mbr _ _ again => exact absurd (again.part 0 (by decide) (by decide)).2.2.2 (by decide)
    | gpt type => exact absurd type (by decide)

end Partman

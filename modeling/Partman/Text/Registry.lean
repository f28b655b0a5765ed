/-
# Which texts are read as identifiers

`str_to_guid` is meant to accept the registry format.  It tests the length of the text and
that eleven conversions succeed, and a conversion accepts blanks, a sign and a prefix in
front of its digits, and fewer digits than its width; what stands behind the last field is
not looked at.
-/
import Partman.Text.GuidText

namespace Partman

open Lib

variable {s : List Char} {guid : Guid}

/-! ## The registry format -/

/-- Groups of 8, 4, 4, 4 and 12 hexadecimal digits with hyphens between them. -/
def IsRegistry (s : List Char) : Prop :=
  ∃ a b c d e : List Char,
    s = a ++ '-' :: (b ++ '-' :: (c ++ '-' :: (d ++ '-' :: e))) ∧
    a.length = 8 ∧ b.length = 4 ∧ c.length = 4 ∧ d.length = 4 ∧ e.length = 12 ∧
    ∀ x ∈ a ++ b ++ c ++ d ++ e, isBaseDigit 16 x = true

/-- What the text of an identifier should say about it. -/
structure Describes (s : List Char) (guid : Guid) : Prop where
  registry : IsRegistry s
  timeLo : guid.timeLo.toNat < 2 ^ 32
  text : SameUpToCase (guidToStr guid) s

/-- The fields of a text in the registry format. -/
def registryFields (a b c d e : List Char) : List (List Char) :=
  [a, b, c, d.take 2, d.drop 2, e.take 2, (e.drop 2).take 2, (e.drop 4).take 2,
    (e.drop 6).take 2, (e.drop 8).take 2, e.drop 10]

lemma fieldsText_registryFields (a b c d e : List Char) :
    fieldsText guidFormat (registryFields a b c d e) =
      a ++ '-' :: (b ++ '-' :: (c ++ '-' :: (d ++ '-' :: e))) := by
  have hd : d.take 2 ++ d.drop 2 = d := List.take_append_drop 2 d
  have he : e.take 2 ++ ((e.drop 2).take 2 ++ ((e.drop 4).take 2 ++ ((e.drop 6).take 2 ++
      ((e.drop 8).take 2 ++ e.drop 10)))) = e := by
    have h := fun k => List.take_append_drop 2 (e.drop k)
    simp only [List.drop_drop] at h
    rw [h 8, h 6, h 4, h 2, List.take_append_drop]
  simp only [registryFields, guidFormat, fieldsText, if_true, Bool.false_eq_true, if_false,
    List.nil_append, List.append_nil, List.cons_append]
  rw [he, ← List.append_assoc, hd]

/-- Every field of the format has its digits. -/
abbrev FullFields : List (ℕ × Bool) → List (List Char) → Prop :=
  List.Forall₂ fun f d => d.length = f.1 ∧ ∀ c ∈ d, isBaseDigit 16 c = true

lemma IsRegistry.exists_fields (h : IsRegistry s) :
    ∃ ds, FullFields guidFormat ds ∧ s = fieldsText guidFormat ds := by
  obtain ⟨a, b, c, d, e, rfl, ha, hb, hc, hd, he, hdig⟩ := h
  simp only [List.mem_append] at hdig
  have hda := fun x hx => hdig x (Or.inl (Or.inl (Or.inl (Or.inl hx))))
  have hdb := fun x hx => hdig x (Or.inl (Or.inl (Or.inl (Or.inr hx))))
  have hdc := fun x hx => hdig x (Or.inl (Or.inl (Or.inr hx)))
  have hdd := fun x hx => hdig x (Or.inl (Or.inr hx))
  have hde := fun x hx => hdig x (Or.inr hx)
  -- a pair of digits in a longer group
  have hpair : ∀ k, k + 2 ≤ 12 → ((e.drop k).take 2).length = 2 ∧
      ∀ x ∈ (e.drop k).take 2, isBaseDigit 16 x = true := fun k hk =>
    ⟨by rw [List.length_take, List.length_drop]; omega,
      fun x hx => hde x (List.mem_of_mem_drop (List.mem_of_mem_take hx))⟩
  refine ⟨registryFields a b c d e, ?_, (fieldsText_registryFields a b c d e).symm⟩
  refine .cons ⟨ha, hda⟩ (.cons ⟨hb, hdb⟩ (.cons ⟨hc, hdc⟩ (.cons ⟨?_, ?_⟩ (.cons ⟨?_, ?_⟩ ?_))))
  · rw [List.length_take, hd]
    rfl
  · exact fun x hx => hdd x (List.mem_of_mem_take hx)
  · rw [List.length_drop, hd]
  · exact fun x hx => hdd x (List.mem_of_mem_drop hx)
  · refine .cons (hpair 0 (by decide)) (.cons (hpair 2 (by decide))
      (.cons (hpair 4 (by decide)) ?_))
    refine .cons (hpair 6 (by decide)) (.cons (hpair 8 (by decide)) (.cons ⟨?_, ?_⟩ .nil))
    · rw [List.length_drop, he]
    · exact fun x hx => hde x (List.mem_of_mem_drop hx)

lemma FullFields.fits {fs : List (ℕ × Bool)} {ds : List (List Char)} (h : FullFields fs ds) :
    Fits fs (ds.map (digitsVal 16)) := by
  induction h with
  | nil => exact .nil
  | cons hd _ ih => exact .cons (hd.1 ▸ digitsVal_lt hd.2) ih

/-- Digits that are read and written again come back in upper case. -/
lemma FullFields.valuesText {fs : List (ℕ × Bool)} {ds : List (List Char)} (h : FullFields fs ds) :
    valuesText fs (ds.map (digitsVal 16)) = (fieldsText fs ds).map toUpper := by
  rw [map_toUpper_fieldsText, Partman.valuesText]
  congr 1
  induction h with
  | nil => rfl
  | cons hd _ ih => rw [List.map_cons, List.zipWith_cons_cons, ih, ← hd.1, nibbles_digitsVal hd.2,
      List.map_cons]

/-- Values that fit are the ones of an identifier. -/
lemma exists_guid_of_fits {ns : List ℕ} (h : Fits guidFormat ns) :
    ∃ guid : Guid, guid.timeLo.toNat < 2 ^ 32 ∧ guid.values = ns := by
  obtain ⟨lo, t0, hlo, h, e0⟩ := List.forall₂_cons_left_iff.1 h
  obtain ⟨mid, t1, hmid, h, e1⟩ := List.forall₂_cons_left_iff.1 h
  obtain ⟨ver, t2, hver, h, e2⟩ := List.forall₂_cons_left_iff.1 h
  obtain ⟨hi, t3, hhi, h, e3⟩ := List.forall₂_cons_left_iff.1 h
  obtain ⟨sq, t4, hsq, h, e4⟩ := List.forall₂_cons_left_iff.1 h
  obtain ⟨n0, t5, h0, h, e5⟩ := List.forall₂_cons_left_iff.1 h
  obtain ⟨n1, t6, h1, h, e6⟩ := List.forall₂_cons_left_iff.1 h
  obtain ⟨n2, t7, h2, h, e7⟩ := List.forall₂_cons_left_iff.1 h
  obtain ⟨n3, t8, h3, h, e8⟩ := List.forall₂_cons_left_iff.1 h
  obtain ⟨n4, t9, h4, h, e9⟩ := List.forall₂_cons_left_iff.1 h
  obtain ⟨n5, t10, h5, h, e10⟩ := List.forall₂_cons_left_iff.1 h
  obtain rfl := List.forall₂_nil_left_iff.1 h
  subst e10 e9 e8 e7 e6 e5 e4 e3 e2 e1 e0
  have h64 : (UInt64.ofNat lo).toNat = lo := toNat_ofNat_of_lt (lt_trans hlo (by decide))
  have h16 : ∀ n < 16 ^ 4, (UInt16.ofNat n).toNat = n := fun n hn => by
    rw [UInt16.toNat_ofNat']
    exact Nat.mod_eq_of_lt hn
  have h8 : ∀ n < 16 ^ 2, (UInt8.ofNat n).toNat = n := fun n hn => by
    rw [UInt8.toNat_ofNat']
    exact Nat.mod_eq_of_lt hn
  refine ⟨⟨UInt64.ofNat lo, UInt16.ofNat mid, UInt16.ofNat ver, UInt8.ofNat hi, UInt8.ofNat sq,
    ![UInt8.ofNat n0, UInt8.ofNat n1, UInt8.ofNat n2, UInt8.ofNat n3, UInt8.ofNat n4,
      UInt8.ofNat n5]⟩, ?_, ?_⟩
  · rw [h64]
    exact hlo
  · show [(UInt64.ofNat lo).toNat, (UInt16.ofNat mid).toNat, (UInt16.ofNat ver).toNat,
      (UInt8.ofNat hi).toNat, (UInt8.ofNat sq).toNat, (UInt8.ofNat n0).toNat,
      (UInt8.ofNat n1).toNat, (UInt8.ofNat n2).toNat, (UInt8.ofNat n3).toNat,
      (UInt8.ofNat n4).toNat, (UInt8.ofNat n5).toNat] = _
    rw [h64, h16 mid hmid, h16 ver hver, h8 hi hhi, h8 sq hsq, h8 n0 h0, h8 n1 h1, h8 n2 h2,
      h8 n3 h3, h8 n4 h4, h8 n5 h5]

/-- **Text in the registry format is read to the identifier that it describes.** -/
lemma IsRegistry.describes (h : IsRegistry s) : ∃ guid, strToGuid s = some guid ∧
    Describes s guid := by
  obtain ⟨ds, hfull, hs⟩ := h.exists_fields
  obtain ⟨guid, hlo, hvals⟩ := exists_guid_of_fits hfull.fits
  have htext : s.map toUpper = guidToStr guid := by
    rw [guidToStr_eq hlo, hvals, hfull.valuesText, hs]
  exact ⟨guid, strToGuid_of_upper hlo htext, h, hlo, by
    rw [SameUpToCase, map_toUpper_guidToStr hlo, htext]⟩

/-! ## What is read besides -/

/-- Text from which the conversions of a format read these values. -/
inductive Scans : List (ℕ × Bool) → List Char → List Pu64 → Prop
  | nil (s : List Char) : Scans [] s []
  | cons {w : ℕ} {hyphen : Bool} {fs : List (ℕ × Bool)} {rest : List Char} {vs : List Pu64}
      (f : Numeral 16 w) (hstop : f.Stops ((if hyphen then ['-'] else []) ++ rest))
      (hrest : Scans fs rest vs) :
      Scans ((w, hyphen) :: fs) (f.text ++ ((if hyphen then ['-'] else []) ++ rest)) (f.value :: vs)

lemma scanFields_of_scans {fs : List (ℕ × Bool)} {vs : List Pu64} (h : Scans fs s vs) :
    scanFields fs s = some vs := by
  induction h with
  | nil => rfl
  | @cons w hyphen fs rest vs f hstop _ ih =>
    have hscan := scanUInt_complete f hstop
    cases hyphen with
    | false =>
      simp only [Bool.false_eq_true, if_false, List.nil_append] at hscan ⊢
      simp [scanFields, hscan, ih]
    | true =>
      simp only [if_true, List.cons_append, List.nil_append] at hscan ⊢
      simp [scanFields, hscan, ih, scanLit]

lemma scans_of_scanFields {fs : List (ℕ × Bool)} {vs : List Pu64}
    (h : scanFields fs s = some vs) : Scans fs s vs := by
  induction fs generalizing s vs with
  | nil =>
    obtain rfl := Option.some.inj h
    exact .nil s
  | cons f fs ih =>
    obtain ⟨w, hyphen⟩ := f
    obtain ⟨⟨v, rest⟩, hscan, h⟩ := Option.bind_eq_some_iff.1 h
    obtain ⟨t, hlit, h⟩ := Option.bind_eq_some_iff.1 h
    obtain ⟨vs', hvs, h⟩ := Option.bind_eq_some_iff.1 h
    obtain rfl := Option.some.inj h
    obtain ⟨f, rfl, hstop, rfl⟩ := scanUInt_sound hscan
    have hrest : rest = (if hyphen then ['-'] else []) ++ t := by
      cases hyphen with
      | false => simpa using hlit
      | true =>
        cases rest with
        | nil => simp [scanLit] at hlit
        | cons c rest =>
          simp only [if_true, scanLit] at hlit
          split at hlit
          · rename_i hc
            rw [Option.some.injEq] at hlit
            simp [hlit, (beq_iff_eq.1 hc)]
          · simp at hlit
    subst hrest
    exact .cons f hstop (ih hvs)

lemma length_of_scans {fs : List (ℕ × Bool)} {vs : List Pu64} (h : Scans fs s vs) :
    vs.length = fs.length := by
  induction h with
  | nil => rfl
  | cons _ _ _ ih => rw [List.length_cons, List.length_cons, ih]

/-- Eleven values make an identifier. -/
lemma guidOfFields_of_length {vs : List Pu64} (h : vs.length = 11) :
    ∃ guid, guidOfFields vs = some guid := by
  match vs, h with
  | [_, _, _, _, _, _, _, _, _, _, _], _ => exact ⟨_, rfl⟩

/-- The text has 36 characters, and every conversion finds a numeral. -/
def IsLoose (s : List Char) : Prop := s.length = 36 ∧ ∃ vs, Scans guidFormat s vs

/-- **Which texts are accepted.** -/
lemma isSome_strToGuid_iff : (strToGuid s).isSome ↔ IsLoose s := by
  rw [strToGuid_eq]
  by_cases hlen : s.length = 36
  · rw [if_neg (not_not.2 hlen)]
    constructor
    · intro h
      obtain ⟨guid, hg⟩ := Option.isSome_iff_exists.1 h
      obtain ⟨vs, hvs, -⟩ := Option.bind_eq_some_iff.1 hg
      exact ⟨hlen, vs, scans_of_scanFields hvs⟩
    · rintro ⟨-, vs, hvs⟩
      obtain ⟨guid, hguid⟩ := guidOfFields_of_length (length_of_scans hvs)
      rw [scanFields_of_scans hvs, Option.bind_some, hguid]
      rfl
  · rw [if_pos hlen]
    exact iff_of_false (by simp) fun h => hlen h.1

/-- `str_to_guid` accepts only what describes the identifier that it returns. -/
def OnlyRegistry (s : List Char) : Prop := ∀ guid, strToGuid s = some guid → Describes s guid

/-- **Where only the registry format is accepted**: on text in this format and on text from
which the conversions do not read eleven fields. -/
theorem onlyRegistry_iff (s : List Char) : OnlyRegistry s ↔ IsRegistry s ∨ ¬ IsLoose s := by
  rw [← isSome_strToGuid_iff]
  constructor
  · intro h
    cases hg : strToGuid s with
    | none => exact Or.inr (by simp)
    | some guid => exact Or.inl (h guid hg).registry
  · rintro (h | h) guid hg
    · obtain ⟨guid', hg', hd⟩ := h.describes
      obtain rfl := Option.some.inj (hg'.symm.trans hg)
      exact hd
    · exact absurd (by simp [hg]) h

/-- A minus sign in the first field: its value has 64 bits. -/
theorem strToGuid_negative :
    (strToGuid "-1234567-0001-0002-0304-05060708090A".toList).map Guid.timeLo =
      some 0xFFFFFFFFFEDCBA99 ∧
    ¬ OnlyRegistry "-1234567-0001-0002-0304-05060708090A".toList := by
  have hrun : (strToGuid "-1234567-0001-0002-0304-05060708090A".toList).map Guid.timeLo =
      some 0xFFFFFFFFFEDCBA99 := by decide
  refine ⟨hrun, fun h => ?_⟩
  obtain ⟨guid, hg, hlo⟩ := Option.map_eq_some_iff.1 hrun
  have hlt := (h guid hg).timeLo
  rw [hlo] at hlt
  exact absurd hlt (by decide)

end Partman

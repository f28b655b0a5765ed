/-
# Numbers that are typed in

A line of decimal digits is read as the number that it writes, by the prompts for an index
and for the first sector and by the prompt for the last sector alike, and every number that
fits into 64 bits can be typed in.
-/
import Partman.Text.Size

namespace Partman

variable {sys : Sys} {inp : Input}

/-! ## Decimal numbers -/

lemma isDigit_eq (c : Char) : isDigit c = c.isDigit := by
  rw [Bool.eq_iff_iff, isDigit_iff, Char.isDigit_iff_toNat]
  exact Iff.rfl

lemma digitVal_of_isDigit {c : Char} (h : isDigit c = true) :
    digitVal c = some (c.toNat - '0'.toNat) := by
  rw [digitVal, if_pos h]

/-- The value of digits is the one that the library reads. -/
lemma digitsVal_ten {ds : List Char} (h : ∀ c ∈ ds, isDigit c = true) :
    digitsVal 10 ds = Nat.ofDigitChars 10 ds 0 := by
  rw [digitsVal, Nat.ofDigitChars_eq_foldl]
  refine List.foldl_ext _ _ 0 fun n c hc => ?_
  rw [digitVal_of_isDigit (h c hc), Option.getD_some, Nat.mul_comm]

lemma decimal_isDigit {n : ℕ} {c : Char} (h : c ∈ decimal n) : isDigit c = true := by
  rw [isDigit_eq]
  exact Nat.isDigit_of_mem_toDigits (by decide) (by decide) h

lemma newline_not_mem_decimal (n : ℕ) : '\n' ∉ decimal n := by
  intro h
  exact absurd (decimal_isDigit h) (by decide)

lemma decimal_ne_nil (n : ℕ) : decimal n ≠ [] := Nat.toDigits_ne_nil

/-- What is printed is read back. -/
lemma digitsVal_decimal (n : ℕ) : digitsVal 10 (decimal n) = n := by
  rw [digitsVal_ten fun c hc => decimal_isDigit hc]
  exact Nat.ofDigitChars_ten_toDigits

/-- Digits without a sign are read as the number that they write. -/
lemma strtoul_of_digitsVal {ds : List Char} {v : Pu64} (h : digitsVal 10 ds = v.toNat) :
    strtoul 10 false ds = v := by
  simp only [strtoul, h]
  rw [if_neg (by have := v.toNat_lt; omega)]
  simp

/-! ## Lines -/

/-- Up to its end, the line consists of decimal digits that write the value. -/
structure Types (line : List Char) (v : Pu64) : Prop where
  digits_ne : line.takeWhile (fun c => !endsLine c) ≠ []
  digits : ∀ c ∈ line.takeWhile (fun c => !endsLine c), isDigit c = true
  value : digitsVal 10 (line.takeWhile fun c => !endsLine c) = v.toNat

lemma endsLine_of_isDigit {c : Char} (h : isDigit c = true) : endsLine c = false := by
  rw [isDigit_iff] at h
  rw [endsLine, Bool.or_eq_false_iff, Bool.or_eq_false_iff, beq_eq_false_iff_ne,
    beq_eq_false_iff_ne, beq_eq_false_iff_ne]
  refine ⟨⟨?_, ?_⟩, ?_⟩ <;>
  · rintro rfl
    exact absurd h (by decide)

/-- Every value can be typed in, with the newline that ends the line. -/
lemma types_decimal (v : Pu64) : Types (decimal v.toNat ++ ['\n']) v := by
  have h : (decimal v.toNat ++ ['\n']).takeWhile (fun c => !endsLine c) = decimal v.toNat := by
    refine takeWhile_append_stop (fun c hc => ?_) (by simp [endsLine])
    rw [endsLine_of_isDigit (decimal_isDigit hc)]
    rfl
  refine ⟨?_, fun c hc => ?_, ?_⟩
  · rw [h]
    exact decimal_ne_nil _
  · rw [h] at hc
    exact decimal_isDigit hc
  · rw [h, digitsVal_decimal]

namespace Types

variable {line : List Char} {v : Pu64}

lemma scanStr (h : Types line v) : scanStr (.line line :: inp) =
    (.ok, line.takeWhile (fun c => !endsLine c), inp) := by
  rw [scanStr_line, if_neg]
  simpa using h.digits_ne

lemma isSign_of_none : ∀ c ∈ (none : Option Char), IsSign c :=
  fun _ hc => (Option.not_mem_none _ hc).elim

lemma modifier_of_none : ∀ c ∈ (none : Option Char), toUpper c ∈ modifiers :=
  fun _ hc => (Option.not_mem_none _ hc).elim

/-- The answer that the line is to the prompt for the last sector. -/
def answer (h : Types line v) : Answer where
  sign := none
  digits := line.takeWhile fun c => !endsLine c
  unit := none
  sign_isSign := isSign_of_none
  digits_ne := h.digits_ne
  digits_isDigit := h.digits
  unit_mem := modifier_of_none
  signed _ := rfl

lemma answer_text (h : Types line v) :
    h.answer.text = line.takeWhile fun c => !endsLine c := by
  rw [Answer.text]
  exact List.append_nil _

lemma strtoul_digits (h : Types line v) :
    strtoul 10 false (line.takeWhile fun c => !endsLine c) = v :=
  strtoul_of_digitsVal h.value

lemma scanInt (h : Types line v) : scanInt 10 (.line line :: inp) = (.ok, v, inp) := by
  have hspace : (line.takeWhile fun c => !endsLine c).dropWhile isSpace =
      line.takeWhile fun c => !endsLine c := by
    cases hl : line.takeWhile fun c => !endsLine c with
    | nil => rfl
    | cons c l =>
      have hc : isSpace c = false := isBaseDigit_not_isSpace
        (isBaseDigit_ten.trans (h.digits c (by simp [hl])))
      rw [List.dropWhile_cons_of_neg (by simp [hc])]
  have hread := h.answer.toReading.scanUInt_middle
  have hmid : h.answer.toReading.middle = line.takeWhile fun c => !endsLine c := by
    simp [Reading.middle, Answer.toReading, answer]
  rw [hmid] at hread
  rw [Partman.scanInt, h.scanStr]
  simp only [ne_eq, not_true_eq_false, if_false, hspace, hread]
  exact congrArg (fun w => (ScanRes.ok, w, inp)) h.strtoul_digits

/-- The prompts for an index and for the first sector. -/
lemma promptRange (h : Types line v) {start last : Pu64} (dflt : Pu64) (h1 : start ≤ v)
    (h2 : v ≤ last) : promptRange start last dflt (.line line :: inp) = (.ok, v, inp) := by
  rw [Partman.promptRange, h.scanInt]
  have hout : ¬ (v < start ∨ last < v) := by
    rw [not_or, UInt64.not_lt, UInt64.not_lt]
    exact ⟨h1, h2⟩
  simp only [reduceCtorEq, if_false, ne_eq, not_true_eq_false, gt_iff_lt]
  rw [if_neg (by simpa using hout)]

/-- The prompt for the last sector. -/
lemma promptSectorExt (h : Types line v) {start last : Plba} (dflt : Plba) (secSz : Pu64)
    (h1 : start ≤ v) (h2 : v ≤ last) :
    promptSectorExt sys start last dflt secSz (.line line :: inp) = (.ok, v, inp) := by
  have htrim : strTrim (line.takeWhile fun c => !endsLine c) =
      line.takeWhile fun c => !endsLine c := by
    have hplain : ∀ c ∈ line.takeWhile (fun c => !endsLine c), isSpace c = false := fun c hc =>
      isBaseDigit_not_isSpace (isBaseDigit_ten.trans (h.digits c hc))
    have := @strTrim_of_ends [] _ [] (by simp) (by simp) h.digits_ne
      (fun c hc => hplain c (List.mem_of_mem_head? hc))
      (fun c hc => hplain c (List.mem_of_mem_getLast? hc))
    simpa using this
  have htarget : h.answer.toReading.target sys start last secSz = v := h.strtoul_digits
  have hok : sectorExtOf sys start last secSz (line.takeWhile fun c => !endsLine c) = some v :=
    (h.answer.toReading.sectorExtOf_iff ?_ ?_).2 ⟨⟨?_, ?_, ?_⟩, htarget⟩
  · rw [promptSectorExt_line, if_neg h.digits_ne, hok]
  · rw [htrim, Answer.toReading_text, h.answer_text]
  · rw [htrim]
    intro h0
    exact absurd (h.digits _ h0) (by decide)
  · simp [Answer.toReading, answer]
  · rw [htarget]
    exact h1
  · rw [htarget]
    exact h2

end Types

/-! ## Texts -/

/-- The lines end with their newlines, and the buffer has room for each of them. -/
def TypedIn (lines : Input) : Prop :=
  ∃ ls : List (List Char), (∀ l ∈ ls, '\n' ∉ l) ∧ (∀ l ∈ ls, l.length ≤ scanBufSz - 2) ∧
    lines = (ls.map (· ++ ['\n'])).map .line

lemma TypedIn.nil : TypedIn [] := ⟨[], by simp, by simp, rfl⟩

lemma TypedIn.append {lines lines' : Input} (h : TypedIn lines) (h' : TypedIn lines') :
    TypedIn (lines ++ lines') := by
  obtain ⟨ls, hstop, hlen, rfl⟩ := h
  obtain ⟨ls', hstop', hlen', rfl⟩ := h'
  refine ⟨ls ++ ls', fun l hl => ?_, fun l hl => ?_, by simp⟩
  · exact (List.mem_append.1 hl).elim (hstop l) (hstop' l)
  · exact (List.mem_append.1 hl).elim (hlen l) (hlen' l)

lemma TypedIn.cons {l : List Char} {lines : Input} (hstop : '\n' ∉ l)
    (hlen : l.length ≤ scanBufSz - 2) (h : TypedIn lines) :
    TypedIn (.line (l ++ ['\n']) :: lines) := by
  obtain ⟨ls, hstop', hlen', rfl⟩ := h
  refine ⟨l :: ls, fun l' hl => ?_, fun l' hl => ?_, rfl⟩
  · rcases List.mem_cons.1 hl with rfl | hl
    exacts [hstop, hstop' l' hl]
  · rcases List.mem_cons.1 hl with rfl | hl
    exacts [hlen, hlen' l' hl]

/-- The number of a sector or of an entry is short. -/
lemma TypedIn.decimal {n : ℕ} {lines : Input} (hn : n < 2 ^ 64) (h : TypedIn lines) :
    TypedIn (.line (Partman.decimal n ++ ['\n']) :: lines) := by
  refine .cons (newline_not_mem_decimal n) ?_ h
  have hlen : (Partman.decimal n).length ≤ 20 :=
    (Nat.length_toDigits_le_iff (by decide) (by decide)).2 (hn.trans (by decide))
  exact hlen.trans (by decide)

/-- Such lines are what `fgets` makes of a text. -/
lemma TypedIn.exists_text {lines : Input} (h : TypedIn lines) : ∃ text, stdinOf text = lines := by
  obtain ⟨ls, hstop, hlen, rfl⟩ := h
  exact ⟨_, congrArg (List.map Fgets.line) (Lib.pieces_of_lines hstop hlen)⟩

end Partman

/-
# How the prompt for the last sector reads a line

An answer is a number of sectors, or behind a sign a distance from one of the ends, in
sectors or with a unit in bytes.  The prompt reads more than the answers: it takes the first
character for a sign and the last one for a unit and leaves what is between them to
`sscanf`, which skips blanks, takes a sign of its own and stops at the first character that
is no digit.  Such a reading is an answer with these three in it, and the prompt accepts a
line exactly when it has a reading whose sector lies in the range.
-/
import Partman.Text.Number
import Partman.Model.Scan

namespace Partman

variable {sys : Sys} {start last : Plba} {secSz : Pu64} {line : List Char}

/-! ## Digits and units -/

lemma isBaseDigit_ten {c : Char} : isBaseDigit 10 c = isDigit c := by
  rw [isBaseDigit, digitVal]
  by_cases hd : isDigit c = true
  · have h9 := (isDigit_iff.1 hd).2
    simp only [hd, if_true, Char.reduceToNat, decide_eq_true_eq]
    omega
  · have hd : isDigit c = false := by simpa using hd
    rw [hd]
    simp only [Bool.false_eq_true, if_false]
    split
    · rename_i d h
      split_ifs at h
      rw [Option.some.injEq] at h
      simp only [decide_eq_false_iff_not, not_lt]
      omega
    · rfl

/-- The power of 1024 that a unit stands for. -/
def unitPow (c : Char) : ℕ := modifiers.idxOf (toUpper c) + 1

lemma modVal_of_mem {c : Char} (h : toUpper c ∈ modifiers) :
    modVal sys c = intShl sys (10 * unitPow c) := by
  simp only [modifiers, List.mem_cons, List.not_mem_nil, or_false] at h
  rcases h with h | h | h | h | h <;>
    simp [modVal, unitPow, modifiers, h, List.range_succ]

lemma modVal_of_not_mem {c : Char} (h : toUpper c ∉ modifiers) : modVal sys c = 0 := by
  simp only [modifiers, List.mem_cons, List.not_mem_nil, or_false, not_or] at h
  simp [modVal, modifiers, h, List.range_succ]

lemma not_isDigit_of_unit {c : Char} (h : toUpper c ∈ modifiers) : isDigit c = false := by
  by_contra hd
  have hd : isDigit c = true := by simpa using hd
  rw [toUpper_of_isDigit hd] at h
  simp only [modifiers, List.mem_cons, List.not_mem_nil, or_false] at h
  rcases h with rfl | rfl | rfl | rfl | rfl <;> exact absurd hd (by decide)

/-! ## Answers -/

/-- A well-formed answer. -/
structure Answer where
  sign : Option Char
  digits : List Char
  unit : Option Char
  sign_isSign : ∀ c ∈ sign, IsSign c
  digits_ne : digits ≠ []
  digits_isDigit : ∀ c ∈ digits, isDigit c = true
  unit_mem : ∀ c ∈ unit, toUpper c ∈ modifiers
  signed : sign = none → unit = none

namespace Answer

def text (a : Answer) : List Char := a.sign.toList ++ a.digits ++ a.unit.toList

/-- The number that is written. -/
def number (a : Answer) : ℕ := digitsVal 10 a.digits

/-- The number of sectors that is meant. -/
def count (a : Answer) (secSz : Pu64) : ℕ :=
  match a.unit with
  | none => a.number
  | some c => a.number * 1024 ^ unitPow c / secSz.toNat

/-- The sector that is meant. -/
def sector (a : Answer) (start last : Plba) (secSz : Pu64) : ℤ :=
  match a.sign with
  | none => a.count secSz
  | some c =>
    if c = '-' then last.toNat - a.count secSz else start.toNat + a.count secSz - 1

end Answer

/-! ## Readings -/

/-- An answer with what the prompt passes over: blanks and a second sign in front of the
digits, and text behind them. -/
structure Reading extends Answer where
  blanks : List Char
  inner : Option Char
  rest : List Char
  blanks_isSpace : ∀ c ∈ blanks, isSpace c = true
  inner_isSign : ∀ c ∈ inner, IsSign c
  rest_stop : ∀ c ∈ rest.head?, isDigit c = false
  starts : sign = none → blanks = [] ∧ inner = none
  ends : unit = none → ∀ c ∈ rest.getLast?, isDigit c = true

namespace Reading

/-- What is left to `sscanf`. -/
def middle (r : Reading) : List Char := r.blanks ++ r.inner.toList ++ r.digits ++ r.rest

def text (r : Reading) : List Char := r.sign.toList ++ r.middle ++ r.unit.toList

/-- The number that `sscanf` reads. -/
def read (r : Reading) : Pu64 := strtoul 10 (r.inner == some '-') r.digits

/-- The number of sectors that the prompt makes of it. -/
def size (r : Reading) (sys : Sys) (secSz : Pu64) : Plba :=
  match r.unit with
  | none => r.read
  | some c => r.read * intShl sys (10 * unitPow c) / secSz

/-- The sector that the prompt makes of it. -/
def target (r : Reading) (sys : Sys) (start last : Plba) (secSz : Pu64) : Plba :=
  match r.sign with
  | none => r.size sys secSz
  | some c => if c = '-' then last - r.size sys secSz else r.size sys secSz + (start - 1)

/-- The unit has a factor on this platform, and the sector lies in the range. -/
structure Accepted (r : Reading) (sys : Sys) (start last : Plba) (secSz : Pu64) : Prop where
  factor : ∀ c ∈ r.unit, intShl sys (10 * unitPow c) ≠ 0
  start_le : start ≤ r.target sys start last secSz
  le_last : r.target sys start last secSz ≤ last

end Reading

/-! ## The characters at the two ends -/

/-- How a line falls into a sign, a middle and a unit: what is no digit at an end is taken
for a sign or a unit. -/
structure Peeled (s : List Char) where
  sign : Option Char
  middle : List Char
  unit : Option Char
  eq : s = sign.toList ++ middle ++ unit.toList
  sign_not : ∀ c ∈ sign, isDigit c = false
  unit_not : ∀ c ∈ unit, isDigit c = false
  head : sign = none → ∀ c ∈ middle.head?, isDigit c = true
  last : unit = none → ∃ c ∈ (sign.toList ++ middle).getLast?, isDigit c = true

/-- Every text that is not empty falls into such parts. -/
lemma exists_peeled {s : List Char} (hs : s ≠ []) : Nonempty (Peeled s) := by
  obtain ⟨b, u, hbu, hu, hlast⟩ : ∃ (b : List Char) (u : Option Char), s = b ++ u.toList ∧
      (∀ c ∈ u, isDigit c = false) ∧ (u = none → ∃ c ∈ b.getLast?, isDigit c = true) := by
    obtain ⟨b, z, rfl⟩ := (List.eq_nil_or_concat' s).resolve_left hs
    by_cases hz : isDigit z = true
    · exact ⟨b ++ [z], none, by simp, by simp, fun _ => ⟨z, by simp, hz⟩⟩
    · exact ⟨b, some z, by simp, by simpa using hz, by simp⟩
  cases b with
  | nil => exact ⟨none, [], u, by simpa using hbu, by simp, hu, by simp, by simpa using hlast⟩
  | cons c b =>
    by_cases hc : isDigit c = true
    · exact ⟨none, c :: b, u, by simpa using hbu, by simp, hu, by simpa using hc,
        by simpa using hlast⟩
    · exact ⟨some c, b, u, by simpa using hbu, by simpa using hc, hu, by simp,
        by simpa using hlast⟩

/-- `sectorExtOf` behind the peeling of the two ends. -/
def sectorOfParts (sys : Sys) (start last : Plba) (secSz : Pu64) (sign : Option Char)
    (middle : List Char) (unit : Option Char) : Option Plba :=
  if unit.isSome ∧ sign.isNone then none
  else
    match scanUInt 10 middle.length middle with
    | none => none
    | some (n, _) =>
      let n? := match unit with
        | some c => if modVal sys c = 0 then none else some (n * modVal sys c / secSz)
        | none => some n
      match n? with
      | none => none
      | some n =>
        let v? := match sign with
          | some c =>
            if c = '+' then some (n + (start - 1)) else if c = '-' then some (last - n) else none
          | none => some n
        match v? with
        | none => none
        | some v => if v < start || v > last then none else some v

lemma peelUnit_eq {b : List Char} {u : Option Char} (hu : ∀ c ∈ u, isDigit c = false)
    (hlast : u = none → ∃ c ∈ b.getLast?, isDigit c = true) :
    (if !isDigit ((b ++ u.toList).getLastD '\x00') then (b ++ u.toList).getLastD '\x00'
      else '\x00') = u.getD '\x00' ∧
    (if !isDigit ((b ++ u.toList).getLastD '\x00') then (b ++ u.toList).dropLast
      else b ++ u.toList) = b := by
  cases u with
  | some c => simp [hu c rfl]
  | none =>
    obtain ⟨c, hc, hd⟩ := hlast rfl
    simp [Option.mem_def.1 hc, hd]

lemma peelSign_eq {mid : List Char} {sg : Option Char} (hsg : ∀ c ∈ sg, isDigit c = false)
    (hhead : sg = none → ∀ c ∈ mid.head?, isDigit c = true) :
    (if !isDigit ((sg.toList ++ mid).headD '\x00') then (sg.toList ++ mid).headD '\x00'
      else '\x00') = sg.getD '\x00' ∧
    (if !isDigit ((sg.toList ++ mid).headD '\x00') then (sg.toList ++ mid).tail
      else sg.toList ++ mid) = mid := by
  cases sg with
  | some c => simp [hsg c rfl]
  | none =>
    cases mid with
    | nil => simp
    | cons d mid => simp [hhead rfl d rfl]

lemma getD_bne_zero {o : Option Char} (h : ∀ c ∈ o, c ≠ '\x00') :
    (o.getD '\x00' != '\x00') = o.isSome := by
  cases o with
  | none => rfl
  | some c => simp [h c rfl]

lemma getD_beq_zero {o : Option Char} (h : ∀ c ∈ o, c ≠ '\x00') :
    (o.getD '\x00' == '\x00') = o.isNone := by
  cases o with
  | none => rfl
  | some c => simp [h c rfl]

/-- The prompt reads a line by its parts. -/
lemma sectorExtOf_eq_parts (p : Peeled (strTrim line)) (h0 : '\x00' ∉ strTrim line)
    (hne : strTrim line ≠ []) :
    sectorExtOf sys start last secSz line =
      sectorOfParts sys start last secSz p.sign p.middle p.unit := by
  have hlen : ¬ (strTrim line).length < 1 := by
    have := List.length_pos_of_ne_nil hne
    omega
  have hu0 : ∀ c ∈ p.unit, c ≠ '\x00' := by
    rintro c hc rfl
    exact h0 (p.eq ▸ by simp [Option.mem_def.1 hc])
  have hs0 : ∀ c ∈ p.sign, c ≠ '\x00' := by
    rintro c hc rfl
    exact h0 (p.eq ▸ by simp [Option.mem_def.1 hc])
  obtain ⟨hmod, hbody⟩ := peelUnit_eq p.unit_not p.last
  obtain ⟨hsgn, hmid⟩ := peelSign_eq p.sign_not p.head
  rw [← p.eq] at hmod hbody
  rw [sectorExtOf, sectorOfParts]
  simp only [hlen, if_false, hmod, hbody, hsgn, hmid, getD_bne_zero hu0, getD_bne_zero hs0,
    getD_beq_zero hs0, Bool.and_eq_true]
  cases scanUInt 10 p.middle.length p.middle with
  | none => rfl
  | some x =>
    cases p.unit with
    | none =>
      cases p.sign with
      | none => rfl
      | some c => by_cases hp : c = '+' <;> by_cases hm : c = '-' <;> simp [hp, hm]
    | some u =>
      cases p.sign with
      | none => rfl
      | some c =>
        by_cases hz : modVal sys u = 0
        · simp [hz]
        · by_cases hp : c = '+' <;> by_cases hm : c = '-' <;> simp [hz, hp, hm]

/-! ## The prompt reads by readings -/

namespace Reading

/-- The numeral that `sscanf` consumes. -/
def numeral (r : Reading) : Numeral 10 r.middle.length where
  blanks := r.blanks
  sign := r.inner
  pfx := []
  digits := r.digits
  blanks_isSpace := r.blanks_isSpace
  sign_isSign := r.inner_isSign
  pfx_isPrefix := Or.inl rfl
  digits_ne := r.digits_ne
  digits_isBaseDigit := fun c hc => isBaseDigit_ten.trans (r.digits_isDigit c hc)
  width := by
    simp only [middle, List.length_append, List.length_nil]
    omega

lemma scanUInt_middle (r : Reading) :
    scanUInt 10 r.middle.length r.middle = some (r.read, r.rest) := by
  have h := @scanUInt_complete 10 r.middle.length r.rest r.numeral
    ⟨Or.inr fun c hc => isBaseDigit_ten.trans (r.rest_stop c hc), by simp⟩
  have ht : r.numeral.text ++ r.rest = r.middle := by simp [Numeral.text, numeral, middle]
  rwa [ht] at h

lemma head_middle (r : Reading) (h : r.sign = none) : ∀ c ∈ r.middle.head?, isDigit c = true := by
  obtain ⟨hb, hi⟩ := r.starts h
  obtain ⟨d, ds, hds⟩ := List.exists_cons_of_ne_nil r.digits_ne
  intro c hc
  simp only [middle, hb, hi, hds, Option.toList_none, List.nil_append, List.cons_append,
    List.head?_cons, Option.mem_some_iff] at hc
  exact hc ▸ r.digits_isDigit d (by simp [hds])

lemma last_middle (r : Reading) (h : r.unit = none) :
    ∃ c ∈ (r.sign.toList ++ r.middle).getLast?, isDigit c = true := by
  by_cases hr : r.rest = []
  · refine ⟨r.digits.getLast r.digits_ne, ?_, r.digits_isDigit _ (List.getLast_mem _)⟩
    simp [middle, hr, List.getLast?_append, List.getLast?_eq_some_getLast r.digits_ne]
  · refine ⟨r.rest.getLast hr, ?_, r.ends h _ (by simp [List.getLast?_eq_some_getLast hr])⟩
    simp [middle, List.getLast?_append, List.getLast?_eq_some_getLast hr]

/-- The parts of a line are the ones of its reading. -/
def peeled (r : Reading) {s : List Char} (h : r.text = s) : Peeled s where
  sign := r.sign
  middle := r.middle
  unit := r.unit
  eq := h.symm
  sign_not := fun c hc => by rcases r.sign_isSign c hc with rfl | rfl <;> decide
  unit_not := fun c hc => not_isDigit_of_unit (r.unit_mem c hc)
  head := r.head_middle
  last := r.last_middle

lemma text_ne_nil (r : Reading) : r.text ≠ [] := by
  simp [text, middle, r.digits_ne]

/-- **What the prompt makes of a line that has a reading.** -/
theorem sectorExtOf_iff (r : Reading) (h : r.text = strTrim line) (h0 : '\x00' ∉ strTrim line)
    {v : Plba} : sectorExtOf sys start last secSz line = some v ↔
      r.Accepted sys start last secSz ∧ r.target sys start last secSz = v := by
  have hsgn : ¬ (r.unit.isSome = true ∧ r.sign.isNone = true) := by
    rintro ⟨hu, hs⟩
    simp [r.signed (by simpa using hs)] at hu
  have hmod : ∀ c ∈ r.unit, modVal sys c = intShl sys (10 * unitPow c) := fun c hc =>
    modVal_of_mem (r.unit_mem c hc)
  have hacc : r.Accepted sys start last secSz ↔
      (∀ c ∈ r.unit, intShl sys (10 * unitPow c) ≠ 0) ∧
        ¬ (r.target sys start last secSz < start ∨ last < r.target sys start last secSz) := by
    rw [not_or, UInt64.not_lt, UInt64.not_lt]
    exact ⟨fun h => ⟨h.factor, h.start_le, h.le_last⟩, fun h => ⟨h.1, h.2.1, h.2.2⟩⟩
  rw [sectorExtOf_eq_parts (r.peeled h) h0 (h ▸ r.text_ne_nil), hacc, sectorOfParts]
  simp only [peeled, hsgn, if_false, r.scanUInt_middle]
  rw [target, size]
  cases hu : r.unit with
  | none =>
    cases hs : r.sign with
    | none => simp
    | some c => rcases r.sign_isSign c hs with rfl | rfl <;> simp
  | some u =>
    have hm := hmod u hu
    by_cases hz : intShl sys (10 * unitPow u) = 0
    · simp [hm, hz]
    · cases hs : r.sign with
      | none => simp [r.signed hs] at hu
      | some c => rcases r.sign_isSign c hs with rfl | rfl <;> simp [hm, hz]

end Reading

/-- The first character behind the blanks of a text is the first one of the text when that
is a digit. -/
lemma blanks_eq_nil_of_head {bl s : List Char} (hb : ∀ c ∈ bl, isSpace c = true)
    (h : ∀ c ∈ (bl ++ s).head?, isDigit c = true) : bl = [] := by
  cases bl with
  | nil => rfl
  | cons c bl =>
    have hd := h c rfl
    rw [← isBaseDigit_ten, not_isBaseDigit_of_isSpace (hb c (by simp))] at hd
    exact absurd hd Bool.false_ne_true

/-- A line whose parts are scanned and have a sign where they have a unit has a reading. -/
lemma Peeled.exists_reading {s : List Char} (p : Peeled s)
    {w : ℕ} (hw : w = p.middle.length) (f : Numeral 10 w) {rest : List Char}
    (hf : p.middle = f.text ++ rest) (hstop : f.Stops rest) (hsign : ∀ c ∈ p.sign, IsSign c)
    (hunit : ∀ c ∈ p.unit, toUpper c ∈ modifiers) (hsigned : p.sign = none → p.unit = none) :
    ∃ r : Reading, r.text = s := by
  have hpfx : f.pfx = [] := f.pfx_isPrefix.resolve_right fun h => absurd h.1 (by decide)
  have hmid : p.middle = f.blanks ++ f.sign.toList ++ f.digits ++ rest := by
    rw [hf, Numeral.text, hpfx, List.append_nil]
  have hrest : ∀ c ∈ rest.head?, isBaseDigit 10 c = false := by
    rcases hstop.greedy with hfull | hstop
    · -- the width is the whole middle, so nothing is left
      have hlen := congrArg List.length hmid
      simp only [List.length_append] at hlen
      rw [hpfx, List.length_nil] at hfull
      have : rest = [] := List.eq_nil_of_length_eq_zero (by omega)
      simp [this]
    · exact hstop
  have hstarts : p.sign = none → f.blanks = [] ∧ f.sign = none := by
    intro hs
    have hhead := p.head hs
    rw [hmid, List.append_assoc, List.append_assoc] at hhead
    have hbl := blanks_eq_nil_of_head f.blanks_isSpace hhead
    refine ⟨hbl, ?_⟩
    rcases hfs : f.sign with _ | c
    · rfl
    · have hd := hhead c (by simp [hbl, hfs])
      rw [← isBaseDigit_ten, (f.sign_isSign c hfs).not_isBaseDigit] at hd
      exact absurd hd Bool.false_ne_true
  have hends : p.unit = none → ∀ c ∈ rest.getLast?, isDigit c = true := by
    intro hu c hc
    obtain ⟨d, hd, hdig⟩ := p.last hu
    rw [hmid] at hd
    simp only [List.getLast?_append, Option.mem_def.1 hc, Option.some_or,
      Option.mem_some_iff] at hd
    exact hd ▸ hdig
  refine ⟨⟨⟨p.sign, f.digits, p.unit, hsign, f.digits_ne, fun c hc =>
    isBaseDigit_ten.symm.trans (f.digits_isBaseDigit c hc), hunit, hsigned⟩, f.blanks, f.sign,
    rest, f.blanks_isSpace, f.sign_isSign, fun c hc => isBaseDigit_ten.symm.trans (hrest c hc),
    hstarts, hends⟩, ?_⟩
  calc p.sign.toList ++ (f.blanks ++ f.sign.toList ++ f.digits ++ rest) ++ p.unit.toList
      = p.sign.toList ++ p.middle ++ p.unit.toList := by rw [hmid]
    _ = s := p.eq.symm

/-- **A line that the prompt accepts has a reading.** -/
theorem exists_reading_of_sectorExtOf {v : Plba} (h0 : '\x00' ∉ strTrim line)
    (h : sectorExtOf sys start last secSz line = some v) :
    ∃ r : Reading, r.text = strTrim line := by
  have hne : strTrim line ≠ [] := by
    intro hs
    simp [sectorExtOf, hs] at h
  obtain ⟨p⟩ := exists_peeled hne
  rw [sectorExtOf_eq_parts p h0 hne, sectorOfParts] at h
  split at h
  · exact absurd h (by simp)
  · rename_i hsigned
    rcases hscan : scanUInt 10 p.middle.length p.middle with _ | ⟨n, rest⟩
    · simp [hscan] at h
    · obtain ⟨f, hf, hstop, -⟩ := scanUInt_sound hscan
      rw [hscan] at h
      refine p.exists_reading rfl f hf hstop ?_ ?_ ?_
      · intro c hc
        by_contra hns
        simp only [IsSign, not_or] at hns
        rw [Option.mem_def.1 hc] at h
        cases hu : p.unit <;> simp [hu, hns.1, hns.2] at h
        split at h <;> simp at h
      · intro c hc
        by_contra hm
        simp [Option.mem_def.1 hc, modVal_of_not_mem hm] at h
      · intro hs
        by_contra hu
        exact hsigned ⟨Option.isSome_iff_ne_none.2 hu, by simp [hs]⟩

end Partman

/-
# Size expressions

What an answer to the prompt for the last sector means is computed in unbounded integers:
so many sectors, or whole sectors of so many bytes, from the start or before the end.  The
prompt computes in 64 bits, and shifts the factor of a unit in an `int`, so it means the same
only where nothing is lost on the way, or where what is lost does not bring the sector back
into the range.  A carriage return or a newline in front of the answer ends the line.
-/
import Partman.Disk.Geometry
import Partman.Text.Reading

namespace Partman

open Lib

variable {sys : Sys} {start last dflt : Plba} {secSz : Pu64} {inp : Input}

/-! ## Trimming -/

lemma strTrim_of_ends {bl t bl' : List Char} (hb : ∀ c ∈ bl, isSpace c = true)
    (hb' : ∀ c ∈ bl', isSpace c = true) (ht : t ≠ []) (hh : ∀ c ∈ t.head?, isSpace c = false)
    (hl : ∀ c ∈ t.getLast?, isSpace c = false) : strTrim (bl ++ t ++ bl') = t := by
  have hfront : (bl ++ t ++ bl').dropWhile isSpace = t ++ bl' := by
    rw [List.append_assoc]
    refine dropWhile_append_stop hb fun c hc => hh c ?_
    rwa [List.head?_append_of_ne_nil _ ht] at hc
  rw [strTrim, hfront, List.reverse_append, dropWhile_append_stop, List.reverse_reverse]
  · simpa using hb'
  · simpa using hl

/-- The characters at which `scan_str` ends a line. -/
def endsLine (c : Char) : Bool := c == '\n' || c == '\r' || c == '\x00'

lemma scanStr_line (s : List Char) : scanStr (.line s :: inp) =
    (if (s.takeWhile fun c => !endsLine c).isEmpty then .empty else .ok,
      s.takeWhile fun c => !endsLine c, inp) := by
  have h : (fun c : Char => c != '\n' && c != '\r' && c != '\x00') = fun c => !endsLine c := by
    funext c
    simp [endsLine, bne]
  rw [scanStr, h]

/-- The prompt on a line: nothing in front of the end of the line is the default. -/
lemma promptSectorExt_line (s : List Char) :
    promptSectorExt sys start last dflt secSz (.line s :: inp) =
      if s.takeWhile (fun c => !endsLine c) = [] then (.ok, dflt, inp)
      else
        match sectorExtOf sys start last secSz (s.takeWhile fun c => !endsLine c) with
        | some v => (.ok, v, inp)
        | none => (.fail, 0, inp) := by
  rw [promptSectorExt, scanStr_line]
  by_cases h : s.takeWhile (fun c => !endsLine c) = []
  · simp [h]
  · cases hx : sectorExtOf sys start last secSz (s.takeWhile fun c => !endsLine c) <;> simp [h, hx]

namespace Answer

variable (a : Answer)

lemma text_plain : ∀ c ∈ a.text, isSpace c = false ∧ endsLine c = false := by
  intro c hc
  simp only [text, List.mem_append, Option.mem_toList] at hc
  rcases hc with (hc | hc) | hc
  · rcases a.sign_isSign c hc with rfl | rfl <;> decide
  · have hd := a.digits_isDigit c hc
    have hb : isSpace c = false := isBaseDigit_not_isSpace (isBaseDigit_ten.trans hd)
    refine ⟨hb, ?_⟩
    by_contra he
    simp only [endsLine, Bool.or_eq_true, beq_iff_eq, Bool.not_eq_false] at he
    rcases he with (rfl | rfl) | rfl <;> exact absurd hd (by decide)
  · have hm := a.unit_mem c hc
    refine ⟨?_, ?_⟩
    · by_contra hb
      rw [Bool.not_eq_false, isSpace_iff] at hb
      rcases hb with rfl | rfl | rfl | rfl | rfl | rfl <;> exact absurd hm (by decide)
    · by_contra he
      simp only [endsLine, Bool.or_eq_true, beq_iff_eq, Bool.not_eq_false] at he
      rcases he with (rfl | rfl) | rfl <;> exact absurd hm (by decide)

lemma text_ne_nil : a.text ≠ [] := by simp [text, a.digits_ne]

/-- An answer as a reading with nothing to pass over. -/
def toReading : Reading where
  toAnswer := a
  blanks := []
  inner := none
  rest := []
  blanks_isSpace := by simp
  inner_isSign := by simp
  rest_stop := by simp
  starts := by simp
  ends := by simp

lemma toReading_text : a.toReading.text = a.text := by
  simp [toReading, Reading.text, Reading.middle, text]

/-! ## What 64-bit arithmetic makes of an answer -/

/-- The factor of the unit on this platform. -/
def factor (sys : Sys) : ℕ :=
  match a.unit with
  | none => 1
  | some c => (intShl sys (10 * unitPow c)).toNat

/-- The number of sectors in 64-bit arithmetic. -/
def count64 (sys : Sys) (secSz : Pu64) : ℕ :=
  match a.unit with
  | none => a.number
  | some _ => a.number * a.factor sys % 2 ^ 64 / secSz.toNat

/-- How far the sector of `k` sectors is from the end of the range that the sign names: a
size counts the sector it starts from. -/
def distance (k : ℕ) : ℤ := if a.sign = some '+' then k - 1 else k

/-- The answer means what it says: it has no sign, or the distance is not changed by the
64-bit arithmetic, or both the distance and what becomes of it lead out of the range. -/
def Sized (sys : Sys) (start last : Plba) (secSz : Pu64) : Prop :=
  a.sign = none ∨
    a.factor sys ≠ 0 ∧ a.distance (a.count secSz) = a.distance (a.count64 sys secSz) % 2 ^ 64 ∨
    ¬ (0 ≤ a.distance (a.count secSz) ∧
        a.distance (a.count secSz) ≤ last.toNat - start.toNat) ∧
      (a.factor sys ≠ 0 →
        (last.toNat : ℤ) - start.toNat < a.distance (a.count64 sys secSz) % 2 ^ 64)

variable {a}

lemma toReading_read (h : a.number < 2 ^ 64) : a.toReading.read.toNat = a.number := by
  rw [Reading.read, strtoul, toReading]
  simp only
  rw [if_neg (show ¬ digitsVal 10 a.digits ≥ 2 ^ 64 from not_le.2 h)]
  rw [if_neg (by simp)]
  exact toNat_ofNat_of_lt h

lemma toReading_size (h : a.number < 2 ^ 64) :
    (a.toReading.size sys secSz).toNat = a.count64 sys secSz := by
  have hr := toReading_read h
  have hu : a.toReading.unit = a.unit := rfl
  rw [Reading.size, count64, factor, hu]
  cases a.unit with
  | none => exact hr
  | some c => simp only [UInt64.toNat_div, UInt64.toNat_mul, hr]

lemma factor_ne_zero_iff : a.factor sys ≠ 0 ↔
    ∀ c ∈ a.toReading.unit, intShl sys (10 * unitPow c) ≠ 0 := by
  have hu : a.toReading.unit = a.unit := rfl
  rw [factor, hu]
  cases a.unit with
  | none => simp
  | some c => simp [← UInt64.toNat_inj]

end Answer

/-- Adding a size to the start: where the sum lands in the range, and on what sector. -/
lemma toNat_plus_mem (h : start.toNat ≤ last.toNat) (k : Plba) :
    (start.toNat ≤ (k + (start - 1)).toNat ∧ (k + (start - 1)).toNat ≤ last.toNat ↔
      ((k.toNat : ℤ) - 1) % 2 ^ 64 ≤ last.toNat - start.toNat) ∧
    (((k.toNat : ℤ) - 1) % 2 ^ 64 ≤ last.toNat - start.toNat →
      ((k + (start - 1)).toNat : ℤ) = start.toNat + ((k.toNat : ℤ) - 1) % 2 ^ 64) := by
  have hl := last.toNat_lt
  rw [UInt64.toNat_add, UInt64.toNat_sub, UInt64.toNat_one]
  omega

/-- Taking a size from the end. -/
lemma toNat_minus_mem (h : start.toNat ≤ last.toNat) (k : Plba) :
    (start.toNat ≤ (last - k).toNat ∧ (last - k).toNat ≤ last.toNat ↔
      (k.toNat : ℤ) % 2 ^ 64 ≤ last.toNat - start.toNat) ∧
    ((k.toNat : ℤ) % 2 ^ 64 ≤ last.toNat - start.toNat →
      ((last - k).toNat : ℤ) = last.toNat - (k.toNat : ℤ) % 2 ^ 64) := by
  have hk := k.toNat_lt
  have hl := last.toNat_lt
  rw [UInt64.toNat_sub]
  omega

namespace Answer

variable {a : Answer}

/-- The sector that is meant, by its distance from the end that the sign names. -/
lemma sector_eq {c : Char} (hc : a.sign = some c) : a.sector start last secSz =
    if c = '-' then last.toNat - a.distance (a.count secSz)
    else start.toNat + a.distance (a.count secSz) := by
  rw [sector, distance, hc]
  rcases a.sign_isSign c hc with rfl | rfl
  · simp only [(by decide : ¬ '+' = '-'), if_false, if_true]
    omega
  · simp

/-- The sector of the prompt, by the same distance in 64 bits. -/
lemma target_mem {c : Char} (hc : a.sign = some c) (hn : a.number < 2 ^ 64)
    (hle : start ≤ last) :
    (start ≤ a.toReading.target sys start last secSz ∧
        a.toReading.target sys start last secSz ≤ last ↔
      a.distance (a.count64 sys secSz) % 2 ^ 64 ≤ last.toNat - start.toNat) ∧
    (a.distance (a.count64 sys secSz) % 2 ^ 64 ≤ last.toNat - start.toNat →
      ((a.toReading.target sys start last secSz).toNat : ℤ) =
        if c = '-' then last.toNat - a.distance (a.count64 sys secSz) % 2 ^ 64
        else start.toNat + a.distance (a.count64 sys secSz) % 2 ^ 64) := by
  have hle' : start.toNat ≤ last.toNat := UInt64.le_iff_toNat_le.1 hle
  have hsz : (a.toReading.size sys secSz).toNat = a.count64 sys secSz := toReading_size hn
  have hs : a.toReading.sign = some c := hc
  rw [Reading.target, distance, hs, hc, ← hsz, UInt64.le_iff_toNat_le, UInt64.le_iff_toNat_le]
  rcases a.sign_isSign c hc with rfl | rfl
  · simpa using toNat_plus_mem hle' (a.toReading.size sys secSz)
  · simpa using toNat_minus_mem hle' (a.toReading.size sys secSz)

/-- The sector that is meant lies in the range. -/
def InRange (a : Answer) (start last : Plba) (secSz : Pu64) : Prop :=
  start.toNat ≤ a.sector start last secSz ∧ a.sector start last secSz ≤ last.toNat

lemma inRange_iff {c : Char} (hc : a.sign = some c) : a.InRange start last secSz ↔
    0 ≤ a.distance (a.count secSz) ∧ a.distance (a.count secSz) ≤ last.toNat - start.toNat := by
  rw [InRange, sector_eq hc]
  split <;> omega

/-- **An answer means what it says** exactly when the prompt accepts it on the sector that is
meant, or rejects it where that sector is not in the range. -/
lemma sized_iff (hn : a.number < 2 ^ 64) (hle : start ≤ last) :
    a.Sized sys start last secSz ↔
      (a.InRange start last secSz → a.toReading.Accepted sys start last secSz ∧
        ((a.toReading.target sys start last secSz).toNat : ℤ) = a.sector start last secSz) ∧
      (¬ a.InRange start last secSz → ¬ a.toReading.Accepted sys start last secSz) := by
  have hacc : a.toReading.Accepted sys start last secSz ↔ a.factor sys ≠ 0 ∧
      start ≤ a.toReading.target sys start last secSz ∧
        a.toReading.target sys start last secSz ≤ last := by
    rw [factor_ne_zero_iff]
    exact ⟨fun h => ⟨h.factor, h.start_le, h.le_last⟩, fun h => ⟨h.1, h.2.1, h.2.2⟩⟩
  rw [Sized, hacc]
  cases hs : a.sign with
  | none =>
    -- without a sign nothing is computed
    have hu : a.unit = none := a.signed hs
    have ht : (a.toReading.target sys start last secSz).toNat = a.number := by
      have hrs : a.toReading.sign = none := hs
      have hc : a.count64 sys secSz = a.number := by simp [count64, hu]
      rw [Reading.target, hrs, ← hc]
      exact toReading_size hn
    have hsec : a.sector start last secSz = a.number := by simp [sector, hs, count, hu]
    have hf : a.factor sys = 1 := by simp [factor, hu]
    rw [InRange, UInt64.le_iff_toNat_le, UInt64.le_iff_toNat_le, ht, hsec, hf]
    simp only [true_or, true_iff]
    exact ⟨fun h => ⟨⟨one_ne_zero, by omega, by omega⟩, trivial⟩, fun h h' => h (by omega)⟩
  | some c =>
    obtain ⟨hmem, hval⟩ := @target_mem sys start last secSz a _ hs hn hle
    rw [hmem, inRange_iff hs, sector_eq hs]
    simp only [reduceCtorEq, false_or]
    generalize a.distance (a.count secSz) = d
    have hpos : 0 ≤ a.distance (a.count64 sys secSz) % 2 ^ 64 := Int.emod_nonneg _ (by decide)
    clear hmem
    generalize a.distance (a.count64 sys secSz) % 2 ^ 64 = d' at hpos hval ⊢
    by_cases hf : a.factor sys = 0
    · simp only [hf]
      omega
    · by_cases hd' : d' ≤ last.toNat - start.toNat
      · rw [hval hd']
        clear hval
        by_cases hm : c = '-'
        · simp only [hm, if_true]
          omega
        · simp only [hm, if_false]
          omega
      · omega

/-- The factors of the small units fit into an `int`. -/
lemma toNat_intShl {j : ℕ} (h : j ≤ 3) : (intShl sys (10 * j)).toNat = 1024 ^ j := by
  match j, h with
  | 0, _ | 1, _ | 2, _ | 3, _ => rfl

/-- **A size of less than 2^64 bytes in a unit up to `G`** means what it says, unless the range
is all 64-bit numbers. -/
lemma sized_of_small (hu : ∀ c ∈ a.unit, unitPow c ≤ 3 ∧ a.number * 1024 ^ unitPow c < 2 ^ 64)
    (hn : a.number < 2 ^ 64) (hrange : last.toNat - start.toNat < 2 ^ 64 - 1) :
    a.Sized sys start last secSz := by
  obtain ⟨hcount, hfactor, hlt⟩ : a.count64 sys secSz = a.count secSz ∧ a.factor sys ≠ 0 ∧
      a.count secSz < 2 ^ 64 := by
    rw [count64, count, factor]
    cases hc : a.unit with
    | none => exact ⟨rfl, one_ne_zero, hn⟩
    | some c =>
      obtain ⟨hj, hb⟩ := hu c hc
      simp only [toNat_intShl hj, Nat.mod_eq_of_lt hb]
      exact ⟨trivial, pow_ne_zero _ (by decide), lt_of_le_of_lt (Nat.div_le_self _ _) hb⟩
  rw [Sized, hcount]
  by_cases hd : 0 ≤ a.distance (a.count secSz)
  · -- the distance is a 64-bit number
    refine Or.inr (Or.inl ⟨hfactor, ?_⟩)
    rw [Int.emod_eq_of_lt hd]
    rw [distance]
    split <;> omega
  · -- no sectors from the start is one sector below it
    refine Or.inr (Or.inr ⟨fun h => hd h.1, fun _ => ?_⟩)
    have : a.distance (a.count secSz) = -1 := by
      unfold distance at hd ⊢
      by_cases hs : a.sign = some '+'
      · rw [if_pos hs] at hd ⊢
        omega
      · rw [if_neg hs] at hd
        omega
    rw [this]
    omega

end Answer

/-! ## The prompt -/

variable {lead trail : List Char} {a : Answer}

/-- The prompt does what an answer between blanks says: it returns the sector that is meant
if that lies in the range, and fails otherwise. -/
structure PromptMeans (sys : Sys) (start last dflt : Plba) (secSz : Pu64) (inp : Input)
    (lead : List Char) (a : Answer) (trail : List Char) : Prop where
  inside : a.InRange start last secSz → ∃ v : Plba,
    promptSectorExt sys start last dflt secSz (.line (lead ++ a.text ++ trail) :: inp) =
      (.ok, v, inp) ∧ (v.toNat : ℤ) = a.sector start last secSz
  outside : ¬ a.InRange start last secSz →
    (promptSectorExt sys start last dflt secSz (.line (lead ++ a.text ++ trail) :: inp)).1 = .fail

lemma takeWhile_unbroken (h : ∀ c ∈ lead, endsLine c = false) :
    (lead ++ a.text ++ trail).takeWhile (fun c => !endsLine c) =
      lead ++ a.text ++ trail.takeWhile fun c => !endsLine c := by
  rw [List.takeWhile_append_of_pos]
  intro c hc
  rcases List.mem_append.1 hc with hc | hc
  · simp [h c hc]
  · simp [(a.text_plain c hc).2]

/-- A line that is accepted has to be accepted on the sector that is meant. -/
lemma promptMeans_of_ok {w : Plba}
    (h : promptSectorExt sys start last dflt secSz (.line (lead ++ a.text ++ trail) :: inp) =
      (.ok, w, inp)) :
    PromptMeans sys start last dflt secSz inp lead a trail ↔
      a.InRange start last secSz ∧ (w.toNat : ℤ) = a.sector start last secSz := by
  constructor
  · intro hm
    have hin : a.InRange start last secSz := by
      by_contra hout
      have hf := hm.outside hout
      rw [h] at hf
      simp at hf
    obtain ⟨v, hv, hsec⟩ := hm.inside hin
    rw [h] at hv
    simp only [Prod.mk.injEq, true_and, and_true] at hv
    exact ⟨hin, hv ▸ hsec⟩
  · rintro ⟨hin, hw⟩
    exact ⟨fun _ => ⟨w, h, hw⟩, fun hout => absurd hin hout⟩

/-- A line that is rejected has to be one whose sector is not in the range. -/
lemma promptMeans_of_fail {w : Plba}
    (h : promptSectorExt sys start last dflt secSz (.line (lead ++ a.text ++ trail) :: inp) =
      (.fail, w, inp)) :
    PromptMeans sys start last dflt secSz inp lead a trail ↔ ¬ a.InRange start last secSz := by
  constructor
  · intro hm hin
    obtain ⟨v, hv, -⟩ := hm.inside hin
    rw [h] at hv
    simp at hv
  · exact fun hout => ⟨fun hin => absurd hin hout, fun _ => by rw [h]⟩

/-- An answer that stands on the line. -/
lemma promptMeans_unbroken (hlead : ∀ c ∈ lead, isSpace c = true)
    (htrail : ∀ c ∈ trail, isSpace c = true) (hn : a.number < 2 ^ 64) (hle : start ≤ last)
    (h : ∀ c ∈ lead, endsLine c = false) :
    PromptMeans sys start last dflt secSz inp lead a trail ↔ a.Sized sys start last secSz := by
  have htrim : strTrim (lead ++ a.text ++ trail.takeWhile fun c => !endsLine c) = a.text :=
    strTrim_of_ends hlead (fun c hc => htrail c ((List.takeWhile_prefix _).subset hc))
      a.text_ne_nil (fun c hc => (a.text_plain c (List.mem_of_mem_head? hc)).1)
      fun c hc => (a.text_plain c (List.mem_of_mem_getLast? hc)).1
  have hzero : '\x00' ∉ a.text := fun hc => absurd (a.text_plain _ hc).2 (by decide)
  have hiff : ∀ v, sectorExtOf sys start last secSz
      (lead ++ a.text ++ trail.takeWhile fun c => !endsLine c) = some v ↔
      a.toReading.Accepted sys start last secSz ∧
        a.toReading.target sys start last secSz = v := fun v =>
    a.toReading.sectorExtOf_iff (by rw [a.toReading_text, htrim]) (by rwa [htrim])
  have hline := @promptSectorExt_line sys start last dflt secSz inp (lead ++ a.text ++ trail)
  rw [takeWhile_unbroken h, if_neg (by simp [a.text_ne_nil])] at hline
  rw [Answer.sized_iff hn hle]
  cases hx : sectorExtOf sys start last secSz
    (lead ++ a.text ++ trail.takeWhile fun c => !endsLine c) with
  | none =>
    rw [hx] at hline
    have hacc : ¬ a.toReading.Accepted sys start last secSz := fun hacc => by
      rw [(hiff _).2 ⟨hacc, rfl⟩] at hx
      exact absurd hx (by simp)
    rw [promptMeans_of_fail hline]
    exact ⟨fun hout => ⟨fun hin => absurd hin hout, fun _ => hacc⟩,
      fun hs hin => hacc (hs.1 hin).1⟩
  | some w =>
    rw [hx] at hline
    obtain ⟨hacc, ht⟩ := (hiff w).1 hx
    rw [promptMeans_of_ok hline, ht]
    exact ⟨fun hw => ⟨fun _ => ⟨hacc, hw.2⟩, fun hout => absurd hw.1 hout⟩,
      fun hs => have hin := by_contra fun hout => hs.2 hout hacc
        ⟨hin, (hs.1 hin).2⟩⟩

/-- **A small size is understood**: an answer in sectors or in a unit up to `G`, of less than
2^64 bytes, does what it says in every range but the one of all 64-bit numbers. -/
theorem promptMeans_of_small (hlead : ∀ c ∈ lead, isSpace c = true)
    (htrail : ∀ c ∈ trail, isSpace c = true) (hle : start ≤ last)
    (hrange : last.toNat - start.toNat < 2 ^ 64 - 1) (hn : a.number < 2 ^ 64)
    (hu : ∀ c ∈ a.unit, unitPow c ≤ 3 ∧ a.number * 1024 ^ unitPow c < 2 ^ 64)
    (h : ∀ c ∈ lead, endsLine c = false) :
    PromptMeans sys start last dflt secSz inp lead a trail :=
  (promptMeans_unbroken hlead htrail hn hle h).2 (Answer.sized_of_small hu hn hrange)

end Partman

/-
# Numbers in text

A conversion of `sscanf` as a statement about the text: a numeral is what one conversion
consumes, and what follows it must be something at which the conversion stops.
-/
import Mathlib.Data.List.Induction
import Mathlib.Data.List.TakeWhile
import Partman.Model.Stdio

namespace Partman

variable {base w : ℕ} {s rest : List Char}

/-! ## Characters -/

lemma isSpace_iff {c : Char} : isSpace c = true ↔
    c = ' ' ∨ c = '\t' ∨ c = '\n' ∨ c = '\x0b' ∨ c = '\x0c' ∨ c = '\r' := by
  simp [isSpace, or_assoc]

lemma isBaseDigit_of_digitVal {c : Char} (h : digitVal c = none) : isBaseDigit base c = false := by
  simp [isBaseDigit, h]

lemma not_isBaseDigit_of_isSpace {c : Char} (h : isSpace c = true) :
    isBaseDigit base c = false := by
  apply isBaseDigit_of_digitVal
  rcases isSpace_iff.1 h with rfl | rfl | rfl | rfl | rfl | rfl <;> decide

/-- The signs that a conversion takes. -/
def IsSign (c : Char) : Prop := c = '+' ∨ c = '-'

lemma IsSign.not_isBaseDigit {c : Char} (h : IsSign c) : isBaseDigit base c = false := by
  apply isBaseDigit_of_digitVal
  rcases h with rfl | rfl <;> decide

lemma IsSign.not_isSpace {c : Char} (h : IsSign c) : isSpace c = false := by
  rcases h with rfl | rfl <;> decide

lemma isBaseDigit_not_isSpace {c : Char} (h : isBaseDigit base c = true) : isSpace c = false := by
  by_contra hc
  rw [not_isBaseDigit_of_isSpace (by simpa using hc)] at h
  exact Bool.false_ne_true h

lemma isBaseDigit_not_isSign {c : Char} (h : isBaseDigit base c = true) : ¬ IsSign c := by
  intro hc
  rw [hc.not_isBaseDigit] at h
  exact Bool.false_ne_true h

lemma char_le_iff {c d : Char} : c ≤ d ↔ c.toNat ≤ d.toNat := Iff.rfl

lemma isDigit_iff {c : Char} : isDigit c = true ↔ 48 ≤ c.toNat ∧ c.toNat ≤ 57 := by
  simp only [isDigit, Bool.and_eq_true, decide_eq_true_eq, char_le_iff, Char.reduceToNat]

/-- A character is in upper case or 32 above its upper case. -/
lemma toUpper_cases (c : Char) :
    toUpper c = c ∨ 97 ≤ c.toNat ∧ c.toNat ≤ 122 ∧ (toUpper c).toNat = c.toNat - 32 := by
  rw [toUpper]
  split
  · rename_i h
    simp only [Bool.and_eq_true, decide_eq_true_eq, char_le_iff, Char.reduceToNat] at h
    refine Or.inr ⟨h.1, h.2, ?_⟩
    rw [Char.ofNat, dif_pos (Or.inl (by omega))]
    rfl
  · exact Or.inl rfl

lemma toUpper_of_isDigit {c : Char} (h : isDigit c = true) : toUpper c = c := by
  have hd := isDigit_iff.1 h
  rcases toUpper_cases c with hc | hc
  · exact hc
  · omega

lemma isBaseDigit_not_x {c : Char} (h : isBaseDigit base c = true) : toUpper c ≠ 'X' := by
  intro hx
  rw [isBaseDigit_of_digitVal] at h
  · exact Bool.false_ne_true h
  · have hn : isDigit c = false := by
      by_contra hn
      have hd : isDigit c = true := by simpa using hn
      rw [toUpper_of_isDigit hd] at hx
      rw [hx] at hd
      exact absurd hd (by decide)
    simp [digitVal, hn, hx]

/-! ## Runs of characters -/

lemma takeWhile_append_stop {α : Type} {p : α → Bool} {l r : List α} (hl : ∀ a ∈ l, p a = true)
    (hr : ∀ a ∈ r.head?, p a = false) : (l ++ r).takeWhile p = l := by
  rw [List.takeWhile_append_of_pos hl]
  cases r with
  | nil => simp
  | cons a r => simp [hr a rfl]

lemma dropWhile_append_stop {α : Type} {p : α → Bool} {l r : List α} (hl : ∀ a ∈ l, p a = true)
    (hr : ∀ a ∈ r.head?, p a = false) : (l ++ r).dropWhile p = r := by
  rw [List.dropWhile_append_of_pos hl]
  cases r with
  | nil => simp
  | cons a r => simp [hr a rfl]

lemma head?_dropWhile_false {α : Type} {p : α → Bool} {l : List α} :
    ∀ a ∈ (l.dropWhile p).head?, p a = false := by
  intro a ha
  have := List.head?_dropWhile_not p l
  rw [Option.mem_def.1 ha] at this
  simpa using this

/-- A run within a width ends at the width or in front of something else. -/
lemma takeWhile_take_greedy {α : Type} (p : α → Bool) (n : ℕ) (l : List α) :
    ((l.take n).takeWhile p).length = n ∨
      ∀ a ∈ (l.drop ((l.take n).takeWhile p).length).head?, p a = false := by
  induction l generalizing n with
  | nil => simp
  | cons a l ih =>
    cases n with
    | zero => simp
    | succ n =>
      by_cases ha : p a = true
      · simpa [ha] using ih n
      · simp [ha]

/-! ## Values of digits -/

lemma digitVal_getD_lt {c : Char} (h : isBaseDigit base c = true) :
    (digitVal c).getD 0 < base := by
  rw [isBaseDigit] at h
  cases hd : digitVal c with
  | none => simp [hd] at h
  | some d => simpa [hd] using h

lemma digitsVal_append_one (base : ℕ) (ds : List Char) (c : Char) :
    digitsVal base (ds ++ [c]) = digitsVal base ds * base + (digitVal c).getD 0 := by
  simp [digitsVal, List.foldl_append]

lemma digitsVal_lt {ds : List Char} (h : ∀ c ∈ ds, isBaseDigit base c = true) :
    digitsVal base ds < base ^ ds.length := by
  induction ds using List.reverseRecOn with
  | nil => simp [digitsVal]
  | append_singleton ds c ih =>
    have hds := ih fun d hd => h d (List.mem_append_left _ hd)
    have hc := digitVal_getD_lt (h c (by simp))
    rw [digitsVal_append_one, List.length_append, List.length_singleton, pow_succ]
    calc digitsVal base ds * base + (digitVal c).getD 0
        < digitsVal base ds * base + base := Nat.add_lt_add_left hc _
      _ = (digitsVal base ds + 1) * base := (Nat.succ_mul _ _).symm
      _ ≤ base ^ ds.length * base := Nat.mul_le_mul_right _ hds

/-! ## Numerals -/

/-- The prefixes of a base: `0x` in base sixteen, or nothing. -/
def IsPrefix (base : ℕ) (px : List Char) : Prop :=
  px = [] ∨ base = 16 ∧ ∃ x, toUpper x = 'X' ∧ px = ['0', x]

/-- The text that a conversion of the field width `w` consumes. -/
structure Numeral (base w : ℕ) where
  blanks : List Char
  sign : Option Char
  pfx : List Char
  digits : List Char
  blanks_isSpace : ∀ c ∈ blanks, isSpace c = true
  sign_isSign : ∀ c ∈ sign, IsSign c
  pfx_isPrefix : IsPrefix base pfx
  digits_ne : digits ≠ []
  digits_isBaseDigit : ∀ c ∈ digits, isBaseDigit base c = true
  width : sign.toList.length + pfx.length + digits.length ≤ w

namespace Numeral

/-- The text of a numeral. -/
def text (f : Numeral base w) : List Char := f.blanks ++ f.sign.toList ++ f.pfx ++ f.digits

/-- The value that the conversion delivers. -/
def value (f : Numeral base w) : Pu64 := strtoul base (f.sign == some '-') f.digits

/-- The conversion stops in front of `rest`: the width is used up or no digit follows, and
no zero is taken for a digit that starts a prefix. -/
structure Stops (f : Numeral base w) (rest : List Char) : Prop where
  greedy : f.sign.toList.length + f.pfx.length + f.digits.length = w ∨
    ∀ c ∈ rest.head?, isBaseDigit base c = false
  pfx : base = 16 → f.pfx = [] → f.sign.toList.length + 2 ≤ w → f.digits = ['0'] →
    ∀ c ∈ rest.head?, toUpper c ≠ 'X'

end Numeral

/-! ### The parts of a conversion -/

lemma scanSign_parts (w : ℕ) (s : List Char) :
    ∃ sg : Option Char, (∀ c ∈ sg, IsSign c) ∧ s = sg.toList ++ (scanSign w s).2.2 ∧
      w = (scanSign w s).2.1 + sg.toList.length ∧ (scanSign w s).1 = (sg == some '-') := by
  unfold scanSign
  split
  · exact ⟨some '-', by simp [IsSign], by simp, by simp, by simp⟩
  · exact ⟨some '+', by simp [IsSign], by simp, by simp, rfl⟩
  · exact ⟨none, by simp, by simp, by simp, by simp⟩

lemma scanSign_append {sg : Option Char} (hsg : ∀ c ∈ sg, IsSign c)
    (hs : ∀ c ∈ s.head?, ¬ IsSign c) :
    scanSign (w + sg.toList.length) (sg.toList ++ s) = (sg == some '-', w, s) := by
  cases sg with
  | some c => rcases hsg c rfl with rfl | rfl <;> simp [scanSign]
  | none =>
    unfold scanSign
    split
    · exact absurd (Or.inr rfl) (hs '-' (by simp_all))
    · exact absurd (Or.inl rfl) (hs '+' (by simp_all))
    · simp

/-- The prefix of the base, as `scanUInt` reads it. -/
def scanPrefix (base w : ℕ) (s : List Char) : ℕ × List Char :=
  if base = 16 then scanHexPrefix w s else (w, s)

lemma scanPrefix_parts (base w : ℕ) (s : List Char) :
    ∃ px, IsPrefix base px ∧ s = px ++ (scanPrefix base w s).2 ∧
      w = (scanPrefix base w s).1 + px.length ∧
      (base = 16 → px = [] → 2 ≤ w → ∀ x t, s = '0' :: x :: t → toUpper x ≠ 'X') := by
  rw [scanPrefix]
  by_cases hb : base = 16
  · rw [if_pos hb]
    unfold scanHexPrefix
    split
    · rename_i w x s
      by_cases hx : toUpper x = 'X'
      · simp only [hx, beq_self_eq_true, if_true]
        exact ⟨['0', x], Or.inr ⟨hb, x, hx, rfl⟩, by simp, by simp, by simp⟩
      · simp only [beq_iff_eq, hx, if_false]
        refine ⟨[], Or.inl rfl, by simp, by simp, ?_⟩
        rintro - - - y t h
        rw [List.cons.injEq, List.cons.injEq] at h
        exact h.2.1 ▸ hx
    · rename_i hno
      refine ⟨[], Or.inl rfl, by simp, by simp, ?_⟩
      rintro - - hw x t rfl
      exact absurd rfl (hno (w - 2) x t (by omega))
  · rw [if_neg hb]
    exact ⟨[], Or.inl rfl, by simp, by simp, fun h => absurd h hb⟩

lemma scanPrefix_append {px : List Char} (hpx : IsPrefix base px)
    (hs : base = 16 → px = [] → 2 ≤ w → ∀ x t, s = '0' :: x :: t → toUpper x ≠ 'X') :
    scanPrefix base (w + px.length) (px ++ s) = (w, s) := by
  rw [scanPrefix]
  rcases hpx with rfl | ⟨rfl, x, hx, rfl⟩
  · by_cases hb : base = 16
    · rw [if_pos hb]
      simp only [List.length_nil, Nat.add_zero, List.nil_append]
      unfold scanHexPrefix
      split
      · rename_i x t
        simp [hs hb rfl (by omega) x t rfl]
      · rfl
    · simp [hb]
  · simp [scanHexPrefix, hx]

lemma scanUInt_eq (base w : ℕ) (s : List Char) : scanUInt base w s =
    let t := scanSign w (s.dropWhile isSpace)
    let u := scanPrefix base t.2.1 t.2.2
    let ds := (u.2.take u.1).takeWhile (isBaseDigit base)
    if ds.isEmpty then none else some (strtoul base t.1 ds, u.2.drop ds.length) := rfl

/-- What a conversion consumes is a numeral, and it stops where it has to. -/
theorem scanUInt_sound {v : Pu64} (h : scanUInt base w s = some (v, rest)) :
    ∃ f : Numeral base w, s = f.text ++ rest ∧ f.Stops rest ∧ v = f.value := by
  obtain ⟨sg, hsg, hs, hw, hneg⟩ := scanSign_parts w (s.dropWhile isSpace)
  obtain ⟨px, hpx, hs', hw', hgr⟩ := scanPrefix_parts base
    (scanSign w (s.dropWhile isSpace)).2.1 (scanSign w (s.dropWhile isSpace)).2.2
  rw [scanUInt_eq] at h
  simp only at h
  generalize scanSign w (s.dropWhile isSpace) = t at hs hw hneg hs' hw' hgr h
  generalize scanPrefix base t.2.1 t.2.2 = u at hs' hw' h
  split_ifs at h with hemp
  rw [Option.some.injEq, Prod.mk.injEq] at h
  obtain ⟨rfl, hrest⟩ := h
  set ds := (u.2.take u.1).takeWhile (isBaseDigit base) with hds
  have hpre : ds <+: u.2 := (List.takeWhile_prefix _).trans (List.take_prefix _ _)
  have hu : u.2 = ds ++ rest := by
    rw [← hrest, List.prefix_iff_eq_append.1 hpre]
  have hlen : ds.length ≤ u.1 :=
    le_trans (List.takeWhile_prefix _).length_le (List.length_take_le _ _)
  have hne : ds ≠ [] := by simpa using hemp
  refine ⟨⟨s.takeWhile isSpace, sg, px, ds, fun c hc => List.mem_takeWhile_imp hc, hsg, hpx, hne,
    fun c hc => List.mem_takeWhile_imp hc, by omega⟩, ?_, ⟨?_, ?_⟩, ?_⟩
  · calc s = s.takeWhile isSpace ++ s.dropWhile isSpace := (List.takeWhile_append_dropWhile).symm
      _ = s.takeWhile isSpace ++ (sg.toList ++ (px ++ (ds ++ rest))) := by rw [hs, hs', hu]
      _ = _ := by simp [Numeral.text]
  · rcases takeWhile_take_greedy (isBaseDigit base) u.1 u.2 with hfull | hstop
    · exact Or.inl (by simp only [← hds] at hfull ⊢; omega)
    · exact Or.inr (by rwa [← hds, hrest] at hstop)
  · intro hb hp hw2 hd c hc
    obtain ⟨r, rfl⟩ := List.head?_eq_some_iff.1 hc
    simp only at hp hw2 hd
    subst hp
    exact hgr hb rfl (by omega) c r (by rw [hs', hu, hd]; rfl)
  · rw [hneg]; rfl

namespace Numeral

/-- What stands behind the blanks of a numeral is not a blank. -/
lemma head_not_isSpace (f : Numeral base w) (rest : List Char) :
    ∀ c ∈ (f.sign.toList ++ f.pfx ++ f.digits ++ rest).head?, isSpace c = false := by
  obtain ⟨d, ds, hds⟩ := List.exists_cons_of_ne_nil f.digits_ne
  have hd := isBaseDigit_not_isSpace (f.digits_isBaseDigit d (by simp [hds]))
  intro c hc
  rcases hsg : f.sign with _ | sg
  · rcases f.pfx_isPrefix with hp | ⟨-, x, -, hp⟩
    · simp only [hsg, hp, hds, Option.toList_none, List.nil_append, List.cons_append,
        List.head?_cons, Option.mem_some_iff] at hc
      exact hc ▸ hd
    · simp only [hsg, hp, Option.toList_none, List.nil_append, List.cons_append,
        List.head?_cons, Option.mem_some_iff] at hc
      exact hc ▸ by decide
  · simp only [hsg, Option.toList_some, List.cons_append, List.head?_cons,
      Option.mem_some_iff] at hc
    exact hc ▸ (f.sign_isSign sg hsg).not_isSpace

/-- What stands behind the sign of a numeral is not a sign. -/
lemma head_not_isSign (f : Numeral base w) (rest : List Char) :
    ∀ c ∈ (f.pfx ++ f.digits ++ rest).head?, ¬ IsSign c := by
  obtain ⟨d, ds, hds⟩ := List.exists_cons_of_ne_nil f.digits_ne
  have hd := isBaseDigit_not_isSign (f.digits_isBaseDigit d (by simp [hds]))
  intro c hc
  rcases f.pfx_isPrefix with hp | ⟨-, x, -, hp⟩
  · simp only [hp, hds, List.nil_append, List.cons_append, List.head?_cons,
      Option.mem_some_iff] at hc
    exact hc ▸ hd
  · simp only [hp, List.cons_append, List.head?_cons, Option.mem_some_iff] at hc
    exact hc ▸ by simp [IsSign]

/-- The digits that a conversion meets are the ones of the numeral. -/
lemma digits_take (f : Numeral base w) {k : ℕ} (hk : f.digits.length ≤ k)
    (h : f.digits.length = k ∨ ∀ c ∈ rest.head?, isBaseDigit base c = false) :
    ((f.digits ++ rest).take k).takeWhile (isBaseDigit base) = f.digits := by
  rw [List.take_append, List.take_of_length_le hk]
  refine takeWhile_append_stop f.digits_isBaseDigit fun c hc => ?_
  rcases h with h | h
  · simp [h] at hc
  · refine h c ?_
    obtain ⟨r, hr⟩ := List.head?_eq_some_iff.1 hc
    cases rest with
    | nil => simp at hr
    | cons d rest =>
      cases hkk : k - f.digits.length with
      | zero => simp [hkk] at hr
      | succ j =>
        rw [hkk, List.take_succ_cons, List.cons.injEq] at hr
        simp [hr.1]

end Numeral

/-- A numeral in front of something at which the conversion stops is read. -/
theorem scanUInt_complete (f : Numeral base w) (h : f.Stops rest) :
    scanUInt base w (f.text ++ rest) = some (f.value, rest) := by
  obtain ⟨k, hk⟩ := Nat.exists_eq_add_of_le f.width
  have hblank : (f.text ++ rest).dropWhile isSpace =
      f.sign.toList ++ (f.pfx ++ (f.digits ++ rest)) := by
    simp only [Numeral.text, List.append_assoc]
    exact dropWhile_append_stop f.blanks_isSpace
      (by simpa only [List.append_assoc] using f.head_not_isSpace rest)
  have hsign : scanSign w (f.sign.toList ++ (f.pfx ++ (f.digits ++ rest))) =
      (f.sign == some '-', k + f.digits.length + f.pfx.length, f.pfx ++ (f.digits ++ rest)) := by
    have := scanSign_append (w := k + f.digits.length + f.pfx.length) f.sign_isSign
      (s := f.pfx ++ (f.digits ++ rest))
      (by simpa only [List.append_assoc] using f.head_not_isSign rest)
    rwa [show k + f.digits.length + f.pfx.length + f.sign.toList.length = w by omega] at this
  have hprefix : scanPrefix base (k + f.digits.length + f.pfx.length)
      (f.pfx ++ (f.digits ++ rest)) = (k + f.digits.length, f.digits ++ rest) := by
    refine scanPrefix_append f.pfx_isPrefix fun hb hp h2 x t ht hx => ?_
    obtain ⟨d, ds, hds⟩ := List.exists_cons_of_ne_nil f.digits_ne
    cases ds with
    | nil =>
      rw [hds, List.cons_append, List.cons.injEq] at ht
      refine h.pfx hb hp ?_ (by rw [hds, ht.1]) x
        (List.head?_eq_some_iff.2 ⟨t, by simpa using ht.2⟩) hx
      rw [hds] at hk h2
      simp only [hp, List.length_nil, List.length_singleton] at hk h2
      omega
    | cons e ds =>
      rw [hds] at ht
      simp only [List.cons_append, List.cons.injEq] at ht
      exact isBaseDigit_not_x (f.digits_isBaseDigit e (by simp [hds])) (ht.2.1 ▸ hx)
  have hdigits : ((f.digits ++ rest).take (k + f.digits.length)).takeWhile (isBaseDigit base) =
      f.digits := f.digits_take (by omega) (by
    rcases h.greedy with h | h
    · exact Or.inl (by omega)
    · exact Or.inr h)
  rw [scanUInt_eq]
  simp only [hblank, hsign, hprefix, hdigits]
  rw [if_neg (by simpa using f.digits_ne), List.drop_left]
  rfl

/-- **A conversion reads exactly the numerals.** -/
theorem scanUInt_iff {v : Pu64} : scanUInt base w s = some (v, rest) ↔
    ∃ f : Numeral base w, s = f.text ++ rest ∧ f.Stops rest ∧ v = f.value := by
  constructor
  · exact scanUInt_sound
  · rintro ⟨f, rfl, hstop, rfl⟩
    exact scanUInt_complete f hstop

end Partman

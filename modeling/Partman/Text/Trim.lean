/-
# Trimming stays inside the buffer

The loop over the trailing blanks of `str_trim` has no test of its own against the start of
the string.  A character that is not a blank stops it; without one it runs on below the
buffer.  The length is an `int`: a string of 2^31 characters and more is trimmed from where
its length points to once it is cut off to 32 bits.
-/
import Mathlib.Data.List.DropRight
import Mathlib.Data.List.GetD
import Partman.Model.StrTrim
import Partman.Text.Grammar

namespace Partman

variable {mem : ℤ → Char} {s t : List Char} {i : ℤ} {log : List ℤ} {fuel : ℕ}

/-! ## Strings in memory -/

/-- The string with its terminator stands at the index. -/
structure HoldsAt (mem : ℤ → Char) (i : ℤ) (t : List Char) : Prop where
  char : ∀ j ≤ t.length, mem (i + j) = t.getD j '\x00'
  no_nul : '\x00' ∉ t

lemma HoldsAt.nil_iff : HoldsAt mem i [] ↔ mem i = '\x00' := by
  constructor
  · intro h
    simpa using h.char 0 le_rfl
  · intro h
    refine ⟨fun j hj => ?_, by simp⟩
    obtain rfl : j = 0 := by simpa using hj
    simpa using h

lemma HoldsAt.cons_iff {c : Char} : HoldsAt mem i (c :: t) ↔
    mem i = c ∧ c ≠ '\x00' ∧ HoldsAt mem (i + 1) t := by
  constructor
  · intro h
    refine ⟨by simpa using h.char 0 (Nat.zero_le _), fun hc => h.no_nul (by simp [hc]), ?_, ?_⟩
    · intro j hj
      have := h.char (j + 1) (by simpa using hj)
      rw [List.getD_cons_succ] at this
      rw [← this]
      congr 1
      push_cast
      ring
    · exact fun ht => h.no_nul (by simp [ht])
  · rintro ⟨hc, hz, h⟩
    refine ⟨fun j hj => ?_, by simp [Ne.symm hz, h.no_nul]⟩
    cases j with
    | zero => simpa using hc
    | succ j =>
      have := h.char j (by simpa using hj)
      rw [List.getD_cons_succ, ← this]
      congr 1
      push_cast
      ring

/-- There is only one string at an index. -/
lemma HoldsAt.unique {t' : List Char} (h : HoldsAt mem i t) (h' : HoldsAt mem i t') : t = t' := by
  induction t generalizing i t' with
  | nil =>
    cases t' with
    | nil => rfl
    | cons c t' =>
      obtain ⟨hc, hz, -⟩ := HoldsAt.cons_iff.1 h'
      exact absurd (hc.symm.trans (HoldsAt.nil_iff.1 h)) hz
  | cons c t ih =>
    obtain ⟨hc, hz, ht⟩ := HoldsAt.cons_iff.1 h
    cases t' with
    | nil => exact absurd (hc.symm.trans (HoldsAt.nil_iff.1 h')) hz
    | cons d t' =>
      obtain ⟨hd, -, ht'⟩ := HoldsAt.cons_iff.1 h'
      rw [hc.symm.trans hd, ih ht ht']

/-- The indices of `n` accesses from `i` on. -/
def upFrom (i : ℤ) (n : ℕ) : List ℤ := (List.range n).map fun j : ℕ => i + j

lemma upFrom_succ (i : ℤ) (n : ℕ) : upFrom i (n + 1) = i :: upFrom (i + 1) n := by
  rw [upFrom, List.range_succ_eq_map, List.map_cons, List.map_map]
  congr 1
  · simp
  · refine List.map_congr_left fun j _ => ?_
    simp only [Function.comp_apply]
    push_cast
    ring

lemma mem_upFrom {n : ℕ} {k : ℤ} : k ∈ upFrom i n ↔ i ≤ k ∧ k < i + n := by
  rw [upFrom, List.mem_map]
  constructor
  · rintro ⟨j, hj, rfl⟩
    have := List.mem_range.1 hj
    omega
  · rintro ⟨h1, h2⟩
    exact ⟨(k - i).toNat, List.mem_range.2 (by omega), by omega⟩

/-! ## The loops -/

/-- The loop over the leading blanks reads them and the character behind them. -/
lemma skipBlanks_eq (h : HoldsAt mem i t) (log : List ℤ) :
    skipBlanks fuel i ⟨mem, log⟩ =
      if (t.takeWhile isSpace).length < fuel then
        some (i + (t.takeWhile isSpace).length,
          ⟨mem, log ++ upFrom i ((t.takeWhile isSpace).length + 1)⟩)
      else none := by
  induction fuel generalizing i t log with
  | zero => simp [skipBlanks]
  | succ fuel ih =>
    cases t with
    | nil =>
      have hm := HoldsAt.nil_iff.1 h
      simp [skipBlanks, CharMem.read, hm, upFrom, (by decide : isSpace '\x00' = false)]
    | cons c t =>
      obtain ⟨hm, -, ht⟩ := HoldsAt.cons_iff.1 h
      by_cases hc : isSpace c = true
      · simp only [skipBlanks, CharMem.read, hm, hc, if_true, ih ht, List.takeWhile_cons,
          List.length_cons, Nat.add_lt_add_iff_right]
        refine if_congr Iff.rfl ?_ rfl
        rw [upFrom_succ i, List.append_assoc, List.singleton_append]
        push_cast
        rw [add_assoc, add_comm (1 : ℤ)]
      · simp [skipBlanks, CharMem.read, hm, hc, upFrom]

/-- `strlen` reads the string with its terminator. -/
lemma strlen_eq (h : HoldsAt mem i t) (log : List ℤ) :
    strlen fuel i ⟨mem, log⟩ =
      if t.length < fuel then some (t.length, ⟨mem, log ++ upFrom i (t.length + 1)⟩)
      else none := by
  induction fuel generalizing i t log with
  | zero => simp [strlen]
  | succ fuel ih =>
    cases t with
    | nil =>
      have hm := HoldsAt.nil_iff.1 h
      simp [strlen, CharMem.read, hm, upFrom]
    | cons c t =>
      obtain ⟨hm, hz, ht⟩ := HoldsAt.cons_iff.1 h
      simp only [strlen, CharMem.read, hm, beq_iff_eq, hz, if_false, ih ht, List.length_cons,
        Nat.add_lt_add_iff_right]
      split
      · rw [upFrom_succ i]
        simp
      · rfl

lemma cutBlanks_succ (fuel : ℕ) (i len : ℤ) (m : CharMem) : cutBlanks (fuel + 1) i len m =
    if isSpace (m.mem (i + (len - 1))) = true then
      cutBlanks fuel i (len - 1) ((m.read (i + (len - 1))).2.write (i + (len - 1)) '\x00')
    else some (m.read (i + (len - 1))).2 := rfl

/-- A blank at the end is replaced by a terminator, and the loop goes on in front of it. -/
lemma cutBlanks_blank {c : Char} (hlast : mem (i + t.length) = c) (hc : isSpace c = true)
    (log : List ℤ) : cutBlanks (fuel + 1) i (t ++ [c]).length ⟨mem, log⟩ =
      cutBlanks fuel i t.length ⟨fun k => if k = i + t.length then '\x00' else mem k,
        log ++ [i + t.length] ++ [i + t.length]⟩ := by
  have hlen : ((t ++ [c]).length : ℤ) - 1 = t.length := by simp
  simp only [cutBlanks_succ, hlen, hlast, hc, if_true, CharMem.read, CharMem.write]

/-- Another character at the end is read, and the loop stops. -/
lemma cutBlanks_stop {c : Char} (hlast : mem (i + t.length) = c) (hc : isSpace c = false)
    (log : List ℤ) : cutBlanks (fuel + 1) i (t ++ [c]).length ⟨mem, log⟩ =
      some ⟨mem, log ++ [i + t.length]⟩ := by
  have hlen : ((t ++ [c]).length : ℤ) - 1 = t.length := by simp
  simp only [cutBlanks_succ, hlen, hlast, hc, Bool.false_eq_true, if_false, CharMem.read]

/-- The loop over the trailing blanks of a text that has another character in it: it reads up
to that character and writes a terminator over each blank. -/
lemma cutBlanks_eq (hchar : ∀ j < t.length, mem (i + j) = t.getD j '\x00')
    (hne : ∃ c ∈ t, isSpace c = false) (log : List ℤ) :
    ∃ log', (∀ k ∈ log', k ∈ log ∨ i ≤ k ∧ k < i + t.length) ∧
      cutBlanks fuel i t.length ⟨mem, log⟩ =
        if t.length - (t.rdropWhile isSpace).length < fuel then
          some ⟨fun k => if i + (t.rdropWhile isSpace).length ≤ k ∧ k < i + t.length then '\x00'
            else mem k, log'⟩
        else none := by
  induction t using List.reverseRecOn generalizing mem log fuel with
  | nil => simp at hne
  | append_singleton t c ih =>
    have hlen : (t ++ [c]).length = t.length + 1 := by simp
    have hlast : mem (i + t.length) = c := by simpa using hchar t.length (by simp)
    cases fuel with
    | zero => exact ⟨log, fun k hk => Or.inl hk, by simp [cutBlanks]⟩
    | succ fuel =>
      by_cases hc : isSpace c = true
      · have hne' : ∃ c ∈ t, isSpace c = false := by
          obtain ⟨d, hd, hds⟩ := hne
          rcases List.mem_append.1 hd with hd | hd
          · exact ⟨d, hd, hds⟩
          · rw [List.mem_singleton.1 hd, hc] at hds
            exact absurd hds (by decide)
        have hchar' : ∀ j < t.length,
            (if i + (j : ℤ) = i + t.length then '\x00' else mem (i + j)) = t.getD j '\x00' := by
          intro j hj
          have := hchar j (by omega)
          rw [List.getD_append _ _ _ _ hj] at this
          rw [if_neg (by omega), this]
        obtain ⟨log', hlog, hrun⟩ := @ih (fun k => if k = i + t.length then '\x00' else mem k)
          fuel hchar' hne' (log ++ [i + t.length] ++ [i + t.length])
        have hle := (List.rdropWhile_prefix isSpace t).length_le
        refine ⟨log', fun k hk => ?_, ?_⟩
        · rcases hlog k hk with hk | hk
          · simp only [List.mem_append, List.mem_singleton, or_assoc, or_self] at hk
            rcases hk with hk | rfl
            · exact Or.inl hk
            · exact Or.inr (by omega)
          · exact Or.inr (by omega)
        · rw [cutBlanks_blank hlast hc, hrun, List.rdropWhile_concat_pos isSpace t c hc, hlen]
          refine if_congr (by omega) (congrArg some ?_) rfl
          refine congrArg (CharMem.mk · log') (funext fun k => ?_)
          split_ifs <;> first | rfl | omega
      · have hcf : isSpace c = false := by simpa using hc
        refine ⟨log ++ [i + t.length], fun k hk => ?_, ?_⟩
        · rcases List.mem_append.1 hk with hk | hk
          · exact Or.inl hk
          · rw [List.mem_singleton] at hk
            exact Or.inr (by omega)
        · rw [cutBlanks_stop hlast hcf, List.rdropWhile_concat_neg isSpace t c hc,
            if_pos (by omega)]
          refine congrArg some (congrArg (CharMem.mk · _) (funext fun k => ?_))
          rw [if_neg (by omega)]

lemma log_subset_of_cutBlanks {len : ℤ} {m m' : CharMem} (h : cutBlanks fuel i len m = some m') :
    m.log ⊆ m'.log := by
  induction fuel generalizing len m with
  | zero => simp [cutBlanks] at h
  | succ fuel ih =>
    rw [cutBlanks_succ] at h
    split at h
    · exact fun k hk => ih h (by simp [CharMem.write, CharMem.read, hk])
    · rw [Option.some.injEq] at h
      exact fun k hk => h ▸ by simp [CharMem.read, hk]

/-- In front of blanks only, the loop runs on below the start of the buffer. -/
lemma cutBlanks_escapes {len : ℤ} {m m' : CharMem}
    (hblank : ∀ k, 0 ≤ k → k < i + len → isSpace (m.mem k) = true)
    (h : cutBlanks fuel i len m = some m') : ∃ k ∈ m'.log, k < 0 := by
  induction fuel generalizing len m with
  | zero => simp [cutBlanks] at h
  | succ fuel ih =>
    rw [cutBlanks_succ] at h
    by_cases hneg : i + (len - 1) < 0
    · -- the loop reads below the buffer now
      refine ⟨i + (len - 1), ?_, hneg⟩
      split at h
      · exact log_subset_of_cutBlanks h (by simp [CharMem.write])
      · rw [Option.some.injEq] at h
        exact h ▸ by simp [CharMem.read]
    · have hc := hblank (i + (len - 1)) (by omega) (by omega)
      rw [if_pos hc] at h
      refine ih (fun k hk hk' => ?_) h
      simp only [CharMem.write, CharMem.read]
      rw [if_neg (by omega)]
      exact hblank k hk (by omega)

/-! ## Trimming -/

/-- `str_trim` ends, touches only the string and its terminator, and returns the string
without its leading and trailing blanks. -/
def TrimsInside (mem : ℤ → Char) (s : List Char) : Prop :=
  ∃ fuel p m, strTrimMem fuel mem = some (p, m) ∧ (∀ k ∈ m.log, 0 ≤ k ∧ k ≤ s.length) ∧
    HoldsAt m.mem p (strTrim s)

/-- Trimming from a length that is cut off to 32 bits is right: the length is positive and
points at a blank that only blanks follow, or at another character where none is trimmed. -/
def CutSafe (r : List Char) : Prop :=
  0 < Int.bmod r.length (2 ^ 32) ∧
    if isSpace (r.getD ((Int.bmod r.length (2 ^ 32)).toNat - 1) '\x00') = true then
      ∀ c ∈ r.drop (Int.bmod r.length (2 ^ 32)).toNat, isSpace c = true
    else ∀ c ∈ r.getLast?, isSpace c = false

/-- A string that is trimmed inside the buffer has a character that is not a blank, and what
follows its leading blanks is shorter than 2^31 or trimmed right all the same. -/
def TrimSafe (s : List Char) : Prop :=
  (∃ c ∈ s, isSpace c = false) ∧
    ((s.dropWhile isSpace).length < 2 ^ 31 ∨ CutSafe (s.dropWhile isSpace))

lemma bmod_of_lt {n : ℕ} (h : n < 2 ^ 31) : Int.bmod n (2 ^ 32) = n := by
  rw [Int.bmod_eq_of_le] <;> omega

lemma dropWhile_ne_nil_iff : s.dropWhile isSpace ≠ [] ↔ ∃ c ∈ s, isSpace c = false := by
  rw [ne_eq, List.dropWhile_eq_nil_iff]
  simp

lemma trimSafe_iff : TrimSafe s ↔ CutSafe (s.dropWhile isSpace) := by
  rw [TrimSafe, ← dropWhile_ne_nil_iff]
  generalize s.dropWhile isSpace = r
  constructor
  · rintro ⟨hne, hlen | hcut⟩
    · have hpos := List.length_pos_of_ne_nil hne
      rw [CutSafe, bmod_of_lt hlen]
      refine ⟨by omega, ?_⟩
      split
      · simp
      · rename_i hlast
        intro c hc
        have hget : r.getD (r.length - 1) '\x00' = c := by
          rw [List.getLast?_eq_getElem?] at hc
          simp [List.getD_eq_getElem?_getD, Option.mem_def.1 hc]
        rw [Int.toNat_natCast, hget] at hlast
        simpa using hlast
    · exact hcut
  · intro h
    refine ⟨?_, Or.inr h⟩
    rintro rfl
    exact absurd h.1 (by decide)

/-! ## The run of `str_trim` -/

lemma HoldsAt.append {u : List Char} (h : HoldsAt mem i (t ++ u)) :
    HoldsAt mem (i + t.length) u := by
  induction t generalizing i with
  | nil => simpa using h
  | cons c t ih =>
    have := ih (HoldsAt.cons_iff.1 h).2.2
    rwa [List.length_cons, Nat.cast_succ, add_comm (t.length : ℤ), ← add_assoc]

/-- What follows the leading blanks stands behind them. -/
lemma HoldsAt.dropBlanks (h : HoldsAt mem 0 s) :
    HoldsAt mem ((s.takeWhile isSpace).length : ℤ) (s.dropWhile isSpace) := by
  have := HoldsAt.append (t := s.takeWhile isSpace) (u := s.dropWhile isSpace)
    (by rwa [List.takeWhile_append_dropWhile])
  rwa [zero_add] at this

lemma rdropWhile_append_of_all {u : List Char} (h : ∀ c ∈ u, isSpace c = true) :
    (t ++ u).rdropWhile isSpace = t.rdropWhile isSpace := by
  unfold List.rdropWhile
  rw [List.reverse_append, List.dropWhile_append_of_pos]
  simpa using h

/-- Trimming a front part comes to the same exactly when only blanks follow it. -/
lemma rdropWhile_take_eq_iff {r : List Char} {n : ℕ} :
    (r.take n).rdropWhile isSpace = r.rdropWhile isSpace ↔ ∀ c ∈ r.drop n, isSpace c = true := by
  constructor
  · intro h c hc
    have hle : (r.rdropWhile isSpace).length ≤ n := by
      rw [← h]
      exact le_trans (List.rdropWhile_prefix _ _).length_le (List.length_take_le _ _)
    have hsplit := List.rdropWhile_append_rtakeWhile (p := isSpace) (l := r)
    rw [← hsplit, List.drop_append, List.drop_of_length_le hle, List.nil_append] at hc
    exact List.mem_rtakeWhile_imp ((List.drop_suffix _ _).subset hc)
  · intro h
    conv_rhs => rw [← List.take_append_drop n r]
    rw [rdropWhile_append_of_all h]

/-- What `str_trim` reads in front of its second loop. -/
def trimLog (s : List Char) : List ℤ :=
  upFrom 0 ((s.takeWhile isSpace).length + 1) ++
    upFrom (s.takeWhile isSpace).length ((s.dropWhile isSpace).length + 1)

lemma length_takeWhile_add (s : List Char) :
    (s.takeWhile isSpace).length + (s.dropWhile isSpace).length = s.length := by
  rw [← List.length_append, List.takeWhile_append_dropWhile]

lemma mem_trimLog {k : ℤ} (h : k ∈ trimLog s) : 0 ≤ k ∧ k ≤ s.length := by
  have hlen := length_takeWhile_add s
  rw [trimLog, List.mem_append, mem_upFrom, mem_upFrom] at h
  omega

/-- `str_trim` is its second loop, from behind the leading blanks. -/
lemma strTrimMem_eq (h : HoldsAt mem 0 s) : strTrimMem fuel mem =
    if (s.takeWhile isSpace).length < fuel ∧ (s.dropWhile isSpace).length < fuel then
      (cutBlanks fuel (s.takeWhile isSpace).length
        (Int.bmod (s.dropWhile isSpace).length (2 ^ 32)) ⟨mem, trimLog s⟩).map fun m =>
          (((s.takeWhile isSpace).length : ℤ), m)
    else none := by
  have hrest := h.dropBlanks
  rw [strTrimMem, skipBlanks_eq h]
  by_cases hb : (s.takeWhile isSpace).length < fuel
  · rw [if_pos hb]
    simp only [Option.bind_eq_bind, Option.bind_some, zero_add, strlen_eq hrest, hb, true_and]
    by_cases hr : (s.dropWhile isSpace).length < fuel
    · rw [if_pos hr, if_pos hr, Option.bind_some, List.nil_append, Option.map_eq_bind]
      rfl
    · rw [if_neg hr, if_neg hr]
      rfl
  · rw [if_neg hb, if_neg (fun h => hb h.1)]
    rfl

/-- A run that does not get past the start of the string leaves the buffer. -/
lemma not_trimsInside (h : HoldsAt mem 0 s)
    (hlen : Int.bmod (s.dropWhile isSpace).length (2 ^ 32) ≤ 0) : ¬ TrimsInside mem s := by
  -- only leading blanks stand below the index of the first other character
  have hblank : ∀ k : ℤ, 0 ≤ k → k < (s.takeWhile isSpace).length +
      Int.bmod (s.dropWhile isSpace).length (2 ^ 32) → isSpace (mem k) = true := by
    intro k hk hk'
    have hlt : k.toNat < (s.takeWhile isSpace).length := by omega
    have hsl := length_takeWhile_add s
    have hchar := h.char k.toNat (by omega)
    have hget : s.getD k.toNat '\x00' = (s.takeWhile isSpace).getD k.toNat '\x00' := by
      conv_lhs => rw [← List.takeWhile_append_dropWhile (p := isSpace) (l := s)]
      rw [List.getD_append _ _ _ _ hlt]
    rw [hget, List.getD_eq_getElem _ _ hlt, zero_add, Int.toNat_of_nonneg hk] at hchar
    rw [hchar]
    exact List.mem_takeWhile_imp (List.getElem_mem hlt)
  rintro ⟨fuel, p, m, hrun, hlog, -⟩
  rw [strTrimMem_eq h] at hrun
  split at hrun
  · obtain ⟨m', hm', hpm⟩ := Option.map_eq_some_iff.1 hrun
    obtain rfl : m' = m := (Prod.mk.inj hpm).2
    obtain ⟨k, hk, hneg⟩ := cutBlanks_escapes hblank hm'
    exact absurd (hlog k hk).1 (not_le.2 hneg)
  · exact absurd hrun (by simp)

/-- The memory behind the loop over the trailing blanks of the first `n` characters. -/
def cutMem (mem : ℤ → Char) (i : ℤ) (r : List Char) (n : ℕ) : ℤ → Char := fun k =>
  if i + ((r.take n).rdropWhile isSpace).length ≤ k ∧ k < i + n then '\x00' else mem k

/-- The string behind that loop: the front part without its trailing blanks, or the whole
string where there are none. -/
lemma HoldsAt.cut {r : List Char} {n : ℕ} (h : HoldsAt mem i r) (hn : n ≤ r.length) :
    HoldsAt (cutMem mem i r n) i (if ((r.take n).rdropWhile isSpace).length < n then
      (r.take n).rdropWhile isSpace else r) := by
  have hpre : (r.take n).rdropWhile isSpace <+: r :=
    (List.rdropWhile_prefix _ _).trans (List.take_prefix _ _)
  unfold cutMem
  split
  · rename_i hlt
    refine ⟨fun j hj => ?_, fun hz => h.no_nul (hpre.subset hz)⟩
    rcases Nat.lt_or_eq_of_le hj with hj | rfl
    · obtain ⟨u, hu⟩ := hpre
      rw [if_neg (by omega), h.char j (by omega)]
      conv_lhs => rw [← hu]
      rw [List.getD_append _ _ _ _ hj]
    · rw [if_pos (by omega), List.getD_eq_default _ _ le_rfl]
  · have hfull : ((r.take n).rdropWhile isSpace).length = n := by
      have := (List.rdropWhile_prefix isSpace (r.take n)).length_le
      have := List.length_take_le n r
      omega
    refine ⟨fun j hj => ?_, h.no_nul⟩
    rw [hfull, if_neg (by omega), h.char j hj]

/-- Something is cut off exactly when the last character of the front part is a blank. -/
lemma length_rdropWhile_take_lt_iff {r : List Char} {n : ℕ} (hpos : 0 < n) (hn : n ≤ r.length) :
    ((r.take n).rdropWhile isSpace).length < n ↔ isSpace (r.getD (n - 1) '\x00') = true := by
  have hlen : (r.take n).length = n := List.length_take_of_le hn
  have hne : r.take n ≠ [] := List.ne_nil_of_length_pos (by omega)
  have hlast : (r.take n).getLast hne = r.getD (n - 1) '\x00' := by
    rw [List.getLast_eq_getElem, List.getD_eq_getElem _ _ (by omega), List.getElem_take]
    congr 1
    omega
  have hle := (List.rdropWhile_prefix isSpace (r.take n)).length_le
  have hiff : ((r.take n).rdropWhile isSpace).length = n ↔
      ¬ isSpace (r.getD (n - 1) '\x00') = true := by
    rw [← hlast]
    constructor
    · intro h
      exact List.rdropWhile_eq_self_iff.1
        ((List.rdropWhile_prefix _ _).eq_of_length (by rw [h, hlen])) hne
    · intro h
      rw [List.rdropWhile_eq_self_iff.2 fun _ => h, hlen]
  rw [hlen] at hle
  constructor
  · intro hlt
    by_contra hc
    have := hiff.2 hc
    omega
  · intro hc
    have : ((r.take n).rdropWhile isSpace).length ≠ n := fun he => hiff.1 he hc
    omega

lemma bmod_le (n : ℕ) : Int.bmod n (2 ^ 32) ≤ n := by
  rw [Int.bmod_def]
  push_cast
  split <;> omega

/-- A run that starts its second loop inside the string does the same on enough fuel: it
stays inside, and leaves the memory of that loop. -/
lemma trimsInside_iff_holdsAt {n : ℕ} (h : HoldsAt mem 0 s)
    (hn : Int.bmod (s.dropWhile isSpace).length (2 ^ 32) = n) (hpos : 0 < n) :
    TrimsInside mem s ↔ HoldsAt (cutMem mem (s.takeWhile isSpace).length (s.dropWhile isSpace) n)
      (s.takeWhile isSpace).length (strTrim s) := by
  have hsl := length_takeWhile_add s
  have hle : n ≤ (s.dropWhile isSpace).length := by
    have := bmod_le (s.dropWhile isSpace).length
    omega
  have hrest := h.dropBlanks
  have hhead := head?_dropWhile_false (p := isSpace) (l := s)
  have hin := fun k => mem_trimLog (s := s) (k := k)
  have heq := fun fuel => @strTrimMem_eq mem s fuel h
  unfold cutMem
  rw [hn] at heq
  generalize hr : s.dropWhile isSpace = r at *
  generalize (s.takeWhile isSpace).length = b at *
  have hlen : (r.take n).length = n := List.length_take_of_le hle
  have hne : ∃ c ∈ r.take n, isSpace c = false := by
    obtain ⟨c, r', rfl⟩ := List.exists_cons_of_length_pos (l := r) (by omega)
    obtain ⟨n, rfl⟩ := Nat.exists_eq_succ_of_ne_zero hpos.ne'
    exact ⟨c, by simp, hhead c (by simp)⟩
  have hchar : ∀ j < (r.take n).length, mem (b + j) = (r.take n).getD j '\x00' := by
    intro j hj
    rw [hrest.char j (by omega)]
    conv_lhs => rw [← List.take_append_drop n r]
    rw [List.getD_append _ _ _ _ hj]
  have hloop := fun fuel => @cutBlanks_eq mem (r.take n) b fuel hchar hne (trimLog s)
  rw [hlen] at hloop
  constructor
  · rintro ⟨fuel, p, m, hrun, -, hheld⟩
    obtain ⟨log', -, hcut⟩ := hloop fuel
    rw [heq] at hrun
    split at hrun
    · obtain ⟨m', hm', hpm⟩ := Option.map_eq_some_iff.1 hrun
      obtain ⟨rfl, rfl⟩ := Prod.mk.inj hpm
      rw [hcut] at hm'
      split at hm'
      · obtain rfl := Option.some.inj hm'
        exact hheld
      · exact absurd hm' (by simp)
    · exact absurd hrun (by simp)
  · intro hheld
    obtain ⟨log', hlog', hcut⟩ := hloop (s.length + 1)
    refine ⟨s.length + 1, b, ⟨_, log'⟩, ?_, fun k hk => ?_, hheld⟩
    · rw [heq, if_pos (by omega), hcut, if_pos (by omega)]
      rfl
    · rcases hlog' k hk with hk | hk
      · exact hin k hk
      · omega

/-- **Where trimming stays inside the buffer**, for every memory and every string at the start
of the buffer. -/
theorem trimsInside_iff (h : HoldsAt mem 0 s) : TrimsInside mem s ↔ TrimSafe s := by
  rw [trimSafe_iff]
  by_cases hlen : 0 < Int.bmod (s.dropWhile isSpace).length (2 ^ 32)
  · obtain ⟨n, hn⟩ := Int.eq_ofNat_of_zero_le hlen.le
    have hpos : 0 < n := by omega
    have hle : n ≤ (s.dropWhile isSpace).length := by
      have := bmod_le (s.dropWhile isSpace).length
      omega
    have hrest := h.dropBlanks
    have hcut := hrest.cut hle
    have hiff := length_rdropWhile_take_lt_iff hpos hle
    rw [trimsInside_iff_holdsAt h hn hpos]
    rw [CutSafe]
    have htrim : strTrim s = (s.dropWhile isSpace).rdropWhile isSpace := rfl
    rw [hn, Int.toNat_natCast, htrim]
    generalize s.dropWhile isSpace = r at *
    simp only [← hiff]
    split
    · -- the front part loses blanks, and so it has to be all but blanks of the string
      rename_i hlt
      rw [if_pos hlt] at hcut
      rw [← rdropWhile_take_eq_iff]
      refine ⟨fun hheld => ⟨by omega, hcut.unique hheld⟩, fun heq => heq.2 ▸ hcut⟩
    · -- nothing is cut off, and so nothing must be there to cut off
      rename_i hlt
      rw [if_neg hlt] at hcut
      have hself : r.rdropWhile isSpace = r ↔ ∀ c ∈ r.getLast?, isSpace c = false := by
        rw [List.rdropWhile_eq_self_iff]
        have hr : r ≠ [] := List.ne_nil_of_length_pos (by omega)
        simp [hr, List.getLast?_eq_some_getLast hr]
      rw [← hself]
      refine ⟨fun hheld => ⟨by omega, (hcut.unique hheld).symm⟩, fun heq => heq.2.symm ▸ hcut⟩
  · exact iff_of_false (not_trimsInside h (not_lt.1 hlen)) fun hc => hlen hc.1

/-- A string at the start of memory that is zero elsewhere. -/
def memOf (s : List Char) : ℤ → Char := fun k => if 0 ≤ k then s.getD k.toNat '\x00' else '\x00'

lemma holdsAt_memOf (h : '\x00' ∉ s) : HoldsAt (memOf s) 0 s :=
  ⟨fun j _ => by simp [memOf], h⟩

theorem trimsInside_small : TrimsInside (memOf "  +5G ".toList) "  +5G ".toList ↔
    TrimSafe "  +5G ".toList :=
  trimsInside_iff (holdsAt_memOf (by decide))

/-- On a line of one blank the second loop reads the character in front of the buffer. -/
theorem trimsInside_blank : HoldsAt (memOf [' ']) 0 [' '] ∧ ¬ TrimsInside (memOf [' ']) [' '] :=
  ⟨holdsAt_memOf (by decide), not_trimsInside (holdsAt_memOf (by decide)) (by decide)⟩

end Partman

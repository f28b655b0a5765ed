/-
# Options on a command line

The words behind the name of a program are options and operands in any order.  An option has
a letter or a name, and takes an argument: behind the letter in the same word, behind a `=`,
or as the next word.  A name may be cut short as long as no other one starts in the same
way, and the word `--` makes operands of all that follow.  `OptTable.scan` reads the words
from left to right, and `OptTable.Reads` says which command lines there are.
-/
import Mathlib.Data.List.Basic
import Mathlib.Data.List.Nodup
import Mathlib.Data.List.TakeWhile
import Mathlib.Tactic.Common

namespace Lib

/-- The options of a program, each of which takes an argument. -/
structure OptTable (κ : Type*) where
  short : Char → Option κ
  long : List (List Char × κ)
  short_dash : short '-' = none
  nodup : (long.map Prod.fst).Nodup
  plain : ∀ o ∈ long, '=' ∉ o.1

/-- What a word is. -/
inductive OptWord (κ : Type*)
  | operand
  /-- The end of the options. -/
  | stop
  /-- An option with its argument. -/
  | joined (k : κ) (v : List Char)
  /-- An option the argument of which is the next word. -/
  | alone (k : κ)
  | bad

/-- What has been read: the options with their arguments, and the operands, unless an option
has been met that there is not. -/
structure OptScan (κ : Type*) where
  settings : List (κ × List Char)
  operands : Option (List (List Char))

namespace OptScan

variable {κ : Type*}

def setting (r : OptScan κ) (k : κ) (v : List Char) : OptScan κ :=
  ⟨(k, v) :: r.settings, r.operands⟩

def operand (r : OptScan κ) (w : List Char) : OptScan κ :=
  ⟨r.settings, r.operands.map (w :: ·)⟩

end OptScan

namespace OptTable

variable {κ : Type*} (T : OptTable κ)

/-- The option of a name: the one with this name, or else the only one whose name starts
with it. -/
def byName (name : List Char) : Option κ :=
  match T.long.find? fun o => o.1 == name with
  | some o => some o.2
  | none =>
    match T.long.filter fun o => name.isPrefixOf o.1 with
    | [o] => some o.2
    | _ => none

def word : List Char → OptWord κ
  | ['-', '-'] => .stop
  | '-' :: '-' :: s =>
    match T.byName (s.takeWhile (· != '=')), s.dropWhile (· != '=') with
    | none, _ => .bad
    | some k, [] => .alone k
    | some k, _ :: v => .joined k v
  | '-' :: c :: v =>
    match T.short c, v with
    | none, _ => .bad
    | some k, [] => .alone k
    | some k, v => .joined k v
  | _ => .operand

def scan : List (List Char) → OptScan κ
  | [] => ⟨[], some []⟩
  | w :: ws =>
    match T.word w with
    | .operand => (scan ws).operand w
    | .stop => ⟨[], some ws⟩
    | .joined k v => (scan ws).setting k v
    | .alone k =>
      match ws with
      | [] => ⟨[], none⟩
      | v :: ws => (scan ws).setting k v
    | .bad => ⟨[], none⟩

/-! ## The command lines there are -/

/-- The name of an option, in full or cut short. -/
def Names (name : List Char) (k : κ) : Prop :=
  (name, k) ∈ T.long ∨ (∀ o ∈ T.long, o.1 ≠ name) ∧
    ∃ full, (full, k) ∈ T.long ∧ ∀ o ∈ T.long, name <+: o.1 ↔ o = (full, k)

/-- The words that give the argument `v` to the option `k`. -/
inductive Spells : List (List Char) → κ → List Char → Prop
  | short {c : Char} {k : κ} {v : List Char} (hc : T.short c = some k) (hv : v ≠ []) :
      Spells ['-' :: c :: v] k v
  | shortApart {c : Char} {k : κ} {v : List Char} (hc : T.short c = some k) :
      Spells [['-', c], v] k v
  | long {name : List Char} {k : κ} {v : List Char} (hname : T.Names name k) :
      Spells ['-' :: '-' :: (name ++ '=' :: v)] k v
  | longApart {name : List Char} {k : κ} {v : List Char} (hname : T.Names name k)
      (hne : name ≠ []) : Spells ['-' :: '-' :: name, v] k v

/-- An operand: a word that does not start with `-`, or `-` itself. -/
def IsOperand (w : List Char) : Prop := w.head? ≠ some '-' ∨ w = ['-']

/-- The command line gives the options the arguments `ss`, one after another, and has the
operands `ops`. -/
inductive Reads : List (List Char) → List (κ × List Char) → List (List Char) → Prop
  | nil : Reads [] [] []
  | setting {ws ws' : List (List Char)} {k : κ} {v : List Char} {ss : List (κ × List Char)}
      {ops : List (List Char)} (h : T.Spells ws k v) (hrest : Reads ws' ss ops) :
      Reads (ws ++ ws') ((k, v) :: ss) ops
  | operand {w : List Char} {ws : List (List Char)} {ss : List (κ × List Char)}
      {ops : List (List Char)} (h : IsOperand w) (hrest : Reads ws ss ops) :
      Reads (w :: ws) ss (w :: ops)
  | stop (ws : List (List Char)) : Reads (['-', '-'] :: ws) [] ws

variable {T} {name : List Char} {k : κ} {w v : List Char} {ws ops : List (List Char)}
  {ss : List (κ × List Char)}

/-! ## Names -/

lemma eq_of_name {o o' : List Char × κ} (h : o ∈ T.long) (h' : o' ∈ T.long) (he : o.1 = o'.1) :
    o = o' :=
  List.inj_on_of_nodup_map T.nodup h h' he

lemma byName_of_mem (h : (name, k) ∈ T.long) : T.byName name = some k := by
  rw [byName]
  cases hf : T.long.find? fun o => o.1 == name with
  | none => exact absurd (List.find?_eq_none.1 hf _ h) (by simp)
  | some o =>
    have hname : o.1 = name := by simpa using List.find?_some hf
    rw [eq_of_name (List.mem_of_find?_eq_some hf) h hname]

lemma byName_of_not_mem (h : ∀ o ∈ T.long, o.1 ≠ name) :
    T.byName name = some k ↔
      ∃ full, (full, k) ∈ T.long ∧ ∀ o ∈ T.long, name <+: o.1 ↔ o = (full, k) := by
  have hf : T.long.find? (fun o => o.1 == name) = none := by simpa using h
  have hmem : ∀ o, o ∈ T.long.filter (fun o => name.isPrefixOf o.1) ↔
      o ∈ T.long ∧ name <+: o.1 := by simp
  have hnodup := T.nodup.of_map.filter fun o => name.isPrefixOf o.1
  rw [byName, hf]
  generalize T.long.filter (fun o => name.isPrefixOf o.1) = l at hmem hnodup
  constructor
  · intro hl
    match l with
    | [(full, k')] =>
      obtain rfl : k' = k := Option.some.inj hl
      refine ⟨full, ((hmem _).1 (by simp)).1, fun o ho => ⟨fun hpre => ?_, ?_⟩⟩
      · simpa using (hmem o).2 ⟨ho, hpre⟩
      · rintro rfl
        exact ((hmem _).1 (by simp)).2
  · rintro ⟨full, hfull, huniq⟩
    have hl : l = [(full, k)] := by
      refine List.perm_singleton.1 ((List.perm_ext_iff_of_nodup hnodup (by simp)).2 fun o => ?_)
      rw [hmem, List.mem_singleton]
      refine ⟨fun ⟨ho, hpre⟩ => (huniq o ho).1 hpre, ?_⟩
      rintro rfl
      exact ⟨hfull, (huniq _ hfull).2 rfl⟩
    rw [hl]

lemma byName_iff : T.byName name = some k ↔ T.Names name k := by
  by_cases h : ∀ o ∈ T.long, o.1 ≠ name
  · rw [byName_of_not_mem h, Names, or_iff_right fun hmem => h _ hmem rfl]
    exact (and_iff_right h).symm
  · rw [Names, or_iff_left fun hno => h hno.1]
    refine ⟨fun hk => ?_, byName_of_mem⟩
    simp only [ne_eq, not_forall, not_not] at h
    obtain ⟨⟨full, k'⟩, ho, rfl⟩ := h
    rw [byName_of_mem ho] at hk
    exact Option.some.inj hk ▸ ho

lemma Names.plain (h : T.Names name k) : '=' ∉ name := by
  rcases h with h | ⟨-, full, hfull, huniq⟩
  · exact T.plain _ h
  · obtain ⟨t, ht⟩ := (huniq _ hfull).2 rfl
    intro hmem
    exact T.plain _ hfull (ht ▸ List.mem_append_left t hmem)

/-! ## Words -/

lemma word_short {c : Char} (hc : T.short c = some k) (v : List Char) :
    T.word ('-' :: c :: v) = if v = [] then .alone k else .joined k v := by
  have hne : c ≠ '-' := by
    rintro rfl
    simp [T.short_dash] at hc
  cases v <;> simp [word, hne, hc]

lemma split_name (hname : '=' ∉ name) (v : List Char) :
    (name ++ '=' :: v).takeWhile (· != '=') = name ∧
      (name ++ '=' :: v).dropWhile (· != '=') = '=' :: v := by
  have h : ∀ c ∈ name, (c != '=') = true := by
    intro c hc
    simpa using ne_of_mem_of_not_mem hc hname
  rw [List.takeWhile_append_of_pos h, List.dropWhile_append_of_pos h]
  simp

lemma word_long (h : T.Names name k) (v : List Char) :
    T.word ('-' :: '-' :: (name ++ '=' :: v)) = .joined k v := by
  obtain ⟨h1, h2⟩ := split_name h.plain v
  have hw : T.word ('-' :: '-' :: (name ++ '=' :: v)) =
      match T.byName ((name ++ '=' :: v).takeWhile (· != '=')),
        (name ++ '=' :: v).dropWhile (· != '=') with
      | none, _ => .bad
      | some k, [] => .alone k
      | some k, _ :: v => .joined k v := by
    cases name <;> rfl
  rw [hw, h1, h2, byName_iff.2 h]

lemma word_longApart (h : T.Names name k) (hne : name ≠ []) :
    T.word ('-' :: '-' :: name) = .alone k := by
  have hall : ∀ c ∈ name, (c != '=') = true := by
    intro c hc
    simpa using ne_of_mem_of_not_mem hc h.plain
  have h1 : name.takeWhile (· != '=') = name := List.takeWhile_eq_self_iff.2 hall
  have h2 : name.dropWhile (· != '=') = [] := List.dropWhile_eq_nil_iff.2 hall
  obtain ⟨c, s, rfl⟩ := List.exists_cons_of_ne_nil hne
  have hw : T.word ('-' :: '-' :: c :: s) =
      match T.byName ((c :: s).takeWhile (· != '=')), (c :: s).dropWhile (· != '=') with
      | none, _ => .bad
      | some k, [] => .alone k
      | some k, _ :: v => .joined k v := rfl
  rw [hw, h1, h2, byName_iff.2 h]

lemma word_operand (h : IsOperand w) : T.word w = .operand := by
  rcases h with h | rfl
  · cases w with
    | nil => rfl
    | cons c s =>
      have hc : c ≠ '-' := by simpa using h
      unfold word
      split <;> simp_all
  · rfl

/-- What a word that starts with two dashes gives to an option. -/
lemma spells_of_long {s : List Char} (hs : s ≠ [])
    (hname : T.byName (s.takeWhile (· != '=')) = some k) :
    (s.dropWhile (· != '=') = [] → ∀ v, T.Spells ['-' :: '-' :: s, v] k v) ∧
      ∀ c v, s.dropWhile (· != '=') = c :: v → T.Spells ['-' :: '-' :: s] k v := by
  have hk := byName_iff.1 hname
  have hsplit : s.takeWhile (· != '=') ++ s.dropWhile (· != '=') = s :=
    List.takeWhile_append_dropWhile
  refine ⟨fun h v => ?_, fun c v h => ?_⟩
  · rw [h, List.append_nil] at hsplit
    rw [hsplit] at hk
    exact .longApart hk hs
  · have hc : c = '=' := by
      have := List.head?_dropWhile_not (p := (· != '=')) s
      simpa [h] using this
    rw [h, hc] at hsplit
    have hspell := Spells.long (v := v) hk
    rwa [hsplit] at hspell

/-- What a word is, as the grammar has it. -/
def WordSpec (T : OptTable κ) (w : List Char) : OptWord κ → Prop
  | .operand => IsOperand w
  | .stop => w = ['-', '-']
  | .joined k v => T.Spells [w] k v
  | .alone k => ∀ v, T.Spells [w, v] k v
  | .bad => True

lemma wordSpec (T : OptTable κ) (w : List Char) : T.WordSpec w (T.word w) := by
  match w with
  | [] => exact Or.inl (by simp)
  | [c] =>
    by_cases hc : c = '-'
    · subst hc
      exact Or.inr rfl
    · have hw : IsOperand [c] := Or.inl (by simpa using hc)
      rwa [word_operand hw]
  | c :: d :: s =>
    by_cases hc : c = '-'
    swap
    · have hw : IsOperand (c :: d :: s) := Or.inl (by simpa using hc)
      rwa [word_operand hw]
    subst hc
    by_cases hd : d = '-'
    · subst hd
      rcases eq_or_ne s [] with rfl | hs
      · rfl
      -- a long name
      have hw : T.word ('-' :: '-' :: s) =
          match T.byName (s.takeWhile (· != '=')), s.dropWhile (· != '=') with
          | none, _ => .bad
          | some k, [] => .alone k
          | some k, _ :: v => .joined k v := by
        cases s with
        | nil => exact absurd rfl hs
        | cons c s => rfl
      rw [hw]
      cases hname : T.byName (s.takeWhile (· != '=')) with
      | none => trivial
      | some k =>
        obtain ⟨h1, h2⟩ := spells_of_long hs hname
        cases hrest : s.dropWhile (· != '=') with
        | nil => exact h1 hrest
        | cons c v => exact h2 c v hrest
    · cases hk : T.short d with
      | none =>
        have hw : T.word ('-' :: d :: s) = .bad := by simp [word, hd, hk]
        rw [hw]
        trivial
      | some k =>
        rw [word_short hk]
        split_ifs with hs
        · subst hs
          exact fun v => .shortApart hk
        · exact .short hk hs

/-! ## The scan -/

lemma scan_of_reads (h : T.Reads ws ss ops) : T.scan ws = ⟨ss, some ops⟩ := by
  induction h with
  | nil => rfl
  | stop ws => rfl
  | operand hw _ ih =>
    rw [scan, word_operand hw, ih]
    rfl
  | setting hk _ ih =>
    cases hk with
    | short hc hv =>
      rw [List.singleton_append, scan, word_short hc, if_neg hv, ih]
      rfl
    | shortApart hc =>
      rw [List.cons_append, scan, word_short hc, if_pos rfl]
      simp only [List.singleton_append, ih]
      rfl
    | long hname =>
      rw [List.singleton_append, scan, word_long hname, ih]
      rfl
    | longApart hname hne =>
      rw [List.cons_append, scan, word_longApart hname hne]
      simp only [List.singleton_append, ih]
      rfl

lemma reads_of_scan (h : T.scan ws = ⟨ss, some ops⟩) : T.Reads ws ss ops := by
  induction ws using scan.induct T generalizing ss ops with
  | case1 =>
    obtain ⟨rfl, rfl⟩ : ss = [] ∧ ops = [] := by simpa [scan, eq_comm] using h
    exact .nil
  | case2 w ws hw ih =>
    have hspec := T.wordSpec w
    rw [hw] at hspec
    rw [scan, hw] at h
    cases hr : T.scan ws with
    | mk ss' ops' =>
      rw [hr] at h
      cases ops' with
      | none => simp [OptScan.operand] at h
      | some ops' =>
        obtain ⟨rfl, rfl⟩ : ss' = ss ∧ w :: ops' = ops := by simpa [OptScan.operand] using h
        exact .operand hspec (ih hr)
  | case3 w ws hw =>
    have hspec := T.wordSpec w
    rw [hw] at hspec
    rw [scan, hw] at h
    obtain ⟨rfl, rfl⟩ : [] = ss ∧ ws = ops := by simpa using h
    exact hspec ▸ .stop ws
  | case4 w ws k v hw ih =>
    have hspec := T.wordSpec w
    rw [hw] at hspec
    rw [scan, hw] at h
    cases hr : T.scan ws with
    | mk ss' ops' =>
      rw [hr] at h
      obtain ⟨rfl, rfl⟩ : (k, v) :: ss' = ss ∧ ops' = some ops := by
        simpa [OptScan.setting] using h
      exact .setting hspec (ih hr)
  | case5 w k hw =>
    rw [scan, hw] at h
    simp at h
  | case6 w k hw v ws ih =>
    have hspec := T.wordSpec w
    rw [hw] at hspec
    rw [scan, hw] at h
    cases hr : T.scan ws with
    | mk ss' ops' =>
      simp only [hr] at h
      obtain ⟨rfl, rfl⟩ : (k, v) :: ss' = ss ∧ ops' = some ops := by
        simpa [OptScan.setting] using h
      exact .setting (hspec v) (ih hr)
  | case7 w ws hw =>
    rw [scan, hw] at h
    simp at h

/-- **The scan reads the command lines there are.** -/
theorem scan_iff : T.scan ws = ⟨ss, some ops⟩ ↔ T.Reads ws ss ops :=
  ⟨reads_of_scan, scan_of_reads⟩

end OptTable

end Lib

/-
# What the program options mean

`opts_parse` accepts the command lines that name exactly one image file and give every
option an argument it can take, in any of the spellings of an option and in any order; of
two options for the same thing the later one counts.
-/
import Partman.Model.Options
import Partman.Text.Number

namespace Partman

open Lib

/-- The argument starts with the number `n`. -/
def IsNumber (arg : List Char) (n : Pu64) : Prop :=
  ∃ (f : Numeral 10 arg.length) (rest : List Char),
    arg = f.text ++ rest ∧ f.Stops rest ∧ n = f.value

def LogLevel.text : LogLevel → List Char
  | .debug => "DEBUG".toList
  | .info => "INFO".toList
  | .warn => "WARN".toList
  | .error => "ERROR".toList

/-- What an option with its argument sets. -/
inductive Sets (opts : PartmanOpts) : Char → List Char → PartmanOpts → Prop
  | logLevel (level : LogLevel) : Sets opts 'L' level.text { opts with logLevel := level }
  | sectorSize {arg : List Char} {n : Pu64} (h : IsNumber arg n) :
      Sets opts 'b' arg { opts with secSz := n }
  | minImgSize {arg : List Char} {n : Pu64} (h : IsNumber arg n) :
      Sets opts 'm' arg { opts with imgSz := n }
  | alignment {arg : List Char} {n : Pu64} (h : IsNumber arg n) :
      Sets opts 'a' arg { opts with align := n }
  | heads {arg : List Char} {n : Pu64} (h : IsNumber arg n) (hn : n.toNat < 256) :
      Sets opts 'H' arg { opts with hpc := n.toUInt8 }
  | sectors {arg : List Char} {n : Pu64} (h : IsNumber arg n) (hn : n.toNat < 256) :
      Sets opts 'S' arg { opts with spt := n.toUInt8 }

/-- What options set one after another. -/
inductive SetsAll : PartmanOpts → List (Char × List Char) → PartmanOpts → Prop
  | nil (opts : PartmanOpts) : SetsAll opts [] opts
  | cons {opts opts' opts'' : PartmanOpts} {c : Char} {arg : List Char}
      {settings : List (Char × List Char)} (h : Sets opts c arg opts')
      (hrest : SetsAll opts' settings opts'') : SetsAll opts ((c, arg) :: settings) opts''

variable {opts opts' : PartmanOpts} {c : Char} {arg : List Char} {n : Pu64}

/-! ## One argument -/

lemma optsParseLogLevel_iff {level : LogLevel} :
    optsParseLogLevel arg = some level ↔ arg = level.text := by
  rw [optsParseLogLevel]
  constructor
  · intro h
    split_ifs at h with h1 h2 h3 h4 <;> obtain rfl := Option.some.inj h
    exacts [h1, h2, h3, h4]
  · rintro rfl
    cases level <;> rfl

lemma optsParsePu64_iff : optsParsePu64 arg = some n ↔ IsNumber arg n := by
  rw [optsParsePu64, Option.map_eq_some_iff]
  constructor
  · rintro ⟨⟨n, rest⟩, h, rfl⟩
    obtain ⟨f, hf⟩ := scanUInt_iff.1 h
    exact ⟨f, rest, hf⟩
  · rintro ⟨f, rest, hf⟩
    exact ⟨(n, rest), scanUInt_iff.2 ⟨f, hf⟩, rfl⟩

/-- A number fits into a byte if no higher bit is set. -/
lemma high_bits_eq_zero_iff (n : Pu64) : n &&& ~~~(0xFF : Pu64) = 0 ↔ n.toNat < 256 := by
  have hmod : (n &&& 0xFF).toNat = n.toNat % 256 := by
    rw [UInt64.toNat_and]
    exact Nat.and_two_pow_sub_one_eq_mod n.toNat 8
  constructor
  · intro h
    have hn : n &&& 0xFF = n := by
      calc n &&& 0xFF = n &&& 0xFF ||| n &&& ~~~(0xFF : Pu64) := by rw [h, UInt64.or_zero]
        _ = n &&& (0xFF ||| ~~~(0xFF : Pu64)) :=
          (UInt64.toBitVec_inj.1 BitVec.and_or_distrib_left).symm
        _ = n := by rw [UInt64.or_not_self, UInt64.and_neg_one]
    rw [hn] at hmod
    omega
  · intro h
    have hn : n &&& 0xFF = n := by
      rw [← UInt64.toNat_inj, hmod, Nat.mod_eq_of_lt h]
    rw [← hn, UInt64.and_assoc, UInt64.and_not_self, UInt64.and_zero]

lemma optsParsePu8_iff {i : Pu8} : optsParsePu8 arg = some i ↔
    ∃ n, IsNumber arg n ∧ n.toNat < 256 ∧ i = n.toUInt8 := by
  have hnum : ∀ n, IsNumber arg n ↔ ∃ rest, scanUInt 10 arg.length arg = some (n, rest) := by
    intro n
    rw [← optsParsePu64_iff, optsParsePu64, Option.map_eq_some_iff]
    exact ⟨fun ⟨⟨_, rest⟩, h, he⟩ => ⟨rest, he ▸ h⟩, fun ⟨rest, h⟩ => ⟨(n, rest), h, rfl⟩⟩
  simp only [hnum]
  rw [optsParsePu8]
  cases scanUInt 10 arg.length arg with
  | none => simp
  | some x =>
    obtain ⟨n, rest⟩ := x
    by_cases hn : n &&& ~~~(0xFF : Pu64) = 0
    · simp [hn, (high_bits_eq_zero_iff n).1 hn, eq_comm]
    · have hge : ¬ n.toNat < 256 := fun h => hn ((high_bits_eq_zero_iff n).2 h)
      simp [hn, hge]

/-! ## All options -/

lemma optsSet_ok {α : Type} {parsed : Option α} {name : String} {set : α → PartmanOpts} :
    optsSet parsed name set = .ok opts' ↔ ∃ i, parsed = some i ∧ set i = opts' := by
  cases parsed <;> simp [optsSet]

lemma optsSwitch_ok : optsSwitch opts c arg = .ok opts' ↔ Sets opts c arg opts' := by
  constructor
  · intro h
    rw [optsSwitch] at h
    split_ifs at h with h1 h2 h3 h4 h5 h6
    · obtain ⟨level, hl, rfl⟩ := optsSet_ok.1 h
      exact h1 ▸ optsParseLogLevel_iff.1 hl ▸ .logLevel level
    · obtain ⟨n, hn, rfl⟩ := optsSet_ok.1 h
      exact h2 ▸ .sectorSize (optsParsePu64_iff.1 hn)
    · obtain ⟨n, hn, rfl⟩ := optsSet_ok.1 h
      exact h3 ▸ .minImgSize (optsParsePu64_iff.1 hn)
    · obtain ⟨n, hn, rfl⟩ := optsSet_ok.1 h
      exact h4 ▸ .alignment (optsParsePu64_iff.1 hn)
    · obtain ⟨i, hi, rfl⟩ := optsSet_ok.1 h
      obtain ⟨n, hn, hlt, rfl⟩ := optsParsePu8_iff.1 hi
      exact h5 ▸ .heads hn hlt
    · obtain ⟨i, hi, rfl⟩ := optsSet_ok.1 h
      obtain ⟨n, hn, hlt, rfl⟩ := optsParsePu8_iff.1 hi
      exact h6 ▸ .sectors hn hlt
  · intro h
    cases h with
    | logLevel level => exact optsSet_ok.2 ⟨level, optsParseLogLevel_iff.2 rfl, rfl⟩
    | sectorSize h => exact optsSet_ok.2 ⟨_, optsParsePu64_iff.2 h, rfl⟩
    | minImgSize h => exact optsSet_ok.2 ⟨_, optsParsePu64_iff.2 h, rfl⟩
    | alignment h => exact optsSet_ok.2 ⟨_, optsParsePu64_iff.2 h, rfl⟩
    | heads h hn => exact optsSet_ok.2 ⟨_, optsParsePu8_iff.2 ⟨_, h, hn, rfl⟩, rfl⟩
    | sectors h hn => exact optsSet_ok.2 ⟨_, optsParsePu8_iff.2 ⟨_, h, hn, rfl⟩, rfl⟩

lemma optsLoop_ok {settings : List (Char × List Char)} :
    optsLoop opts settings = .ok opts' ↔ SetsAll opts settings opts' := by
  induction settings generalizing opts with
  | nil =>
    constructor
    · intro h
      obtain rfl : opts = opts' := by simpa [optsLoop] using h
      exact .nil opts
    · rintro ⟨⟩
      rfl
  | cons s settings ih =>
    obtain ⟨c, arg⟩ := s
    rw [optsLoop]
    constructor
    · intro h
      cases hs : optsSwitch opts c arg with
      | error reason => simp [hs] at h
      | ok opts₁ => exact .cons (optsSwitch_ok.1 hs) (ih.1 (by simpa [hs] using h))
    · rintro ⟨⟩
      rename_i opts₁ hs hrest
      rw [optsSwitch_ok.2 hs]
      exact ih.2 hrest

/-- **The command lines that are accepted.**  The options are accepted as `opts` exactly when
the words can be read as options with their arguments, in any spelling and order, and one
image file, and every argument is one that its option takes; then `opts` is what the options
set one after another, from the defaults. -/
theorem optsParse_ok_iff (argv : List (List Char)) (opts : PartmanOpts) :
    optsParse argv = .ok opts ↔ ∃ execName words settings imgName o,
      argv = execName :: words ∧ optsTable.Reads words settings [imgName] ∧
        SetsAll optsInitDefault settings o ∧ opts = { o with imgName := imgName } := by
  cases argv with
  | nil => simp [optsParse]
  | cons execName words =>
    rw [optsParse]
    constructor
    · intro h
      cases hl : optsLoop optsInitDefault (optsTable.scan words).settings with
      | error reason => simp [hl] at h
      | ok o =>
        cases hops : (optsTable.scan words).operands with
        | none => simp [hl, hops] at h
        | some ops =>
          match ops with
          | [imgName] =>
            have hscan : optsTable.scan words =
                ⟨(optsTable.scan words).settings, some [imgName]⟩ := by rw [← hops]
            refine ⟨execName, words, _, imgName, o, rfl, OptTable.scan_iff.1 hscan,
              optsLoop_ok.1 hl, ?_⟩
            simpa [hl, hops, eq_comm] using h
          | [] => simp [hl, hops] at h
          | _ :: _ :: _ => simp [hl, hops] at h
    · rintro ⟨_, _, settings, imgName, o, ⟨rfl, rfl⟩, hreads, hsets, rfl⟩
      simp only [OptTable.scan_iff.2 hreads, optsLoop_ok.2 hsets]

end Partman

/-
# What can be edited

The layout of a scheme says which sectors its entries occupy.  Every change of a layout in
one entry is a pass of the loop, with the numbers typed in, so a session can give every
layout to a scheme that is in order; and a new scheme is never given anything else.
-/
import Partman.Edit.Answers
import Partman.Lib.Layout
import Partman.Session.Frame

namespace Partman

open Lib

variable {sys : Sys} {ctx : ImgCtx} {fuel : ℕ} {schem schem₀ : Schem} {p p₀ : Prog}
  {L L' : ℕ → Option (ℕ × ℕ)}

/-! ## Layouts of schemes -/

/-- The first and the last sector of every entry that is in use. -/
def Schem.layout (schem : Schem) (i : ℕ) : Option (ℕ × ℕ) :=
  if i < schem.partCnt.toNat ∧ schem.partIsUsed (schem.table i) = true then
    some ((schem.table i).startLba.toNat, (schem.table i).endLba.toNat)
  else none

lemma Schem.layout_of_used {i : ℕ} (h : i ∈ schem.usedSet) :
    schem.layout i = some ((schem.table i).startLba.toNat, (schem.table i).endLba.toNat) :=
  if_pos h

lemma Schem.layout_some {i : ℕ} {r : ℕ × ℕ} (h : schem.layout i = some r) : i ∈ schem.usedSet ∧
    r = ((schem.table i).startLba.toNat, (schem.table i).endLba.toNat) := by
  rw [Schem.layout] at h
  split_ifs at h with hu
  exact ⟨hu, (Option.some.inj h).symm⟩

/-- A layout between the usable sectors of the scheme. -/
def Schem.Holds (schem : Schem) (L : ℕ → Option (ℕ × ℕ)) : Prop :=
  IsLayout schem.firstUsableLba.toNat schem.lastUsableLba.toNat
    (Finset.range schem.partCnt.toNat) L

/-- A change of one entry between the usable sectors of the scheme. -/
def Schem.Step (schem : Schem) : (ℕ → Option (ℕ × ℕ)) → (ℕ → Option (ℕ × ℕ)) → Prop :=
  LayoutStep schem.firstUsableLba.toNat schem.lastUsableLba.toNat
    (Finset.range schem.partCnt.toNat)

/-- In a scheme that is in order the entries form a layout. -/
lemma Schem.Inv.holds (h : schem.Inv) : schem.Holds schem.layout := by
  refine ⟨fun i r hr => ?_, fun i j r r' hr hr' hij => ?_⟩
  · obtain ⟨hu, rfl⟩ := Schem.layout_some hr
    exact ⟨Finset.mem_range.2 hu.1, h.bounds i hu⟩
  · obtain ⟨hu, rfl⟩ := Schem.layout_some hr
    obtain ⟨hu', rfl⟩ := Schem.layout_some hr'
    exact h.disjoint hu hu' hij

/-- Overwriting an entry changes the layout there. -/
lemma Schem.layout_setPart {i : ℕ} (hi : i < schem.partCnt.toNat) (part : SchemPart) :
    (schem.setPart i part).layout = Function.update schem.layout i
      (if schem.partIsUsed part = true then some (part.startLba.toNat, part.endLba.toNat)
        else none) := by
  funext j
  have hcnt : (schem.setPart i part).partCnt = schem.partCnt := rfl
  rcases eq_or_ne j i with rfl | hji
  · simp [Schem.layout, hcnt, hi]
  · simp [Schem.layout, hcnt, hji, Schem.setPart_of_ne schem part hji]

/-! ## Schemes that are edited -/

/-- What no editing command changes of a scheme. -/
structure Schem.SameFrame (schem₀ schem : Schem) : Prop where
  funcs : schem.funcs = schem₀.funcs
  firstUsableLba : schem.firstUsableLba = schem₀.firstUsableLba
  lastUsableLba : schem.lastUsableLba = schem₀.lastUsableLba
  partCnt : schem.partCnt = schem₀.partCnt

/-- The layouts of a scheme depend on its bounds only. -/
lemma Schem.SameFrame.holds_iff (h : schem₀.SameFrame schem) : schem.Holds L ↔ schem₀.Holds L := by
  rw [Schem.Holds, Schem.Holds, h.firstUsableLba, h.lastUsableLba, h.partCnt]

/-- The current scheme has the layout, and the program is the same otherwise. -/
structure Drawn (ctx : ImgCtx) (p₀ : Prog) (schem₀ schem : Schem) (p : Prog) : Prop where
  sc : p.sc = p₀.sc.setSchem p₀.schemCurT (some schem)
  schemCurT : p.schemCurT = p₀.schemCurT
  img : p.img = p₀.img
  inv : schem.Inv
  fits : schem.Fits ctx
  frame : schem₀.SameFrame schem

lemma setSchem_setSchem (sc : SchemCtx) (t : SchemType) (a b : Option Schem) :
    (sc.setSchem t a).setSchem t b = sc.setSchem t b := by
  cases t <;> rfl

/-- The current scheme of the program, which is edited. -/
lemma Drawn.schemes (h : Drawn ctx p₀ schem₀ schem p) (hcur : p₀.schemCurT ≠ .cnt) :
    p.sc.schemes p.schemCurT = some schem := by
  rw [h.sc, h.schemCurT, schemes_setSchem_self _ hcur]

/-- Another entry in the current scheme. -/
lemma Drawn.setPart (h : Drawn ctx p₀ schem₀ schem p) {i : ℕ} {part : SchemPart}
    (hinv : (schem.setPart i part).Inv) (inp : Input) (rng : Rng) :
    Drawn ctx p₀ schem₀ (schem.setPart i part) { p with
      sc := p.sc.setSchem p.schemCurT (some (schem.setPart i part)), inp := inp, rng := rng } where
  sc := by rw [h.sc, h.schemCurT, setSchem_setSchem]
  schemCurT := h.schemCurT
  img := h.img
  inv := hinv
  fits := ⟨h.fits.range, h.fits.room, h.fits.align, h.fits.cnt⟩
  frame := ⟨h.frame.funcs, h.frame.firstUsableLba, h.frame.lastUsableLba, h.frame.partCnt⟩

/-! ## One change -/

/-- A pass that edits: the letter of the command, and what it does with the scheme. -/
lemma routinePass_edit {c : Char} {f : Ed → Option (Edit × Ed)} {rest : Input}
    (hpass : ∀ (sc : SchemCtx) (cur : SchemType) (inp : Input) (rng : Rng) (m : Image),
      routinePass fuel ctx sys ⟨sc, cur, .line [c, '\n'] :: inp, rng, m⟩ =
        (actionEdit ⟨sc, cur, inp, rng, m⟩ f).map Action.pass)
    (hinp : p.inp = .line [c, '\n'] :: rest) (hsc : p.sc.schemes p.schemCurT = some schem)
    {e : Edit} {ed : Ed} (hf : f ⟨schem, rest, p.rng⟩ = some (e, ed)) :
    routinePass fuel ctx sys p = some (.again { p with
      sc := p.sc.setSchem p.schemCurT (some ed.schem), inp := ed.inp, rng := ed.rng }) := by
  obtain ⟨sc, cur, inp, rng, m⟩ := p
  simp only at hsc hinp hf
  rw [hinp, hpass, actionEdit]
  simp only [hsc, hf, Option.map_some]
  rfl

/-- The line on which a number is typed. -/
def numLine (n : ℕ) : Fgets := .line (decimal n ++ ['\n'])

lemma types_numLine {n : ℕ} (h : n < 2 ^ 64) :
    Types (decimal n ++ ['\n']) (UInt64.ofNat n) := by
  have := types_decimal (UInt64.ofNat n)
  rwa [toNat_ofNat_of_lt h] at this

/-- The line on which the number of an entry is typed. -/
lemma types_index {i : ℕ} (hi : i < schem.partCnt.toNat) :
    Types (decimal (i + 1) ++ ['\n']) (UInt64.ofNat i + 1) := by
  have hlt := schem.partCnt.toNat_lt
  have htoi : (UInt64.ofNat i).toNat = i := toNat_ofNat_of_lt (by omega)
  have hadd : UInt64.ofNat i + 1 = UInt64.ofNat (i + 1) := by
    rw [← UInt64.toNat_inj, @toNat_add_one schem _ (by rwa [htoi]), htoi,
      toNat_ofNat_of_lt (by omega)]
  rw [hadd]
  exact types_numLine (by omega)

/-- Whenever the lines come next, a pass takes the layout `L` to the layout `L'`. -/
def DrawnBy (sys : Sys) (ctx : ImgCtx) (fuel : ℕ) (p₀ : Prog) (schem₀ : Schem)
    (L L' : ℕ → Option (ℕ × ℕ)) (lines : Input) : Prop :=
  ∀ schem p rest, Drawn ctx p₀ schem₀ schem p → schem.layout = L → p.inp = lines ++ rest →
    ∃ schem' p', routinePass fuel ctx sys p = some (.again p') ∧
      Drawn ctx p₀ schem₀ schem' p' ∧ schem'.layout = L' ∧ p'.inp = rest

section Steps

variable (hcur : p₀.schemCurT ≠ .cnt)
include hcur

/-- An entry gets a range by the command `n`. -/
lemma drawnBy_add (hfuncs : schem₀.funcs ≠ .cnt) (hfuel : 2 ^ 65 ≤ fuel) (sys : Sys) {i : ℕ}
    {r : ℕ × ℕ} (hi : i < schem₀.partCnt.toNat) (hfree : L i = none)
    (h1 : schem₀.firstUsableLba.toNat ≤ r.1) (h2 : r.1 ≤ r.2)
    (h3 : r.2 ≤ schem₀.lastUsableLba.toNat)
    (hdisj : ∀ j r', L j = some r' → Disjoint (Set.Icc r.1 r.2) (Set.Icc r'.1 r'.2)) :
    DrawnBy sys ctx fuel p₀ schem₀ L (Function.update L i (some r))
      [.line ['n', '\n'], numLine (i + 1), numLine r.1, numLine r.2] := by
  rintro schem p rest hp rfl hinp
  have hlt := schem₀.partCnt.toNat_lt
  have hr := schem₀.lastUsableLba.toNat_lt
  have htoi : (UInt64.ofNat i).toNat = i := toNat_ofNat_of_lt (by omega)
  have hto1 : (UInt64.ofNat r.1).toNat = r.1 := toNat_ofNat_of_lt (by omega)
  have hto2 : (UInt64.ofNat r.2).toNat = r.2 := toNat_ofNat_of_lt (by omega)
  rw [← hp.frame.partCnt] at hi
  have hi' : (UInt64.ofNat i).toNat < schem.partCnt.toNat := by rwa [htoi]
  have hused : schem.partIsUsed (schem.table (UInt64.ofNat i).toNat) = !true := by
    rw [htoi, Bool.not_true, ← Bool.not_eq_true]
    intro hu
    rw [Schem.layout_of_used ⟨hi, hu⟩] at hfree
    exact Option.some_ne_none _ hfree
  have hroom : schem.Room (UInt64.ofNat i) (UInt64.ofNat r.1) (UInt64.ofNat r.2) := by
    refine ⟨?_, ?_, ?_, fun j hj _ => ?_⟩
    · rwa [hto1, hp.frame.firstUsableLba]
    · rwa [hto1, hto2]
    · rwa [hto2, hp.frame.lastUsableLba]
    · rw [hto1, hto2]
      exact hdisj j _ (Schem.layout_of_used hj)
  obtain ⟨part, rng', hal, hpused, hs, he⟩ := pmPartAlter_typed sys rest p.rng hp.inv hp.fits
    hfuel (hp.frame.funcs ▸ hfuncs) hi' hused hroom (types_index hi) (types_numLine (by omega))
    (types_numLine (by omega))
  rw [← hs, ← he] at hroom
  have hset := hroom.inv hp.inv hp.fits.cnt
  rw [htoi] at hal hset
  refine ⟨_, _, routinePass_edit (f := fun ed => pmPartAlter fuel sys ctx ed true)
    (fun _ _ _ _ _ => rfl) hinp (hp.schemes hcur) hal, hp.setPart hset _ _, ?_, rfl⟩
  rw [Schem.layout_setPart hi, if_pos hpused, hs, he, hto1, hto2]

/-- An entry loses its range by the command `d`. -/
lemma drawnBy_delete (sys : Sys) {i : ℕ} (hne : L i ≠ none) :
    DrawnBy sys ctx fuel p₀ schem₀ L (Function.update L i none)
      [.line ['d', '\n'], numLine (i + 1)] := by
  rintro schem p rest hp rfl hinp
  obtain ⟨r, hr⟩ := Option.ne_none_iff_exists'.1 hne
  obtain ⟨hu, -⟩ := Schem.layout_some hr
  have hlt := schem.partCnt.toNat_lt
  have htoi : (UInt64.ofNat i).toNat = i := toNat_ofNat_of_lt (lt_trans hu.1 hlt)
  have hdel := pmPartDelete_typed (i := UInt64.ofNat i) rest p.rng
    (htoi.symm ▸ hu.1) (htoi.symm ▸ hu.2) (types_index hu.1)
  rw [htoi] at hdel
  refine ⟨_, _, routinePass_edit (f := fun ed => some (pmPartDelete ed))
    (fun _ _ _ _ _ => rfl) hinp (hp.schemes hcur) (congrArg some hdel),
    hp.setPart (inv_setPart_zero hp.inv i) _ _, ?_, rfl⟩
  rw [Schem.layout_setPart hu.1, if_neg (by simp [partIsUsed_zero])]

/-- A change of the layout is made by one pass. -/
lemma exists_drawnBy (ctx : ImgCtx) (hfuncs : schem₀.funcs ≠ .cnt) (hfuel : 2 ^ 65 ≤ fuel)
    (sys : Sys) (hstep : schem₀.Step L L') :
    ∃ lines, TypedIn lines ∧ DrawnBy sys ctx fuel p₀ schem₀ L L' lines := by
  have hcnt := schem₀.partCnt.toNat_lt
  cases hstep with
  | put i r hi hfree h1 h2 h3 hdisj =>
    have hi' := Finset.mem_range.1 hi
    have hlast := schem₀.lastUsableLba.toNat_lt
    exact ⟨_, .cons (l := ['n']) (by decide) (by decide) (.decimal (by omega)
        (.decimal (by omega) (.decimal (by omega) .nil))),
      drawnBy_add hcur hfuncs hfuel sys hi' hfree h1 h2 h3 hdisj⟩
  | remove i hne =>
    by_cases hi : i < schem₀.partCnt.toNat
    · exact ⟨_, .cons (l := ['d']) (by decide) (by decide) (.decimal (by omega) .nil),
        drawnBy_delete hcur sys hne⟩
    · -- there is no such entry
      refine ⟨[], .nil, ?_⟩
      rintro schem p rest hp rfl -
      obtain ⟨r, hr⟩ := Option.ne_none_iff_exists'.1 hne
      exact absurd (hp.frame.partCnt ▸ (Schem.layout_some hr).1.1) hi

/-- Changes one after another are made by a session. -/
lemma exists_session (ctx : ImgCtx) (hfuncs : schem₀.funcs ≠ .cnt) (hfuel : 2 ^ 65 ≤ fuel)
    (sys : Sys) (hrun : Relation.ReflTransGen schem₀.Step L L') :
    ∃ lines, TypedIn lines ∧ ∀ schem p rest, Drawn ctx p₀ schem₀ schem p → schem.layout = L →
      p.inp = lines ++ rest → ∃ schem' p', AtPrompt fuel ctx [sys] p p' ∧
        Drawn ctx p₀ schem₀ schem' p' ∧ schem'.layout = L' ∧ p'.inp = rest := by
  induction hrun with
  | refl => exact ⟨[], .nil, fun schem p rest hp hL hinp => ⟨schem, p, .refl, hp, hL, hinp⟩⟩
  | tail _ hstep ih =>
    obtain ⟨lines, htyped, hlines⟩ := ih
    obtain ⟨lines', htyped', hlines'⟩ := exists_drawnBy hcur ctx hfuncs hfuel sys hstep
    refine ⟨lines ++ lines', htyped.append htyped', fun schem p rest hp hL hinp => ?_⟩
    obtain ⟨schem₁, p₁, hat, hp₁, hL₁, hinp₁⟩ := hlines schem p (lines' ++ rest) hp hL
      (by rw [hinp, List.append_assoc])
    obtain ⟨schem₂, p₂, hpass, hp₂, hL₂, hinp₂⟩ := hlines' schem₁ p₁ rest hp₁ hL₁ hinp₁
    exact ⟨schem₂, p₂, hat.tail ⟨sys, by simp, hpass⟩, hp₂, hL₂, hinp₂⟩

end Steps

/-- **Every layout can be drawn.**  Where the current scheme is in order, there are lines on
which a session gives the scheme any layout between its usable sectors, in any of its
entries, whatever it has been before; it changes nothing else, and reads no further. -/
theorem exists_lines_of_layout (p₀ : Prog)
    (hsc : p₀.sc.schemes p₀.schemCurT = some schem) (hinv : schem.Inv) (hfits : schem.Fits ctx)
    (hfuncs : schem.funcs ≠ .cnt) (hfuel : 2 ^ 65 ≤ fuel) (sys : Sys)
    (L : ℕ → Option (ℕ × ℕ)) (hL : schem.Holds L) :
    ∃ lines, ∀ rest, ∃ p schem', AtPrompt fuel ctx [sys] { p₀ with inp := lines ++ rest } p ∧
      p.sc = p₀.sc.setSchem p₀.schemCurT (some schem') ∧ p.schemCurT = p₀.schemCurT ∧
      p.img = p₀.img ∧ p.inp = rest ∧ schem'.layout = L := by
  have hcur : p₀.schemCurT ≠ .cnt := by
    intro hc
    rw [hc] at hsc
    exact Option.some_ne_none _ hsc.symm
  obtain ⟨lines, -, hlines⟩ := exists_session hcur ctx hfuncs hfuel sys
    (hinv.holds.reaches hL)
  refine ⟨lines, fun rest => ?_⟩
  have hstart : Drawn ctx p₀ schem schem { p₀ with inp := lines ++ rest } :=
    ⟨(setSchem_schemes_self hsc).symm, rfl, rfl, hinv, hfits, rfl, rfl, rfl, rfl⟩
  obtain ⟨schem', p, hat, hp, hlay, hinp⟩ := hlines schem _ rest hstart rfl rfl
  exact ⟨p, schem', hat, hp.sc, hp.schemCurT, hp.img, hinp, hlay⟩

/-- Two partitions, of which the second entry holds the first one. -/
def twoRanges (i : ℕ) : Option (ℕ × ℕ) :=
  if i = 1 then some (100, 199) else if i = 6 then some (1000, 2014) else none

lemma twoRanges_some {i : ℕ} {r : ℕ × ℕ} (h : twoRanges i = some r) :
    i = 1 ∧ r = (100, 199) ∨ i = 6 ∧ r = (1000, 2014) := by
  rw [twoRanges] at h
  split_ifs at h with h1 h2
  · exact Or.inl ⟨h1, (Option.some.inj h).symm⟩
  · exact Or.inr ⟨h2, (Option.some.inj h).symm⟩

lemma twoRanges_holds (h : schem.firstUsableLba.toNat = 34 ∧ schem.lastUsableLba.toNat = 2014 ∧
    schem.partCnt.toNat = 128) : schem.Holds twoRanges := by
  rw [Schem.Holds, h.1, h.2.1, h.2.2]
  refine ⟨fun i r hr => ?_, fun i j r r' hr hr' hij => ?_⟩
  · rcases twoRanges_some hr with ⟨rfl, rfl⟩ | ⟨rfl, rfl⟩ <;> decide
  · rw [Set.disjoint_left]
    rintro s ⟨h1, h2⟩ ⟨h3, h4⟩
    rcases twoRanges_some hr with ⟨rfl, rfl⟩ | ⟨rfl, rfl⟩ <;>
      rcases twoRanges_some hr' with ⟨rfl, rfl⟩ | ⟨rfl, rfl⟩ <;> simp_all <;> omega

/-- The two partitions are drawn in a new GPT. -/
theorem exists_lines_of_layout_small :
    ∃ lines, ∀ rest, ∃ p schem', AtPrompt (2 ^ 65) smallCtx [plainSys]
        ⟨(schemCtxNew schemCtxInit smallCtx .gpt zeroRng).2.1, .gpt, lines ++ rest, zeroRng,
          zeroImage⟩ p ∧
      p.sc = (schemCtxNew schemCtxInit smallCtx .gpt zeroRng).2.1.setSchem .gpt (some schem') ∧
      p.schemCurT = .gpt ∧ p.img = zeroImage ∧ p.inp = rest ∧ schem'.layout = twoRanges := by
  have hv := (imgCtxValidate_ok_iff _).1 smallCtx_valid
  obtain ⟨hinv, hfits⟩ := schemInitGpt_good hv (by decide) (by decide) (schemNew .gpt) zeroRng
  exact exists_lines_of_layout ⟨(schemCtxNew schemCtxInit smallCtx .gpt zeroRng).2.1, .gpt, [],
    zeroRng, zeroImage⟩ rfl hinv hfits (by decide) le_rfl plainSys twoRanges
    (twoRanges_holds (by decide))

/-! ## New schemes -/

/-- The schemes of the context are between the bounds of new ones. -/
def SchemCtx.Framed (sc : SchemCtx) (ctx : ImgCtx) : Prop :=
  ∀ t schem, sc.schemes t = some schem → (schemNewInit t ctx zeroRng).1.SameFrame schem

lemma Schem.SameFrame.trans {schem₁ : Schem} (h : schem₀.SameFrame schem₁)
    (h' : schem₁.SameFrame schem) : schem₀.SameFrame schem :=
  ⟨h'.funcs.trans h.funcs, h'.firstUsableLba.trans h.firstUsableLba,
    h'.lastUsableLba.trans h.lastUsableLba, h'.partCnt.trans h.partCnt⟩

lemma Schem.SameFrame.symm (h : schem₀.SameFrame schem) : schem.SameFrame schem₀ :=
  ⟨h.funcs.symm, h.firstUsableLba.symm, h.lastUsableLba.symm, h.partCnt.symm⟩

/-- The bounds of a new scheme do not depend on the random source. -/
lemma schemNewInit_frame (t : SchemType) (ctx : ImgCtx) (r r' : Rng) :
    (schemNewInit t ctx r).1.SameFrame (schemNewInit t ctx r').1 := by
  cases t <;> exact ⟨rfl, rfl, rfl, rfl⟩

lemma schemCtxNew_framed (sc : SchemCtx) (ctx : ImgCtx) (t : SchemType) (r : Rng) :
    (schemCtxNew sc ctx t r).2.1.Framed ctx := by
  intro u schem hu
  cases t <;> cases u <;> simp only [schemCtxNew, schemCtxNewGpt, schemCtxReset,
    SchemCtx.schemes, Option.some.injEq, reduceCtorEq] at hu <;> subst hu
  · exact schemNewInit_frame .mbr ctx _ _
  · exact ⟨rfl, rfl, rfl, rfl⟩
  · exact schemNewInit_frame .gpt ctx _ _

lemma ActionSpec.framed {a : Action} (hp : p.sc.Framed ctx) (h : ActionSpec sys ctx p a) :
    a.prog.sc.Framed ctx := by
  cases h with
  | keep hsc => rwa [hsc]
  | edit schem schem' e hcur hspec hsc =>
    rw [hsc]
    have hold := hp _ _ hcur
    refine forall_setSchem hp ?_
    cases e with
    | refused why =>
      rw [show schem' = schem from hspec]
      exact hold
    | accepted i =>
      obtain ⟨-, part, -, rfl⟩ := hspec
      exact hold.trans ⟨rfl, rfl, rfl, rfl⟩
  | new t _ hsc =>
    rw [hsc]
    exact schemCtxNew_framed _ _ _ _
  | resetProt mbr hmbr hsc =>
    rw [hsc]
    exact forall_setSchem hp ⟨(hp .mbr mbr hmbr).funcs, rfl, rfl, rfl⟩
  | write hsc =>
    intro t schem hs
    rw [hsc, schemCtxSave_schemes] at hs
    exact hp t schem hs

/-- Every layout is drawn in a new scheme. -/
lemma exists_drawn_of_new (hv : ctx.Valid) (hal : 1 ≤ ctx.align.toNat)
    (himg : ctx.secs + ctx.align.toNat < 2 ^ 63) (hfuel : 2 ^ 65 ≤ fuel) (sc : SchemCtx)
    {t : SchemType} (ht : t ≠ .cnt) (r rng : Rng) (m : Image) (sys : Sys)
    (hL : (schemNewInit t ctx r).1.Holds L) :
    ∃ lines, TypedIn lines ∧ ∀ rest, ∃ p schem, AtPrompt fuel ctx [sys]
        ⟨(schemCtxNew sc ctx t r).2.1, t, lines ++ rest, rng, m⟩ p ∧
      p.sc = (schemCtxNew sc ctx t r).2.1.setSchem t (some schem) ∧ p.sc.Framed ctx ∧
      p.inp = rest ∧ schem.layout = L := by
  have hframed := schemCtxNew_framed sc ctx t r
  obtain ⟨schem, hsc⟩ : ∃ schem, (schemCtxNew sc ctx t r).2.1.schemes t = some schem := by
    cases t with
    | mbr => exact ⟨_, rfl⟩
    | gpt => exact ⟨_, rfl⟩
    | cnt => exact absurd rfl ht
  have hframe := (schemNewInit_frame t ctx r zeroRng).trans (hframed t schem hsc)
  obtain ⟨hinv, hfits⟩ := schemCtxNew_good hv hal himg sc t r t schem hsc
  have hfuncs : schem.funcs ≠ .cnt := by
    have heq : (schemNewInit t ctx r).1.funcs = t := by
      cases t <;> rfl
    rwa [hframe.funcs, heq]
  have hL' : schem.Holds L := hframe.holds_iff.2 hL
  have hcur : (Prog.mk (schemCtxNew sc ctx t r).2.1 t [] rng m).schemCurT ≠ .cnt := ht
  obtain ⟨lines, htyped, hlines⟩ := exists_session hcur ctx hfuncs hfuel sys
    (hinv.holds.reaches hL')
  refine ⟨lines, htyped, fun rest => ?_⟩
  obtain ⟨schem', p, hat, hp, hlay, hinp⟩ := hlines schem
    ⟨(schemCtxNew sc ctx t r).2.1, t, lines ++ rest, rng, m⟩ rest
    ⟨(setSchem_schemes_self hsc).symm, rfl, rfl, hinv, hfits, rfl, rfl, rfl, rfl⟩ rfl rfl
  refine ⟨p, schem', hat, hp.sc, ?_, hinp, hlay⟩
  rw [hp.sc]
  exact forall_setSchem hframed ((hframed t schem hsc).trans hp.frame)

/-- **The layouts of a new scheme.**  The layouts that a session can give to a new scheme, on
any input, are exactly those that place nonempty ranges between the usable sectors so that
no two of them meet. -/
theorem layout_of_new_iff (hctx : imgCtxValidate ctx = .ok) (hal : 1 ≤ ctx.align.toNat)
    (himg : ctx.imgSz.toNat / ctx.secSz.toNat + ctx.align.toNat < 2 ^ 63)
    (hfuel : 2 ^ 65 ≤ fuel) (sc : SchemCtx) {t : SchemType} (ht : t ≠ .cnt) (r rng : Rng)
    (m : Image) (L : ℕ → Option (ℕ × ℕ)) :
    (∃ inp plats p schem, AtPrompt fuel ctx plats
        ⟨(schemCtxNew sc ctx t r).2.1, t, inp, rng, m⟩ p ∧
      p.sc.schemes t = some schem ∧ schem.layout = L) ↔ (schemNewInit t ctx r).1.Holds L := by
  have hv := (imgCtxValidate_ok_iff ctx).1 hctx
  have hgood := schemCtxNew_good hv hal himg sc t r
  constructor
  · rintro ⟨inp, plats, p, schem, hp, hs, rfl⟩
    have hkept : p.sc.Good ctx ∧ p.sc.Framed ctx := by
      refine hp.invariant (P := fun p => p.sc.Good ctx ∧ p.sc.Framed ctx) ?_
        ⟨hgood, schemCtxNew_framed sc ctx t r⟩
      rintro sys - p a - ⟨hg, hf⟩ ha -
      have hspec := (actionHandle_spec ha).1
      exact ⟨hspec.good hv hal himg (p := p.readLine) hg, hspec.framed (p := p.readLine) hf⟩
    have hframe := (schemNewInit_frame t ctx r zeroRng).trans (hkept.2 t schem hs)
    exact hframe.holds_iff.1 (hkept.1 t schem hs).1.holds
  · intro hL
    obtain ⟨lines, -, hlines⟩ := exists_drawn_of_new hv hal himg hfuel sc ht r rng m plainSys hL
    obtain ⟨p, schem, hat, hsc, -, -, hlay⟩ := hlines []
    refine ⟨_, _, p, schem, hat, ?_, hlay⟩
    rw [hsc, schemes_setSchem_self _ ht]

/-- The layouts of a new GPT on the small image. -/
theorem layout_of_new_small : ∃ inp plats p schem, AtPrompt (2 ^ 65) smallCtx plats
      ⟨(schemCtxNew schemCtxInit smallCtx .gpt zeroRng).2.1, .gpt, inp, zeroRng, zeroImage⟩ p ∧
    p.sc.schemes .gpt = some schem ∧ schem.layout = twoRanges :=
  (layout_of_new_iff smallCtx_valid (by decide) (by decide) le_rfl schemCtxInit (by decide)
    zeroRng zeroRng zeroImage twoRanges).2 (twoRanges_holds (by decide))

end Partman

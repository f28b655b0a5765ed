/-
# Sessions that are cut off

A session may be cut off at any store of any save.  The image then holds the GPT that it held
before the save, or the one that was being saved: the boot record goes first, and touches
neither copy, and of the two copies one is whole at any time.
-/
import Partman.Disk.Interrupt
import Partman.Session.Sound

namespace Partman

open Lib

variable {sys sys' : Sys} {ctx : ImgCtx} {fuel : ℕ} {plats : List Sys} {m m' : Image}
  {sc : SchemCtx} {p p₀ : Prog} {O N : Schem}

/-- The copies do not depend on the boot record. -/
lemma HoldsGpt.congr (hv : ctx.Valid) (h : HoldsGpt sys m ctx O)
    (hm : ∀ a, ¬ InMbr a → m' a = m a) : HoldsGpt sys m' ctx O := by
  obtain ⟨h1, h2, h3, h4, -⟩ := hv.layout
  have hlow : 512 ≤ ctx.primHdrOff := h1
  have hkeep : ∀ a, 512 ≤ a → m' a = m a := fun a ha => hm a fun hin => by
    have := hin.lt
    omega
  have hsec := off_imgLastLba hv
  have htab := off_savedPrim_table O ctx
  have htab' := off_savedSec_table hv O
  exact ⟨h.ok, h.prim.congr (fun a ha _ => hkeep a (h1.trans ((off_one ctx).symm.trans_le ha)))
      fun a ha _ => hkeep a (by omega),
    h.sec.congr (fun a ha _ => hkeep a (by omega)) fun a ha _ => hkeep a (by omega)⟩

/-- Where the image is known to carry a GPT it holds both copies. -/
structure Prog.Whole (sys : Sys) (ctx : ImgCtx) (p : Prog) : Prop where
  savable : p.Savable
  holds : p.sc.inImgGpt = true → ∃ O, HoldsGpt sys p.img ctx O

lemma Prog.Whole.action (hv : ctx.Valid) (hal : 1 ≤ ctx.align.toNat)
    (hpg : sys'.pgSz = sys.pgSz) (hp : p.Whole sys ctx) {sym : Char} {a : Action}
    (h : actionHandle fuel sys' ctx p sym = some a) (hres : a.res = .cont) :
    a.prog.Whole sys ctx := by
  refine ⟨hp.savable.action hv hal h hres, fun hflag => ?_⟩
  by_cases hw : sym = 'w'
  · subst hw
    obtain ⟨hsave, hsc, himg⟩ := actionHandle_write h hres
    rw [hsc, schemCtxSave_inImg hsave] at hflag
    obtain ⟨N, hN⟩ := Option.isSome_iff_exists.1 hflag
    rw [himg]
    exact ⟨N.cut, hp.savable.holds_write hv hpg hsave hN⟩
  · have hdisk := actionHandle_sameDisk hw h
    have hin : a.prog.sc.inImgGpt = p.sc.inImgGpt := congrFun hdisk.inImg .gpt
    rw [hdisk.img]
    exact hp.holds (hin.symm.trans hflag)

end Partman

/-
# Runs on a text

A run of the program on a text that is typed in can leave any layout in the image file, where
the next run finds it.
-/
import Partman.Session.Program
import Partman.Session.Whole

namespace Partman

open Lib

variable {sys : Sys} {ctx : ImgCtx} {fuel : ℕ} {host : Host} {opts : PartmanOpts}
  {argv : List (List Char)} {file file₁ : ImgFile}

/-- The run on a text, with the platform `sys` at each of `n` passes. -/
def Host.typed (host : Host) (sys : Sys) (text : List Char) (n : ℕ) : Host :=
  { host with inp := stdinOf text, plats := List.replicate n sys }

/-- What is typed in does not matter before the load. -/
lemma Boots.typed (h : Boots host argv opts ctx file file₁) (sys : Sys) (text : List Char)
    (n : ℕ) : Boots (host.typed sys text n) argv opts ctx file file₁ :=
  ⟨h.parse, h.openImg, h.init⟩

/-- A file whose size is that of the context is not extended. -/
lemma Boots.eq_of_sz (h : Boots host argv opts ctx file file₁) (hsz : file.sz = ctx.imgSz.toNat) :
    file₁ = file := by
  have hsz₁ := h.sz
  cases h.spec.1 with
  | same => rfl
  | more hlt hsz₂ => omega

/-- **Every layout is left by a run on a text.**  A file of zeros has been worked on by runs whose
options lead to one image context; let it be opened by one more of these.  For each type and every
layout between the usable sectors of a new scheme of that type there is a text such that this run,
with the text as its standard input, ends, and every later run whose options lead to the same
image context comes to its loop with a scheme of that type and that layout as the current one. -/
theorem exists_text_of_layout (hs : sys.Serves ctx) (hsync : sys.fsyncOk = true)
    (halign : ctx.align.toNat < 2 ^ 62) (hfuel : 2 ^ 65 ≤ fuel) {file₀ : ImgFile}
    (hzero : ∀ b, file₀.img b = 0) (hlife : Life sys ctx fuel file₀ file)
    (hboot : Boots host argv opts ctx file file₁) (hsys : host.sys = sys) {t : SchemType}
    (ht : t ≠ .cnt) (r : Rng) (L : ℕ → Option (ℕ × ℕ)) (hL : (schemNewInit t ctx r).1.Holds L) :
    ∃ text n file₂, main fuel (host.typed sys text n) argv = some ⟨1, some file₂⟩ ∧
      ∀ host' argv' opts' file₃, Boots host' argv' opts' ctx file₂ file₃ → host'.sys = sys →
        (host'.load ctx file₃).res = .ok ∧
        schemCtxGetType (host'.load ctx file₃).sc = t ∧
        ∃ schem, (host'.load ctx file₃).sc.schemes t = some schem ∧ schem.layout = L := by
  obtain ⟨hsz, hord, -⟩ := hboot.inOrder hs (hlife.inOrder hs halign hfuel hzero)
  obtain ⟨-, hctx, hok⟩ := hboot.spec
  have hv := (imgCtxValidate_ok_iff ctx).1 hok
  have hal : 1 ≤ ctx.align.toNat := hctx ▸ imgInitCtx_align_pos opts file₁.sz
  have hload : (host.load ctx file₁).res = .ok := by
    rw [Host.load, hsys]
    exact hord.load _ _
  have hkept : ∀ inp, (startProg (host.load ctx file₁) inp file₁.img).Kept sys ctx := by
    intro inp
    rw [Host.load, hsys]
    exact (hord.start hv hs _ _ inp).kept
  obtain ⟨lines, htyped, n, q, hrun, hfound⟩ := exists_session_of_kept hv hs hsync hal
    (secs_add_align_lt hs halign hv) hfuel hkept ht hL
  obtain ⟨text, rfl⟩ := htyped.exists_text
  refine ⟨text, n, { file₁ with img := q.img }, ?_, ?_⟩
  · have hload' : ((host.typed sys text n).load ctx file₁).res = .ok := hload
    rw [main_of_boots (hboot.typed sys text n), if_neg (by rw [hload']; decide)]
    have hrun' : routineStart fuel ctx (host.typed sys text n).plats
        (startProg ((host.typed sys text n).load ctx file₁) (host.typed sys text n).inp
          file₁.img) = some (.ok, q) := hrun
    rw [hrun']
    rfl
  · rintro host' argv' opts' file₃ hboot' rfl
    obtain rfl := hboot'.eq_of_sz hsz
    exact hfound schemCtxInit host'.rng

/-- The two partitions, drawn in the first run on a new file. -/
theorem exists_text_of_layout_small : ∃ text n file₂,
    main (2 ^ 65) (smallHost.typed plainSys text n) smallArgv = some ⟨1, some file₂⟩ ∧
      ∀ host' argv' opts' file₃, Boots host' argv' opts' smallCtx file₂ file₃ →
        host'.sys = plainSys → (host'.load smallCtx file₃).res = .ok ∧
        schemCtxGetType (host'.load smallCtx file₃).sc = .gpt ∧
        ∃ schem, (host'.load smallCtx file₃).sc.schemes .gpt = some schem ∧
          schem.layout = twoRanges :=
  exists_text_of_layout smallCtx_serves rfl (by decide) le_rfl (fun _ => rfl)
    .start smallHost_boots rfl (by decide) zeroRng twoRanges (twoRanges_holds (by decide))

end Partman

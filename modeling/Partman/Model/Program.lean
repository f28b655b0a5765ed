/-
# The program (`img_init` and `main` of `main.c`)

A run of the program opens the image file, extends it where it is shorter than asked for,
loads the schemes and enters the user interface loop.  The file system enters as a
parameter, and so does all else that a run meets.
-/
import Partman.Model.Options
import Partman.Model.Session

namespace Partman

/-- The image file.  The size of a file is a signed offset. -/
structure ImgFile where
  sz : ℕ
  img : Image
  sz_lt : sz < 2 ^ 63

/-- The file after a zero byte has been written at an offset; what lies between the end of
the file and this offset reads as zero. -/
def ImgFile.writeZero (file : ImgFile) (off : ℕ) (h : off + 1 < 2 ^ 63) : ImgFile where
  sz := max file.sz (off + 1)
  img b := if b < file.sz ∧ b ≠ off then file.img b else 0
  sz_lt := max_lt file.sz_lt h

/-- What a run of the program meets. -/
structure Host where
  /-- `open`, which creates a file that does not exist; `none` is a failure. -/
  openImg : List Char → Option ImgFile
  /-- Whether `lseek` finds the end of the file. -/
  seekEnd : Bool
  /-- Whether `lseek` to this offset succeeds, where the offset is not negative. -/
  seekSet : Pu64 → Bool
  /-- Whether `write` of a byte at this offset succeeds, where a file can have it. -/
  write : Pu64 → Bool
  /-- The platform while the schemes are loaded. -/
  sys : Sys
  /-- The platform at each pass of the user interface loop. -/
  plats : List Sys
  rng : Rng
  inp : Input

/-- The file extended to the size that the options ask for. -/
def ImgFile.extend (host : Host) (opts : PartmanOpts) (file : ImgFile) : Option ImgFile :=
  let off := opts.imgSz - 1
  if h : off.toNat + 1 < 2 ^ 63 then
    if host.seekSet off && host.write off then some (file.writeZero off.toNat h) else none
  else none

/-- The image context of an image of the given size. -/
def imgInitCtx (opts : PartmanOpts) (sz : ℕ) : ImgCtx :=
  let ctx := imgCtxInit (UInt64.ofNat sz)
  let ctx := if opts.secSz != 0 then { ctx with secSz := opts.secSz } else ctx
  let ctx := if opts.align != 0 then { ctx with align := opts.align } else ctx
  let ctx := if opts.hpc != 0 then { ctx with hpc := opts.hpc } else ctx
  if opts.spt != 0 then { ctx with spt := opts.spt } else ctx

/-- `img_init` from its label on: the image context, unless it is not valid. -/
def imgInitLabel (opts : PartmanOpts) (file : ImgFile) : Option ImgCtx :=
  let ctx := imgInitCtx opts file.sz
  if imgCtxValidate ctx = .ok then some ctx else none

/-- `img_init`: the image context, unless the image cannot be used, and the file. -/
def imgInit (host : Host) (opts : PartmanOpts) (file : ImgFile) : Option ImgCtx × ImgFile :=
  if !host.seekEnd then (none, file)
  else if UInt64.ofNat file.sz ≥ opts.imgSz then (imgInitLabel opts file, file)
  else
    match file.extend host opts with
    | none => (none, file)
    | some file => (imgInitLabel opts file, file)

/-- `EXIT_FAILURE`. -/
def exitFailure : ℕ := 1

/-- The value of a result as an integer. -/
def Pres.toNat : Pres → ℕ
  | .fail => 0
  | .ok => 1

/-- What a run of the program leaves: the exit status, and the image file, if it has been
opened. -/
structure Outcome where
  status : ℕ
  file : Option ImgFile

/-- `main`; `none` means that the program does not end. -/
def main (fuel : ℕ) (host : Host) (argv : List (List Char)) : Option Outcome :=
  match optsParse argv with
  | .error _ => some ⟨exitFailure, none⟩
  | .ok opts =>
    match host.openImg opts.imgName with
    | none => some ⟨exitFailure, none⟩
    | some file =>
      match imgInit host opts file with
      | (none, file) => some ⟨exitFailure, some file⟩
      | (some ctx, file) =>
        let l := schemCtxLoad host.sys file.img schemCtxInit ctx host.rng
        -- the result of the load or of the loop is the exit status
        if l.res = .fail then some ⟨l.res.toNat, some file⟩
        else
          (routineStart fuel ctx host.plats
            ⟨l.sc, schemCtxGetType l.sc, host.inp, l.rng, file.img⟩).map fun (res, p) =>
              ⟨res.toNat, some { file with img := p.img }⟩

end Partman

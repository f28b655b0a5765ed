/-
# The user interface loop (`main.c`, `scan_char` of `scan.c`)

Every pass of the loop reads one line and handles it as a command.  Each command meets the
platform anew, so the passes are given one platform each.
-/
import Partman.Lib.Loop
import Partman.Model.Main

namespace Partman

/-- `scan_char`: the first character of the line that is no blank. -/
def scanChar (inp : Input) : ScanRes × Char × Input :=
  let (res, s, inp) := scanStr inp
  if res ≠ .ok then (res, '\x00', inp)
  else
    match s.dropWhile isSpace with
    | c :: _ => (.ok, c, inp)
    | [] => (.fail, '\x00', inp)

/-- The way in which the loop goes on after a command. -/
def Action.pass (a : Action) : Lib.Pass Prog (Pres × Prog) :=
  match a.res with
  | .cont => .again a.prog
  | .exitOk => .exit (.ok, a.prog)
  | .exitFatal => .exit (.fail, a.prog)

/-- One pass of the loop of `routine_start`.  A line without a command is handled as the
zero character. -/
def routinePass (fuel : ℕ) (ctx : ImgCtx) (sys : Sys) (p : Prog) :
    Option (Lib.Pass Prog (Pres × Prog)) :=
  let (scanRes, c, inp) := scanChar p.inp
  if scanRes = .eof then some (.exit (.ok, { p with inp := inp }))
  else
    let c := if scanRes ≠ .ok then '\x00' else c
    (actionHandle fuel sys ctx { p with inp := inp } c).map Action.pass

/-- `routine_start`, from the state that the load has left. -/
def routineStart (fuel : ℕ) (ctx : ImgCtx) (plats : List Sys) (p : Prog) : Option (Pres × Prog) :=
  Lib.loop (routinePass fuel ctx) plats { p with schemCurT := schemCtxGetType p.sc }

end Partman

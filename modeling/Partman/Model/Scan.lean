/-
# User input (`scan.c`)

The standard input is the list of what the successive calls of `fgets` deliver; when the
list is used up the input is at its end.  Every prompt returns the rest of the input.
-/
import Partman.Lib.Pieces
import Partman.Model.ImgCtx
import Partman.Model.Guid

namespace Partman

/-- `enum scan_res`. -/
inductive ScanRes
  | ok
  | empty
  | eof
  | fail
deriving DecidableEq, Repr

/-- The standard input. -/
abbrev Input := List Fgets

/-- The size of every buffer that is handed to `fgets`. -/
def scanBufSz : ℕ := 256

/-- What the calls of `fgets` deliver on a text: each takes a line, or as much of it as the
buffer has room for besides the zero character. -/
def stdinOf (text : List Char) : Input := (Lib.pieces '\n' (scanBufSz - 2) text).map .line

/-- `scan_str`: the line up to its first newline, carriage return or zero character. -/
def scanStr : Input → ScanRes × List Char × Input
  | [] => (.eof, [], [])
  | .eof :: inp => (.eof, [], inp)
  | .err :: inp => (.fail, [], inp)
  | .line s :: inp =>
    let s := s.takeWhile fun c => c != '\n' && c != '\r' && c != '\x00'
    (if s.isEmpty then .empty else .ok, s, inp)

/-- `scan_guid`. -/
def scanGuid (inp : Input) : ScanRes × Guid × Input :=
  let (res, s, inp) := scanStr inp
  if res ≠ .ok then (res, Guid.zero, inp)
  else
    match strToGuid s with
    | some guid => (.ok, guid, inp)
    | none => (.fail, Guid.zero, inp)

/-- `scan_int` with the format of a blank and one conversion.  A conversion without a
field width reads as far as the line goes. -/
def scanInt (base : ℕ) (inp : Input) : ScanRes × Pu64 × Input :=
  let (res, s, inp) := scanStr inp
  if res ≠ .ok then (res, 0, inp)
  else
    match scanUInt base s.length (s.dropWhile isSpace) with
    | some (i, _) => (.ok, i, inp)
    | none => (.fail, 0, inp)

/-- The string that `str_trim` returns. -/
def strTrim (s : List Char) : List Char :=
  ((s.dropWhile isSpace).reverse.dropWhile isSpace).reverse

/-- The characters of the modifiers of `prompt_sector_ext`. -/
def modifiers : List Char := ['K', 'M', 'G', 'T', 'P']

/-- `1 << k` as a value of type `int`, converted to `pu64`. -/
def intShl (sys : Sys) (k : ℕ) : Pu64 := if k < 31 then 1 <<< UInt64.ofNat k else sys.intShl k

/-- The loop of `prompt_sector_ext` over the modifiers. -/
def modVal (sys : Sys) (modC : Char) : Plba :=
  (List.range modifiers.length).foldl (fun v i =>
    if toUpper modC != modifiers.getD i '\x00' then v else intShl sys (10 * (i + 1))) 0

/-- `prompt_sector_ext` on a line that is not empty. -/
def sectorExtOf (sys : Sys) (start last : Plba) (secSz : Pu64) (line : List Char) :
    Option Plba :=
  let s := strTrim line
  if s.length < 1 then none
  else
    -- the modifier is peeled off the end, then the sign off the start
    let modC := if !isDigit (s.getLastD '\x00') then s.getLastD '\x00' else '\x00'
    let s := if !isDigit (s.getLastD '\x00') then s.dropLast else s
    let signC := if !isDigit (s.headD '\x00') then s.headD '\x00' else '\x00'
    let s := if !isDigit (s.headD '\x00') then s.tail else s
    if modC != '\x00' && signC == '\x00' then none
    else
      match scanUInt 10 s.length s with
      | none => none
      | some (n, _) =>
        let n? := if modC != '\x00' then
            if modVal sys modC == 0 then none else some (n * modVal sys modC / secSz)
          else some n
        match n? with
        | none => none
        | some n =>
          let v? := if signC != '\x00' then
              if signC == '+' then some (n + (start - 1))
              else if signC == '-' then some (last - n)
              else none
            else some n
          match v? with
          | none => none
          | some v => if v < start || v > last then none else some v

/-- `prompt_sector_ext`: the outcome and the sector that was entered. -/
def promptSectorExt (sys : Sys) (start last dflt : Plba) (secSz : Pu64) (inp : Input) :
    ScanRes × Plba × Input :=
  let (res, s, inp) := scanStr inp
  if res = .empty then (.ok, dflt, inp)
  else if res ≠ .ok then (res, 0, inp)
  else
    match sectorExtOf sys start last secSz s with
    | some v => (.ok, v, inp)
    | none => (.fail, 0, inp)

/-- `prompt_range_pu32` and `prompt_range_pu64`: on this platform both types have 64 bits
and both conversions read the same. -/
def promptRange (start last dflt : Pu64) (inp : Input) : ScanRes × Pu64 × Input :=
  let (res, i, inp) := scanInt 10 inp
  if res = .empty then (.ok, dflt, inp)
  else if res ≠ .ok then (res, i, inp)
  else if i < start || i > last then (.fail, i, inp)
  else (.ok, i, inp)

end Partman

/-
# Program options (`options.c`)

`getopt_long` is the scan of the words behind the program name; an option or an argument
that is missing is the character `?`, which `opts_parse` handles as an unknown option.
-/
import Partman.Lib.Getopt
import Partman.Model.Stdio

namespace Partman

/-- `enum log_level`, as far as an option can set it. -/
inductive LogLevel
  | debug
  | info
  | warn
  | error
deriving DecidableEq, Repr

structure PartmanOpts where
  logLevel : LogLevel
  imgName : List Char
  secSz : Pu64
  imgSz : Pu64
  align : Plba
  hpc : Pu8
  spt : Pu8
deriving DecidableEq, Repr

/-- `opts_long`. -/
def optsLong : List (List Char × Char) :=
  [("log-level".toList, 'L'), ("sector-size".toList, 'b'), ("min-img-size".toList, 'm'),
    ("alignment".toList, 'a'), ("heads".toList, 'H'), ("sectors".toList, 'S')]

/-- The letters of `opt_str`, each of which is followed by a colon. -/
def optStr : List Char := ['L', 'b', 'm', 'a', 'H', 'S']

/-- The table that `getopt_long` is called with. -/
def optsTable : Lib.OptTable Char where
  short c := if c ∈ optStr then some c else none
  long := optsLong
  short_dash := by decide
  nodup := by decide
  plain := by decide

/-- `opts_err`: the message. -/
def optsErr (execName reason : List Char) : List Char :=
  "Usage: ".toList ++ execName ++ " [OPTION]... [IMG_FILE]\n(".toList ++ reason ++ ")\n".toList

def optsParseLogLevel (arg : List Char) : Option LogLevel :=
  if arg = "DEBUG".toList then some .debug
  else if arg = "INFO".toList then some .info
  else if arg = "WARN".toList then some .warn
  else if arg = "ERROR".toList then some .error
  else none

def optsParsePu64 (arg : List Char) : Option Pu64 :=
  (scanUInt 10 arg.length arg).map Prod.fst

def optsParsePu8 (arg : List Char) : Option Pu8 :=
  match scanUInt 10 arg.length arg with
  | none => none
  | some (i, _) => if i &&& ~~~(0xFF : Pu64) != 0 then none else some i.toUInt8

/-- `opts_init_default`, where `DEBUG` is not defined. -/
def optsInitDefault : PartmanOpts where
  logLevel := .info
  imgName := []
  secSz := 0
  imgSz := 0
  align := 0
  hpc := 0
  spt := 0

/-- What an option sets, or the reason for which its argument is refused. -/
def optsSet {α : Type} (parsed : Option α) (name : String) (set : α → PartmanOpts) :
    Except (List Char) PartmanOpts :=
  match parsed with
  | some i => .ok (set i)
  | none => .error (name.toList ++ " - invalid value".toList)

/-- The `switch` of `opts_parse`, on an option and its argument. -/
def optsSwitch (opts : PartmanOpts) (c : Char) (optarg : List Char) :
    Except (List Char) PartmanOpts :=
  if c = 'L' then
    optsSet (optsParseLogLevel optarg) "log-level" fun i => { opts with logLevel := i }
  else if c = 'b' then
    optsSet (optsParsePu64 optarg) "sector-size" fun i => { opts with secSz := i }
  else if c = 'm' then
    optsSet (optsParsePu64 optarg) "min-img-size" fun i => { opts with imgSz := i }
  else if c = 'a' then
    optsSet (optsParsePu64 optarg) "alignment" fun i => { opts with align := i }
  else if c = 'H' then
    optsSet (optsParsePu8 optarg) "heads" fun i => { opts with hpc := i }
  else if c = 'S' then
    optsSet (optsParsePu8 optarg) "sectors" fun i => { opts with spt := i }
  else .error "Unknown option".toList

/-- The loop of `opts_parse` over the options that are there. -/
def optsLoop (opts : PartmanOpts) : List (Char × List Char) → Except (List Char) PartmanOpts
  | [] => .ok opts
  | (c, optarg) :: settings =>
    match optsSwitch opts c optarg with
    | .ok opts => optsLoop opts settings
    | .error reason => .error reason

/-- `opts_parse`: the options, or the message. -/
def optsParse : List (List Char) → Except (List Char) PartmanOpts
  | [] => .error (optsErr "partman".toList "argc <= 0".toList)
  | execName :: words =>
    let scan := optsTable.scan words
    match optsLoop optsInitDefault scan.settings with
    | .error reason => .error (optsErr execName reason)
    | .ok opts =>
      match scan.operands with
      | none => .error (optsErr execName "Unknown option".toList)
      | some [imgName] => .ok { opts with imgName := imgName }
      | some _ => .error (optsErr execName "Missing image file name".toList)

end Partman

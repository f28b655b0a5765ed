/-
# The part of the C library that reads and writes text

Characters of the C locale, and the `sscanf` and `sprintf` conversions the program uses.  A
conversion of `sscanf` takes the rest of the input and returns the value together with what
it has not consumed; `none` is a matching failure.
-/
import Partman.Model.MemUtils

namespace Partman

def isSpace (c : Char) : Bool :=
  c == ' ' || c == '\t' || c == '\n' || c == '\x0b' || c == '\x0c' || c == '\r'

def isDigit (c : Char) : Bool := '0' ≤ c && c ≤ '9'

def toUpper (c : Char) : Char := if 'a' ≤ c && c ≤ 'z' then Char.ofNat (c.toNat - 32) else c

/-- The value of a character as a digit, in bases up to sixteen. -/
def digitVal (c : Char) : Option ℕ :=
  if isDigit c then some (c.toNat - '0'.toNat)
  else if 'A' ≤ toUpper c && toUpper c ≤ 'F' then some ((toUpper c).toNat - 'A'.toNat + 10)
  else none

/-- Whether a character is a digit of the base. -/
def isBaseDigit (base : ℕ) (c : Char) : Bool :=
  match digitVal c with
  | some d => d < base
  | none => false

/-- The number written by a string of digits. -/
def digitsVal (base : ℕ) (ds : List Char) : ℕ :=
  ds.foldl (fun n c => n * base + (digitVal c).getD 0) 0

/-- `strtoul` on a sign and digits: a value that does not fit is the largest one, and a
minus sign negates in the unsigned type. -/
def strtoul (base : ℕ) (neg : Bool) (ds : List Char) : Pu64 :=
  let n := digitsVal base ds
  if n ≥ 2 ^ 64 then 0xFFFFFFFFFFFFFFFF
  else if neg then 0 - UInt64.ofNat n else UInt64.ofNat n

/-- An optional sign, unless the field width is used up. -/
def scanSign (w : ℕ) (s : List Char) : Bool × ℕ × List Char :=
  match w, s with
  | w + 1, '-' :: s => (true, w, s)
  | w + 1, '+' :: s => (false, w, s)
  | w, s => (false, w, s)

/-- The prefix `0x` of a hexadecimal number, where the field width leaves room for it. -/
def scanHexPrefix (w : ℕ) (s : List Char) : ℕ × List Char :=
  match w, s with
  | w + 2, '0' :: x :: s => if toUpper x == 'X' then (w, s) else (w + 2, '0' :: x :: s)
  | w, s => (w, s)

/-- The conversions `%lu`, `%llu` (base ten) and `%lx`, `%lX` (base sixteen) with a field
width: blanks are skipped, then a sign, a prefix and digits are read within the width. -/
def scanUInt (base w : ℕ) (s : List Char) : Option (Pu64 × List Char) :=
  let (neg, w, s) := scanSign w (s.dropWhile isSpace)
  let (w, s) := if base = 16 then scanHexPrefix w s else (w, s)
  let ds := (s.take w).takeWhile (isBaseDigit base)
  if ds.isEmpty then none else some (strtoul base neg ds, s.drop ds.length)

/-- A character of the format that has to be met literally. -/
def scanLit (c : Char) (s : List Char) : Option (List Char) :=
  match s with
  | d :: s => if d == c then some s else none
  | [] => none

/-- The hexadecimal digit of a number below sixteen, in upper case. -/
def hexDigit (d : ℕ) : Char := if d < 10 then Char.ofNat (48 + d) else Char.ofNat (55 + d)

/-- The last `w` hexadecimal digits of a number. -/
def nibbles (w n : ℕ) : List Char :=
  (List.range w).map fun i => hexDigit (n / 16 ^ (w - 1 - i) % 16)

/-- The conversion `%0wX` of `sprintf`: all hexadecimal digits from the first that is not
zero, and at least `w`. -/
def hexPad (w : ℕ) (n : Pu64) : List Char :=
  (nibbles 16 n.toNat).drop
    (min ((nibbles 16 n.toNat).takeWhile (· == '0')).length (16 - w))

/-- The conversions `%lu`, `%llu` and `%d` of `printf`, on a number that is not negative. -/
def decimal (n : ℕ) : List Char := Nat.toDigits 10 n

/-- What a call of `fgets` on the standard input delivers. -/
inductive Fgets
  /-- A line, or the part of it that fits into the buffer. -/
  | line (s : List Char)
  /-- The end of the input. -/
  | eof
  /-- A read error. -/
  | err
deriving DecidableEq, Repr

end Partman

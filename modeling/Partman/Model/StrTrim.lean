/-
# Trimming a string in memory (`str_trim`)

Index 0 is the first character of the buffer; what lies below the buffer and behind the
string is memory as well.  Every access is recorded.  The loops run on fuel: what they do
without end has no result.
-/
import Partman.Model.Stdio

namespace Partman

/-- Memory around the buffer, and the indices that have been read or written. -/
structure CharMem where
  mem : ℤ → Char
  log : List ℤ

namespace CharMem

def read (m : CharMem) (i : ℤ) : Char × CharMem := (m.mem i, { m with log := m.log ++ [i] })

def write (m : CharMem) (i : ℤ) (c : Char) : CharMem where
  mem := fun j => if j = i then c else m.mem j
  log := m.log ++ [i]

end CharMem

/-- The loop over the leading blanks: the index at which it stops. -/
def skipBlanks : ℕ → ℤ → CharMem → Option (ℤ × CharMem)
  | 0, _, _ => none
  | fuel + 1, s, m =>
    let (c, m) := m.read s
    if isSpace c then skipBlanks fuel (s + 1) m else some (s, m)

def strlen : ℕ → ℤ → CharMem → Option (ℕ × CharMem)
  | 0, _, _ => none
  | fuel + 1, s, m =>
    let (c, m) := m.read s
    if c == '\x00' then some (0, m)
    else (strlen fuel (s + 1) m).map fun (n, m) => (n + 1, m)

/-- The loop over the trailing blanks. -/
def cutBlanks : ℕ → ℤ → ℤ → CharMem → Option CharMem
  | 0, _, _, _ => none
  | fuel + 1, s, len, m =>
    let (c, m) := m.read (s + (len - 1))
    if isSpace c then cutBlanks fuel s (len - 1) (m.write (s + (len - 1)) '\x00') else some m

/-- `str_trim` on the string at index 0: the index that it returns and the memory.  The
length is an `int`. -/
def strTrimMem (fuel : ℕ) (mem : ℤ → Char) : Option (ℤ × CharMem) := do
  let (s, m) ← skipBlanks fuel 0 ⟨mem, []⟩
  let (n, m) ← strlen fuel s m
  let len := Int.bmod n (2 ^ 32)
  let m ← cutBlanks fuel s len m
  return (s, m)

end Partman

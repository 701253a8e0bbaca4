import ChronyRs.Core.Text

/-!
# Words and lines of configuration text (`cmdparse.rs`)

The port of the C helpers works on bytes with C's `isspace`. All spaces of the C locale are ASCII,
so the words of a text are the same whether its bytes or its characters are looked at;
`normalize_line` however writes every byte as a character of its own, and turns a character that is
not ASCII into several.
-/
namespace ChronyRs.L1.CmdParse

open ChronyRs.Text

/-- mirrors cmdparse.rs:38-53 -/
def splitWord (line : Str) : Str × Str :=
  let s := line.dropWhile isCSpace
  (s.takeWhile (!isCSpace ·), (s.dropWhile (!isCSpace ·)).dropWhile isCSpace)

/-- `p as char`. -/
def byteChar (p : UInt8) : Char := Char.ofNat p.toNat

def isComment (c : Char) : Bool := c == '!' || c == ';' || c == '#' || c == '%'

/-- The loop of `normalize_line`; the flags are `space` and `first`. -/
def normalizeBytes : Bytes → Bool → Bool → Str
  | [], _, _ => []
  | p :: ps, space, first =>
    if isCSpace (byteChar p) then
      if space then normalizeBytes ps true first else ' ' :: normalizeBytes ps true first
    else if first && isComment (byteChar p) then []
    else byteChar p :: normalizeBytes ps false false

/-- mirrors cmdparse.rs:58-81 -/
def normalizeLine (line : Str) : Str :=
  let out := normalizeBytes (utf8 line) true true
  if out.getLast? = some ' ' then out.dropLast else out

/-- mirrors cmdparse.rs:108-111 -/
def scanLeadingU32 (s : Str) : Option UInt32 := parseU32 10 (s.takeWhile Char.isDigit)

/-- mirrors cmdparse.rs:117-134 -/
def parseKey (line : Str) : Option (UInt32 × Str × Str) :=
  let (w1, r1) := splitWord line
  let (w2, r2) := splitWord r1
  let (w3, r3) := splitWord r2
  let (w4, _) := splitWord r3
  if w2 = [] ∨ w4 ≠ [] then none
  else do
    let id ← scanLeadingU32 w1
    return if w3 ≠ [] then (id, w2, w3) else (id, "MD5".toList, w2)

end ChronyRs.L1.CmdParse

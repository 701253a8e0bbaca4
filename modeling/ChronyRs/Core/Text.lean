import ChronyRs.Core.Rust
import Mathlib.Data.Nat.Digits.Lemmas

/-!
# Text

A Rust `str` is the list of its characters; `utf8` gives its bytes. Lines, words and integers are
read and written as the standard library does it.

* `words_cons`, `words_single`: the first word, and a text of one word.
-/
namespace ChronyRs

abbrev Str := List Char

namespace Text

/-- `str::as_bytes`. -/
def utf8 (s : Str) : Bytes := s.flatMap String.utf8EncodeChar

@[simp] theorem utf8_nil : utf8 [] = [] := rfl

@[simp] theorem utf8_cons (c : Char) (s : Str) :
    utf8 (c :: s) = String.utf8EncodeChar c ++ utf8 s := rfl

/-! ## Lines and words -/

def stripCr (line : Str) : Str := if line.getLast? = some '\r' then line.dropLast else line

/-- `str::lines`: a text that ends in a newline has no line behind it. -/
def lines (s : Str) : List Str :=
  let pieces := s.splitOnP (· == '\n')
  let last := pieces.getLastD []
  pieces.dropLast.map stripCr ++ if last = [] then [] else [last]

/-- C `isspace`. -/
def isCSpace (c : Char) : Bool :=
  c == ' ' || c == '\t' || c == '\n' || c == '\x0b' || c == '\x0c' || c == '\r'

/-- The runs of other characters between those that satisfy `p`. -/
def words (p : Char → Bool) (s : Str) : List Str := (s.splitOnP p).filter (· ≠ [])

theorem words_cons {p : Char → Bool} {w : Str} (hne : w ≠ []) (hw : ∀ c ∈ w, p c = false) {c : Char}
    (hc : p c = true) (s : Str) : words p (w ++ c :: s) = w :: words p s := by
  unfold words
  rw [List.splitOnP_append_cons_of_forall_mem hw c hc]
  simp [hne]

theorem words_single {p : Char → Bool} {w : Str} (hne : w ≠ []) (hw : ∀ c ∈ w, p c = false) :
    words p w = [w] := by
  unfold words
  rw [List.splitOnP_eq_singleton hw]
  simp [hne]

/-! ## Digits -/

/-- `char::to_digit`. -/
def digitValue (radix : Nat) (c : Char) : Option Nat :=
  let d := if '0' ≤ c ∧ c ≤ '9' then some (c.toNat - '0'.toNat)
    else if 'a' ≤ c ∧ c ≤ 'z' then some (c.toNat - 'a'.toNat + 10)
    else if 'A' ≤ c ∧ c ≤ 'Z' then some (c.toNat - 'A'.toNat + 10)
    else none
  d.filter (· < radix)

/-- The digit that the formatter writes, in upper case. -/
def digitChar (d : Nat) : Char := if d < 10 then Char.ofNat (48 + d) else Char.ofNat (55 + d)

/-- The digits of a number, the most significant one first. -/
def text (radix n : Nat) : Str :=
  if n = 0 then ['0'] else (Nat.digits radix n).reverse.map digitChar

/-- The value of a nonempty string of digits. -/
def parseDigits (radix : Nat) (s : Str) : Option Nat :=
  if s = [] then none else (s.mapM (digitValue radix)).map (List.foldl (fun v d => v * radix + d) 0)

/-! ## Integers -/

/-- `u32::from_str_radix`: an optional plus sign, then digits; `None` for every error. -/
def parseU32 (radix : Nat) (s : Str) : Option UInt32 :=
  let digits := if s.head? = some '+' then s.tail else s
  ((parseDigits radix digits).filter (· < 2 ^ 32)).map UInt32.ofNat

end Text

end ChronyRs

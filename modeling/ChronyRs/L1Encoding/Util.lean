import ChronyRs.Core.Text

/-!
# Hexadecimal text (`util.rs`)
-/
namespace ChronyRs.L1.Util

open ChronyRs.Text

def hexPairs : Bytes → Option Bytes
  | hi :: lo :: rest => do
    let hi ← digitValue 16 (Char.ofNat hi.toNat)
    let lo ← digitValue 16 (Char.ofNat lo.toNat)
    return UInt8.ofNat (hi * 16 + lo) :: (← hexPairs rest)
  | _ => some []

/-- mirrors util.rs:89-101 -/
def hexToBytes (hex : Str) : Option Bytes :=
  let h := utf8 hex
  if h.length % 2 ≠ 0 then none else hexPairs h

end ChronyRs.L1.Util

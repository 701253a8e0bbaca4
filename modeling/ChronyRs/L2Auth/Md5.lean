import ChronyRs.Core.Rust

/-!
# MD5 (`md5.rs`, `hash_intmd5.rs`)

`Md5` is the streaming context: the four words of the state, the length in bits, and
the bytes of the block that is not full yet. `update` and `finalize` are written over
the compression function, of which they only ask that it maps a state and a block to
a state; `transform` is that of the code.

* `Md5.pending_lt` (a field): a full block never waits.
* `hash_length`: the backend writes sixteen bytes, or what there is room for.
-/
namespace ChronyRs.L2

/-- mirrors md5.rs:53-62. Of `buffer` only the first `buflen`
bytes are ever read; they are `pending`. -/
structure Md5 where
  state : UInt32 × UInt32 × UInt32 × UInt32
  bits : UInt64
  pending : Bytes
  pending_lt : pending.length < 64

namespace Md5

abbrev State := UInt32 × UInt32 × UInt32 × UInt32

/-- mirrors md5.rs:72-79 -/
def new : Md5 := ⟨(0x67452301, 0xefcdab89, 0x98badcfe, 0x10325476), 0, [], by decide⟩

/-- The loop of `update`. Every turn takes at least one byte, so as many turns as there
are bytes are enough. mirrors md5.rs:85-95 -/
def absorb (transform : State → Bytes → State) : Nat → State → Bytes → Bytes → State × Bytes
  | 0, state, pending, _ => (state, pending)
  | n + 1, state, pending, data =>
    let take := min (64 - pending.length) data.length
    let block := pending ++ data.take take
    if data = [] then (state, pending)
    else if block.length = 64 then absorb transform n (transform state block) [] (data.drop take)
    else absorb transform n state block (data.drop take)

theorem absorb_lt (transform : State → Bytes → State) : ∀ n state pending data,
    pending.length < 64 → (absorb transform n state pending data).2.length < 64
  | 0, _, _, _, h => h
  | n + 1, state, pending, data, h => by
    unfold absorb
    dsimp only
    split
    · exact h
    split
    · exact absorb_lt transform n _ _ _ (by decide)
    · rename_i hne
      refine absorb_lt transform n _ _ _ ?_
      simp only [List.length_append, List.length_take] at hne ⊢
      omega

/-- mirrors md5.rs:83-96 -/
def update (transform : State → Bytes → State) (ctx : Md5) (data : Bytes) : Md5 :=
  { state := (absorb transform data.length ctx.state ctx.pending data).1
    bits := ctx.bits + UInt64.ofNat data.length <<< 3
    pending := (absorb transform data.length ctx.state ctx.pending data).2
    pending_lt := absorb_lt transform _ _ _ _ ctx.pending_lt }

/-- `u32::to_le_bytes`. -/
def le32 (x : UInt32) : Bytes := (be32 x).reverse

/-- `u64::to_le_bytes`. -/
def le64 (x : UInt64) : Bytes := le32 x.toUInt32 ++ le32 (x >>> 32).toUInt32

/-- mirrors md5.rs:100-119 -/
def finalize (transform : State → Bytes → State) (ctx : Md5) : Bytes :=
  let padlen :=
    if ctx.pending.length < 56 then 56 - ctx.pending.length else 120 - ctx.pending.length
  let padded := ctx.update transform (((0x80 : UInt8) :: List.replicate 71 0).take padlen)
  let (a, b, c, d) := (padded.update transform (le64 ctx.bits)).state
  le32 a ++ le32 b ++ le32 c ++ le32 d

/-! ## The compression function -/

/-- mirrors md5.rs:29-34 -/
def shifts : List (List UInt32) :=
  [[7, 12, 17, 22], [5, 9, 14, 20], [4, 11, 16, 23], [6, 10, 15, 21]]

/-- mirrors md5.rs:38-49 -/
def sines : List UInt32 :=
  [0xd76aa478, 0xe8c7b756, 0x242070db, 0xc1bdceee, 0xf57c0faf, 0x4787c62a, 0xa8304613,
   0xfd469501, 0x698098d8, 0x8b44f7af, 0xffff5bb1, 0x895cd7be, 0x6b901122, 0xfd987193,
   0xa679438e, 0x49b40821, 0xf61e2562, 0xc040b340, 0x265e5a51, 0xe9b6c7aa, 0xd62f105d,
   0x02441453, 0xd8a1e681, 0xe7d3fbc8, 0x21e1cde6, 0xc33707d6, 0xf4d50d87, 0x455a14ed,
   0xa9e3e905, 0xfcefa3f8, 0x676f02d9, 0x8d2a4c8a, 0xfffa3942, 0x8771f681, 0x6d9d6122,
   0xfde5380c, 0xa4beea44, 0x4bdecfa9, 0xf6bb4b60, 0xbebfbc70, 0x289b7ec6, 0xeaa127fa,
   0xd4ef3085, 0x04881d05, 0xd9d4d039, 0xe6db99e5, 0x1fa27cf8, 0xc4ac5665, 0xf4292244,
   0x432aff97, 0xab9423a7, 0xfc93a039, 0x655b59c3, 0x8f0ccc92, 0xffeff47d, 0x85845dd1,
   0x6fa87e4f, 0xfe2ce6e0, 0xa3014314, 0x4e0811a1, 0xf7537e82, 0xbd3af235, 0x2ad7d2bb,
   0xeb86d391]

/-- `u32::rotate_left`. -/
def rotateLeft (x n : UInt32) : UInt32 := x <<< n ||| x >>> (32 - n)

/-- Word `i` of a block. -/
def word (block : Bytes) (i : Nat) : UInt32 :=
  UInt32.ofNat (fromBe ((block.drop (4 * i)).take 4).reverse)

/-- mirrors md5.rs:145-158 -/
def round (block : Bytes) : State → Nat → State
  | (a, b, c, d), i =>
    let (f, g) :=
      if i < 16 then ((b &&& c) ||| (~~~b &&& d), i)
      else if i < 32 then ((d &&& b) ||| (~~~d &&& c), (5 * i + 1) % 16)
      else if i < 48 then (b ^^^ c ^^^ d, (3 * i + 5) % 16)
      else (c ^^^ (b ||| ~~~d), 7 * i % 16)
    let sum := a + f + sines.getD i 0 + word block g
    (d, b + rotateLeft sum ((shifts.getD (i / 16) []).getD (i % 4) 0), b, c)

/-- mirrors md5.rs:131-165 -/
def transform : State → Bytes → State
  | (a, b, c, d), block =>
    let (a', b', c', d') := (List.range 64).foldl (round block) (a, b, c, d)
    (a + a', b + b', c + c', d + d')

def digest (in1 in2 : Bytes) : Bytes :=
  ((new.update transform in1).update transform in2).finalize transform

theorem digest_length (in1 in2 : Bytes) : (digest in1 in2).length = 16 := rfl

/-- The bytes that `HSH_Hash` writes to a slice of `n` bytes; it returns their number.
mirrors hash_intmd5.rs:56-64 -/
def hash (in1 in2 : Bytes) (n : Nat) : Bytes := (digest in1 in2).take (min n 16)

theorem hash_length (in1 in2 : Bytes) (n : Nat) : (hash in1 in2 n).length = min n 16 := by
  rw [hash, List.length_take, digest_length]
  omega

/-- The digest of `abc`, hashed in two pieces and cut off. -/
example : hash [0x61, 0x62] [0x63] 4 = [0x90, 0x01, 0x50, 0x98] := by decide +kernel

end Md5

end ChronyRs.L2

import ChronyRs.Core.Blocks
import ChronyRs.L2Auth.Md5

/-!
# MD5 of a message that comes in pieces (`md5.rs`)

The padding goes through `update` like the message, behind however much of a block is waiting.

* `Absorbed.update`: after any pieces, the blocks of what they make up have been compressed and the
  rest waits.
* `finalize_blocks`: `finalize` compresses the blocks of the padded message, for every compression
  function and every way to cut the message; so `hash` is the digest of its two inputs put together.
-/
namespace ChronyRs.L2.Md5

variable {compress : State → Bytes → State} {ctx : Md5} {message : Bytes}

/-- `Md5::digest`. mirrors md5.rs:122-126 -/
def oneShot (data : Bytes) : Bytes := (new.update transform data).finalize transform

/-- What RFC 1321 appends: `0x80`, zeros up to eight bytes before the end of a block, and the low 64
bits of the length in bits, the lowest byte first. -/
def padding (message : Bytes) : Bytes :=
  0x80 :: List.replicate ((119 - message.length % 64) % 64) 0 ++
    (List.range 8).map fun i => UInt8.ofNat (8 * message.length / 256 ^ i)

/-- The context at the end of `finalize`. -/
def closed (compress : State → Bytes → State) (ctx : Md5) : Md5 :=
  let padlen :=
    if ctx.pending.length < 56 then 56 - ctx.pending.length else 120 - ctx.pending.length
  (ctx.update compress (((0x80 : UInt8) :: List.replicate 71 0).take padlen)).update compress
    (le64 ctx.bits)

def leWords : State → Bytes
  | (a, b, c, d) => le32 a ++ le32 b ++ le32 c ++ le32 d

theorem finalize_eq (compress : State → Bytes → State) (ctx : Md5) :
    finalize compress ctx = leWords (closed compress ctx).state := rfl

/-! ## The loop of `update` -/

/-- A turn either fills the block or takes all that is left. -/
theorem absorb_eq (compress : State → Bytes → State) (fuel : Nat) :
    ∀ state pending data, pending.length < 64 →
    data.length ≤ fuel → absorb compress fuel state pending data =
      ((Blocks.full 64 (pending ++ data)).foldl compress state,
        Blocks.rest 64 (pending ++ data)) := by
  induction fuel with
  | zero =>
    intro state pending data hp hd
    rw [List.length_eq_zero_iff.1 (Nat.le_zero.1 hd), List.append_nil, Blocks.full_of_lt hp,
      Blocks.rest_of_lt hp]
    rfl
  | succ fuel ih =>
    intro state pending data hp hd
    rw [absorb]
    split
    · next hnil => rw [hnil, List.append_nil, Blocks.full_of_lt hp, Blocks.rest_of_lt hp]; rfl
    have hpos := List.length_pos_iff.2 ‹data ≠ []›
    generalize htake : min (64 - pending.length) data.length = take
    have hcut : pending ++ data = (pending ++ data.take take) ++ data.drop take := by
      rw [List.append_assoc, List.take_append_drop]
    have hdrop : (data.drop take).length ≤ fuel := by rw [List.length_drop]; omega
    split
    · next hfull =>
      rw [ih _ _ _ (by decide) hdrop, List.nil_append, hcut, Blocks.full_cons (by decide) hfull,
        Blocks.rest_cons (by decide) hfull, List.foldl_cons]
    · next hpart =>
      rw [List.length_append, List.length_take] at hpart
      rw [ih _ _ _ (by rw [List.length_append, List.length_take]; omega) hdrop, ← hcut]

/-- What a context holds after the bytes of `message`. -/
structure Absorbed (compress : State → Bytes → State) (ctx : Md5) (message : Bytes) : Prop where
  state : ctx.state = (Blocks.full 64 message).foldl compress new.state
  pending : ctx.pending = Blocks.rest 64 message
  bits : ctx.bits = UInt64.ofNat (8 * message.length)

theorem Absorbed.new : Absorbed compress new [] := ⟨rfl, rfl, rfl⟩

theorem Absorbed.update (h : Absorbed compress ctx message) (data : Bytes) :
    Absorbed compress (ctx.update compress data) (message ++ data) := by
  have hloop :=
    absorb_eq compress data.length ctx.state ctx.pending data ctx.pending_lt (Nat.le_refl _)
  obtain ⟨hfull, hrest⟩ := Blocks.append (n := 64) (by decide) message data
  refine ⟨?_, ?_, ?_⟩
  · dsimp only [Md5.update]
    rw [hloop, hfull, List.foldl_append, h.state, h.pending]
  · dsimp only [Md5.update]
    rw [hloop, hrest, h.pending]
  · have hshift : ((3 : UInt64).toNat % 64) = 3 := rfl
    apply UInt64.toNat_inj.1
    rw [Md5.update, h.bits, UInt64.toNat_add, UInt64.toNat_shiftLeft, hshift, Nat.shiftLeft_eq,
      UInt64.toNat_ofNat', UInt64.toNat_ofNat', UInt64.toNat_ofNat', List.length_append]
    omega

theorem Absorbed.pieces (h : Absorbed compress ctx message) (pieces : List Bytes) :
    Absorbed compress (pieces.foldl (Md5.update compress) ctx) (message ++ pieces.flatten) := by
  induction pieces generalizing ctx message with
  | nil => rwa [List.flatten_nil, List.append_nil]
  | cons piece pieces ih =>
    rw [List.flatten_cons, ← List.append_assoc]
    exact ih (h.update piece)

/-! ## The padding -/

theorem le64_ofNat (n : Nat) : le64 (UInt64.ofNat n) = (List.range 8).map fun i =>
    UInt8.ofNat (n / 256 ^ i) := by
  have hbyte : ∀ a b, a % 256 = b % 256 → UInt8.ofNat a = UInt8.ofNat b := fun a b hab =>
    UInt8.toNat_inj.1 (by rw [UInt8.toNat_ofNat', UInt8.toNat_ofNat', hab])
  have hhigh : (UInt64.ofNat n >>> 32).toNat = n % 2 ^ 64 / 2 ^ 32 := by
    rw [UInt64.toNat_shiftRight, UInt64.toNat_ofNat', Nat.shiftRight_eq_div_pow]
    rfl
  simp only [le64, le32, be32, UInt64.toNat_toUInt32, hhigh, UInt64.toNat_ofNat', List.reverse_cons,
    List.reverse_nil,
    List.nil_append, List.cons_append, List.range_succ, List.range_zero, List.map_cons,
      List.map_nil,
    List.cons.injEq, and_true]
  refine ⟨?_, ?_, ?_, ?_, ?_, ?_, ?_, ?_⟩ <;> exact hbyte _ _ (by omega)

theorem take_pad {k : Nat} (h : k ≤ 71) :
    ((0x80 : UInt8) :: List.replicate 71 0).take (k + 1) = 0x80 :: List.replicate k 0 := by
  rw [List.take_succ_cons, List.take_replicate, Nat.min_eq_left h]

theorem length_padded (message : Bytes) : (message ++ padding message).length % 64 = 0 := by
  simp only [padding, List.length_append, List.length_cons, List.length_replicate, List.length_map,
    List.length_range]
  omega

theorem Absorbed.closed (h : Absorbed compress ctx message) :
    Absorbed compress (closed compress ctx) (message ++ padding message) := by
  have hpend : ctx.pending.length = message.length % 64 := by rw [h.pending, Blocks.length_rest]
  have hlen :
      (if message.length % 64 < 56 then 56 - message.length % 64 else 120 - message.length % 64) =
        (119 - message.length % 64) % 64 + 1 := by
    split <;> omega
  rw [Md5.closed, hpend, hlen, take_pad (by omega), h.bits, le64_ofNat,
    padding, ← List.append_assoc]
  exact (h.update _).update _

/-- **Every block of the padded message, in order, and nothing else is compressed.** There is no
bound on the length: of a message of `2 ^ 61` bytes or more the last eight bytes have the number of
bits modulo `2 ^ 64`. -/
theorem finalize_blocks :
    (∀ (compress : State → Bytes → State) (pieces : List Bytes),
      let message := pieces.flatten
      let ctx := pieces.foldl (Md5.update compress) new
      (message ++ padding message).length % 64 = 0 ∧ (closed compress ctx).pending = [] ∧
        finalize compress ctx =
          leWords ((Blocks.full 64 (message ++ padding message)).foldl compress new.state)) ∧
    ∀ in1 in2 n, hash in1 in2 n = (oneShot (in1 ++ in2)).take (min n 16) := by
  have hend : ∀ (compress : State → Bytes → State) (pieces : List Bytes),
      Absorbed compress (closed compress (pieces.foldl (Md5.update compress) new))
        (pieces.flatten ++ padding pieces.flatten) :=
          fun _ pieces => (Absorbed.new.pieces pieces).closed
  refine ⟨fun compress pieces => ⟨length_padded _, ?_, ?_⟩, fun in1 in2 n => ?_⟩
  · rw [(hend compress pieces).pending, ← List.length_eq_zero_iff, Blocks.length_rest,
      length_padded]
  · rw [finalize_eq, (hend compress pieces).state]
  · have htwo := (hend transform [in1, in2]).state
    have hone := (hend transform [in1 ++ in2]).state
    rw [List.flatten_cons, List.flatten_cons, List.flatten_nil, List.append_nil] at htwo
    rw [List.flatten_cons, List.flatten_nil, List.append_nil, ← htwo] at hone
    exact congrArg (fun s => (leWords s).take (min n 16)) hone.symm

end ChronyRs.L2.Md5

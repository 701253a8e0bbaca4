import ChronyRs.Core.BigEndian

/-!
# CMAC and S2V over a block cipher of sixteen bytes

A message that arrives in pieces is chained block by block, and the block that may be the last one
is held back, because the last block is treated in another way than those before it. `absorb` is
that chain, for blocks of any size and any chaining function.

* `absorb_append`: chaining a message in two pieces is chaining it at once, from what was held back.
* `absorb_eq`: the chain as a loop over the numbered blocks of the message.
* `cmac` is the algorithm of RFC 4493 as the RFC writes it, `cmac_eq` the same over `absorb`.
* `s2v` is the algorithm of RFC 5297, section 2.4, over any MAC.
-/
namespace ChronyRs

/-! ## Blocks -/

namespace Buf

variable {n : Nat}

def xor (a b : Buf n) : Buf n := ⟨List.zipWith (· ^^^ ·) a.bytes b.bytes, by simp⟩

theorem bytes_ofBytes {bs : Bytes} (h : bs.length = n) : (ofBytes n bs).bytes = bs := by
  unfold ofBytes
  exact List.take_left' h

theorem bytes_ofBytes_of_le {bs : Bytes} (h : bs.length ≤ n) :
    (ofBytes n bs).bytes = bs ++ List.replicate (n - bs.length) 0 := by
  show (bs ++ List.replicate n 0).take n = _
  rw [List.take_append, List.take_of_length_le h, List.take_replicate,
    Nat.min_eq_left (Nat.sub_le _ _)]

@[simp] theorem ofBytes_bytes (b : Buf n) : ofBytes n b.bytes = b :=
  Buf.ext (bytes_ofBytes b.length_eq)

end Buf

/-! ## A chain that holds back the last block -/

section Absorb
variable {α σ : Type} (step : σ → List α → σ) {n : Nat}

/-- Chain all blocks of `n` that are not the last; hold back the rest. -/
def absorb (hn : 0 < n) (s : σ) (m : List α) : σ × List α :=
  if m.length ≤ n then (s, m) else absorb hn (step s (m.take n)) (m.drop n)
termination_by m.length
decreasing_by simp only [List.length_drop]; omega

variable (hn : 0 < n)

theorem absorb_of_le {m : List α} (h : m.length ≤ n) (s : σ) : absorb step hn s m = (s, m) := by
  rw [absorb, if_pos h]

theorem absorb_of_lt {m : List α} (h : n < m.length) (s : σ) :
    absorb step hn s m = absorb step hn (step s (m.take n)) (m.drop n) := by
  rw [absorb, if_neg (by omega)]

/-- A full block in front of more. -/
theorem absorb_block {b m : List α} (hb : b.length = n) (hm : m ≠ []) (s : σ) :
    absorb step hn s (b ++ m) = absorb step hn (step s b) m := by
  have hpos := List.length_pos_iff.2 hm
  rw [absorb_of_lt step hn (by rw [List.length_append]; omega), List.take_left' hb,
    List.drop_left' hb]

/-- **Pieces.** Chaining goes on from what was held back. -/
theorem absorb_append (s : σ) (m p : List α) : absorb step hn s (m ++ p) =
    absorb step hn (absorb step hn s m).1 ((absorb step hn s m).2 ++ p) := by
  induction hk : m.length using Nat.strong_induction_on generalizing s m with
  | _ k ih =>
    by_cases h : m.length ≤ n
    · rw [absorb_of_le step hn h]
    · rw [absorb_of_lt step hn (m := m) (by omega), absorb_of_lt step hn (m := m ++ p)
        (by rw [List.length_append]; omega), List.take_append_of_le_length (by omega),
        List.drop_append_of_le_length (by omega)]
      exact ih (m.drop n).length (by rw [List.length_drop]; omega) _ _ rfl

theorem absorb_length_le (s : σ) (m : List α) : (absorb step hn s m).2.length ≤ n := by
  induction hk : m.length using Nat.strong_induction_on generalizing s m with
  | _ k ih =>
    by_cases h : m.length ≤ n
    · rwa [absorb_of_le step hn h]
    · rw [absorb_of_lt step hn (by omega)]
      exact ih (m.drop n).length (by rw [List.length_drop]; omega) _ _ rfl

/-- The chain as a loop over the blocks in order: `k` blocks are chained when what is left behind
them is not empty (unless the message is) and fits into one block. -/
theorem absorb_eq (s : σ) (m : List α) : absorb step hn s m =
    ((List.range ((m.length - 1) / n)).foldl (fun s i => step s ((m.drop (n * i)).take n)) s,
      m.drop (n * ((m.length - 1) / n))) := by
  induction hk : m.length using Nat.strong_induction_on generalizing s m with
  | _ k ih =>
    subst hk
    by_cases h : m.length ≤ n
    · have h0 : (m.length - 1) / n = 0 := Nat.div_eq_of_lt (by omega)
      rw [absorb_of_le step hn h, h0]
      rfl
    · have h1 : (m.length - 1) / n = ((m.drop n).length - 1) / n + 1 := by
        rw [List.length_drop, ← Nat.add_div_right _ hn]
        congr 1
        omega
      rw [absorb_of_lt step hn (by omega), ih (m.drop n).length
        (by rw [List.length_drop]; omega) _ _ rfl,
        h1, List.range_succ_eq_map, List.foldl_cons, List.foldl_map, List.drop_drop]
      simp [Nat.mul_add, Nat.add_comm n]

end Absorb

/-! ## CMAC -/

namespace Cmac

/-- Doubling in the field of 2^128 elements: the bit string shifted by one, and the constant `Rb`
added when a bit fell out (RFC 4493, section 2.3, steps 2 and 3). -/
def double (b : Buf 16) : Buf 16 :=
  ⟨toBe 16 (if fromBe b.bytes < 2 ^ 127 then 2 * fromBe b.bytes
    else (2 * fromBe b.bytes) % 2 ^ 128 ^^^ 0x87), toBe_length _ _⟩

/-- The bytes, a one bit, and zeros up to the end of the block (`padding` of RFC 4493, section
2.4). -/
def pad (bs : Bytes) : Buf 16 := .ofBytes 16 (bs ++ [0x80])

variable (E : Buf 16 → Buf 16)

/-- `K1` of RFC 4493. -/
def k1 : Buf 16 := double (E (.zero 16))

/-- `K2` of RFC 4493. -/
def k2 : Buf 16 := double (k1 E)

/-- `X := AES-128(K, X XOR M_i)`. -/
def chain (x : Buf 16) (block : Bytes) : Buf 16 := E (x.xor (.ofBytes 16 block))

/-- `M_last`: a complete block under `K1`, any other one padded and under `K2`. -/
def mLast (last : Bytes) : Buf 16 :=
  if last.length = 16 then (Buf.ofBytes 16 last).xor (k1 E) else (pad last).xor (k2 E)

/-- The algorithm AES-CMAC of RFC 4493, section 2.4, over any block cipher: all of the `n` blocks of
the message but the last are chained from zero, and the last one is masked. -/
def cmac (m : Bytes) : Buf 16 :=
  let n := if (m.length + 15) / 16 = 0 then 1 else (m.length + 15) / 16
  let x := (List.range (n - 1)).foldl (fun x i => chain E x ((m.drop (16 * i)).take 16)) (.zero 16)
  E ((mLast E (m.drop (16 * (n - 1)))).xor x)

/-- The last step on a chain that held back the last block. -/
def finish (c : Buf 16 × Bytes) : Buf 16 := E ((mLast E c.2).xor c.1)

/-- All blocks but the last, chained from `x`. -/
def chainAll (x : Buf 16) (m : Bytes) : Buf 16 × Bytes := absorb (chain E) (n := 16) (by decide) x m

theorem cmac_eq (m : Bytes) : cmac E m = finish E (chainAll E (.zero 16) m) := by
  have hn : (if (m.length + 15) / 16 = 0 then 1 else (m.length + 15) / 16) - 1 =
      (m.length - 1) / 16 := by
    split <;> omega
  unfold cmac finish chainAll
  rw [absorb_eq, ← hn]

/-! ## S2V -/

/-- `Sn xorend D`: the last sixteen bytes under `d`. -/
def xorEnd (bs : Bytes) (d : Buf 16) : Bytes :=
  bs.take (bs.length - 16) ++ ((Buf.ofBytes 16 (bs.drop (bs.length - 16))).xor d).bytes

/-- The algorithm of RFC 5297, section 2.4, over any MAC: `strings` are `S1 … Sn-1`, `last` is
`Sn`. -/
def s2v (mac : Bytes → Buf 16) (strings : List Bytes) (last : Bytes) : Buf 16 :=
  let d := strings.foldl (fun d s => (double d).xor (mac s)) (mac (Buf.zero 16).bytes)
  mac (if 16 ≤ last.length then xorEnd last d else ((double d).xor (pad last)).bytes)

end Cmac

end ChronyRs

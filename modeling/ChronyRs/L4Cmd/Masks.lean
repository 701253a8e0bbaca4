import ChronyRs.L4Cmd.Wire

/-!
# Subnet masks (`util.rs`, `ntp_sources.rs`)

`bits_to_mask` builds the mask of a prefix length, for IPv4 by one shift and for IPv6 byte by byte
with a partial byte. `compare_ips` and `ip_equal_under_mask` compare two addresses under a mask,
each in its own way.

* `and_mask_eq_iff`: words agree under a mask of `n` ones iff their first `n` bits agree.
* `compare_prefix`: both comparisons say whether the first bits of the addresses agree, for every
  prefix length and both families.
-/
namespace ChronyRs.L4.Cmd

/-- mirrors util.rs:562-589 -/
def bitsToMask (bits : Int) (family : UInt16) : IPAddr :=
  match family with
  | 1 =>
    let bits := if 0 ≤ bits ∧ bits ≤ 32 then bits.toNat else 32
    if 0 < bits then .inet4 ⟨BitVec.allOnes 32 <<< (32 - bits)⟩ else .inet4 0
  | 2 =>
    let bits := if 0 ≤ bits ∧ bits ≤ 128 then bits.toNat else 128
    let full := bits / 8
    -- the byte behind the full ones is written even where no bit is left for it
    let last := if full < 16 then [UInt8.ofNat (0xff <<< (8 - bits % 8) &&& 0xff)] else []
    .inet6 (.ofBytes 16 (List.replicate full 0xff ++ last))
  | _ => .unspec

def masked (x m : Bytes) : Bytes := List.zipWith (· &&& ·) x m

/-- The difference of the first bytes that differ. -/
def firstDifference : Bytes → Bytes → Int
  | x :: xs, y :: ys => if x = y then firstDifference xs ys else x.toNat - y.toNat
  | _, _ => 0

/-- mirrors util.rs:602-629 -/
def compareIps (a b : IPAddr) (mask : Option IPAddr) : Int :=
  if a.family ≠ b.family then a.family.toNat - b.family.toNat
  else
    match a, b, mask.filter (·.family = b.family) with
    | .inet4 x, .inet4 y, some (.inet4 m) => asI32 ((x &&& m) - (y &&& m)).toNat
    | .inet4 x, .inet4 y, _ => asI32 (x - y).toNat
    | .inet6 x, .inet6 y, some (.inet6 m) =>
      firstDifference (masked x.bytes m.bytes) (masked y.bytes m.bytes)
    | .inet6 x, .inet6 y, _ => firstDifference x.bytes y.bytes
    | .id x, .id y, _ => asI32 (x - y).toNat
    | _, _, _ => 0

/-- mirrors ntp_sources.rs:83-91 -/
inductive IpKey where
  | v4 (addr : UInt32)
  | v6 (addr : Buf 16)
  | id (id : UInt32)
  | unspec

def IPAddr.key : IPAddr → IpKey
  | .unspec => .unspec
  | .inet4 a => .v4 a
  | .inet6 a => .v6 a
  | .id i => .id i

/-- mirrors ntp_sources.rs:113-132 -/
def ipEqualUnderMask (a b : IpKey) (mask : Option IpKey) : Bool :=
  match a, b with
  | .v4 x, .v4 y =>
    let m := match mask with
      | some (.v4 m) => m
      | _ => 0xffffffff
    x &&& m = y &&& m
  | .v6 x, .v6 y =>
    let m := match mask with
      | some (.v6 m) => m.bytes
      | _ => List.replicate 16 0xff
    masked x.bytes m = masked y.bytes m
  | .id x, .id y => x = y
  | _, _ => false

/-! ## Bits -/

/-- The bits of a word, the most significant one first. -/
def msbs {w : Nat} (x : BitVec w) : List Bool := (List.range w).map x.getMsbD

/-- The bits of an address in network order. -/
def IPAddr.bits : IPAddr → List Bool
  | .inet4 a => msbs a.toBitVec
  | .inet6 a => a.bytes.flatMap fun b => msbs b.toBitVec
  | _ => []

/-- **Words under a mask of `n` ones.** -/
theorem and_mask_eq_iff {w : Nat} (x y : BitVec w) (n : Nat) :
    x &&& BitVec.allOnes w <<< (w - n) = y &&& BitVec.allOnes w <<< (w - n) ↔
      (msbs x).take n = (msbs y).take n := by
  have hmask : ∀ z : BitVec w, ∀ i,
      (z &&& BitVec.allOnes w <<< (w - n)).getMsbD i =
        (z.getMsbD i && decide (i + (w - n) < w)) := by
    intro z i
    rw [BitVec.getMsbD_and, BitVec.getMsbD_shiftLeft, BitVec.getMsbD_allOnes]
  rw [msbs, msbs, ← List.map_take, ← List.map_take, List.take_range, List.map_inj_left]
  simp only [List.mem_range]
  constructor
  · intro h i hi
    have hbit := congrArg (BitVec.getMsbD · i) h
    simpa [hmask, show i + (w - n) < w by omega] using hbit
  · intro h
    refine BitVec.eq_of_getMsbD_eq fun i hi => ?_
    rw [hmask, hmask]
    by_cases hn : i < n
    · rw [h i (by omega)]
    · simp [show ¬ i + (w - n) < w by omega]

/-- The masks of the bytes of a prefix: full ones, a partial one, and empty ones. -/
def prefixMask : Nat → Nat → Bytes
  | 0, _ => []
  | k + 1, n => ⟨BitVec.allOnes 8 <<< (8 - n)⟩ :: prefixMask k (n - 8)

theorem bitsToMask_inet6 : ∀ n : Fin 129, bitsToMask n 2 =
    .inet6 (.ofBytes 16 (prefixMask 16 n)) := by
  decide +kernel

@[simp] theorem length_prefixMask (k n : Nat) : (prefixMask k n).length = k := by
  induction k generalizing n with
  | zero => rfl
  | succ k ih => rw [prefixMask, List.length_cons, ih]

theorem masked_prefix_iff (n : Nat) {k : Nat} {xs ys : Bytes} (hx : xs.length = k)
    (hy : ys.length = k) : masked xs (prefixMask k n) = masked ys (prefixMask k n) ↔
      (xs.flatMap fun b => msbs b.toBitVec).take n =
        (ys.flatMap fun b => msbs b.toBitVec).take n := by
  induction k generalizing xs ys n with
  | zero =>
    rw [List.length_eq_zero_iff.1 hx, List.length_eq_zero_iff.1 hy]
    simp
  | succ k ih =>
    obtain ⟨x, xs, rfl⟩ := List.exists_cons_of_length_eq_add_one hx
    obtain ⟨y, ys, rfl⟩ := List.exists_cons_of_length_eq_add_one hy
    have hlen : ∀ z : BitVec 8, (msbs z).length = 8 := fun z => by simp [msbs]
    have hbyte : x &&& ⟨BitVec.allOnes 8 <<< (8 - n)⟩ = y &&& ⟨BitVec.allOnes 8 <<< (8 - n)⟩ ↔
        (msbs x.toBitVec).take n = (msbs y.toBitVec).take n := by
      rw [← and_mask_eq_iff, ← UInt8.toBitVec_inj]
      rfl
    have hrest := ih (n - 8) (Nat.succ.inj hx) (Nat.succ.inj hy)
    rw [masked, masked] at hrest ⊢
    rw [prefixMask, List.zipWith_cons_cons, List.zipWith_cons_cons, List.cons.injEq, hbyte, hrest,
      List.flatMap_cons, List.flatMap_cons, List.take_append, List.take_append, hlen, hlen]
    exact ⟨fun h => by rw [h.1, h.2], fun h => List.append_inj h (by simp [hlen])⟩

theorem firstDifference_eq_zero_iff {xs ys : Bytes} (h : xs.length = ys.length) :
    firstDifference xs ys = 0 ↔ xs = ys := by
  induction xs generalizing ys with
  | nil =>
    rw [List.length_eq_zero_iff.1 h.symm]
    exact iff_of_true rfl rfl
  | cons x xs ih =>
    obtain ⟨y, ys, rfl⟩ := List.exists_cons_of_length_eq_add_one h.symm
    rw [firstDifference, List.cons.injEq]
    by_cases hxy : x = y
    · rw [if_pos hxy, ih (Nat.succ.inj h)]
      exact (and_iff_right hxy).symm
    · have hne : x.toNat ≠ y.toNat := fun heq => hxy (UInt8.toNat_inj.1 heq)
      rw [if_neg hxy]
      exact iff_of_false (by omega) fun hall => hxy hall.1

theorem asI32_sub_eq_zero_iff (x y : UInt32) : asI32 (x - y).toNat = 0 ↔ x = y := by
  constructor
  · intro h
    have hdvd : 2 ^ 32 ∣ (x - y).toNat := Int.natCast_dvd_natCast.1 (Int.dvd_of_bmod_eq_zero h)
    have hsub : x - y = 0 := UInt32.toNat_inj.1 (Nat.eq_zero_of_dvd_of_lt hdvd (x - y).toNat_lt)
    rwa [UInt32.sub_eq_iff_eq_add, UInt32.zero_add] at hsub
  · rintro rfl
    rw [UInt32.sub_self]
    exact asI32_of_lt (by decide)

theorem mask_inet4 (x y : UInt32) (n : Fin 33) : ∃ m, bitsToMask n 1 = .inet4 m ∧
    (x &&& m = y &&& m ↔ (msbs x.toBitVec).take n = (msbs y.toBitVec).take n) := by
  refine ⟨⟨BitVec.allOnes 32 <<< (32 - n.val)⟩, ?_, ?_⟩
  · revert n
    decide
  · rw [← and_mask_eq_iff, ← UInt32.toBitVec_inj]
    rfl

/-- **Comparing prefixes.** For every two addresses of a family and every prefix length of the
family, `compare_ips` under the mask is zero iff the first bits of the addresses agree, and
`ip_equal_under_mask` holds iff they do. -/
theorem compare_prefix :
    (∀ (x y : UInt32) (n : Fin 33),
      (compareIps (.inet4 x) (.inet4 y) (some (bitsToMask n 1)) = 0 ↔
        (IPAddr.inet4 x).bits.take n = (IPAddr.inet4 y).bits.take n) ∧
      (ipEqualUnderMask (.v4 x) (.v4 y) (some (bitsToMask n 1).key) = true ↔
        (IPAddr.inet4 x).bits.take n = (IPAddr.inet4 y).bits.take n)) ∧
    ∀ (x y : Buf 16) (n : Fin 129),
      (compareIps (.inet6 x) (.inet6 y) (some (bitsToMask n 2)) = 0 ↔
        (IPAddr.inet6 x).bits.take n = (IPAddr.inet6 y).bits.take n) ∧
      (ipEqualUnderMask (.v6 x) (.v6 y) (some (bitsToMask n 2).key) = true ↔
        (IPAddr.inet6 x).bits.take n = (IPAddr.inet6 y).bits.take n) := by
  refine ⟨fun x y n => ?_, fun x y n => ?_⟩
  · obtain ⟨m, hm, hbits⟩ := mask_inet4 x y n
    have hcompare : compareIps (.inet4 x) (.inet4 y) (some (.inet4 m)) =
        asI32 ((x &&& m) - (y &&& m)).toNat :=
      if_neg (not_not.2 rfl)
    rw [hm, hcompare, asI32_sub_eq_zero_iff]
    exact ⟨hbits, decide_eq_true_iff.trans hbits⟩
  · have hbits := masked_prefix_iff n x.length_eq y.length_eq
    have hlen : (masked x.bytes (prefixMask 16 n)).length =
        (masked y.bytes (prefixMask 16 n)).length := by
      simp [masked]
    have hbytes : (Buf.ofBytes 16 (prefixMask 16 n)).bytes = prefixMask 16 n :=
      List.take_left' (length_prefixMask 16 n)
    rw [bitsToMask_inet6 n]
    generalize Buf.ofBytes 16 (prefixMask 16 n) = m at hbytes
    have hcompare : compareIps (.inet6 x) (.inet6 y) (some (.inet6 m)) =
        firstDifference (masked x.bytes m.bytes) (masked y.bytes m.bytes) := if_neg (not_not.2 rfl)
    have hequal : ipEqualUnderMask (.v6 x) (.v6 y) (some (.v6 m)) =
        decide (masked x.bytes m.bytes = masked y.bytes m.bytes) := rfl
    rw [hcompare, IPAddr.key, hequal, hbytes, firstDifference_eq_zero_iff hlen, decide_eq_true_iff]
    exact ⟨hbits, hbits⟩

end ChronyRs.L4.Cmd

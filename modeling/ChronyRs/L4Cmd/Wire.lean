import ChronyRs.Core.Layout

/-!
# Values of the command protocol (`util.rs`)

Addresses, timestamps, 64-bit counters and the 32-bit wire float, as both `chronyc` and the
daemon put them into packets.

The wire float is a parameter: every result holds for any pair of functions between the
floats and 32-bit words, since requests and reports are compared by their words.
-/
namespace ChronyRs.L4.Cmd

/-! ## Addresses -/

/-- `util::IpAddr`.
mirrors util.rs:529-538 -/
inductive IPAddr where
  | unspec
  | inet4 (addr : UInt32)
  | inet6 (addr : Buf 16)
  | id (id : UInt32)
  deriving DecidableEq

/-- mirrors util.rs:546-553 -/
def IPAddr.family : IPAddr → UInt16
  | .unspec => 0
  | .inet4 _ => 1
  | .inet6 _ => 2
  | .id _ => 3

def IPAddr.region : IPAddr → Bytes
  | .unspec => List.replicate 16 0
  | .inet4 v => be32 v ++ List.replicate 12 0
  | .inet6 b => b.bytes
  | .id v => be32 v ++ List.replicate 12 0

/-- The address region, the family, and two bytes of padding.
mirrors util.rs:635-644 -/
def ipHostToNetwork (ip : IPAddr) : Bytes := ip.region ++ beU16 ip.family ++ [0, 0]

/-- mirrors util.rs:648-661 -/
def ipNetworkToHost (wire : Bytes) : IPAddr :=
  let v : UInt32 := Codec.dec (wire.take 4)
  match (Codec.dec ((wire.drop 16).take 2) : UInt16) with
  | 1 => .inet4 v
  | 2 => .inet6 (.ofBytes 16 (wire.take 16))
  | 3 => .id v
  | _ => .unspec

@[simp] theorem IPAddr.length_region (ip : IPAddr) : ip.region.length = 16 := by
  cases ip <;> simp [region]

theorem ipNetworkToHost_ipHostToNetwork (ip : IPAddr) :
    ipNetworkToHost (ipHostToNetwork ip) = ip := by
  have hfamily : ((ipHostToNetwork ip).drop 16).take 2 = beU16 ip.family := by
    rw [ipHostToNetwork, List.append_assoc, List.drop_left' ip.length_region]
    rfl
  have hregion : ∀ k ≤ 16, (ipHostToNetwork ip).take k = ip.region.take k := by
    intro k hk
    rw [ipHostToNetwork, List.append_assoc, List.take_append_of_le_length (by simpa using hk)]
  have hdec : (Codec.dec (beU16 ip.family) : UInt16) = ip.family := Codec.dec_enc ip.family
  have hv4 : ∀ v : UInt32, (Codec.dec ((be32 v ++ List.replicate 12 0).take 4) : UInt32) = v :=
    fun v => Codec.dec_enc v
  unfold ipNetworkToHost
  rw [hfamily, hdec, hregion 4 (by decide), hregion 16 (by decide)]
  cases ip with
  | unspec => rfl
  | inet4 v => exact congrArg IPAddr.inet4 (hv4 v)
  | inet6 b =>
    have : Buf.ofBytes 16 (b.bytes.take 16) = b := by
      rw [List.take_of_length_le (Nat.le_of_eq b.length_bytes)]
      exact Codec.dec_enc b
    exact congrArg IPAddr.inet6 this
  | id v => exact congrArg IPAddr.id (hv4 v)

instance : Codec IPAddr where
  size := 20
  enc := ipHostToNetwork
  dec := ipNetworkToHost
  length_enc ip := by simp [ipHostToNetwork, beU16]
  dec_enc := ipNetworkToHost_ipHostToNetwork

theorem size_ipAddr : Codec.size IPAddr = 20 := rfl

/-! ## Counters and timestamps -/

/-- mirrors util.rs:375-377 -/
def integer64HostToNetwork (i : UInt64) : UInt32 × UInt32 := ((i >>> 32).toUInt32, i.toUInt32)

/-- mirrors util.rs:381-383 -/
def integer64NetworkToHost (high low : UInt32) : UInt64 := high.toUInt64 <<< 32 ||| low.toUInt64

theorem join_split (i : UInt64) : (i >>> 32).toUInt32.toUInt64 <<< 32 |||
    i.toUInt32.toUInt64 = i := by
  have hi := i.toNat_lt
  apply UInt64.toNat_inj.1
  rw [UInt64.toNat_or, UInt64.toNat_shiftLeft, UInt32.toNat_toUInt64, UInt32.toNat_toUInt64,
    UInt64.toNat_toUInt32, UInt64.toNat_toUInt32, UInt64.toNat_shiftRight]
  simp only [UInt64.reduceToNat, Nat.reduceMod, Nat.shiftRight_eq_div_pow, Nat.shiftLeft_eq]
  rw [Nat.mod_eq_of_lt (a := i.toNat / 2 ^ 32) (by omega), Nat.mod_eq_of_lt
    (by omega), ← Nat.shiftLeft_eq,
    ← Nat.shiftLeft_add_eq_or_of_lt (Nat.mod_lt _ (by decide)), Nat.shiftLeft_eq]
  omega

theorem integer64_roundtrip (i : UInt64) :
    integer64NetworkToHost (integer64HostToNetwork i).1 (integer64HostToNetwork i).2 = i :=
      join_split i

/-- `(sec, nsec)`, both `i64`. -/
structure Timespec where
  sec : Int64
  nsec : Int64
  deriving DecidableEq

/-- mirrors util.rs:502-507 -/
def timespecHostToNetwork (t : Timespec) : UInt32 × UInt32 × UInt32 :=
  ((t.sec.toUInt64 >>> 32).toUInt32, t.sec.toUInt64.toUInt32, t.nsec.toUInt64.toUInt32)

/-- mirrors util.rs:513-522 -/
def timespecNetworkToHost (tvSecHigh tvSecLow tvNsec : UInt32) : Timespec :=
  let secHigh := if tvSecHigh = 0x7fffffff then 0 else tvSecHigh
  ⟨(secHigh.toUInt64 <<< 32 ||| tvSecLow.toUInt64).toInt64, (min tvNsec 999999999).toUInt64.toInt64⟩

/-- Nanoseconds below a second, and seconds in `[0, 2^62)`. -/
def Timespec.Normalised (t : Timespec) : Prop :=
  0 ≤ t.sec.toInt ∧ t.sec.toInt < 2 ^ 62 ∧ 0 ≤ t.nsec.toInt ∧ t.nsec.toInt < 10 ^ 9

theorem toNat_toUInt64 {x : Int64} (h : 0 ≤ x.toInt) : (x.toUInt64.toNat : Int) = x.toInt := by
  have hcond : x.toInt = if 2 * x.toUInt64.toNat < 2 ^ 64 then (x.toUInt64.toNat : Int)
      else x.toUInt64.toNat - (2 ^ 64 : Nat) := BitVec.toInt_eq_toNat_cond x.toUInt64.toBitVec
  have := x.toUInt64.toNat_lt
  rw [hcond] at h ⊢
  split at h
  · rw [if_pos ‹_›]
  · omega

theorem timespec_roundtrip {t : Timespec} (h : t.Normalised) :
    timespecNetworkToHost (timespecHostToNetwork t).1 (timespecHostToNetwork t).2.1
      (timespecHostToNetwork t).2.2 = t := by
  obtain ⟨sec, nsec⟩ := t
  obtain ⟨h0, h1, h2, h3⟩ : 0 ≤ sec.toInt ∧ sec.toInt < 2 ^ 62 ∧ 0 ≤ nsec.toInt ∧
      nsec.toInt < 10 ^ 9 := h
  have hsec := toNat_toUInt64 h0
  have hnsec := toNat_toUInt64 h2
  -- the sentinel for senders without a high word is out of range
  have hhigh : (sec.toUInt64 >>> 32).toUInt32 ≠ 0x7fffffff := by
    intro he
    have := congrArg UInt32.toNat he
    rw [UInt64.toNat_toUInt32, UInt64.toNat_shiftRight] at this
    simp only [UInt64.reduceToNat, Nat.reduceMod, Nat.shiftRight_eq_div_pow,
      UInt32.reduceToNat] at this
    omega
  have hmin : min nsec.toUInt64.toUInt32 999999999 = nsec.toUInt64.toUInt32 := by
    apply if_pos
    rw [UInt32.le_iff_toNat_le, UInt64.toNat_toUInt32]
    simp only [UInt32.reduceToNat]
    omega
  have hlow : nsec.toUInt64.toUInt32.toUInt64 = nsec.toUInt64 := by
    apply UInt64.toNat_inj.1
    rw [UInt32.toNat_toUInt64, UInt64.toNat_toUInt32]
    omega
  unfold timespecNetworkToHost timespecHostToNetwork
  dsimp only
  rw [if_neg hhigh, join_split, hmin, hlow]
  rfl

/-! ## Floats -/

/-- `float_host_to_network` and `float_network_to_host`.
mirrors util.rs:396-472 -/
class WireFloat (F : Type) where
  hostToNetwork : F → UInt32
  networkToHost : UInt32 → F

/-- The value of the word that a float is sent as. -/
def wired {F : Type} [WireFloat F] (x : F) : F :=
  WireFloat.networkToHost (WireFloat.hostToNetwork x)

/-- Floats that are their own words, for concrete runs. -/
instance : WireFloat UInt32 := ⟨id, id⟩

end ChronyRs.L4.Cmd

import ChronyRs.L1Encoding.Parse
import ChronyRs.L2Auth.Keys
import ChronyRs.L3Nts.Client

/-!
# Authentication of an association (`ntp_auth.rs`)

An association is not authenticated, or uses a symmetric key, or NTS. `NauInstance`
has one constructor for each of `create_none`, `create_symmetric` and `create_nts`:
its fields are private and nothing changes the mode or the key id later, so the other
combinations of `mode`, `key_id` and `nts` (and the MS-SNTP modes) do not occur, and
`nts.unwrap()` cannot fail.

* `generateSymmetricAuth_spec`: a MAC is appended iff the key is known and its MAC has
  at least 16 bytes; otherwise the used part of the packet stays as it was.
* `checkSymmetricAuth_returns_iff`: the check panics iff the MAC reaches past the
  packet buffer.
-/
namespace ChronyRs.L4

open L1.Ext L2 L3.Nts

variable {B : Type} [CryptoBackend B]

/-! ## Symmetric keys -/

/-- The longest MAC that `generate_symmetric_auth` writes.
mirrors ntp_auth.rs:96-101 -/
def maxAuthLen (info : NtpPacketInfo) : Int :=
  min ((if info.version = 4 then 24 else 68) - 4) (1140 - info.length - 4)

/-- The MAC is written before its length is checked. `split_at_mut` and the two slices
of its halves are in range together iff `packet.sub` is.
mirrors ntp_auth.rs:87-118 -/
def generateSymmetricAuth (keyId : UInt32) (keys : KeyStore B) (packet : NtpPacketBuf)
    (info : NtpPacketInfo) : Rust (KeyStore B × NtpPacketBuf × NtpPacketInfo × Bool) := do
  if (← i32 (info.length + 20)) > 1140 then return (keys, packet, info, false)
  let _ ← i32 (1140 - info.length)
  let length := asUsize info.length
  let _ ← packet.sub (length + 4) (asUsize (maxAuthLen info))
  let data ← slice packet.bytes 0 length
  let (keys, auth) ← keys.generateKeyAuth keyId data (asUsize (maxAuthLen info))
  let packet ← packet.copyAt (length + 4) auth
  if asI32 auth.length < 16 then return (keys, packet, info, false)
  let packet ← packet.copyAt length (be32 keyId)
  return (keys, packet, { info with
    macStart := info.length, macLength := 4 + asI32 auth.length, macKeyId := keyId
    length := info.length + (4 + asI32 auth.length) }, true)

/-- mirrors ntp_auth.rs:121-142 -/
def checkSymmetricAuth (packet : NtpPacketBuf) (info : NtpPacketInfo) (keys : KeyStore B) :
    Rust (KeyStore B × Bool) := do
  if info.macLength < 20 then return (keys, false)
  let truncLen : Int := if info.version = 4 ∧ info.macLength ≤ 24 then 24 else 68
  let start := asUsize info.macStart
  let authLen := asUsize (info.macLength - 4)
  let data ← slice packet.bytes 0 start
  let auth ← slice packet.bytes (start + 4) (start + 4 + authLen)
  keys.checkKeyAuth info.macKeyId data auth (asUsize (truncLen - 4))

theorem checkSymmetricAuth_returns_iff (packet : NtpPacketBuf) {info : NtpPacketInfo}
    (keys : KeyStore B) (hr : 20 ≤ info.macLength → 0 ≤ info.macStart ∧ info.macStart < 2 ^ 31 ∧
      info.macLength < 2 ^ 31) : Rust.Returns (checkSymmetricAuth packet info keys) ↔
      (20 ≤ info.macLength → info.macStart + info.macLength ≤ 1140) := by
  unfold checkSymmetricAuth
  split
  · rename_i hs
    exact ⟨fun _ h => by omega, fun _ => returns_ok _⟩
  rename_i hs
  obtain ⟨h0, h1, h2⟩ := hr (by omega)
  dsimp only
  rw [asUsize_of_nonneg h0 h1, asUsize_of_nonneg (show 0 ≤ info.macLength - 4 by omega) (by omega)]
  by_cases hfit : info.macStart + info.macLength ≤ 1140
  · rw [slice_of_le (Nat.zero_le _) (by rw [packet.length_bytes]; omega), ok_bind,
      slice_of_le (by omega) (by rw [packet.length_bytes]; omega), ok_bind]
    obtain ⟨s', ok, h, -⟩ := KeyStore.checkKeyAuth_cases keys info.macKeyId
      ((packet.bytes.take info.macStart.toNat).drop 0)
      ((packet.bytes.take (info.macStart.toNat + 4 + (info.macLength - 4).toNat)).drop
        (info.macStart.toNat + 4))
      (asUsize ((if info.version = 4 ∧ info.macLength ≤ 24 then (24 : Int) else 68) - 4))
    exact ⟨fun _ _ => hfit, fun _ => ⟨_, h⟩⟩
  · -- the second slice does not exist, so whatever the first does the check panics
    constructor
    · rintro ⟨r, hr⟩
      obtain ⟨data, -, hr⟩ := bind_eq_ok.1 hr
      obtain ⟨auth, ha, -⟩ := bind_eq_ok.1 hr
      have := (slice_eq_ok.1 ha).2.1
      rw [packet.length_bytes] at this
      omega
    · intro h
      exact absurd (h (by omega)) hfit

/-- `info` of a packet with a MAC of `n` bytes appended. -/
def appended (info : NtpPacketInfo) (keyId : UInt32) (n : Nat) : NtpPacketInfo :=
  { info with
    macStart := info.length, macLength := 4 + n, macKeyId := keyId
    length := info.length + (4 + n) }

/-- What `generate_symmetric_auth` leaves in a packet with room for a MAC: with at
least 16 bytes of MAC, the key id and the MAC behind what was there; otherwise what was
there. -/
theorem generateSymmetricAuth_spec (keyId : UInt32) (keys : KeyStore B) (packet : NtpPacketBuf)
    {info : NtpPacketInfo} (h0 : 0 ≤ info.length) (h1 : info.length + 20 ≤ 1140) :
    ∃ keys' auth packet', keys.generateKeyAuth keyId (packet.bytes.take info.length.toNat)
        (maxAuthLen info).toNat = .ok (keys', auth) ∧
      ((auth.length < 16 ∧
        generateSymmetricAuth keyId keys packet info = .ok (keys', packet', info, false) ∧
        packet'.bytes.take info.length.toNat = packet.bytes.take info.length.toNat) ∨
      (16 ≤ auth.length ∧ generateSymmetricAuth keyId keys packet info =
          .ok (keys', packet', appended info keyId auth.length, true) ∧
        packet'.bytes.take (info.length.toNat + 4 + auth.length) =
          packet.bytes.take info.length.toNat ++ be32 keyId ++ auth)) := by
  have hmax : 16 ≤ maxAuthLen info ∧ maxAuthLen info ≤ 64 ∧
      info.length + 4 + maxAuthLen info ≤ 1140 := by
    unfold maxAuthLen
    split <;> omega
  obtain ⟨keys', auth, hgen, hle⟩ : ∃ keys' auth, keys.generateKeyAuth keyId
      (packet.bytes.take info.length.toNat) (maxAuthLen info).toNat = .ok (keys', auth) ∧
      auth.length ≤ (maxAuthLen info).toNat := by
    rcases keys.generateKeyAuth_cases keyId (packet.bytes.take info.length.toNat)
      (maxAuthLen info).toNat with ⟨-, s', h⟩ | ⟨s', pos, k, -, -, -, h⟩
    · exact ⟨s', [], h, Nat.zero_le _⟩
    · exact ⟨s', _, h, KeyStore.macOf_le ..⟩
  obtain ⟨sub, hsub⟩ := packet.sub_of_le
    (show info.length.toNat + 4 + (maxAuthLen info).toNat ≤ 1140 by omega)
  obtain ⟨p1, hp1, -⟩ := packet.copyAt_of_le (info.length.toNat + 4) auth (by omega)
  obtain ⟨p2, hp2, -⟩ := p1.copyAt_of_le info.length.toNat (be32 keyId) (by simp; omega)
  have hlen : asI32 auth.length = auth.length := asI32_of_lt (by omega)
  have hslice := slice_of_le (b := packet.bytes) (Nat.zero_le info.length.toNat)
    (by rw [packet.length_bytes]; omega)
  unfold generateSymmetricAuth
  rw [i32_of_range (by omega) (by omega), ok_bind, if_neg (by omega),
    i32_of_range (by omega) (by omega), ok_bind, asUsize_of_nonneg h0 (by omega),
    asUsize_of_nonneg (x := maxAuthLen info) (by omega) (by omega)]
  dsimp only
  rw [hsub, ok_bind, hslice, ok_bind, List.drop_zero, hgen, ok_bind]
  dsimp only
  rw [hp1, ok_bind, hlen]
  by_cases h16 : auth.length < 16
  · rw [if_pos (by omega)]
    exact ⟨keys', auth, p1, rfl, .inl ⟨h16, rfl, Buf.copyAt_take hp1 (by omega)⟩⟩
  · rw [if_neg (by omega), hp2, ok_bind]
    exact ⟨keys', auth, p2, rfl, .inr ⟨by omega, rfl, Buf.copyAt_adjacent hp1 hp2⟩⟩

/-! ## Associations -/

/-- mirrors ntp_auth.rs:145-149,168-193 -/
inductive NauInstance (F C H : Type) where
  | none
  | symmetric (keyId : UInt32)
  | nts (client : NtsClient F C H)

namespace NauInstance

variable {F C H : Type} [F64 F] [AesSiv C] [NtsHost H F]

/-- The `NtpAuthMode` as an `i32`. -/
def mode : NauInstance F C H → Int
  | .none => 0
  | .symmetric _ => 1
  | .nts _ => 4

/-- mirrors ntp_auth.rs:163-165 -/
def keyId : NauInstance F C H → UInt32
  | .symmetric k => k
  | _ => 0

/-- mirrors ntp_auth.rs:196-198 -/
def isAuthEnabled (a : NauInstance F C H) : Bool := a.mode ≠ 0

/-- mirrors ntp_auth.rs:212-217 -/
def prepareRequestAuth : NauInstance F C H → Rust (NauInstance F C H × Bool)
  | .nts c => do
    let (c, ok) ← c.prepareForAuth
    return (.nts c, ok)
  | a => return (a, true)

/-- mirrors ntp_auth.rs:220-247 -/
def generateRequestAuth (a : NauInstance F C H) (keys : KeyStore B) (request : NtpPacketBuf)
    (info : NtpPacketInfo) :
    Rust (NauInstance F C H × KeyStore B × NtpPacketBuf × NtpPacketInfo × Bool) := do
  match a with
  | .none => return (a, keys, request, { info with authMode := a.mode }, true)
  | .symmetric k =>
    match ← generateSymmetricAuth k keys request info with
    | (keys, request, info, false) => return (a, keys, request, info, false)
    | (keys, request, info, true) =>
      return (a, keys, request, { info with authMode := a.mode }, true)
  | .nts c =>
    match ← c.generateRequestAuth request info with
    | (c, request, info, false) => return (.nts c, keys, request, info, false)
    | (c, request, info, true) =>
      return (.nts c, keys, request, { info with authMode := a.mode }, true)

/-- mirrors ntp_auth.rs:250-271 -/
def checkResponseAuth (a : NauInstance F C H) (keys : KeyStore B) (response : NtpPacketBuf)
    (info : NtpPacketInfo) : Rust (NauInstance F C H × KeyStore B × Bool) := do
  if info.authMode ≠ a.mode then return (a, keys, false)
  match a with
  | .none => return (a, keys, true)
  | .symmetric k =>
    if info.macKeyId ≠ k then return (a, keys, false)
    let (keys, ok) ← checkSymmetricAuth response info keys
    return (a, keys, ok)
  | .nts c =>
    let (c, ok) ← c.checkResponseAuth response info
    return (.nts c, keys, ok)

end NauInstance

end ChronyRs.L4

import ChronyRs.L3Nts.Prepare
import ChronyRs.L4Assoc.Nau

/-!
# The requests of an association

* `generateRequestAuth_kept`: whatever `generate_request_auth` does, the packet starts
  with the header it was given.
* `requestReady_iff`: preparing and building a request both succeed iff the association
  is ready for one, which is a condition on the state before.
* `request_complete`: a request that was built carries a complete MAC, or a complete NTS
  unique identifier, cookie and authenticator sequence.
-/
namespace ChronyRs.L4

open L1.Ext L2 L3.Nts

theorem generateSymmetricAuth_kept {B : Type} [CryptoBackend B] {keyId : UInt32}
    {keys keys' : KeyStore B} {packet packet' : NtpPacketBuf} {info info' : NtpPacketInfo}
    {ok : Bool} (h0 : 0 ≤ info.length) (h1 : info.length + 20 ≤ 1140)
    (h : generateSymmetricAuth keyId keys packet info = .ok (keys', packet', info', ok)) :
    Kept packet info packet' info' := by
  obtain ⟨keys1, auth, packet1, -, ⟨-, hg, hkeep⟩ | ⟨-, hg, hkeep⟩⟩ :=
    generateSymmetricAuth_spec keyId keys packet h0 h1
  · rw [hg] at h
    cases h
    exact ⟨Int.le_refl _, by omega, hkeep⟩
  · rw [hg] at h
    cases h
    have hlen := congrArg List.length hkeep
    simp only [List.length_append, List.length_take, Buf.length_bytes, be32_length] at hlen
    refine ⟨by simp only [appended]; omega, by simp only [appended]; omega, ?_⟩
    have := congrArg (List.take info.length.toNat) hkeep
    rwa [List.take_take, Nat.min_eq_left (by omega), List.append_assoc,
      List.take_append_of_le_length
      (by rw [List.length_take, packet.length_bytes]; omega), List.take_take, Nat.min_self] at this

namespace NauInstance

variable {F C H : Type} [F64 F] [AesSiv C] [NtsHost H F]

variable {a : NauInstance F C H} {packet packet' : NtpPacketBuf} {info info' : NtpPacketInfo}
  {keys keys' : KeyStore InternalMd5Backend}

omit [F64 F] [NtsHost H F] in
theorem generateRequestAuth_kept {B : Type} [CryptoBackend B] {a' : NauInstance F C H}
    {keys keys' : KeyStore B} {ok : Bool} (hlen : info.length = 48)
    (h : a.generateRequestAuth keys packet info = .ok (a', keys', packet', info', ok)) :
    Kept packet info packet' info' := by
  unfold generateRequestAuth at h
  cases a with
  | none => cases h; exact ⟨Int.le_refl _, by dsimp only; omega, rfl⟩
  | symmetric k =>
    obtain ⟨⟨keys1, p1, i1, ok1⟩, h1, h⟩ := bind_eq_ok.1 h
    have hk := generateSymmetricAuth_kept (by omega) (by omega) h1
    cases ok1 <;> cases h <;> exact ⟨hk.1, hk.2, hk.3⟩
  | nts c =>
    obtain ⟨⟨c1, p1, i1, ok1⟩, h1, h⟩ := bind_eq_ok.1 h
    have hk := NtsClient.generateRequestAuth_kept h1
    cases ok1 <;> cases h <;> exact ⟨hk.1, hk.2, hk.3⟩

/-- The association can make a request in a packet of this mode: the key is known and
its MAC is one that the build can compute, or a complete session is offered. -/
def Ready (keys : KeyStore InternalMd5Backend) (mode : Int) : NauInstance F C H → Prop
  | .none => True
  | .symmetric k => ∃ pos key value hashId, (keys.getKeyById k).2 = some pos ∧
      keys.keys[pos]? = some key ∧ key.mac = .ntpMac value hashId
  | .nts c => mode = 3 ∧ ∃ s, c.offer = some s ∧ s.Complete

/-- The datagram is a header followed by a complete authentication of it. -/
def Complete (keys : KeyStore InternalMd5Backend) (datagram : Bytes) : NauInstance F C H → Prop
  | .none => True
  | .symmetric k => ∃ key ∈ keys.keys, key.id = k ∧ ∃ mac,
      mac = KeyStore.macOf keys.backend key.mac (datagram.take 48) 20 ∧ 16 ≤ mac.length ∧
      datagram = datagram.take 48 ++ be32 k ++ mac
  | .nts _ => ∃ (uniqId nonce : Bytes) (key : C) (cookie : NkeCookie) (n : Nat),
      uniqId.length = 32 ∧ nonce.length = 16 ∧
      datagram = datagram.take 48 ++ encFields
        (NtsClient.requestBody (datagram.take 48) uniqId nonce key cookie n)

omit [F64 F] [AesSiv C] [NtsHost H F] in
theorem maxAuthLen_header (hlen : info.length = 48) (hv : info.version = 4) :
    maxAuthLen info = 20 := by
  unfold maxAuthLen
  rw [hlen, if_pos hv]
  rfl

/-- A MAC of the internal MD5 has 16 bytes, and a CMAC none. -/
theorem macOf_ge_iff (mac : KeyMac) (data : Bytes) :
    16 ≤ (KeyStore.macOf ({} : InternalMd5Backend) mac data 20).length ↔
      ∃ value hashId, mac = .ntpMac value hashId := by
  cases mac with
  | ntpMac value hashId =>
    refine ⟨fun _ => ⟨value, hashId, rfl⟩, fun _ => ?_⟩
    show 16 ≤ (Md5.hash value data 20).length
    rw [Md5.hash_length]
    decide
  | cmac algorithm key =>
    refine ⟨fun h => absurd h (by simp [KeyStore.macOf, CryptoBackend.cmacHash]), ?_⟩
    rintro ⟨_, _, h⟩
    cases h

omit [AesSiv C] in
theorem generateSymmetricAuth_iff {keyId : UInt32} {ok : Bool} (hlen : info.length = 48)
    (hv : info.version = 4)
    (h : generateSymmetricAuth keyId keys packet info = .ok (keys', packet', info', ok)) :
    (ok = true ↔ Ready keys info.mode (.symmetric keyId : NauInstance F C H)) ∧
      (ok = true → ∃ key ∈ keys.keys, key.id = keyId ∧ ∃ mac,
        mac = KeyStore.macOf keys.backend key.mac (packet.bytes.take 48) 20 ∧ 16 ≤ mac.length ∧
        packet'.bytes.take info'.length.toNat = packet.bytes.take 48 ++ be32 keyId ++ mac) := by
  obtain ⟨keys1, auth, packet1, hgen, hcases⟩ := generateSymmetricAuth_spec keyId keys packet
    (show 0 ≤ info.length by omega) (by omega)
  have h48 : info.length.toNat = 48 := by omega
  rw [maxAuthLen_header hlen hv, h48, show Int.toNat 20 = 20 from rfl] at hgen
  have hok : ok = true ↔ 16 ≤ auth.length := by
    rcases hcases with ⟨hlt, hg, -⟩ | ⟨hge, hg, -⟩
    · rw [hg] at h; cases h; simp; omega
    · rw [hg] at h; cases h; simp [hge]
  rcases keys.generateKeyAuth_cases keyId (packet.bytes.take 48) 20 with
    ⟨hnone, s', hg⟩ | ⟨s', pos, k, hpos, hget, hid, hg⟩
  · -- an unknown key writes nothing
    have hauth : auth = [] := by rw [hg] at hgen; cases hgen; rfl
    have hno : ¬ ok = true := by rw [hok, hauth]; decide
    refine ⟨⟨fun h => absurd h hno, ?_⟩, fun h => absurd h hno⟩
    rintro ⟨pos, _, _, _, hpos, -⟩
    rw [hnone] at hpos
    cases hpos
  · have hauth : auth = KeyStore.macOf keys.backend k.mac (packet.bytes.take 48) 20 := by
      rw [hg] at hgen; cases hgen; rfl
    refine ⟨?_, fun hyes => ⟨k, List.mem_of_getElem? hget, hid, auth, hauth, hok.1 hyes, ?_⟩⟩
    · rw [hok, hauth, macOf_ge_iff]
      constructor
      · rintro ⟨value, hashId, e⟩
        exact ⟨pos, k, value, hashId, hpos, hget, e⟩
      · rintro ⟨pos', k', value, hashId, hpos', hget', e⟩
        rw [hpos] at hpos'
        cases hpos'
        rw [hget] at hget'
        cases hget'
        exact ⟨value, hashId, e⟩
    · have h16 := hok.1 hyes
      rcases hcases with ⟨hlt, -, -⟩ | ⟨-, hg, hbytes⟩
      · omega
      · rw [hg] at h
        cases h
        rw [h48] at hbytes
        rw [← hbytes]
        congr 1
        simp only [appended]
        omega

/-- **Ready iff both succeed.** -/
theorem requestReady_iff {a1 a2 : NauInstance F C H} {prepared generated : Bool}
    (hlen : info.length = 48) (hv : info.version = 4)
    (hp : a.prepareRequestAuth = .ok (a1, prepared))
    (hg : a1.generateRequestAuth keys packet info = .ok (a2, keys', packet', info', generated)) :
    prepared = true ∧ generated = true ↔ a.Ready keys info.mode := by
  cases a with
  | none =>
    cases hp
    cases hg
    simp [Ready]
  | symmetric k =>
    cases hp
    unfold generateRequestAuth at hg
    obtain ⟨⟨keys1, p1, i1, ok1⟩, h1, hg⟩ := bind_eq_ok.1 hg
    have hiff := (generateSymmetricAuth_iff (F := F) (C := C) (H := H) hlen hv h1).1
    rw [← hiff]
    cases ok1 <;> cases hg <;> simp
  | nts c =>
    unfold prepareRequestAuth at hp
    obtain ⟨⟨c1, prep⟩, hp1, hp⟩ := bind_eq_ok.1 hp
    cases hp
    unfold generateRequestAuth at hg
    obtain ⟨⟨c2, p1, i1, ok1⟩, h1, hg⟩ := bind_eq_ok.1 hg
    refine Iff.trans ?_ (NtsClient.request_iff hlen hv hp1 h1)
    cases ok1 <;> cases hg <;> rfl

/-- **A built request is complete.** -/
theorem request_complete {a1 a2 : NauInstance F C H} {prepared : Bool} (hlen : info.length = 48)
    (hv : info.version = 4) (hp : a.prepareRequestAuth = .ok (a1, prepared))
    (hg : a1.generateRequestAuth keys packet info = .ok (a2, keys', packet', info', true)) :
    a.Complete keys (packet'.bytes.take info'.length.toNat) := by
  have hkept := generateRequestAuth_kept hlen hg
  -- the header of the datagram is that of the packet
  have hhead : (packet'.bytes.take info'.length.toNat).take 48 = packet.bytes.take 48 := by
    have h1 := hkept.length_le; have h2 := hkept.used_eq
    rw [show info.length.toNat = 48 by omega] at h2
    rw [List.take_take, Nat.min_eq_left (by omega), h2]
  cases a with
  | none => trivial
  | symmetric k =>
    cases hp
    unfold generateRequestAuth at hg
    obtain ⟨⟨keys1, p1, i1, ok1⟩, h1, hg⟩ := bind_eq_ok.1 hg
    cases ok1 with
    | false => cases hg
    | true =>
      cases hg
      obtain ⟨key, hmem, hid, mac, hmac, h16, hbytes⟩ :=
        (generateSymmetricAuth_iff (F := F) (C := C) (H := H) hlen hv h1).2 rfl
      unfold Complete
      dsimp only at hhead ⊢
      rw [hhead]
      exact ⟨key, hmem, hid, mac, hmac, h16, hbytes⟩
  | nts c =>
    unfold prepareRequestAuth at hp
    obtain ⟨⟨c1, prep⟩, hp1, hp⟩ := bind_eq_ok.1 hp
    cases hp
    unfold generateRequestAuth at hg
    obtain ⟨⟨c2, p1, i1, ok1⟩, h1, hg⟩ := bind_eq_ok.1 hg
    cases ok1 with
    | false => cases hg
    | true =>
      cases hg
      obtain ⟨-, cookie, n, -, -, -, -, -, -, -, hsent⟩ :=
        NtsClient.generateRequestAuth_true (NtsClient.prepareForAuth_keyed hp1) hlen h1
      unfold Complete
      dsimp only at hhead ⊢
      rw [hhead]
      exact ⟨_, _, _, cookie, n, c1.uniqId.length_bytes, c1.nonce.length_bytes, hsent.bytes_eq⟩

end NauInstance

end ChronyRs.L4

import ChronyRs.L3Nts.FieldWalk
import ChronyRs.L4Assoc.Nau

/-!
# The MAC of a symmetric key, written and checked (`ntp_auth.rs`, `keys.rs`)

An NTPv4 MAC is cut off at 20 bytes, and the parser finds it from the length of the packet alone:
what is left behind the fields is a MAC if it has 20 to 24 bytes. A field of at least 16 bytes in
front of a MAC of at least 20 bytes is never in that range, so the fields are read as fields.

* `generateSymmetricAuth_true`: what an appended MAC is.
* `symmetric_round_trip`: it is found and accepted with its own key id, and with no other.
-/
namespace ChronyRs.L4

open L1.Ext L1.Parse L2 L3.Nts

variable {B : Type} [CryptoBackend B]

/-- The MAC of a key is one digest, cut off at the end of the slice it is written to. -/
structure Truncated (backend : B) (mac : KeyMac) : Prop where
  take_eq : ∀ data n, n ≤ 64 → KeyStore.macOf backend mac data n =
    (KeyStore.macOf backend mac data 64).take n
  aligned : ∀ data, (KeyStore.macOf backend mac data 64).length % 4 = 0

variable {keyId : UInt32} {keys keys' : KeyStore B} {packet packet' : NtpPacketBuf}
  {info info' : NtpPacketInfo}

/-- A MAC that was appended to an NTPv4 packet is the digest of what was there, cut off at 20
bytes. -/
theorem generateSymmetricAuth_true (hmac : ∀ k ∈ keys.keys, Truncated keys.backend k.mac)
    (hv : info.version = 4) (h0 : 0 ≤ info.length) (hroom : info.length + 24 ≤ 1140)
    (h : generateSymmetricAuth keyId keys packet info = .ok (keys', packet', info', true)) :
    ∃ pos k auth, keys'.getKeyById keyId = (keys', some pos) ∧ keys'.keys[pos]? = some k ∧
      auth = (KeyStore.macOf keys'.backend k.mac (packet.bytes.take info.length.toNat) 64).take 20 ∧
      (auth.length = 16 ∨ auth.length = 20) ∧ info' = appended info keyId auth.length ∧
      packet'.bytes.take (info.length.toNat + 4 + auth.length) =
        packet.bytes.take info.length.toNat ++ be32 keyId ++ auth := by
  obtain ⟨keys1, auth, packet1, hgen, ⟨-, hg, -⟩ | ⟨h16, hg, hbytes⟩⟩ :=
    generateSymmetricAuth_spec keyId keys packet h0 (by omega)
  · rw [hg] at h
    cases h
  rw [hg] at h
  cases h
  have hmax : (maxAuthLen info).toNat = 20 := by
    unfold maxAuthLen
    rw [if_pos hv]
    omega
  rw [hmax] at hgen
  have hne : auth ≠ [] := by
    rintro rfl
    simp at h16
  obtain ⟨pos, k, hget, hpos, hk, hb, hauth⟩ := KeyStore.generateKeyAuth_key hgen hne
  have htrunc := hmac k hk
  rw [htrunc.take_eq _ 20 (by omega), ← hb] at hauth
  refine ⟨pos, k, auth, hget, hpos, hauth, ?_, rfl, hbytes⟩
  have hmod := htrunc.aligned (packet.bytes.take info.length.toNat)
  rw [← hb] at hmod
  have hlen := congrArg List.length hauth
  rw [List.length_take] at hlen
  omega

/-- A MAC that is found where it was written is accepted. -/
theorem checkSymmetricAuth_accepts (parsed : NtpPacketInfo) {data auth : Bytes} {pos : Nat}
    {k : Key} (hver : parsed.version = 4) (hstart : parsed.macStart = data.length)
    (hlen : parsed.macLength = 4 + auth.length) (hsize : auth.length = 16 ∨ auth.length = 20)
    (hdata : data.length < 2 ^ 31)
    (hbytes : packet.bytes.take (data.length + 4 + auth.length) = data ++
      be32 parsed.macKeyId ++ auth)
    (hget : keys.getKeyById parsed.macKeyId = (keys, some pos)) (hpos : keys.keys[pos]? = some k)
    (hauth : auth = (KeyStore.macOf keys.backend k.mac data 64).take 20) :
    checkSymmetricAuth packet parsed keys = .ok (keys, true) := by
  have hfit : data.length + 4 + auth.length ≤ packet.bytes.length := by
    have := congrArg List.length hbytes
    simp only [List.length_take, List.length_append, be32_length] at this
    omega
  have hpre : packet.bytes.take data.length = data := by
    have := congrArg (List.take data.length) hbytes
    rwa [List.take_take, Nat.min_eq_left (by omega), List.append_assoc, List.take_left] at this
  unfold checkSymmetricAuth
  rw [if_neg (by omega)]
  dsimp only
  rw [if_pos ⟨hver, by omega⟩, hstart, hlen, asUsize_of_nonneg (by omega) (by omega),
    asUsize_of_nonneg (by omega) (by omega),
    show ((data.length : Int)).toNat = data.length by omega,
    show (4 + (auth.length : Int) - 4).toNat = auth.length by omega,
    slice_of_le (Nat.zero_le _) (by omega), ok_bind, slice_of_le (by omega) hfit, ok_bind,
      List.drop_zero,
    hpre, hbytes, List.drop_left' (by rw [List.length_append, be32_length])]
  have haccept := KeyStore.checkKeyAuth_accepts hget hpos data 20
  rw [← hauth] at haccept
  exact haccept

/-- The parser finds a MAC behind the fields of an NTPv4 packet. -/
theorem parsePacket_appended {length : Int} {header auth : Bytes} {fs : List (UInt16 × Bytes)}
    (hholds : Holds packet length header (wire fs)) (hcrit : ∀ f ∈ fs, ¬ UnknownCritical f.1)
    (hv : lvmToVersion packet.lvm = 4) (hleap : (headerInfo packet length).leap ≠ 3)
    (hroom : length + 24 ≤ 1140) (hsize : auth.length = 16 ∨ auth.length = 20)
    (hbytes : packet.bytes.take (length.toNat + 4 + auth.length) =
      header ++ encFields (wire fs) ++ be32 keyId ++ auth) :
    ∃ noted, SameHeader (headerInfo packet (length + (4 + auth.length))) noted ∧
      parsePacket packet (length + (4 + auth.length)) =
        .ok (some (withMac noted length keyId)) := by
  have hlen := hholds.length_eq
  have hhead := hholds.header_length
  have hused := hholds.used_length
  have hmod := encFields_mod hholds.fields_ok
  have htake : packet.bytes.take (length + (4 + auth.length)).toNat =
      header ++ encFields (wire fs) ++ (be32 keyId ++ auth) := by
    rw [show (length + (4 + auth.length)).toNat = length.toNat + 4 + auth.length by omega, hbytes]
    simp only [List.append_assoc]
  -- a field has at least 16 bytes and the MAC at least 20, together too many for a MAC
  have hlast : ∀ f, (wire fs).getLast? = some f →
      24 < 4 + f.2.length + (be32 keyId ++ auth).length := by
    intro f hf
    have := (hholds.fields_ok f (List.mem_of_getLast? hf)).body_ge
    rw [List.length_append, be32_length]
    omega
  have hpath := fieldPath_encFields (by omega) (by omega) hv (wire fs) header
    (be32 keyId ++ auth) htake
    (by omega) (by omega) hholds.fields_ok hlast
  have hstop : ((header.length + (encFields (wire fs)).length : Nat) : Int) = length := by omega
  rw [hstop, hhead] at hpath
  obtain ⟨noted, hsteps⟩ := noteBody_accepted hpath (recs_wire_ne_unknownCritical hcrit)
    (headerInfo packet (length + (4 + auth.length)))
  have hkey : rdU32 packet.bytes length.toNat = .ok keyId := by
    have := rdU32_be32 hbytes
    rwa [hused] at this
  exact ⟨noted, (noteAll hpath hsteps).1, parsePacket_of_mac
    ⟨by omega, by omega, hleap, by omega, by omega⟩ hv
    (by omega) ⟨hpath, hsteps⟩ (by omega) (by omega) hkey⟩

variable {F C H : Type} [F64 F] [AesSiv C]

/-- **MAC round trip.** A MAC that `generate_symmetric_auth` appended to an NTPv4 packet of
well-formed fields is what `parse_packet` reports, with its key id and its place. An association
with this key accepts the packet, and one with another key id does not, whatever keys it has. -/
theorem symmetric_round_trip {header : Bytes} {fs : List (UInt16 × Bytes)}
    (hmac : ∀ k ∈ keys.keys, Truncated keys.backend k.mac)
    (hholds : Holds packet info.length header (wire fs)) (hcrit : ∀ f ∈ fs, ¬ UnknownCritical f.1)
    (hv : lvmToVersion packet.lvm = 4) (hver : info.version = 4)
    (hleap : (headerInfo packet info.length).leap ≠ 3) (hroom : info.length + 24 ≤ 1140)
    (h : generateSymmetricAuth keyId keys packet info = .ok (keys', packet', info', true)) :
    ∃ parsed, parsePacket packet' info'.length = .ok (some parsed) ∧ parsed.authMode = 1 ∧
      parsed.macKeyId = keyId ∧ parsed.macStart = info.length ∧ parsed.macStart = info'.macStart ∧
      parsed.macLength = info'.macLength ∧
      (NauInstance.symmetric keyId : NauInstance F C H).checkResponseAuth keys' packet' parsed =
        .ok (.symmetric keyId, keys', true) ∧
      ∀ other, other ≠ keyId → ∀ store : KeyStore B,
        (NauInstance.symmetric other : NauInstance F C H).checkResponseAuth store packet' parsed =
          .ok (.symmetric other, store, false) := by
  have hlen := hholds.length_eq
  have hused := hholds.used_length
  obtain ⟨pos, k, auth, hget, hpos, hauth, hsize, rfl, hbytes⟩ :=
    generateSymmetricAuth_true hmac hver (by omega) hroom h
  rw [hholds.bytes_eq] at hauth hbytes
  -- what was there is still there
  have hkept : Holds packet' info.length header (wire fs) := by
    refine ⟨hholds.header_length, ?_, hlen, hholds.length_le, hholds.fields_ok⟩
    have := congrArg (List.take info.length.toNat) hbytes
    rwa [List.take_take, Nat.min_eq_left (by omega), List.append_assoc,
      List.take_left' hused] at this
  have hlvm : packet'.lvm = packet.lvm := by rw [hkept.lvm, hholds.lvm]
  have hleap' : (headerInfo packet' info.length).leap ≠ 3 := by
    simp only [headerInfo, hlvm] at hleap ⊢
    exact hleap
  obtain ⟨noted, hsame, hparse⟩ := parsePacket_appended hkept hcrit
    (hlvm ▸ hv) hleap' hroom hsize hbytes
  have hmacLength : (withMac noted info.length keyId).macLength = 4 + auth.length := by
    have : noted.length = info.length + (4 + auth.length) := hsame.length_eq
    simp only [withMac, this]
    omega
  refine ⟨_, hparse, rfl, rfl, rfl, rfl, hmacLength, ?_, ?_⟩
  · have hversion : (withMac noted info.length keyId).version = 4 := by
      have : noted.version = lvmToVersion packet'.lvm := hsame.version_eq
      simp only [withMac, this, hlvm, hv]
    have hcheck := checkSymmetricAuth_accepts (withMac noted info.length keyId) hversion
      (by simp only [withMac]; omega) hmacLength hsize (by omega)
        (hused.symm ▸ hbytes) hget hpos hauth
    unfold NauInstance.checkResponseAuth
    rw [if_neg (by simp [withMac, NauInstance.mode])]
    dsimp only
    rw [if_neg (by simp [withMac]), hcheck]
    rfl
  · intro other hne store
    unfold NauInstance.checkResponseAuth
    rw [if_neg (by simp [withMac, NauInstance.mode])]
    dsimp only
    rw [if_pos (by simpa [withMac] using Ne.symm hne)]
    rfl

/-! ## A key of the internal MD5 -/

theorem md5_truncated (value : Bytes) (hashId : Int) :
    Truncated InternalMd5Backend.mk (.ntpMac value hashId) where
  take_eq data n hn := by
    simp only [KeyStore.macOf, CryptoBackend.hash, Md5.hash, List.take_take]
    congr 1
  aligned data := by simp [KeyStore.macOf, CryptoBackend.hash, Md5.hash_length]

def shortFieldPacket : NtpPacketBuf :=
  Buf.ofBytes 1140 (0x23 :: List.replicate 47 0 ++ encField 0x0104 (List.replicate 12 7))

def storedKeys : KeyStore InternalMd5Backend := .ofKeys {} [⟨7, .ntpMac [1, 2, 3] 0⟩]

theorem symmetric_round_trip_md5 : ∃ keys' packet' info' parsed,
    generateSymmetricAuth 7 storedKeys shortFieldPacket { length := 64, version := 4 } =
      .ok (keys', packet', info', true) ∧
    parsePacket packet' info'.length = .ok (some parsed) ∧ parsed.authMode = 1 ∧
      parsed.macKeyId = 7 ∧ parsed.macStart = 64 ∧
      (NauInstance.symmetric 7 : NauInstance ℚ NullCipher StaticHost).checkResponseAuth keys'
        packet' parsed = .ok (.symmetric 7, keys', true) := by
  obtain ⟨⟨keys', packet', info', ok⟩, hgen, hok⟩ := exists_of_check (p := fun r => r.2.2.2)
    (x := generateSymmetricAuth 7 storedKeys shortFieldPacket { length := 64, version := 4 })
      (by decide +kernel)
  obtain rfl : ok = true := hok
  have hholds : Holds shortFieldPacket 64 (0x23 :: List.replicate 47 0)
      (wire [(0x0104, List.replicate 12 7)]) :=
    ⟨by decide +kernel, by decide +kernel, by decide +kernel, by decide +kernel, fun f hf => by
      cases List.mem_singleton.1 hf
      exact ⟨by decide, by decide, by decide, by decide⟩⟩
  obtain ⟨parsed, hparse, hauth, hkey, hstart, -, -, haccept, -⟩ :=
    symmetric_round_trip (F := ℚ) (C := NullCipher) (H := StaticHost)
      (fun k hk => by cases List.mem_singleton.1 hk; exact md5_truncated _ _) hholds (by decide)
      (by decide +kernel) rfl (by decide +kernel) (by decide) hgen
  exact ⟨keys', packet', info', parsed, hgen, hparse, hauth, hkey, hstart, haccept⟩

end ChronyRs.L4

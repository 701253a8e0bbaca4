import ChronyRs.L4Assoc.FieldWalkers
import ChronyRs.L4Assoc.SymmetricMac

/-!
# A MAC read as an extension field (`ntp/ext.rs`, `ntp/rx_dispatch.rs`)

`parse_packet` stops at the last 20 to 24 bytes of a packet and takes them for a MAC.
`ef_process_all` and `check_autokey` walk on: they call `parse_single_field`, which knows nothing of
the MAC, and take the key id for the type and length of one more field. If the lower half of the key
id is a length that fits, the MAC is inspected as a field, and the upper half decides what it is: 2,
3 and 4 are Autokey, for which `process_received_response` drops the packet before its MAC is
checked, and a set high bit is an unknown critical field, for which `ef_process_all` tells its
caller to drop it.

* `stops_at_mac_iff`: both walkers keep to the counted fields if and only if the key id has no such
  length.
* `authentic_dropped`: a packet with a valid MAC of the key 0x00020014 and one of the key
  0x80000014.

Fix: give both walkers the end of the fields (`info.mac.start`, or the length without a MAC) in
place of the length of the packet.
-/
namespace ChronyRs.Bugs.MacAsField

open L1.Ext L1.Parse L2 L3.Nts L4

/-- The fields that `parse_packet` counted, each with its offset. -/
structure Counted (packet : NtpPacketBuf) (info : NtpPacketInfo)
    (counted : List (Int × ParsedField)) : Prop where
  path : (fields packet info.length).Path 48 counted info.macStart
  extFields_eq : info.extFields = counted.length

/-- Both walkers inspect only counted fields. No packet is rejected for an unknown critical field,
and one without counted Autokey fields is judged by its MAC, whatever the association and its keys
are. -/
structure StopAtMac (packet : NtpPacketBuf) (info : NtpPacketInfo)
    (counted : List (Int × ParsedField)) : Prop where
  critical : ∃ inspected stopped, efWalk packet info.length = .ok (inspected, stopped) ∧
    inspected ⊆ counted
  autokey : ∃ inspected stopped, autokeyWalk packet info.length = .ok (inspected, stopped) ∧
    inspected ⊆ counted
  notCritical : efProcessAll packet info.length = .ok true
  notAutokey : (∀ x ∈ counted, autokeyField x.2 = false) →
    ∀ (B F C H : Type) [CryptoBackend B] [F64 F] [AesSiv C] (packetMode ourMode : Int)
      (auth : NauInstance F C H) (keys : KeyStore B) (args : TestAArgs F),
      processReceivedResponse packetMode ourMode auth keys packet info args =
        verifyReceived packetMode ourMode auth keys packet info args

/-- What `parse_packet` says of a packet with a MAC. -/
structure MacBehind (packet : NtpPacketBuf) (info : NtpPacketInfo)
    (counted : List (Int × ParsedField)) : Prop extends Counted packet info counted where
  known : ∀ x ∈ counted, efDispatch x.2 ≠ .unknownCritical
  start_ge : 48 ≤ info.macStart
  end_eq : info.macStart + info.macLength = info.length
  length_ge : 4 ≤ info.macLength
  keyId : rdU32 packet.bytes info.macStart.toNat = .ok info.macKeyId

theorem macBehind_of_parsed {packet : NtpPacketBuf} {length : Int} {info : NtpPacketInfo}
    (h : parsePacket packet length = .ok (some info)) (hmode : info.authMode = 1) :
    ∃ counted, MacBehind packet info counted := by
  obtain ⟨hok, hp⟩ := parsePacket_some h
  have hmod := hok.length_mod
  cases hp with
  | plain => simp [headerInfo] at hmode
  | @mac3 k m hv hl hk _ =>
    refine ⟨[], ⟨⟨.nil 48, rfl⟩, by simp, by simp [withMac], ?_, ?_, hk⟩⟩
    · simp only [withMac, headerInfo]; omega
    · simp only [withMac, headerInfo]; omega
  | cryptoNak hv hl =>
    subst hl
    exact ⟨[], ⟨⟨.nil 48, rfl⟩, by simp, by simp [withMac], rfl, Int.le_refl 4,
      parsePacket_four hv h⟩⟩
  | @fields l _ _ _ ht =>
    obtain ⟨-, -, hauth⟩ := noteAll ht.path ht.noted
    rw [hauth] at hmode
    split at hmode
    · cases hmode
    · simp [headerInfo] at hmode
  | @fieldsMac l b i k hv ht h20 h24 hk =>
    obtain ⟨hs, hext, -⟩ := noteAll ht.path ht.noted
    have hlen : i.length = length := hs.length_eq
    have hle := ht.le (by omega)
    refine ⟨l, ⟨⟨?_, by simpa [headerInfo, withMac] using hext⟩, ht.known, hle.1, ?_, ?_, hk⟩⟩
    · simpa only [withMac, hlen] using ht.path
    · simp only [withMac, hlen]; omega
    · simp only [withMac, hlen]; omega

section
variable {packet : NtpPacketBuf} {info : NtpPacketInfo} {counted : List (Int × ParsedField)}

/-- The walkers have fuel for the counted fields and one more. -/
theorem MacBehind.fuel (h : MacBehind packet info counted) :
    ∃ n, info.length.toNat + 1 = n + 1 + 1 + counted.length := by
  have hlen : counted.length ≤ (info.length - 48).toNat :=
    h.path.length_le (fields_progress packet info.length)
  have := h.start_ge
  have := h.end_eq
  have := h.length_ge
  exact ⟨info.length.toNat - 1 - counted.length, by omega⟩

theorem MacBehind.at_mac (h : MacBehind packet info counted) :
    if LooksLikeField info.macKeyId info.macLength then
      ∃ pf, parseSingleField packet.bytes info.length info.macStart = .ok (some pf)
    else parseSingleField packet.bytes info.length info.macStart = .ok none := by
  have hstart := h.start_ge
  have hlength := h.length_ge
  have hrest : info.length - info.macStart = info.macLength := by
    have := h.end_eq
    omega
  have hmac :=
    parseSingleField_mac (by omega) (show 4 ≤ info.length - info.macStart by omega) h.keyId
  rwa [hrest] at hmac

theorem MacBehind.walk_mac (h : MacBehind packet info counted)
    (hlooks : ¬ LooksLikeField info.macKeyId info.macLength) (stop : ParsedField → Bool) (n : Nat) :
    walkFields stop packet info.length (n + 1) info.macStart = .ok ([], false) := by
  have hmac := h.at_mac
  rw [if_neg hlooks] at hmac
  rw [walkFields, hmac]
  rfl

theorem MacBehind.walk_none (h : MacBehind packet info counted)
    (hlooks : ¬ LooksLikeField info.macKeyId info.macLength) {stop : ParsedField → Bool}
    (hstop : ∀ x ∈ counted, stop x.2 = false) :
    walkFields stop packet info.length (info.length.toNat + 1) 48 = .ok (counted, false) := by
  obtain ⟨n, hn⟩ := h.fuel
  rw [hn, walkFields_path h.path hstop, h.walk_mac hlooks]
  simp [Except.map]

theorem MacBehind.not_critical (h : MacBehind packet info counted) :
    ∀ x ∈ counted, unknownCritical x.2 = false :=
  fun x hx => by simpa [unknownCritical] using h.known x hx

theorem MacBehind.stops (h : MacBehind packet info counted)
    (hlooks : ¬ LooksLikeField info.macKeyId info.macLength) : StopAtMac packet info counted := by
  have hcritical : efWalk packet info.length = .ok (counted, false) :=
    h.walk_none hlooks h.not_critical
  refine ⟨⟨_, _, hcritical, fun _ hx => hx⟩, ?_, by unfold efProcessAll; rw [hcritical]; rfl, ?_⟩
  · unfold autokeyWalk
    split
    · exact ⟨_, _, rfl, List.nil_subset _⟩
    split
    · exact ⟨_, _, rfl, List.nil_subset _⟩
    by_cases hfound : ∃ x ∈ counted, autokeyField x.2 = true
    · obtain ⟨n, hn⟩ := h.fuel
      obtain ⟨inspected, hwalk, hsub⟩ := walkFields_found h.path hfound (n + 1 + 1)
      rw [hn]
      exact ⟨_, _, hwalk, hsub⟩
    · refine ⟨_, _, h.walk_none hlooks fun x hx => ?_, fun _ hx => hx⟩
      exact Bool.eq_false_of_not_eq_true fun hx' => hfound ⟨x, hx, hx'⟩
  · intro hnone B F C H _ _ _ packetMode ourMode auth keys args
    have hfalse : checkAutokey packet info.length = .ok false := by
      unfold checkAutokey autokeyWalk
      split
      · rfl
      split
      · rfl
      rw [h.walk_none hlooks hnone]
      rfl
    unfold processReceivedResponse
    rw [hfalse]
    rfl

/-- If the key id looks like the header of a field then the first walker inspects the MAC, or
panics. -/
theorem MacBehind.not_stops (h : MacBehind packet info counted)
    (hlooks : LooksLikeField info.macKeyId info.macLength) : ¬ StopAtMac packet info counted := by
  rintro ⟨⟨inspected, stopped, hwalk, hsub⟩, -⟩
  obtain ⟨n, hn⟩ := h.fuel
  have hmac := h.at_mac
  rw [if_pos hlooks] at hmac
  obtain ⟨pf, hmac⟩ := hmac
  -- whatever it does with the MAC, the MAC has been inspected
  have hseen : (info.macStart, pf) ∈ inspected := by
    unfold efWalk at hwalk
    rw [hn, walkFields_path h.path h.not_critical, walkFields, hmac, ok_bind] at hwalk
    dsimp only at hwalk
    split at hwalk
    · cases hwalk
      simp
    · rcases hrest : walkFields unknownCritical packet info.length (n + 1)
        (info.macStart + pf.length) with e | r
      · rw [hrest] at hwalk
        cases hwalk
      · rw [hrest] at hwalk
        cases hwalk
        simp
  obtain ⟨-, -, hparse, hle⟩ := h.path.mem (fields_progress packet info.length) (hsub hseen)
  have := fields_progress packet info.length _ _ hparse
  omega

end

/-- **The walkers stop at the MAC** of a packet that `parse_packet` accepts with one if and only if
the lower half of the key id is not a multiple of 4 from 4 to the length of the MAC. -/
theorem stops_at_mac_iff {packet : NtpPacketBuf} {length : Int} {info : NtpPacketInfo}
    (h : parsePacket packet length = .ok (some info)) (hmode : info.authMode = 1) :
    ∃ counted, Counted packet info counted ∧
      (StopAtMac packet info counted ↔ ¬ LooksLikeField info.macKeyId info.macLength) := by
  obtain ⟨counted, hmac⟩ := macBehind_of_parsed h hmode
  exact ⟨counted, hmac.toCounted, fun hstop hlooks => hmac.not_stops hlooks hstop, hmac.stops⟩

/-! ## Two keys that are lost -/

/-- An NTPv4 server response without fields, signed with the key `keyId`. -/
def signed (keyId : UInt32) : NtpPacketBuf :=
  let header : Bytes := 0x24 :: List.replicate 47 0
  .ofBytes 1140 (header ++ be32 keyId ++ Md5.hash [1, 2, 3] header 16)

def keyring (keyId : UInt32) : KeyStore InternalMd5Backend :=
  .ofKeys {} [⟨keyId, .ntpMac [1, 2, 3] 0⟩]

def association (keyId : UInt32) : NauInstance ℚ NullCipher StaticHost := .symmetric keyId

def signedInfo (keyId : UInt32) : NtpPacketInfo := withMac (headerInfo (signed keyId) 68) 48 keyId

def testA : TestAArgs ℚ := ⟨0, 0, 0, 1, 0, 0, false⟩

theorem stops_at_mac_seven : ∃ counted, Counted (signed 7) (signedInfo 7) counted ∧
    StopAtMac (signed 7) (signedInfo 7) counted := by
  have hparse : parsePacket (signed 7) 68 = .ok (some (signedInfo 7)) := by decide +kernel
  obtain ⟨counted, hcounted, hiff⟩ := stops_at_mac_iff hparse rfl
  exact ⟨counted, hcounted, hiff.2 (by decide)⟩

/-- **Authentic packets without any field are dropped**: the one signed with 0x00020014 as Autokey,
which would be accepted by its MAC, and the one signed with 0x80000014 for an unknown critical
field. -/
theorem authentic_dropped :
    parsePacket (signed 0x00020014) 68 = .ok (some (signedInfo 0x00020014)) ∧
    (signedInfo 0x00020014).authMode = 1 ∧ (signedInfo 0x00020014).extFields = 0 ∧
    (verifyReceived 4 3 (association 0x00020014) (keyring 0x00020014) (signed 0x00020014)
      (signedInfo 0x00020014) testA).map (fun r => r.2.2) =
        .ok ⟨true, .processResponse, true, true⟩ ∧
    (processReceivedResponse 4 3 (association 0x00020014) (keyring 0x00020014) (signed 0x00020014)
      (signedInfo 0x00020014) testA).map (fun r => r.2.2) = .ok ⟨false, .discard, false, false⟩ ∧
    parsePacket (signed 0x80000014) 68 = .ok (some (signedInfo 0x80000014)) ∧
    (verifyReceived 4 3 (association 0x80000014) (keyring 0x80000014) (signed 0x80000014)
      (signedInfo 0x80000014) testA).map (fun r => r.2.2) =
        .ok ⟨true, .processResponse, true, true⟩ ∧
    efProcessAll (signed 0x80000014) 68 = .ok false := by
  refine ⟨?_, rfl, rfl, ?_, ?_, ?_, ?_, ?_⟩ <;> decide +kernel

end ChronyRs.Bugs.MacAsField

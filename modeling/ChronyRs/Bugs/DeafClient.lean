import ChronyRs.L4Assoc.RxDispatch

/-!
# `handle_response` never returns a sample

Test A wants `presend_done <= 0`, the number of presends that are still outstanding, and
`handle_response` passes the constant 1. The test fails on every packet, so the receive
path rejects every response, however good it is.

* `handleResponse_none`: no source gets a sample out of any packet.
* `client_deaf`: in particular a client that waits for a response and gets a good one.
* `good_response_dropped`: such a response, whose sample passes all other conditions.
-/
namespace ChronyRs.Bugs.DeafClient

open L1.Ext L1.Parse L2 L3.Nts L4

section
variable {F C H : Type} [F64 F] [AesSiv C] (measure : SampleArgs F → ResponseSample F)

theorem passesTestAClient_presend (peerDelay peerDispersion precision maxDelay responseTime : F)
    {presendDone : Int} (h : 0 < presendDone) (b1 b2 b3 : Bool) :
    passesTestAClient peerDelay peerDispersion precision maxDelay presendDone
      responseTime b1 b2 b3 = false := by
  unfold passesTestAClient
  rw [show decide (presendDone ≤ 0) = false from decide_eq_false (by omega)]
  simp

/-- Whatever the source, the packet and the measurement, no sample comes out. -/
theorem handleResponse_none {s s' : SourceInstance F C H} {packet : Bytes} {now : Timespec}
    {nowErr maxDelay offsetCorrection : F} {r : Option (ResponseSample F)}
    (h : s.handleResponse measure packet now nowErr maxDelay offsetCorrection = .ok (s', r)) :
    r = none := by
  unfold SourceInstance.handleResponse at h
  obtain ⟨⟨s1, v⟩, -, h⟩ := bind_eq_ok.1 h
  rcases v with _ | ⟨decoded, action, ok⟩
  · cases h; rfl
  dsimp only at h
  split at h
  · cases h; rfl
  split at h
  · cases h; rfl
  rw [passesTestAClient_presend _ _ _ _ _ (by decide), if_neg (by decide)] at h
  cases h; rfl

/-- A bare NTPv4 header parses, without authentication. -/
theorem parseReceived_bare {packet : Bytes} (hlen : packet.length = 48)
    (hver : (packet.getD 0 0 >>> 3) &&& 7 = 4) (hleap : (packet.getD 0 0 >>> 6) &&& 3 ≠ 3) :
    ∃ info, SourceInstance.parseReceived packet = .ok (some info) ∧ info.authMode = 0 := by
  have hlvm := SourceInstance.lvm_ofBytes (show 0 < packet.length by omega)
  refine ⟨headerInfo (Buf.ofBytes 1140 packet) 48, ?_, rfl⟩
  have hv : (headerInfo (Buf.ofBytes 1140 packet) 48).version = 4 := by
    simp only [headerInfo, lvmToVersion, hlvm, hver]; rfl
  have hl : (headerInfo (Buf.ofBytes 1140 packet) 48).leap ≠ 3 := by
    simp only [headerInfo, hlvm]
    exact fun h => hleap (UInt8.toNat_inj.1 (by exact_mod_cast h))
  unfold SourceInstance.parseReceived parsePacket
  rw [hlen, show asI32 48 = 48 from rfl, if_neg (by decide), if_neg hl, hv]
  rfl

/-- **Every response is dropped.** A client-mode source (with or without authentication)
that has recorded a T1 returns nothing for every 48-byte NTPv4 server response with a
valid leap indicator, for every maximum delay and every measurement. -/
theorem client_deaf {s : SourceInstance F C H} (hmode : s.mode = 3) {t1 : Timespec}
    (ht1 : s.savedT1 = some t1) {packet : Bytes} (hlen : packet.length = 48)
    (hver : (packet.getD 0 0 >>> 3) &&& 7 = 4) (hserver : packet.getD 0 0 &&& 7 = 4)
    (hleap : (packet.getD 0 0 >>> 6) &&& 3 ≠ 3) (now : Timespec)
    (nowErr maxDelay offsetCorrection : F) :
    s.handleResponse measure packet now nowErr maxDelay offsetCorrection = .ok (s, none) := by
  obtain ⟨info, hp, h0⟩ := parseReceived_bare hlen hver hleap
  obtain ⟨d, hm, he⟩ := s.authenticate_eq (by omega) hp
  have hclass : classifyRxKnown d.mode.toNat s.mode = .processResponse := by
    rw [hm, hserver, hmode]; rfl
  have hauthd : s.authenticate packet = .ok (s, some (d, .processResponse, true)) := by
    rw [he, receiveAuthenticated_response (.inl hclass), hclass]
    unfold authCheckResponse
    rw [if_pos h0]
    rfl
  unfold SourceInstance.handleResponse
  rw [hauthd, ok_bind]
  dsimp only
  rw [if_neg (by simp), ht1]
  dsimp only
  rw [passesTestAClient_presend _ _ _ _ _ (by decide), if_neg (by decide)]
  rfl

end

def waiting : SourceInstance ℚ NullCipher StaticHost :=
  (SourceInstance.new "server" 3 0).recordT1 ⟨0, 0⟩ 0

def serverResponse : Bytes := 0x24 :: List.replicate 47 0

def goodSample : ResponseSample ℚ := ⟨0, 1 / 1000, 0, 0, 0, ⟨0, 0⟩⟩

theorem client_deaf_waiting : waiting.handleResponse (fun _ => goodSample)
    serverResponse ⟨1, 0⟩ 0 1 0 = .ok (waiting, none) :=
  client_deaf _ rfl rfl rfl rfl rfl (by decide) _ _ _ _

/-- The sample passes test A with every outstanding presend done, but the response is
dropped. -/
theorem good_response_dropped :
    passesTestAClient goodSample.peerDelay (F64.lit (1 / 1000)) (F64.lit (1 / 1000)) 1 0
      (F64.lit (1 / 1000)) false false false = true ∧
    waiting.handleResponse (fun _ => goodSample) serverResponse ⟨1, 0⟩ 0 1 0 ≠
      .ok (waiting, some goodSample) := by
  refine ⟨by decide +kernel, fun h => ?_⟩
  cases handleResponse_none _ h

end ChronyRs.Bugs.DeafClient

import ChronyRs.L3Nts.FieldWalk
import ChronyRs.L3Nts.Recovery
import ChronyRs.L4Assoc.RxDispatch

/-!
# An NTS NAK never reaches the client

A server that cannot open a cookie answers with a NAK: stratum 0, the kiss code `NTSN`, leap
indicator 3 as with every kiss code, and the unique identifier of the request. `parse_packet`
rejects every packet with leap indicator 3, so `handle_response` drops the NAK before the client
sees it. `nak_response` stays as it was, and the client goes on with cookies that the server refuses
until the keys are old enough to be refreshed.

* `nak_recovery_iff`: the client recovers from such a NAK iff `nak_response` was set before.
* `nak_dropped`: a NAK, and the client that ignores it.

Fix: let `parse_packet` accept leap indicator 3, and reject unsynchronised sources where samples are
made.
-/
namespace ChronyRs.Bugs.DroppedNak

open L1.Ext L1.Parse L2 L3.Nts L4

def leap (packet : Bytes) : UInt8 := (packet.getD 0 0 >>> 6) &&& 3

/-- A NAK to the request with this identifier: a server's header with the kiss code, and well-formed
fields, among them the identifier and no authenticator. -/
structure Nak (uniqId packet : Bytes) (fs : List (UInt16 × Bytes)) : Prop where
  length_ge : 48 ≤ packet.length
  length_le : packet.length ≤ 1140
  bytes_eq : packet = packet.take 48 ++ encFields (wire fs)
  version_eq : (packet.getD 0 0 >>> 3) &&& 7 = 4
  mode_eq : packet.getD 0 0 &&& 7 = 4
  stratum_eq : packet[1]? = some 0
  refid_eq : (packet.take 16).drop 12 = [0x4e, 0x54, 0x53, 0x4e]
  fields_ok : ∀ f ∈ wire fs, FieldOk f
  uniqId_mem : (0x0104, uniqId) ∈ fs
  uniqId_only : ∀ f ∈ fs, f.1 = 0x0104 → f.2 = uniqId
  auth_none : ∀ f ∈ fs, f.1 ≠ 0x0404
  critical_none : ∀ f ∈ fs, ¬ UnknownCritical f.1
  last_long : ∀ f, fs.getLast? = some f → 28 ≤ 4 + f.2.length

/-- The source's NTS client awaits the response to a request. -/
structure Outstanding {F C H : Type} (s : SourceInstance F C H) (c : NtsClient F C H) : Prop where
  auth_eq : s.auth = .nts c
  mode_eq : s.mode = 3
  awaits : c.okResponse = false
  ready_eq : c.authReady = false
  siv_some : c.siv.isSome = true

section
variable {F C H : Type} [F64 F] [AesSiv C] (measure : SampleArgs F → ResponseSample F)

/-! ## What a packet does to the client -/

omit [F64 F] in
/-- The client is as before, or has checked the packet. -/
theorem receiveAuthenticated_nts {B : Type} [CryptoBackend B] {packetMode ourMode : Int}
    {c : NtsClient F C H} {keys keys' : KeyStore B} {packet : NtpPacketBuf} {info : NtpPacketInfo}
    {auth : NauInstance F C H} {action : RxKnownAction} {ok : Bool} [F64 F]
    (h : receiveAuthenticated packetMode ourMode (.nts c) keys packet info =
      .ok (auth, keys', action, ok)) :
    auth = .nts c ∨ ∃ c' ok, c.checkResponseAuth packet info = .ok (c', ok) ∧ auth = .nts c' := by
  by_cases hr : (classifyRxKnown packetMode ourMode).IsResponse
  · rw [receiveAuthenticated_response hr] at h
    obtain ⟨⟨auth1, keys1, ok1⟩, hcheck, h⟩ := bind_eq_ok.1 h
    cases h
    unfold authCheckResponse at hcheck
    split at hcheck
    · cases hcheck
      exact .inl rfl
    unfold NauInstance.checkResponseAuth at hcheck
    split at hcheck
    · cases hcheck
      exact .inl rfl
    obtain ⟨⟨c', ok'⟩, hc, hcheck⟩ := bind_eq_ok.1 hcheck
    cases hcheck
    exact .inr ⟨c', _, hc, rfl⟩
  · rw [receiveAuthenticated_other hr] at h
    split at h
    · obtain ⟨⟨keys1, ok1, k⟩, -, h⟩ := bind_eq_ok.1 h
      cases h
      exact .inl rfl
    · cases h
      exact .inl rfl

theorem handleResponse_nak {s s' : SourceInstance F C H} {c : NtsClient F C H} {packet : Bytes}
    {now : Timespec} {nowErr maxDelay offsetCorrection : F} {r : Option (ResponseSample F)}
    (ha : s.auth = .nts c)
    (h : s.handleResponse measure packet now nowErr maxDelay offsetCorrection = .ok (s', r)) :
    ∃ c', s'.auth = .nts c' ∧ (c.nakResponse = true → c'.nakResponse = true) := by
  obtain ⟨v, hv⟩ := SourceInstance.handleResponse_authenticated h
  unfold SourceInstance.authenticate at hv
  obtain ⟨o, -, hv⟩ := bind_eq_ok.1 hv
  cases o with
  | error _ =>
    cases hv
    exact ⟨c, ha, id⟩
  | ok decoded =>
    obtain ⟨o, -, hv⟩ := bind_eq_ok.1 hv
    cases o with
    | none =>
      cases hv
      exact ⟨c, ha, id⟩
    | some info =>
      obtain ⟨⟨auth, keys, action, ok⟩, hrecv, hv⟩ := bind_eq_ok.1 hv
      cases hv
      rw [ha] at hrecv
      rcases receiveAuthenticated_nts hrecv with rfl | ⟨c', ok', hc, rfl⟩
      · exact ⟨c, rfl, id⟩
      · exact ⟨c', rfl, (NtsClient.checkResponseAuth_frame hc).2.2⟩

/-- A packet with leap indicator 3 changes nothing. -/
theorem handleResponse_leap (s : SourceInstance F C H) {packet : Bytes} (hlen : 48 ≤ packet.length)
    (hleap : leap packet = 3) (now : Timespec) (nowErr maxDelay offsetCorrection : F) :
    s.handleResponse measure packet now nowErr maxDelay offsetCorrection = .ok (s, none) := by
  have hparse : SourceInstance.parseReceived packet = .ok none := by
    have hl : (headerInfo (Buf.ofBytes 1140 packet) (asI32 packet.length)).leap = 3 := by
      simp only [headerInfo, SourceInstance.lvm_ofBytes (show 0 < packet.length by omega)]
      have := congrArg UInt8.toNat hleap
      exact_mod_cast this
    unfold SourceInstance.parseReceived parsePacket
    by_cases hshort : asI32 packet.length < 48 ∨ asI32 packet.length % 4 ≠ 0
    · rw [if_pos hshort]
      rfl
    · rw [if_neg hshort, if_pos hl]
      rfl
  obtain ⟨d, hd, -⟩ := decode_long hlen
  have hauth : s.authenticate packet = .ok (s, none) := by
    unfold SourceInstance.authenticate
    rw [hd, ok_bind]
    dsimp only
    rw [hparse]
    rfl
  unfold SourceInstance.handleResponse
  rw [hauth]
  rfl

end

/-! ## Recovery -/

section
variable {F C H : Type} [F64 F] [AesSiv C] [NtsHost H F] (measure : SampleArgs F → ResponseSample F)

/-- What may happen to a source before its client's retry time: packets that are not valid
responses, and attempts to prepare a request. -/
inductive Pending : SourceInstance F C (Counted H) → SourceInstance F C (Counted H) → Prop
  | refl (s : SourceInstance F C (Counted H)) : Pending s s
  | receive {s s1 s2 : SourceInstance F C (Counted H)} {packet : Bytes} {now : Timespec}
      {nowErr maxDelay offsetCorrection : F} {r : Option (ResponseSample F)} (hp : Pending s s1)
      (h : s1.handleResponse measure packet now nowErr maxDelay offsetCorrection = .ok (s2, r))
      (hno : ∀ c, s2.auth = .nts c → c.okResponse = false) : Pending s s2
  | early {s s1 : SourceInstance F C (Counted H)} {c c' : NtsClient F C (Counted H)} {ok : Bool}
      (hp : Pending s s1) (ha : s1.auth = .nts c) (hearly : c.drawn.checkCookies.1.Early)
      (h : c.prepareForAuth = .ok (c', ok)) : Pending s { s1 with auth := .nts c' }

/-- The NAK is noted, and unless a valid response follows, the next `prepare_for_auth` drops the
cookies and starts a new exchange once the retry time has come. -/
def Recovers (s : SourceInstance F C (Counted H)) (packet : Bytes) (now : Timespec)
    (nowErr maxDelay offsetCorrection : F) : Prop :=
  ∃ s' c' r, s.handleResponse measure packet now nowErr maxDelay offsetCorrection = .ok (s', r) ∧
    s'.auth = .nts c' ∧ c'.nakResponse = true ∧
    ∀ s2 c2, Pending measure s' s2 → s2.auth = .nts c2 → c2.Renews

/-- A refused client stays refused while it waits. -/
theorem Pending.spent {s s2 : SourceInstance F C (Counted H)} {c : NtsClient F C (Counted H)}
    (hp : Pending measure s s2) (ha : s.auth = .nts c) (hc : c.Spent) :
      ∃ c2, s2.auth = .nts c2 ∧ c2.Spent := by
  induction hp with
  | refl => exact ⟨c, ha, hc⟩
  | receive hp h hno ih =>
    obtain ⟨c1, ha1, hc1⟩ := ih
    obtain ⟨c2, ha2, hn⟩ := handleResponse_nak measure ha1 h
    exact ⟨c2, ha2, hn hc1.1, hno c2 ha2⟩
  | early hp ha1 hearly h ih =>
    obtain ⟨c1, ha2, hc1⟩ := ih
    rw [ha1] at ha2
    cases ha2
    exact ⟨_, rfl, hc1.waits hearly h⟩

theorem recovers_of_noted {s s' : SourceInstance F C (Counted H)} {c' : NtsClient F C (Counted H)}
    {packet : Bytes} {now : Timespec} {nowErr maxDelay offsetCorrection : F}
    {r : Option (ResponseSample F)}
    (h : s.handleResponse measure packet now nowErr maxDelay offsetCorrection = .ok (s', r))
    (ha : s'.auth = .nts c') (hc : c'.Spent) :
      Recovers measure s packet now nowErr maxDelay offsetCorrection := by
  refine ⟨s', c', r, h, ha, hc.1, fun s2 c2 hp ha2 => ?_⟩
  obtain ⟨c3, ha3, hc3⟩ := hp.spent measure ha hc
  rw [ha2] at ha3
  cases ha3
  exact hc3.renews

/-- **A NAK with leap indicator 3 is not noted.** The client recovers from it iff an earlier one
was. -/
theorem nak_recovery_iff {s : SourceInstance F C (Counted H)} {c : NtsClient F C (Counted H)}
    (hs : Outstanding s c) {packet : Bytes} {fs : List (UInt16 × Bytes)}
    (hnak : Nak c.uniqId.bytes packet fs) (hleap : leap packet = 3) (now : Timespec)
    (nowErr maxDelay offsetCorrection : F) :
    Recovers measure s packet now nowErr maxDelay offsetCorrection ↔ c.nakResponse = true := by
  have hdrop :=
    handleResponse_leap measure s hnak.length_ge hleap now nowErr maxDelay offsetCorrection
  constructor
  · rintro ⟨s', c', r, h, ha, hn, -⟩
    rw [hdrop] at h
    cases h
    rw [hs.auth_eq] at ha
    cases ha
    exact hn
  · intro hn
    exact recovers_of_noted measure hdrop hs.auth_eq ⟨hn, hs.awaits⟩

end

/-! ## A client with one cookie left -/

def waiting : NtsClient ℚ NullCipher (Counted StaticHost) :=
  { (NtsClient.new ⟨none, 0⟩ "nts" 0 123 ⟨⟨none⟩, 1⟩ 1000 : NtsClient ℚ NullCipher
    (Counted StaticHost)) with
    siv := SivInstance.create .aesSivCmac256, numCookies := 1, okResponse := false
    context := ⟨.aesSivCmac256, List.replicate 32 1, List.replicate 32 2⟩ }

def source (c : NtsClient ℚ NullCipher (Counted StaticHost)) :
    SourceInstance ℚ NullCipher (Counted StaticHost) :=
  SourceInstance.newWithAuth "server" 3 (.nts c)

/-- Leap indicator 3, version 4, mode 4, stratum 0, `NTSN`, and the identifier of the request. -/
def nakPacket : Bytes :=
  [0xe4, 0] ++ List.replicate 10 0 ++ [0x4e, 0x54, 0x53, 0x4e] ++ List.replicate 32 0 ++
    encField 0x0104 waiting.uniqId.bytes

def flat (a : SampleArgs ℚ) : ResponseSample ℚ := ⟨0, 0, 0, 0, 0, a.localReceive⟩

theorem nakPacket_nak : Nak waiting.uniqId.bytes nakPacket [(0x0104, waiting.uniqId.bytes)] where
  length_ge := by decide +kernel
  length_le := by decide +kernel
  bytes_eq := by decide +kernel
  version_eq := by decide +kernel
  mode_eq := by decide +kernel
  stratum_eq := by decide +kernel
  refid_eq := by decide +kernel
  fields_ok f hf := by
    cases List.mem_singleton.1 hf
    exact ⟨by decide, by decide, by decide +kernel, by decide +kernel⟩
  uniqId_mem := List.mem_singleton.2 rfl
  uniqId_only f hf _ := by
    cases List.mem_singleton.1 hf
    rfl
  auth_none f hf := by
    cases List.mem_singleton.1 hf
    decide
  critical_none f hf := by
    cases List.mem_singleton.1 hf
    decide
  last_long f hf := by
    cases Option.some.inj hf
    decide +kernel

theorem source_outstanding (b : Bool) :
    Outstanding (source { waiting with nakResponse := b }) { waiting with nakResponse := b } :=
  ⟨rfl, rfl, rfl, rfl, rfl⟩

theorem nak_recovery_iff_second :
    Recovers flat (source { waiting with nakResponse := true }) nakPacket ⟨0, 0⟩ 0 0 0 :=
  (nak_recovery_iff flat (source_outstanding true) nakPacket_nak (by decide +kernel)
    ⟨0, 0⟩ 0 0 0).2 rfl

/-- **The NAK is dropped.** The client awaits a response, and does not recover from the NAK to its
request. -/
theorem nak_dropped : Outstanding (source { waiting with nakResponse := false })
    { waiting with nakResponse := false } ∧
    Nak waiting.uniqId.bytes nakPacket [(0x0104, waiting.uniqId.bytes)] ∧ leap nakPacket = 3 ∧
    ¬ Recovers flat (source { waiting with nakResponse := false }) nakPacket ⟨0, 0⟩ 0 0 0 := by
  have hleap : leap nakPacket = 3 := by decide +kernel
  refine ⟨source_outstanding false, nakPacket_nak, hleap, ?_⟩
  rintro ⟨s', c', r, h, ha, hn, -⟩
  rw [handleResponse_leap flat _ nakPacket_nak.length_ge hleap] at h
  cases h
  cases ha
  cases hn

end ChronyRs.Bugs.DroppedNak

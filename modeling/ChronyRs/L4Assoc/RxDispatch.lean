import ChronyRs.L4Assoc.Nau

/-!
# The receive path of a configured source (`ntp/rx_dispatch.rs`, `ntp/test_a.rs`)

`SourceInstance.handleResponse` decodes a received packet, classifies it by its mode
and that of the association, checks its authentication, and computes and gates a
sample. The packet is copied into the packet buffer, cut off at 1140 bytes, while the
length that is passed on is that of the whole packet.

`compute_response_sample` is arithmetic on four timestamps; here it is a parameter
(`measure`), and no result depends on it.

* `receiveAuthenticated_response`, `receiveAuthenticated_other`: the verdict on a
  response is that of `auth_check_response`; on anything else the association is not
  asked.
* `authenticate_eq`, `authenticate_some`: a source gives a verdict on exactly the
  packets that decode and parse.
* `authenticate_frame`, `handleResponse_authenticated`: what a packet changes in a source.
-/
namespace ChronyRs.L4

open L1.Ext L1.Parse L2 L3.Nts

/-! ## Dispatch -/

/-- mirrors ntp/rx_dispatch.rs:437-449 -/
inductive RxKnownAction where
  | processResponse | processBroadcast | processSymmetricPassive | processAsUnknown | discard
  deriving DecidableEq, Repr

/-- The modes are 1 active, 2 passive, 3 client, 4 server, 5 broadcast.
mirrors ntp/rx_dispatch.rs:453-478 -/
def classifyRxKnown (packetMode ourMode : Int) : RxKnownAction :=
  if packetMode = 1 then
    if ourMode = 1 then .processResponse
    else if ourMode = 3 then .processSymmetricPassive
    else .discard
  else if packetMode = 2 then if ourMode = 1 then .processResponse else .discard
  else if packetMode = 3 then .processAsUnknown
  else if packetMode = 4 then if ourMode = 3 then .processResponse else .discard
  else if packetMode = 5 then if ourMode = 3 then .processBroadcast else .discard
  else .discard

section
variable {B F C H : Type} [CryptoBackend B] [F64 F] [AesSiv C]

/-- mirrors ntp/rx_dispatch.rs:338-348 -/
def authCheckResponse (auth : NauInstance F C H) (keys : KeyStore B) (packet : NtpPacketBuf)
    (info : NtpPacketInfo) : Rust (NauInstance F C H × KeyStore B × Bool) :=
  if info.authMode = 0 then return (auth, keys, true)
  else auth.checkResponseAuth keys packet info

/-- mirrors ntp/rx_dispatch.rs:352-373 -/
def authCheckRequest (auth : NauInstance F C H) (keys : KeyStore B) (packet : NtpPacketBuf)
    (info : NtpPacketInfo) : Rust (KeyStore B × Bool × UInt32) := do
  if info.authMode = 0 then return (keys, true, 0)
  let (keys, ok) ← checkSymmetricAuth packet info keys
  if info.macKeyId = auth.keyId then return (keys, ok, auth.keyId)
  else return (keys, ok, if ok then info.macKeyId else 0)

/-- mirrors ntp/rx_dispatch.rs:382-412 -/
def receiveAuthenticated (packetMode ourMode : Int) (auth : NauInstance F C H) (keys : KeyStore B)
    (packet : NtpPacketBuf) (info : NtpPacketInfo) :
    Rust (NauInstance F C H × KeyStore B × RxKnownAction × Bool) := do
  match classifyRxKnown packetMode ourMode with
  | .processResponse =>
    let (auth, keys, ok) ← authCheckResponse auth keys packet info
    return (auth, keys, .processResponse, ok)
  | .processBroadcast => return (auth, keys, .processBroadcast, true)
  | .processSymmetricPassive =>
    let (auth, keys, ok) ← authCheckResponse auth keys packet info
    return (auth, keys, .processSymmetricPassive, ok)
  | .processAsUnknown =>
    let (keys, ok, _) ← authCheckRequest auth keys packet info
    return (auth, keys, .processAsUnknown, ok)
  | .discard => return (auth, keys, .discard, false)

/-- The actions whose packets count as responses. -/
def RxKnownAction.IsResponse (a : RxKnownAction) : Prop :=
  a = .processResponse ∨ a = .processSymmetricPassive

instance (a : RxKnownAction) : Decidable a.IsResponse := inferInstanceAs (Decidable (_ ∨ _))

/-- On a response the dispatch is `auth_check_response`. -/
theorem receiveAuthenticated_response {packetMode ourMode : Int}
    (h : (classifyRxKnown packetMode ourMode).IsResponse) (auth : NauInstance F C H)
    (keys : KeyStore B) (packet : NtpPacketBuf) (info : NtpPacketInfo) :
    receiveAuthenticated packetMode ourMode auth keys packet info = do
      let (auth, keys, ok) ← authCheckResponse auth keys packet info
      return (auth, keys, classifyRxKnown packetMode ourMode, ok) := by
  unfold receiveAuthenticated
  rcases h with h | h <;> rw [h]

/-- On anything else the association is not asked, and its state stays. -/
theorem receiveAuthenticated_other {packetMode ourMode : Int}
    (h : ¬ (classifyRxKnown packetMode ourMode).IsResponse) (auth : NauInstance F C H)
    (keys : KeyStore B) (packet : NtpPacketBuf) (info : NtpPacketInfo) :
    receiveAuthenticated packetMode ourMode auth keys packet info =
      if classifyRxKnown packetMode ourMode = .processAsUnknown then do
        let (keys, ok, _) ← authCheckRequest auth keys packet info
        return (auth, keys, .processAsUnknown, ok)
      else .ok (auth, keys, classifyRxKnown packetMode ourMode,
        classifyRxKnown packetMode ourMode = .processBroadcast) := by
  unfold receiveAuthenticated
  cases hc : classifyRxKnown packetMode ourMode with
  | processResponse => exact absurd (.inl hc) h
  | processSymmetricPassive => exact absurd (.inr hc) h
  | processBroadcast => rfl
  | processAsUnknown => rfl
  | discard => rfl

end

/-! ## Sources -/

/-- mirrors sys_generic.rs:55-60 -/
structure Timespec where
  tvSec : Int
  tvNsec : Int
  deriving DecidableEq, Repr

/-- mirrors ntp/sample.rs:60-67 -/
structure ResponseSample (F : Type) where
  offset : F
  peerDelay : F
  peerDispersion : F
  rootDelay : F
  rootDispersion : F
  time : Timespec
  deriving DecidableEq, Repr

/-- The arguments of `compute_response_sample`.
mirrors ntp/sample.rs:82-97 -/
structure SampleArgs (F : Type) where
  remoteReceive : Nat
  remoteTransmit : Nat
  localTransmit : Timespec
  localTransmitErr : F
  localReceive : Timespec
  localReceiveErr : F
  messagePrecision : Int
  sysPrecision : F
  sourceFreqLo : F
  sourceFreqHi : F
  offsetCorrection : F
  rootDelay : F
  rootDispersion : F
  rxNetCorrection : F
  rxRxDuration : F
  txNetCorrection : F

/-- mirrors ntp/test_a.rs:36-53 -/
def passesTestAClient {F : Type} [F64 F] (peerDelay peerDispersion precision maxDelay : F)
    (presendDone : Int) (responseTime : F)
    (interleaved prevLocalTxZero localTransmitIsLocalTx : Bool) : Bool :=
  F64.le (F64.sub peerDelay peerDispersion) maxDelay && F64.le precision maxDelay &&
    presendDone ≤ 0 && F64.lt responseTime (F64.lit 4) &&
    !(interleaved && prevLocalTxZero && localTransmitIsLocalTx)

/-- mirrors ntp/rx_dispatch.rs:43-50 -/
structure SourceInstance (F C H : Type) where
  mode : Int
  auth : NauInstance F C H
  keys : KeyStore InternalMd5Backend
  savedT1 : Option Timespec
  savedT1Err : F
  name : String

namespace SourceInstance

variable {F C H : Type} [F64 F]

/-- mirrors ntp/rx_dispatch.rs:53-67 -/
def new (name : String) (mode : Int) (keyId : UInt32) : SourceInstance F C H :=
  { mode, auth := if keyId > 0 then .symmetric keyId else .none
    keys := KeyStore.ofKeys {} [], savedT1 := none, savedT1Err := F64.lit 0, name }

/-- mirrors ntp/rx_dispatch.rs:69-78 -/
def newWithAuth (name : String) (mode : Int) (auth : NauInstance F C H) : SourceInstance F C H :=
  { mode, auth, keys := KeyStore.ofKeys {} [], savedT1 := none, savedT1Err := F64.lit 0, name }

/-- mirrors ntp/rx_dispatch.rs:81-84 -/
def recordT1 (s : SourceInstance F C H) (ts : Timespec) (err : F) : SourceInstance F C H :=
  { s with savedT1 := some ts, savedT1Err := err }

variable [AesSiv C]

/-- The packet buffer and length that a received packet is parsed with. -/
def parseReceived (packet : Bytes) : Rust (Option NtpPacketInfo) :=
  parsePacket (Buf.ofBytes 1140 packet) (asI32 packet.length)

/-- Decoding, parsing and the verdict of the dispatch.
mirrors ntp/rx_dispatch.rs:97-114 -/
def authenticate (s : SourceInstance F C H) (packet : Bytes) :
    Rust (SourceInstance F C H × Option (NtpPacket × RxKnownAction × Bool)) := do
  match ← decode packet with
  | .error _ => return (s, none)
  | .ok decoded =>
    match ← parseReceived packet with
    | none => return (s, none)
    | some info =>
      let (auth, keys, action, ok) ← receiveAuthenticated decoded.mode.toNat s.mode s.auth s.keys
        (Buf.ofBytes 1140 packet) info
      return ({ s with auth, keys }, some (decoded, action, ok))

/-- mirrors ntp/rx_dispatch.rs:88-159 -/
def handleResponse (measure : SampleArgs F → ResponseSample F) (s : SourceInstance F C H)
    (packet : Bytes) (now : Timespec) (nowErr maxDelay offsetCorrection : F) :
    Rust (SourceInstance F C H × Option (ResponseSample F)) := do
  match ← s.authenticate packet with
  | (s, none) => return (s, none)
  | (s, some (decoded, action, authOk)) =>
    if ¬ authOk ∨ action ≠ .processResponse then return (s, none)
    match s.savedT1 with
    | none => return (s, none)
    | some t1 =>
      let sample := measure
        { remoteReceive := decoded.receiveTimestamp, remoteTransmit := decoded.transmitTimestamp
          localTransmit := t1, localTransmitErr := s.savedT1Err, localReceive := now
          localReceiveErr := nowErr, messagePrecision := decoded.precision
          sysPrecision := F64.lit (1 / 1000)
          sourceFreqLo := F64.lit (-1), sourceFreqHi := F64.lit 1
          offsetCorrection, rootDelay := F64.lit 0, rootDispersion := F64.lit 0
          rxNetCorrection := F64.lit 0, rxRxDuration := F64.lit 0, txNetCorrection := F64.lit 0 }
      if passesTestAClient sample.peerDelay (F64.lit (1 / 1000)) (F64.lit (1 / 1000)) maxDelay 1
          (F64.lit (1 / 1000)) false false false then return (s, some sample)
      else return (s, none)

variable {packet : Bytes} {s s' : SourceInstance F C H}

omit [F64 F] [AesSiv C] in
theorem lvm_ofBytes (h : 0 < packet.length) :
    NtpPacketBuf.lvm (Buf.ofBytes 1140 packet) = packet.getD 0 0 := by
  unfold NtpPacketBuf.lvm Buf.ofBytes
  rw [List.getD_eq_getElem?_getD, List.getElem?_take_of_lt (by decide), List.getElem?_append_left h,
    ← List.getD_eq_getElem?_getD]

theorem authenticate_eq (s : SourceInstance F C H) {info : NtpPacketInfo}
    (hlen : 48 ≤ packet.length) (hp : parseReceived packet = .ok (some info)) :
    ∃ decoded : NtpPacket, decoded.mode = packet.getD 0 0 &&& 7 ∧
      s.authenticate packet = (do
        let (auth, keys, action, ok) ← receiveAuthenticated decoded.mode.toNat s.mode s.auth s.keys
          (Buf.ofBytes 1140 packet) info
        return ({ s with auth, keys }, some (decoded, action, ok))) := by
  obtain ⟨d, hd, hm, -⟩ := decode_long hlen
  refine ⟨d, hm, ?_⟩
  unfold authenticate
  rw [hd, ok_bind]
  dsimp only
  rw [hp]
  rfl

theorem authenticate_some {decoded : NtpPacket} {action : RxKnownAction} {ok : Bool}
    (h : s.authenticate packet = .ok (s', some (decoded, action, ok))) :
    48 ≤ packet.length ∧ ∃ info, parseReceived packet = .ok (some info) := by
  unfold authenticate at h
  by_cases hlen : packet.length < 48
  · rw [decode_short hlen] at h; cases h
  · obtain ⟨d, hd, -⟩ := decode_long (Nat.le_of_not_lt hlen)
    rw [hd, ok_bind] at h
    dsimp only at h
    obtain ⟨o, ho, h⟩ := bind_eq_ok.1 h
    cases o with
    | none => cases h
    | some info => exact ⟨Nat.le_of_not_lt hlen, info, ho⟩

theorem authenticate_frame {v : Option (NtpPacket × RxKnownAction × Bool)}
    (h : s.authenticate packet = .ok (s', v)) :
    ∃ auth keys, s' = { s with auth, keys } := by
  unfold authenticate at h
  obtain ⟨o, -, h⟩ := bind_eq_ok.1 h
  cases o with
  | error _ => cases h; exact ⟨s.auth, s.keys, rfl⟩
  | ok decoded =>
    obtain ⟨o, -, h⟩ := bind_eq_ok.1 h
    cases o with
    | none => cases h; exact ⟨s.auth, s.keys, rfl⟩
    | some info =>
      obtain ⟨⟨auth, keys, action, ok⟩, -, h⟩ := bind_eq_ok.1 h
      cases h
      exact ⟨auth, keys, rfl⟩

/-- A source leaves `handle_response` as it left the authentication. -/
theorem handleResponse_authenticated {measure : SampleArgs F → ResponseSample F} {now : Timespec}
    {nowErr maxDelay offsetCorrection : F} {r : Option (ResponseSample F)}
    (h : s.handleResponse measure packet now nowErr maxDelay offsetCorrection = .ok (s', r)) :
    ∃ v, s.authenticate packet = .ok (s', v) := by
  unfold handleResponse at h
  obtain ⟨⟨s1, v⟩, ha, h⟩ := bind_eq_ok.1 h
  rw [ha]
  refine ⟨v, ?_⟩
  rcases v with _ | ⟨decoded, action, ok⟩
  · cases h; rfl
  dsimp only at h
  split at h
  · cases h; rfl
  split at h
  · cases h; rfl
  split at h <;> (cases h; rfl)

end SourceInstance

end ChronyRs.L4

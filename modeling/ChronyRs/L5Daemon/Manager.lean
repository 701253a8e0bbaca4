import ChronyRs.Core.Net
import ChronyRs.L4Assoc.Requests
import ChronyRs.L4Assoc.RxDispatch

/-!
# The daemon's NTP sources (`ntp_manager.rs`)

`NtpSourceManager` polls its sources and reads the answers from one socket. The socket
is the environment: a poll says whether `send_to` succeeded, and a received datagram is
any bytes from any peer. `route` is the chain of conditions that `receive_all` goes
through for one datagram, and `receiveOne` what it does then.

The access table is a predicate on the peer's address. Log lines and metrics are left
out, and so is `detect_mssntp`, whose answer is only logged.

* `pollSource_cases`: a request on the wire starts with the header of its time, and that
  time is saved.
-/
namespace ChronyRs.L5

open L1.Ext L1.Parse L2 L3.Nts L4

/-! ## Timestamps -/

/-- The two words of a timestamp, with the fuzz that transmitted server packets get.
mirrors util.rs:301-315 -/
def timespecToNtp64 (F : Type) [F64 F] (sec nsec : Int) (fuzz : Option (UInt32 × UInt32)) :
    UInt32 × UInt32 :=
  let sec := UInt32.ofNat (sec % 2 ^ 32).toNat
  let nsec := UInt32.ofNat (nsec % 2 ^ 32).toNat
  if nsec = 0 ∧ sec = 0 then (0, 0)
  else
    let hi := sec + 0x83aa7e80
    let lo := F64.toU32 (F64.mul (F64.lit (4294967296 / 1000000000)) (F64.ofInt nsec.toNat) : F)
    match fuzz with
    | some (fhi, flo) => (hi ^^^ fhi, lo ^^^ flo)
    | none => (hi, lo)

def ntp64Bytes (ts : UInt32 × UInt32) : Bytes := be32 ts.1 ++ be32 ts.2

/-- `(hi as u64) << 32 | lo as u64`. -/
def ntp64 (ts : UInt32 × UInt32) : Nat := ts.1.toNat * 2 ^ 32 + ts.2.toNat

theorem fromBe_ntp64Bytes (ts : UInt32 × UInt32) : fromBe (ntp64Bytes ts) = ntp64 ts := by
  have h1 := ts.1.toNat_lt; have h2 := ts.2.toNat_lt
  simp only [fromBe, ntp64Bytes, ntp64, be32, List.cons_append, List.nil_append, List.foldl_cons,
    List.foldl_nil, UInt8.toNat_ofNat']
  omega

/-! ## Sources -/

/-- Without the name and the poll interval, which sending and receiving do not read.
mirrors chronyd-rs/ntp_manager.rs:31-47 -/
structure NtpSourceEntry (F C H : Type) where
  addr : SocketAddr
  inst : SourceInstance F C H
  mode : Int
  maxDelay : F
  offsetCorrection : F
  reachability : UInt32
  reachabilitySize : Int
  stratum : Int
  gotResponse : Bool
  savedOriginTs : Option Nat
  savedRxTs : Option Nat
  savedTxTs : Option Nat

/-- mirrors chronyd-rs/ntp_manager.rs:51-54 -/
structure NtpSourceManager (F C H : Type) where
  sources : List (NtpSourceEntry F C H)

section
variable {F C H : Type} [F64 F] [AesSiv C] [NtsHost H F]

/-! ## Configuration -/

/-- A `server`, `pool` or `peer` line: what its name resolves to, and, for NTS, the
injected host of its NTS client. -/
structure SourceConfig (F H : Type) where
  name : String
  addr : SocketAddr
  port : UInt16
  peer : Bool
  certSet : UInt32
  maxDelay : F
  offset : F
  nts : Option H

/-- mirrors chronyd-rs/ntp_manager.rs:68-89,102-174 -/
def SourceConfig.entry (ntsRefresh : F) (src : SourceConfig F H) : NtpSourceEntry F C H :=
  let mode := if src.peer then 1 else 3
  { addr := src.addr
    inst := match src.nts with
      | none => SourceInstance.new src.name mode 0
      | some host => SourceInstance.newWithAuth src.name mode
          (.nts (NtsClient.new ⟨none, 4460⟩ src.name src.certSet src.port host ntsRefresh))
    mode, maxDelay := src.maxDelay, offsetCorrection := src.offset
    reachability := 0, reachabilitySize := 0, stratum := 16, gotResponse := false
    savedOriginTs := none, savedRxTs := none, savedTxTs := none }

/-- Every name resolved. mirrors chronyd-rs/ntp_manager.rs:57-100 -/
def NtpSourceManager.new (ntsRefresh : F) (config : List (SourceConfig F H)) :
    NtpSourceManager F C H :=
  ⟨(config.take 65536).map (SourceConfig.entry ntsRefresh)⟩

/-! ## Polling -/

/-- A request, and the two results that `poll_source` drops. -/
structure Request where
  prepared : Bool
  generated : Bool
  datagram : Bytes
  deriving DecidableEq, Repr

/-- mirrors chronyd-rs/ntp_manager.rs:183-190 -/
def updateReachability (e : NtpSourceEntry F C H) : NtpSourceEntry F C H :=
  { e with
    gotResponse := false
    reachability := (e.reachability <<< 1 ||| if e.gotResponse then 1 else 0) % 256
    reachabilitySize :=
      if e.reachabilitySize < 8 then e.reachabilitySize + 1 else e.reachabilitySize }

/-- The header of a request: leap 0, version 4, the mode, and the time of sending.
mirrors chronyd-rs/ntp_manager.rs:192-199 -/
def requestHeader (F : Type) [F64 F] (mode nowSec nowNsec : Int) : Rust NtpPacketBuf := do
  let packet ← (Buf.zero 1140).copyAt 0 [0x20 ||| UInt8.ofNat (mode % 2 ^ 8).toNat]
  let packet ← packet.copyAt 40 (be32 (timespecToNtp64 F nowSec nowNsec none).1)
  packet.copyAt 44 (be32 (timespecToNtp64 F nowSec nowNsec none).2)

/-- The results of `prepare_request_auth` and `generate_request_auth` are dropped.
mirrors chronyd-rs/ntp_manager.rs:194-220 -/
def buildRequest (e : NtpSourceEntry F C H) (nowSec nowNsec : Int) :
    Rust (NtpSourceEntry F C H × Request) := do
  let (auth, prepared) ← e.inst.auth.prepareRequestAuth
  let packet ← requestHeader F e.mode nowSec nowNsec
  let (auth, keys, packet, info, generated) ← auth.generateRequestAuth e.inst.keys packet
    { length := 48, version := 4, mode := e.mode }
  let datagram ← slice packet.bytes 0 (asUsize info.length)
  return ({ e with inst := { e.inst with auth, keys } }, { prepared, generated, datagram })

/-- `sendOk` is whether `send_to` succeeds. The datagram is on the wire if it does.
mirrors chronyd-rs/ntp_manager.rs:180-227 -/
def pollSource (m : NtpSourceManager F C H) (i : Nat) (nowSec nowNsec : Int) (sendOk : Bool) :
    Rust (NtpSourceManager F C H × Option Request) := do
  let e ← index m.sources i
  let (e, request) ← buildRequest (updateReachability e) nowSec nowNsec
  let e := if sendOk then { e with inst := e.inst.recordT1 ⟨nowSec, nowNsec⟩ (F64.lit 0) } else e
  return (⟨m.sources.set i e⟩, if sendOk then some request else none)

/-! ## Receiving -/

/-- A datagram, cut off at the 1200 bytes of the receive buffer. -/
structure Datagram where
  peer : SocketAddr
  bytes : Bytes
  bytes_le : bytes.length ≤ 1200

def Datagram.mode (d : Datagram) : Int := (d.bytes.getD 0 0 &&& 7).toNat

def Datagram.origin (d : Datagram) : Nat := fromBe ((d.bytes.take 32).drop 24)

inductive Route where
  | short | denied
  | broadcast (source : Option Nat)
  | manycast | control | privateMode | unknownPeer
  | wrongMode (source : Nat) | badOrigin (source : Nat) | accept (source : Nat)
  deriving DecidableEq, Repr

def sourceOf (m : NtpSourceManager F C H) (peer : SocketAddr) : Option Nat :=
  m.sources.findIdx? fun e => e.addr = peer

/-- Whether a packet of this mode can be an answer to a source.
mirrors chronyd-rs/ntp_manager.rs:335-339 -/
def modeOk (sourceMode packetMode : Int) : Bool :=
  if sourceMode = 1 then packetMode = 1 ∨ packetMode = 2 else packetMode = 4

/-- The transmit timestamp of the last request, 0 if there was none.
mirrors chronyd-rs/ntp_manager.rs:356-359 -/
def ourT1 (e : NtpSourceEntry F C H) : Nat :=
  match e.inst.savedT1 with
  | some ts => ntp64 (timespecToNtp64 F ts.tvSec ts.tvNsec none)
  | none => 0

/-- mirrors chronyd-rs/ntp_manager.rs:360-366 -/
def originOk (e : NtpSourceEntry F C H) (origin : Nat) : Bool :=
  ¬ (origin ≠ 0 ∧ origin ≠ ourT1 e ∧ e.savedRxTs = none)

/-- The conditions on a datagram that is looked at.
mirrors chronyd-rs/ntp_manager.rs:260-366 -/
def routeHeard (m : NtpSourceManager F C H) (d : Datagram) : Route :=
  if d.mode = 5 then .broadcast (sourceOf m d.peer)
  else if d.mode = 3 ∧ d.peer.ip.isMulticast then .manycast
  else if d.mode = 6 then .control
  else if d.mode = 7 then .privateMode
  else
    match sourceOf m d.peer with
    | none => .unknownPeer
    | some i =>
      match m.sources[i]? with
      | none => .unknownPeer
      | some e =>
        if ¬ modeOk e.mode d.mode then .wrongMode i
        else if ¬ originOk e d.origin then .badOrigin i
        else .accept i

/-- The conditions of the receive loop, in order.
mirrors chronyd-rs/ntp_manager.rs:249-366 -/
def route (m : NtpSourceManager F C H) (access : Option (IpAddr → Bool)) (d : Datagram) : Route :=
  if d.bytes.length < 48 then .short
  else if access.any fun allowed => !allowed d.peer.ip then .denied
  else routeHeard m d

/-- What comes out of one datagram: a sample, or a reply to its sender. -/
structure Received (F : Type) where
  sample : Option (Nat × ResponseSample F) := none
  reply : Option Bytes := none

/-- Bytes `lo..hi` of a datagram that is long enough. -/
def Datagram.field (d : Datagram) (lo hi : Nat) : Bytes := (d.bytes.take hi).drop lo

/-- `i64::from_be_bytes`. -/
def signed64 (n : Nat) : Int := if n < 2 ^ 63 then n else n - 2 ^ 64

/-- A sample of a broadcast packet, with a fixed delay and dispersion.
mirrors chronyd-rs/ntp_manager.rs:264-281 -/
def broadcastSample (nowSec nowNsec : Int) (d : Datagram) : ResponseSample F :=
  let serverTx := F64.add (F64.ofInt (signed64 (fromBe (d.field 24 32))))
    (F64.div (F64.ofInt (fromBe (d.field 32 40))) (F64.ofInt (2 ^ 32)))
  let clientRx := F64.add (F64.ofInt nowSec) (F64.div (F64.ofInt nowNsec) (F64.lit 1000000000))
  { offset := F64.sub serverTx clientRx
    peerDelay := F64.lit (1 / 1000)
    peerDispersion := F64.lit (1 / 100)
    rootDelay := F64.div (F64.ofInt (fromBe (d.field 4 8))) (F64.lit 65536)
    rootDispersion := F64.div (F64.ofInt (fromBe (d.field 8 12))) (F64.lit 65536)
    time := ⟨nowSec, nowNsec⟩ }

/-- A kiss-o'-death packet: leap 3, version 4, mode 4 and the code.
mirrors chronyd-rs/ntp_manager.rs:431-437 -/
def kod (refid : Bytes) : Bytes := 0xe4 :: List.replicate 11 0 ++ refid ++ List.replicate 32 0

/-- The transmit timestamp of the request comes back as the originate timestamp.
mirrors chronyd-rs/ntp_manager.rs:289-294 -/
def manycastReply (F : Type) [F64 F] (nowSec nowNsec : Int) (d : Datagram) : Bytes :=
  0x24 :: List.replicate 23 0 ++ d.field 40 48 ++ List.replicate 8 0 ++
    ntp64Bytes (timespecToNtp64 F nowSec nowNsec none)

/-- mirrors chronyd-rs/ntp_manager.rs:301-310 -/
def controlReply (F : Type) [F64 F] (nowSec nowNsec : Int) (d : Datagram) : Bytes :=
  0x26 :: List.replicate 23 0 ++ d.field 40 48 ++
    ntp64Bytes (timespecToNtp64 F nowSec nowNsec none) ++
    ntp64Bytes (timespecToNtp64 F nowSec nowNsec none)

/-- mirrors chronyd-rs/ntp_manager.rs:317-318 -/
def privateReply : Bytes := 0x27 :: List.replicate 47 0

/-- mirrors chronyd-rs/ntp_manager.rs:343-344 -/
def noteResponse (d : Datagram) (e : NtpSourceEntry F C H) : NtpSourceEntry F C H :=
  { e with gotResponse := true, stratum := (d.bytes.getD 1 0).toNat }

/-- mirrors chronyd-rs/ntp_manager.rs:369-375 -/
def saveTimestamps (d : Datagram) (e : NtpSourceEntry F C H) : NtpSourceEntry F C H :=
  { e with
    savedOriginTs := some d.origin
    savedRxTs := some (fromBe (d.field 32 40))
    savedTxTs := some (fromBe (d.field 40 48)) }

section
variable (measure : SampleArgs F → ResponseSample F)

/-- One turn of the receive loop. Whether a reply could be sent is not looked at.
mirrors chronyd-rs/ntp_manager.rs:248-386 -/
def receiveOne (m : NtpSourceManager F C H) (access : Option (IpAddr → Bool)) (nowSec nowNsec : Int)
    (d : Datagram) : Rust (NtpSourceManager F C H × Received F) :=
  match route m access d with
  | .short | .unknownPeer | .wrongMode _ | .broadcast none => return (m, {})
  | .denied => return (m, { reply := some (kod [0x44, 0x45, 0x4e, 0x59]) })
  | .broadcast (some i) => return (m, { sample := some (i, broadcastSample nowSec nowNsec d) })
  | .manycast => return (m, { reply := some (manycastReply F nowSec nowNsec d) })
  | .control => return (m, { reply := some (controlReply F nowSec nowNsec d) })
  | .privateMode => return (m, { reply := some privateReply })
  | .badOrigin i => return (⟨m.sources.modify i (noteResponse d)⟩, {})
  | .accept i => do
    let e := saveTimestamps d (noteResponse d (← index m.sources i))
    let (inst, sample) ← e.inst.handleResponse measure d.bytes ⟨nowSec, nowNsec⟩
        (F64.lit 0) e.maxDelay
      e.offsetCorrection
    return (⟨m.sources.set i { e with inst }⟩, { sample := sample.map (i, ·) })

end

/-! ## Requests on the wire -/

/-- The 48 bytes that every request starts with. -/
def headerBytes (F : Type) [F64 F] (mode nowSec nowNsec : Int) : Bytes :=
  (0x20 ||| UInt8.ofNat (mode % 2 ^ 8).toNat) :: List.replicate 39 0 ++
    ntp64Bytes (timespecToNtp64 F nowSec nowNsec none)

omit [AesSiv C] [NtsHost H F] in
theorem requestHeader_eq (mode nowSec nowNsec : Int) : ∃ packet,
    requestHeader F mode nowSec nowNsec = .ok packet ∧
      packet.bytes.take 48 = headerBytes F mode nowSec nowNsec := by
  obtain ⟨p1, h1, e1⟩ := (Buf.zero 1140).copyAt_of_le 0 [0x20 ||| UInt8.ofNat (mode % 2 ^ 8).toNat]
    (by simp)
  obtain ⟨p2, h2, -⟩ := p1.copyAt_of_le 40 (be32
    (timespecToNtp64 F nowSec nowNsec none).1) (by simp)
  obtain ⟨p3, h3, -⟩ := p2.copyAt_of_le 44 (be32
    (timespecToNtp64 F nowSec nowNsec none).2) (by simp)
  refine ⟨p3, ?_, ?_⟩
  · unfold requestHeader
    rw [h1, ok_bind, h2, ok_bind, h3]
  · have e2 := Buf.copyAt_take_end h2
    have e3 := Buf.copyAt_take_end h3
    rw [be32_length] at e2 e3
    have e40 : p1.bytes.take 40 =
        (0x20 ||| UInt8.ofNat (mode % 2 ^ 8).toNat) :: List.replicate 39 0 := by
      rw [e1, List.take_zero, List.nil_append, List.singleton_append, List.take_succ_cons, Buf.zero,
        List.drop_replicate, List.take_replicate]
      rfl
    rw [e3, e2, e40, headerBytes, ntp64Bytes]
    simp only [List.cons_append, List.append_assoc]

/-- What `poll_source` puts together. -/
structure Built (e e' : NtpSourceEntry F C H) (nowSec nowNsec : Int) (r : Request) : Prop where
  /-- The two steps, and the datagram they make. -/
  steps : ∃ auth packet auth' keys packet' info,
    e.inst.auth.prepareRequestAuth = .ok (auth, r.prepared) ∧
    packet.bytes.take 48 = headerBytes F e.mode nowSec nowNsec ∧
    auth.generateRequestAuth e.inst.keys packet { length := 48, version := 4, mode := e.mode } =
      .ok (auth', keys, packet', info, r.generated) ∧
    r.datagram = packet'.bytes.take info.length.toNat
  /-- Only the association and the key cache change. -/
  frame : ∃ auth keys, e' = { e with inst := { e.inst with auth, keys } }
  header : r.datagram.take 48 = headerBytes F e.mode nowSec nowNsec

theorem buildRequest_built {e e' : NtpSourceEntry F C H} {nowSec nowNsec : Int} {r : Request}
    (h : buildRequest e nowSec nowNsec = .ok (e', r)) : Built e e' nowSec nowNsec r := by
  unfold buildRequest at h
  obtain ⟨⟨auth, prepared⟩, hprep, h⟩ := bind_eq_ok.1 h
  obtain ⟨packet, hpacket, h⟩ := bind_eq_ok.1 h
  obtain ⟨⟨auth', keys, packet', info, generated⟩, hgen, h⟩ := bind_eq_ok.1 h
  obtain ⟨datagram, hslice, h⟩ := bind_eq_ok.1 h
  cases h
  obtain ⟨p, hp, hhead⟩ := requestHeader_eq (F := F) e.mode nowSec nowNsec
  rw [hp] at hpacket
  cases hpacket
  have hkept := NauInstance.generateRequestAuth_kept rfl hgen
  have h48 := hkept.length_le; have hend := hkept.end_le; have hused := hkept.used_eq
  dsimp only at h48 hend hused
  have hdata : datagram = packet'.bytes.take info.length.toNat := by
    rw [asUsize_of_nonneg (by omega) (by omega)] at hslice
    rw [(slice_eq_ok.1 hslice).2.2, List.drop_zero]
  refine ⟨⟨auth, packet, auth', keys, packet', info, hprep, hhead, hgen, hdata⟩, ⟨_, _, rfl⟩, ?_⟩
  dsimp only
  rw [hdata, List.take_take, Nat.min_eq_left (by omega), ← hhead]
  exact hused

variable {m : NtpSourceManager F C H} {i : Nat} {access : Option (IpAddr → Bool)} {d : Datagram}

/-- **Polling.** The entry of the source is rebuilt, and if the request is on the wire,
its time is saved. -/
theorem pollSource_cases {m' : NtpSourceManager F C H} {nowSec nowNsec : Int} {sendOk : Bool}
    {o : Option Request} (h : pollSource m i nowSec nowNsec sendOk = .ok (m', o)) :
    ∃ e e' r, m.sources[i]? = some e ∧ Built (updateReachability e) e' nowSec nowNsec r ∧
      ((sendOk = true ∧ o = some r ∧ m' =
        ⟨m.sources.set i { e' with inst := e'.inst.recordT1 ⟨nowSec, nowNsec⟩ (F64.lit 0) }⟩) ∨
      (sendOk = false ∧ o = none ∧ m' = ⟨m.sources.set i e'⟩)) := by
  unfold pollSource at h
  obtain ⟨e, he, h⟩ := bind_eq_ok.1 h
  obtain ⟨⟨e', r⟩, hb, h⟩ := bind_eq_ok.1 h
  refine ⟨e, e', r, index_eq_ok.1 he, buildRequest_built hb, ?_⟩
  cases sendOk with
  | true => cases h; exact .inl ⟨rfl, rfl, rfl⟩
  | false => cases h; exact .inr ⟨rfl, rfl, rfl⟩

/-! ## What a datagram changes -/

omit [F64 F] [AesSiv C] [NtsHost H F] in
theorem sourceOf_some {peer : SocketAddr} (h : sourceOf m peer = some i) :
    ∃ e, m.sources[i]? = some e ∧ e.addr = peer := by
  obtain ⟨hlt, haddr, -⟩ := List.findIdx?_eq_some_iff_getElem.1 h
  exact ⟨m.sources[i], List.getElem?_eq_getElem hlt, by simpa using haddr⟩

/-- The datagram is looked at: it has a header, and its sender is not denied. -/
def Heard (access : Option (IpAddr → Bool)) (d : Datagram) : Prop :=
  48 ≤ d.bytes.length ∧ ∀ allowed, access = some allowed → allowed d.peer.ip = true

omit [AesSiv C] [NtsHost H F] in
theorem route_of_not_heard (m : NtpSourceManager F C H) (h : ¬ Heard access d) :
    route m access d = if d.bytes.length < 48 then .short else .denied := by
  unfold route
  by_cases hlen : d.bytes.length < 48
  · rw [if_pos hlen, if_pos hlen]
  · rw [if_neg hlen, if_neg hlen]
    cases access with
    | none => exact absurd ⟨by omega, by simp⟩ h
    | some allowed =>
      cases hip : allowed d.peer.ip with
      | true => exact absurd ⟨by omega, by rintro _ ⟨⟩; exact hip⟩ h
      | false => exact if_pos (by simp [hip])

omit [AesSiv C] [NtsHost H F] in
theorem route_of_heard (m : NtpSourceManager F C H) (h : Heard access d) :
    route m access d = routeHeard m d := by
  obtain ⟨hlen, hallowed⟩ := h
  have hany : ¬ (access.any fun allowed => !allowed d.peer.ip) = true := by
    cases access with
    | none => simp
    | some allowed => simp [hallowed allowed rfl]
  unfold route
  rw [if_neg (by omega), if_neg hany]

theorem modeOk_modes {sourceMode packetMode : Int} (h : modeOk sourceMode packetMode = true) :
    packetMode = 1 ∨ packetMode = 2 ∨ packetMode = 4 := by
  unfold modeOk at h
  split at h
  · rcases of_decide_eq_true h with h | h <;> simp [h]
  · simp [of_decide_eq_true h]

omit [AesSiv C] [NtsHost H F] in
/-- A response-type datagram of a source is accepted, or fails the origin check. -/
theorem route_response {e : NtpSourceEntry F C H} (h : Heard access d)
    (hi : sourceOf m d.peer = some i) (he : m.sources[i]? = some e)
    (hm : modeOk e.mode d.mode = true) :
    route m access d = if originOk e d.origin then .accept i else .badOrigin i := by
  have hmodes := modeOk_modes hm
  rw [route_of_heard m h, routeHeard, if_neg (by omega), if_neg (by omega), if_neg (by omega),
    if_neg (by omega), hi]
  dsimp only
  rw [he]
  dsimp only
  rw [if_neg (by simp [hm])]
  cases originOk e d.origin <;> rfl

omit [AesSiv C] [NtsHost H F] in
/-- Only such datagrams are. -/
theorem route_response_inv (h : route m access d = .accept i ∨ route m access d = .badOrigin i) :
    Heard access d ∧ sourceOf m d.peer = some i ∧
      ∃ e, m.sources[i]? = some e ∧ modeOk e.mode d.mode = true := by
  by_cases hh : Heard access d
  · rw [route_of_heard m hh, routeHeard] at h
    split at h
    · rcases h with h | h <;> cases h
    split at h
    · rcases h with h | h <;> cases h
    split at h
    · rcases h with h | h <;> cases h
    split at h
    · rcases h with h | h <;> cases h
    split at h
    · rcases h with h | h <;> cases h
    rename_i j hj
    split at h
    · rcases h with h | h <;> cases h
    rename_i e he
    split at h
    · rcases h with h | h <;> cases h
    rename_i hm
    have hij : j = i := by
      split at h <;> rcases h with h | h <;> cases h <;> rfl
    subst hij
    exact ⟨hh, hj, e, he, Decidable.not_not.1 hm⟩
  · rw [route_of_not_heard m hh] at h
    split at h <;> rcases h with h | h <;> cases h

omit [AesSiv C] [NtsHost H F] in
theorem route_broadcast_iff {o : Option Nat} : route m access d = .broadcast o ↔
      Heard access d ∧ d.mode = 5 ∧ sourceOf m d.peer = o := by
  by_cases hh : Heard access d
  · rw [route_of_heard m hh, routeHeard]
    by_cases h5 : d.mode = 5
    · rw [if_pos h5]
      simp [hh, h5]
    · rw [if_neg h5]
      simp only [h5, false_and, and_false, iff_false]
      split_ifs
      · simp
      · simp
      · simp
      · split
        · simp
        · split
          · simp
          · split_ifs <;> simp
  · simp only [hh, false_and, iff_false]
    rw [route_of_not_heard m hh]
    split <;> simp

end

end ChronyRs.L5

import ChronyRs.L4Cmd.Wire

/-!
# Reports of the daemon (`cmdmon.rs`)

The reports and their bodies in replies. Every encoder writes its fields at the offsets of
the source into an array of zeros; floats go out as their wire words.
-/
namespace ChronyRs.L4.Cmd

open Layout (Field)

variable {F : Type}

/-- `float_host_to_network(x).to_be_bytes()` at an offset. -/
def flt [WireFloat F] (off : Nat) (x : F) : Field := ⟨off, WireFloat.hostToNetwork x⟩

def timeFields (off : Nat) (t : Timespec) : List Field :=
  [⟨off, (timespecHostToNetwork t).1⟩, ⟨off + 4, (timespecHostToNetwork t).2.1⟩,
    ⟨off + 8, (timespecHostToNetwork t).2.2⟩]

/-- `c as u8`. -/
def charByte (c : Char) : UInt8 := UInt8.ofNat c.toNat

/-- `b as char`. -/
def byteChar (b : UInt8) : Char := Char.ofNat b.toNat

theorem byteChar_charByte {c : Char} (h : c.toNat < 256) : byteChar (charByte c) = c := by
  rw [byteChar, charByte, UInt8.toNat_ofNat_of_lt' h, Char.ofNat_toNat]

/-- mirrors cmdmon.rs:243-259 -/
structure TrackingReport (F : Type) where
  refId : UInt32
  ipAddr : IPAddr
  stratum : UInt16
  leapStatus : UInt16
  refTime : Timespec
  currentCorrection : F
  lastOffset : F
  rmsOffset : F
  freqPpm : F
  residFreqPpm : F
  skewPpm : F
  rootDelay : F
  rootDispersion : F
  lastUpdateInterval : F

section
variable [WireFloat F]

def TrackingReport.fields (r : TrackingReport F) : List Field :=
  [⟨0, r.refId⟩, ⟨4, r.ipAddr⟩, ⟨24, r.stratum⟩, ⟨26, r.leapStatus⟩] ++ timeFields 28 r.refTime ++
  [flt 40 r.currentCorrection, flt 44 r.lastOffset, flt 48 r.rmsOffset, flt 52 r.freqPpm,
    flt 56 r.residFreqPpm, flt 60 r.skewPpm, flt 64 r.rootDelay, flt 68 r.rootDispersion,
    flt 72 r.lastUpdateInterval]

/-- mirrors cmdmon.rs:267-294 -/
def encodeTrackingReply (r : TrackingReport F) : Rust (Buf 80) := Layout.write 80 r.fields

end

/-- mirrors cmdmon.rs:298-309 -/
structure SourcestatsReport (F : Type) where
  refId : UInt32
  ipAddr : IPAddr
  nSamples : UInt32
  nRuns : UInt32
  spanSeconds : UInt32
  residFreqPpm : F
  skewPpm : F
  sd : F
  estOffset : F
  estOffsetErr : F

section
variable [WireFloat F]

def SourcestatsReport.fields (r : SourcestatsReport F) : List Field :=
  [⟨0, r.refId⟩, ⟨4, r.ipAddr⟩, ⟨24, r.nSamples⟩, ⟨28, r.nRuns⟩, ⟨32, r.spanSeconds⟩,
    flt 36 r.sd, flt 40 r.residFreqPpm, flt 44 r.skewPpm, flt 48 r.estOffset, flt 52 r.estOffsetErr]

/-- mirrors cmdmon.rs:314-331 -/
def encodeSourcestatsReply (r : SourcestatsReport F) : Rust (Buf 60) := Layout.write 60 r.fields

end

/-- mirrors cmdmon.rs:337-344 -/
inductive SourceState where
  | nonselectable | falseticker | jittery | selectable | unselected | selected
  deriving DecidableEq, Repr

namespace SourceState

/-- mirrors cmdmon.rs:348-357 -/
def wire : SourceState → UInt16
  | selected => 0
  | nonselectable => 1
  | falseticker => 2
  | jittery => 3
  | unselected => 4
  | selectable => 5

/-- mirrors cmdmon.rs:361-371 -/
def fromWire : UInt16 → Option SourceState
  | 0 => some selected
  | 1 => some nonselectable
  | 2 => some falseticker
  | 3 => some jittery
  | 4 => some unselected
  | 5 => some selectable
  | _ => none

@[simp] theorem fromWire_wire (s : SourceState) : fromWire s.wire = some s := by
  cases s <;> rfl

end SourceState

/-- mirrors cmdmon.rs:377-381 -/
inductive SourceMode where
  | ntpClient | ntpPeer | localReference
  deriving DecidableEq, Repr

namespace SourceMode

/-- mirrors cmdmon.rs:385-391 -/
def wire : SourceMode → UInt16
  | ntpClient => 0
  | ntpPeer => 1
  | localReference => 2

/-- mirrors cmdmon.rs:395-402 -/
def fromWire : UInt16 → Option SourceMode
  | 0 => some ntpClient
  | 1 => some ntpPeer
  | 2 => some localReference
  | _ => none

@[simp] theorem fromWire_wire (m : SourceMode) : fromWire m.wire = some m := by
  cases m <;> rfl

end SourceMode

/-- mirrors cmdmon.rs:407-418 -/
structure SourceDataReport (F : Type) where
  ipAddr : IPAddr
  poll : Int16
  stratum : UInt16
  state : SourceState
  mode : SourceMode
  reachability : UInt16
  latestMeasAgo : UInt32
  origLatestMeas : F
  latestMeas : F
  latestMeasErr : F

section
variable [WireFloat F]

def SourceDataReport.fields (r : SourceDataReport F) : List Field :=
  [⟨0, r.ipAddr⟩, ⟨20, r.poll⟩, ⟨22, r.stratum⟩, ⟨24, r.state.wire⟩, ⟨26, r.mode.wire⟩,
    ⟨28, (0 : UInt16)⟩, ⟨30, r.reachability⟩, ⟨32, r.latestMeasAgo⟩, flt 36 r.origLatestMeas,
    flt 40 r.latestMeas, flt 44 r.latestMeasErr]

/-- mirrors cmdmon.rs:422-437 -/
def encodeSourceDataReply (r : SourceDataReport F) : Rust (Buf 52) := Layout.write 52 r.fields

end

/-- mirrors cmdmon.rs:441-447 -/
structure ActivityReport where
  online : UInt32
  offline : UInt32
  burstOnline : UInt32
  burstOffline : UInt32
  unresolved : UInt32
  deriving DecidableEq

def ActivityReport.fields (r : ActivityReport) : List Field :=
  [⟨0, r.online⟩, ⟨4, r.offline⟩, ⟨8, r.burstOnline⟩, ⟨12, r.burstOffline⟩, ⟨16, r.unresolved⟩]

/-- mirrors cmdmon.rs:451-459 -/
def encodeActivityReply (r : ActivityReport) : Rust (Buf 24) := Layout.write 24 r.fields

/-- Seventeen counters.
mirrors cmdmon.rs:463-465 -/
structure ServerStatsReport where
  counters : List UInt64
  length_eq : counters.length = 17
  deriving DecidableEq

def ServerStatsReport.fields (r : ServerStatsReport) : List Field :=
  ((List.range 17).flatMap fun i =>
    [⟨i * 8, (integer64HostToNetwork (r.counters.getD i 0)).1⟩,
      ⟨i * 8 + 4, (integer64HostToNetwork (r.counters.getD i 0)).2⟩]) ++
  [⟨136, Buf.ofBytes 32 (List.replicate 32 0xff)⟩]

/-- mirrors cmdmon.rs:470-481 -/
def encodeServerStatsReply (r : ServerStatsReport) : Rust (Buf 172) := Layout.write 172 r.fields

/-- mirrors ntp/ntp_report.rs:57-83 -/
structure NtpReport (F : Type) where
  localAddr : IPAddr
  leap : UInt8
  version : UInt8
  mode : UInt8
  stratum : UInt8
  poll : Int8
  precision : Int8
  rootDelay : F
  rootDispersion : F
  refId : UInt32
  refTime : Timespec
  offset : F
  peerDelay : F
  peerDispersion : F
  responseTime : F
  jitterAsymmetry : F
  tests : UInt16
  interleaved : Bool
  authenticated : Bool
  txTssChar : Char
  rxTssChar : Char
  totalValidCount : UInt32
  totalGoodCount : UInt32
  totalTxCount : UInt32
  totalRxCount : UInt32

section
variable [WireFloat F]

/-- The low ten bits are the tests. -/
def NtpReport.flags (r : NtpReport F) : UInt16 :=
  (r.tests &&& 0x3ff) ||| (if r.interleaved then 0x4000 else 0) |||
    (if r.authenticated then 0x8000 else 0)

def NtpReport.fields (r : NtpReport F) (remoteAddr : IPAddr) (remotePort : UInt16) : List Field :=
  [⟨0, remoteAddr⟩, ⟨20, r.localAddr⟩, ⟨40, remotePort⟩, ⟨42, r.leap⟩, ⟨43, r.version⟩,
    ⟨44, r.mode⟩,
    ⟨45, r.stratum⟩, ⟨46, r.poll⟩, ⟨47, r.precision⟩, flt 48 r.rootDelay, flt 52 r.rootDispersion,
    ⟨56, r.refId⟩] ++ timeFields 60 r.refTime ++
  [flt 72 r.offset, flt 76 r.peerDelay, flt 80 r.peerDispersion, flt 84 r.responseTime,
    flt 88 r.jitterAsymmetry, ⟨92, r.flags⟩, ⟨94, charByte r.txTssChar⟩, ⟨95, charByte r.rxTssChar⟩,
    ⟨96, r.totalTxCount⟩, ⟨100, r.totalRxCount⟩, ⟨104, r.totalValidCount⟩, ⟨108, r.totalGoodCount⟩,
    ⟨112, Buf.ofBytes 12 (List.replicate 12 0xff)⟩]

/-- mirrors cmdmon.rs:492-541 -/
def encodeNtpDataReply (r : NtpReport F) (remoteAddr : IPAddr) (remotePort : UInt16) :
    Rust (Buf 128) :=
  Layout.write 128 (r.fields remoteAddr remotePort)

end

/-- mirrors cmdmon.rs:545-553 -/
structure RtcReport (F : Type) where
  refTime : Timespec
  nSamples : UInt16
  nRuns : UInt16
  spanSeconds : UInt32
  rtcSecondsFast : F
  rtcGainRatePpm : F

section
variable [WireFloat F]

def RtcReport.fields (r : RtcReport F) : List Field :=
  timeFields 0 r.refTime ++
  [⟨12, r.nSamples⟩, ⟨14, r.nRuns⟩, ⟨16, r.spanSeconds⟩, flt 20 r.rtcSecondsFast,
    flt 24 r.rtcGainRatePpm]

/-- mirrors cmdmon.rs:556-569 -/
def encodeRtcReply (r : RtcReport F) : Rust (Buf 32) := Layout.write 32 r.fields

end

/-- mirrors cmdmon.rs:577-585 -/
structure SmoothingReport (F : Type) where
  active : Bool
  leapOnly : Bool
  offset : F
  freqPpm : F
  wanderPpm : F
  lastUpdateAgo : F
  remainingTime : F

section
variable [WireFloat F]

def SmoothingReport.flags (r : SmoothingReport F) : UInt32 :=
  (if r.active then 0x1 else 0) ||| (if r.leapOnly then 0x2 else 0)

def SmoothingReport.fields (r : SmoothingReport F) : List Field :=
  [⟨0, r.flags⟩, flt 4 r.offset, flt 8 r.freqPpm, flt 12 r.wanderPpm, flt 16 r.lastUpdateAgo,
    flt 20 r.remainingTime]

/-- mirrors cmdmon.rs:589-605 -/
def encodeSmoothingReply (r : SmoothingReport F) : Rust (Buf 28) := Layout.write 28 r.fields

end

/-- mirrors cmdmon.rs:611-615 -/
inductive AuthMode where
  | none | symmetric | nts
  deriving DecidableEq, Repr

namespace AuthMode

/-- mirrors cmdmon.rs:619-625 -/
def wire : AuthMode → UInt16
  | .none => 0
  | .symmetric => 1
  | .nts => 2

/-- mirrors cmdmon.rs:629-636 -/
def fromWire : UInt16 → Option AuthMode
  | 0 => some .none
  | 1 => some .symmetric
  | 2 => some .nts
  | _ => Option.none

@[simp] theorem fromWire_wire (m : AuthMode) : fromWire m.wire = some m := by
  cases m <;> rfl

end AuthMode

/-- mirrors cmdmon.rs:641-651 -/
structure AuthReport where
  mode : AuthMode
  keyType : UInt16
  keyId : UInt32
  keyLength : UInt16
  keAttempts : UInt16
  lastKeAgo : UInt32
  cookies : UInt16
  cookieLength : UInt16
  nak : UInt16
  deriving DecidableEq

def AuthReport.fields (r : AuthReport) : List Field :=
  [⟨0, r.mode.wire⟩, ⟨2, r.keyType⟩, ⟨4, r.keyId⟩, ⟨8, r.keyLength⟩, ⟨10, r.keAttempts⟩,
    ⟨12, r.lastKeAgo⟩, ⟨16, r.cookies⟩, ⟨18, r.cookieLength⟩, ⟨20, r.nak⟩]

/-- mirrors cmdmon.rs:654-666 -/
def encodeAuthDataReply (r : AuthReport) : Rust (Buf 28) := Layout.write 28 r.fields

/-- Each of the four options is a bit of its own; the bits of both masks coincide.
mirrors cmdmon.rs:670-685 -/
def convertSdSelOptions (options : Int32) : UInt16 :=
  (if options &&& 0x2 ≠ 0 then 0x2 else 0) ||| (if options &&& 0x1 ≠ 0 then 0x1 else 0) |||
    (if options &&& 0x4 ≠ 0 then 0x4 else 0) ||| (if options &&& 0x8 ≠ 0 then 0x8 else 0)

/-- mirrors cmdmon.rs:689-701 -/
structure SelectReport (F : Type) where
  refId : UInt32
  ipAddr : IPAddr
  stateChar : Char
  authentication : UInt8
  leap : UInt8
  confOptions : Int32
  effOptions : Int32
  lastSampleAgo : UInt32
  score : F
  loLimit : F
  hiLimit : F

section
variable [WireFloat F]

def SelectReport.fields (r : SelectReport F) : List Field :=
  [⟨0, r.refId⟩, ⟨4, r.ipAddr⟩, ⟨24, charByte r.stateChar⟩, ⟨25, r.authentication⟩, ⟨26, r.leap⟩,
    ⟨28, convertSdSelOptions r.confOptions⟩, ⟨30, convertSdSelOptions r.effOptions⟩,
    ⟨32, r.lastSampleAgo⟩, flt 36 r.score, flt 40 r.loLimit, flt 44 r.hiLimit]

/-- mirrors cmdmon.rs:706-721 -/
def encodeSelectDataReply (r : SelectReport F) : Rust (Buf 52) := Layout.write 52 r.fields

end

/-- mirrors cmdmon.rs:1052-1067 -/
structure ClientAccessReport where
  ipAddr : IPAddr
  ntpHits : UInt32
  nkeHits : UInt32
  cmdHits : UInt32
  ntpDrops : UInt32
  nkeDrops : UInt32
  cmdDrops : UInt32
  ntpInterval : Int8
  nkeInterval : Int8
  cmdInterval : Int8
  ntpTimeoutInterval : Int8
  lastNtpHitAgo : UInt32
  lastNkeHitAgo : UInt32
  lastCmdHitAgo : UInt32

def ClientAccessReport.fields (r : ClientAccessReport) : List Field :=
  [⟨0, r.ipAddr⟩, ⟨20, r.ntpHits⟩, ⟨24, r.nkeHits⟩, ⟨28, r.cmdHits⟩, ⟨32, r.ntpDrops⟩,
    ⟨36, r.nkeDrops⟩, ⟨40, r.cmdDrops⟩, ⟨44, r.ntpInterval⟩, ⟨45, r.nkeInterval⟩,
      ⟨46, r.cmdInterval⟩,
    ⟨47, r.ntpTimeoutInterval⟩, ⟨48, r.lastNtpHitAgo⟩, ⟨52, r.lastNkeHitAgo⟩, ⟨56, r.lastCmdHitAgo⟩]

/-- mirrors cmdmon.rs:1072-1090 -/
def encodeClientAccessEntry (r : ClientAccessReport) : Rust (Buf 60) := Layout.write 60 r.fields

end ChronyRs.L4.Cmd

import ChronyRs.L4Cmd.Decoders
import ChronyRs.L4Cmd.Reports

/-!
# Reply readers of the client (`client.rs`)

The functions with which `chronyc` reads the bodies of replies. Each is written against the
layout of the daemon's encoder in `Reports`, field by field.

* `decode…_encode…`: what the daemon encoded is read back, each float as the value of its word
  (`wired`). The reader `decode_tracking_reply` is the exception: its leap status is a constant.
-/
namespace ChronyRs.L4.Cmd

open Layout (readAt Field)

variable {F : Type} [WireFloat F]

/-! ## Fields -/

def timeAt (body : Bytes) (off : Nat) : Rust Timespec := do
  let high ← readAt UInt32 body off
  let low ← readAt UInt32 body (off + 4)
  let nsec ← readAt UInt32 body (off + 8)
  pure (timespecNetworkToHost high low nsec)

theorem reads_flt (b : Bytes) (off : Nat) (x : F) :
    (flt off x).Reads b ↔ readAt UInt32 b off = .ok (WireFloat.hostToNetwork x) := Iff.rfl

theorem reads_timeFields (b : Bytes) (off : Nat) (t : Timespec) :
    (∀ f ∈ timeFields off t, f.Reads b) ↔
      readAt UInt32 b off = .ok (timespecHostToNetwork t).1 ∧
      readAt UInt32 b (off + 4) = .ok (timespecHostToNetwork t).2.1 ∧
      readAt UInt32 b (off + 8) = .ok (timespecHostToNetwork t).2.2 := by
  simp only [timeFields, List.forall_mem_cons, Field.reads_mk, List.not_mem_nil, false_imp_iff,
    implies_true, and_true]

/-! ## Tracking -/

/-- mirrors client.rs:448-472 -/
def decodeTrackingReplyCmdmon (body : Bytes) : Rust (TrackingReport F) := do
  let refTime ← timeAt body 28
  let refId ← readAt UInt32 body 0
  let ipAddr ← readAt IPAddr body 4
  let stratum ← readAt UInt16 body 24
  let leapStatus ← readAt UInt16 body 26
  let currentCorrection ← fltAt body 40
  let lastOffset ← fltAt body 44
  let rmsOffset ← fltAt body 48
  let freqPpm ← fltAt body 52
  let residFreqPpm ← fltAt body 56
  let skewPpm ← fltAt body 60
  let rootDelay ← fltAt body 64
  let rootDispersion ← fltAt body 68
  let lastUpdateInterval ← fltAt body 72
  pure { refId, ipAddr, stratum, leapStatus, refTime, currentCorrection, lastOffset,
         rmsOffset, freqPpm, residFreqPpm, skewPpm, rootDelay, rootDispersion, lastUpdateInterval }

/-- mirrors report.rs:28-33 -/
inductive LeapStatus where
  | normal | insertSecond | deleteSecond | notSynchronised
  deriving DecidableEq, Repr

/-- The tracking report that `chronyc` prints; the time is already formatted. The name of the
reference is always absent.
mirrors report.rs:50-74 -/
structure TrackingDisplay (F S : Type) where
  referenceId : UInt32
  stratum : UInt32
  refTimeUtc : S
  systemTimeOffset : F
  lastOffset : F
  rmsOffset : F
  frequencyPpm : F
  residualFreqPpm : F
  skewPpm : F
  rootDelay : F
  rootDispersion : F
  updateInterval : F
  leapStatus : LeapStatus

/-- The leap status is not read from the body.
mirrors client.rs:476-501 -/
def decodeTrackingReply {S : Type} (timeToLogForm : Int64 → S) (body : Bytes) :
    Rust (TrackingDisplay F S) := do
  let refTime ← timeAt body 28
  let refTimeUtc := timeToLogForm refTime.sec
  let referenceId ← readAt UInt32 body 0
  let stratum ← readAt UInt16 body 24
  let systemTimeOffset ← fltAt body 40
  let lastOffset ← fltAt body 44
  let rmsOffset ← fltAt body 48
  let frequencyPpm ← fltAt body 52
  let residualFreqPpm ← fltAt body 56
  let skewPpm ← fltAt body 60
  let rootDelay ← fltAt body 64
  let rootDispersion ← fltAt body 68
  let updateInterval ← fltAt body 72
  pure { referenceId, stratum := stratum.toUInt32, refTimeUtc, systemTimeOffset, lastOffset,
         rmsOffset, frequencyPpm, residualFreqPpm, skewPpm, rootDelay, rootDispersion,
         updateInterval, leapStatus := .normal }

def TrackingReport.wired (r : TrackingReport F) : TrackingReport F :=
  { r with
    currentCorrection := Cmd.wired r.currentCorrection
    lastOffset := Cmd.wired r.lastOffset
    rmsOffset := Cmd.wired r.rmsOffset
    freqPpm := Cmd.wired r.freqPpm
    residFreqPpm := Cmd.wired r.residFreqPpm
    skewPpm := Cmd.wired r.skewPpm
    rootDelay := Cmd.wired r.rootDelay
    rootDispersion := Cmd.wired r.rootDispersion
    lastUpdateInterval := Cmd.wired r.lastUpdateInterval }

/-- What `chronyc` should print of a report, if its leap status were the given one. -/
def TrackingReport.display {S : Type} (timeToLogForm : Int64 → S) (r : TrackingReport F)
    (leapStatus : LeapStatus) : TrackingDisplay F S where
  referenceId := r.refId
  stratum := r.stratum.toUInt32
  refTimeUtc := timeToLogForm r.refTime.sec
  systemTimeOffset := r.currentCorrection
  lastOffset := r.lastOffset
  rmsOffset := r.rmsOffset
  frequencyPpm := r.freqPpm
  residualFreqPpm := r.residFreqPpm
  skewPpm := r.skewPpm
  rootDelay := r.rootDelay
  rootDispersion := r.rootDispersion
  updateInterval := r.lastUpdateInterval
  leapStatus := leapStatus

theorem decodeTrackingReply_encode {S : Type} (timeToLogForm : Int64 → S) (r : TrackingReport F)
    (ht : r.refTime.Normalised) :
    ∃ b, encodeTrackingReply r = .ok b ∧ decodeTrackingReplyCmdmon b.bytes = .ok r.wired ∧
      decodeTrackingReply timeToLogForm b.bytes = .ok (r.wired.display timeToLogForm .normal) := by
  obtain ⟨b, hb, hreads⟩ := Layout.write_reads (show Layout.inOrder 80 0 r.fields = true from rfl)
  simp only [TrackingReport.fields, List.forall_mem_append, List.forall_mem_cons, reads_timeFields,
    Field.reads_mk, reads_flt] at hreads
  refine ⟨b, hb, ?_, ?_⟩
  · simp only [decodeTrackingReplyCmdmon, timeAt, fltAt, hreads, timespec_roundtrip ht, ok_bind,
      pure_eq]
    rfl
  · simp only [decodeTrackingReply, timeAt, fltAt, hreads, timespec_roundtrip ht, ok_bind,
      pure_eq]
    rfl

/-! ## Sources -/

/-- mirrors client.rs:506-520 -/
def decodeSourcestatsReply (body : Bytes) : Rust (SourcestatsReport F) := do
  let refId ← readAt UInt32 body 0
  let ipAddr ← readAt IPAddr body 4
  let nSamples ← readAt UInt32 body 24
  let nRuns ← readAt UInt32 body 28
  let spanSeconds ← readAt UInt32 body 32
  let sd ← fltAt body 36
  let residFreqPpm ← fltAt body 40
  let skewPpm ← fltAt body 44
  let estOffset ← fltAt body 48
  let estOffsetErr ← fltAt body 52
  pure { refId, ipAddr, nSamples, nRuns, spanSeconds, sd, residFreqPpm, skewPpm, estOffset,
         estOffsetErr }

def SourcestatsReport.wired (r : SourcestatsReport F) : SourcestatsReport F :=
  { r with
    residFreqPpm := Cmd.wired r.residFreqPpm
    skewPpm := Cmd.wired r.skewPpm
    sd := Cmd.wired r.sd
    estOffset := Cmd.wired r.estOffset
    estOffsetErr := Cmd.wired r.estOffsetErr }

theorem decodeSourcestatsReply_encode (r : SourcestatsReport F) :
    ∃ b, encodeSourcestatsReply r = .ok b ∧ decodeSourcestatsReply b.bytes = .ok r.wired := by
  obtain ⟨b, hb, hreads⟩ := Layout.write_reads (show Layout.inOrder 60 0 r.fields = true from rfl)
  simp only [SourcestatsReport.fields, List.forall_mem_cons, Field.reads_mk, reads_flt] at hreads
  refine ⟨b, hb, ?_⟩
  simp only [decodeSourcestatsReply, fltAt, hreads, ok_bind, pure_eq]
  rfl

/-- A code of the state or mode that is not known ends the reading.
mirrors client.rs:544-559 -/
def decodeSourceDataReply (body : Bytes) : Rust (Option (SourceDataReport F)) := do
  let ipAddr ← readAt IPAddr body 0
  let poll ← readAt Int16 body 20
  let stratum ← readAt UInt16 body 22
  let stateCode ← readAt UInt16 body 24
  match SourceState.fromWire stateCode with
  | none => pure none
  | some state => do
    let modeCode ← readAt UInt16 body 26
    match SourceMode.fromWire modeCode with
    | none => pure none
    | some mode => do
      let reachability ← readAt UInt16 body 30
      let latestMeasAgo ← readAt UInt32 body 32
      let origLatestMeas ← fltAt body 36
      let latestMeas ← fltAt body 40
      let latestMeasErr ← fltAt body 44
      pure (some { ipAddr, poll, stratum, state, mode, reachability, latestMeasAgo, origLatestMeas,
                   latestMeas, latestMeasErr })

def SourceDataReport.wired (r : SourceDataReport F) : SourceDataReport F :=
  { r with
    origLatestMeas := Cmd.wired r.origLatestMeas
    latestMeas := Cmd.wired r.latestMeas
    latestMeasErr := Cmd.wired r.latestMeasErr }

theorem decodeSourceDataReply_encode (r : SourceDataReport F) :
    ∃ b, encodeSourceDataReply r = .ok b ∧ decodeSourceDataReply b.bytes = .ok (some r.wired) := by
  obtain ⟨b, hb, hreads⟩ := Layout.write_reads (show Layout.inOrder 52 0 r.fields = true from rfl)
  simp only [SourceDataReport.fields, List.forall_mem_cons, Field.reads_mk, reads_flt] at hreads
  refine ⟨b, hb, ?_⟩
  simp only [decodeSourceDataReply, fltAt, hreads, SourceState.fromWire_wire,
    SourceMode.fromWire_wire, ok_bind, pure_eq]
  rfl

/-! ## Counters -/

/-- `unknown` is the daemon's `unresolved`.
mirrors client.rs:562-571 -/
def decodeActivityReply (body : Bytes) : Rust ActivityReport := do
  let online ← readAt UInt32 body 0
  let offline ← readAt UInt32 body 4
  let burstOnline ← readAt UInt32 body 8
  let burstOffline ← readAt UInt32 body 12
  let unresolved ← readAt UInt32 body 16
  pure { online, offline, burstOnline, burstOffline, unresolved }

theorem decodeActivityReply_encode (r : ActivityReport) :
    ∃ b, encodeActivityReply r = .ok b ∧ decodeActivityReply b.bytes = .ok r := by
  obtain ⟨b, hb, hreads⟩ := Layout.write_reads (show Layout.inOrder 24 0 r.fields = true from rfl)
  simp only [ActivityReport.fields, List.forall_mem_cons, Field.reads_mk] at hreads
  refine ⟨b, hb, ?_⟩
  simp only [decodeActivityReply, hreads, ok_bind]
  rfl

def counterAt (body : Bytes) (i : Nat) : Rust UInt64 := do
  let high ← readAt UInt32 body (i * 8)
  let low ← readAt UInt32 body (i * 8 + 4)
  pure (integer64NetworkToHost high low)

/-- mirrors client.rs:576-585 -/
def decodeServerstatsReply (body : Bytes) : Rust ServerStatsReport :=
  match h : (List.range 17).mapM (counterAt body) with
  | .error e => .error e
  | .ok counters => .ok ⟨counters, by rw [Rust.length_of_mapM h, List.length_range]⟩

theorem decodeServerstatsReply_encode (r : ServerStatsReport) :
    ∃ b, encodeServerStatsReply r = .ok b ∧ decodeServerstatsReply b.bytes = .ok r := by
  obtain ⟨b, hb, hreads⟩ := Layout.write_reads (show Layout.inOrder 172 0 r.fields = true from rfl)
  have hcounter : ∀ i ∈ List.range 17, counterAt b.bytes i = .ok (r.counters.getD i 0) := by
    intro i hi
    have hhigh := hreads ⟨i * 8, (integer64HostToNetwork (r.counters.getD i 0)).1⟩
      (List.mem_append_left _ (List.mem_flatMap.2 ⟨i, hi, List.mem_cons_self⟩))
    have hlow := hreads ⟨i * 8 + 4, (integer64HostToNetwork (r.counters.getD i 0)).2⟩
      (List.mem_append_left _ (List.mem_flatMap.2
        ⟨i, hi, List.mem_cons_of_mem _ List.mem_cons_self⟩))
    rw [Field.reads_mk] at hhigh hlow
    rw [counterAt, hhigh, ok_bind, hlow, ok_bind, integer64_roundtrip]
    rfl
  have hlist : (List.range 17).map (fun i => r.counters.getD i 0) = r.counters := by
    apply List.ext_getElem
    · rw [List.length_map, List.length_range, r.length_eq]
    · intro i _ hi
      rw [List.getElem_map, List.getElem_range, List.getD_eq_getElem?_getD,
        List.getElem?_eq_getElem hi]
      rfl
  refine ⟨b, hb, ?_⟩
  unfold decodeServerstatsReply
  have hmap := mapM_eq_ok hcounter
  rw [hlist] at hmap
  split
  · rename_i e he
    rw [hmap] at he
    cases he
  · rename_i counters hc
    rw [hmap] at hc
    cases hc
    rfl

/-! ## Clocks -/

/-- mirrors client.rs:588-603 -/
def decodeRtcReply (body : Bytes) : Rust (RtcReport F) := do
  let refTime ← timeAt body 0
  let nSamples ← readAt UInt16 body 12
  let nRuns ← readAt UInt16 body 14
  let spanSeconds ← readAt UInt32 body 16
  let rtcSecondsFast ← fltAt body 20
  let rtcGainRatePpm ← fltAt body 24
  pure { refTime, nSamples, nRuns, spanSeconds, rtcSecondsFast, rtcGainRatePpm }

def RtcReport.wired (r : RtcReport F) : RtcReport F :=
  { r with
    rtcSecondsFast := Cmd.wired r.rtcSecondsFast
    rtcGainRatePpm := Cmd.wired r.rtcGainRatePpm }

theorem decodeRtcReply_encode (r : RtcReport F) (ht : r.refTime.Normalised) :
    ∃ b, encodeRtcReply r = .ok b ∧ decodeRtcReply b.bytes = .ok r.wired := by
  obtain ⟨b, hb, hreads⟩ := Layout.write_reads (show Layout.inOrder 32 0 r.fields = true from rfl)
  simp only [RtcReport.fields, List.forall_mem_append, List.forall_mem_cons, reads_timeFields,
    Field.reads_mk, reads_flt] at hreads
  refine ⟨b, hb, ?_⟩
  simp only [decodeRtcReply, timeAt, fltAt, hreads, timespec_roundtrip ht, ok_bind, pure_eq]
  rfl

/-- mirrors client.rs:607-619 -/
def decodeSmoothingReply (body : Bytes) : Rust (SmoothingReport F) := do
  let flags ← readAt UInt32 body 0
  let offset ← fltAt body 4
  let freqPpm ← fltAt body 8
  let wanderPpm ← fltAt body 12
  let lastUpdateAgo ← fltAt body 16
  let remainingTime ← fltAt body 20
  pure { active := flags &&& 0x1 ≠ 0, leapOnly := flags &&& 0x2 ≠ 0, offset, freqPpm, wanderPpm,
         lastUpdateAgo, remainingTime }

def SmoothingReport.wired (r : SmoothingReport F) : SmoothingReport F :=
  { r with
    offset := Cmd.wired r.offset
    freqPpm := Cmd.wired r.freqPpm
    wanderPpm := Cmd.wired r.wanderPpm
    lastUpdateAgo := Cmd.wired r.lastUpdateAgo
    remainingTime := Cmd.wired r.remainingTime }

omit [WireFloat F] in
theorem SmoothingReport.flags_bits (r : SmoothingReport F) :
    decide (r.flags &&& 0x1 ≠ 0) = r.active ∧ decide (r.flags &&& 0x2 ≠ 0) = r.leapOnly := by
  unfold SmoothingReport.flags
  cases r.active <;> cases r.leapOnly <;> decide

theorem decodeSmoothingReply_encode (r : SmoothingReport F) :
    ∃ b, encodeSmoothingReply r = .ok b ∧ decodeSmoothingReply b.bytes = .ok r.wired := by
  obtain ⟨b, hb, hreads⟩ := Layout.write_reads (show Layout.inOrder 28 0 r.fields = true from rfl)
  simp only [SmoothingReport.fields, List.forall_mem_cons, Field.reads_mk, reads_flt] at hreads
  refine ⟨b, hb, ?_⟩
  simp only [decodeSmoothingReply, fltAt, hreads, ok_bind, pure_eq, r.flags_bits]
  rfl

/-! ## Authentication and selection -/

/-- mirrors client.rs:623-635 -/
def decodeAuthDataReply (body : Bytes) : Rust (Option AuthReport) := do
  let modeCode ← readAt UInt16 body 0
  match AuthMode.fromWire modeCode with
  | none => pure none
  | some mode => do
    let keyType ← readAt UInt16 body 2
    let keyId ← readAt UInt32 body 4
    let keyLength ← readAt UInt16 body 8
    let keAttempts ← readAt UInt16 body 10
    let lastKeAgo ← readAt UInt32 body 12
    let cookies ← readAt UInt16 body 16
    let cookieLength ← readAt UInt16 body 18
    let nak ← readAt UInt16 body 20
    pure (some { mode, keyType, keyId, keyLength, keAttempts, lastKeAgo, cookies,
                 cookieLength, nak })

theorem decodeAuthDataReply_encode (r : AuthReport) :
    ∃ b, encodeAuthDataReply r = .ok b ∧ decodeAuthDataReply b.bytes = .ok (some r) := by
  obtain ⟨b, hb, hreads⟩ := Layout.write_reads (show Layout.inOrder 28 0 r.fields = true from rfl)
  simp only [AuthReport.fields, List.forall_mem_cons, Field.reads_mk] at hreads
  refine ⟨b, hb, ?_⟩
  simp only [decodeAuthDataReply, hreads, AuthMode.fromWire_wire, ok_bind]
  rfl

/-- mirrors client.rs:639-646 -/
def unconvertSdSelOptions (options : UInt16) : Int32 :=
  (if options &&& 0x2 ≠ 0 then 0x2 else 0) ||| (if options &&& 0x1 ≠ 0 then 0x1 else 0) |||
    (if options &&& 0x4 ≠ 0 then 0x4 else 0) ||| (if options &&& 0x8 ≠ 0 then 0x8 else 0)

def SelectOptions (options : Int32) : Prop := options &&& 0xf = options

theorem unconvert_convertSdSelOptions {options : Int32} (h : SelectOptions options) :
    unconvertSdSelOptions (convertSdSelOptions options) = options := by
  have hlt : options.toUInt32.toNat < 16 := by
    have hand : options.toUInt32.toNat &&& 15 = options.toUInt32.toNat :=
      congrArg (fun o : Int32 => o.toUInt32.toNat) h
    have := Nat.and_le_right (n := options.toUInt32.toNat) (m := 15)
    omega
  have hall : ∀ n < 16, unconvertSdSelOptions (convertSdSelOptions (UInt32.ofNat n).toInt32) =
      (UInt32.ofNat n).toInt32 := by decide
  have hopt : (UInt32.ofNat options.toUInt32.toNat).toInt32 = options := by
    rw [UInt32.ofNat_toNat]
    rfl
  have := hall _ hlt
  rwa [hopt] at this

/-- mirrors client.rs:651-666 -/
def decodeSelectDataReply (body : Bytes) : Rust (SelectReport F) := do
  let refId ← readAt UInt32 body 0
  let ipAddr ← readAt IPAddr body 4
  let stateByte ← index body 24
  let authentication ← index body 25
  let leap ← index body 26
  let confOptions ← readAt UInt16 body 28
  let effOptions ← readAt UInt16 body 30
  let lastSampleAgo ← readAt UInt32 body 32
  let score ← fltAt body 36
  let loLimit ← fltAt body 40
  let hiLimit ← fltAt body 44
  pure { refId, ipAddr, stateChar := byteChar stateByte, authentication, leap,
         confOptions := unconvertSdSelOptions confOptions,
         effOptions := unconvertSdSelOptions effOptions,
         lastSampleAgo, score, loLimit, hiLimit }

def SelectReport.wired (r : SelectReport F) : SelectReport F :=
  { r with
    score := Cmd.wired r.score
    loLimit := Cmd.wired r.loLimit
    hiLimit := Cmd.wired r.hiLimit }

theorem decodeSelectDataReply_encode (r : SelectReport F) (hchar : r.stateChar.toNat < 256)
    (hconf : SelectOptions r.confOptions) (heff : SelectOptions r.effOptions) :
    ∃ b, encodeSelectDataReply r = .ok b ∧ decodeSelectDataReply b.bytes = .ok r.wired := by
  obtain ⟨b, hb, hreads⟩ := Layout.write_reads (show Layout.inOrder 52 0 r.fields = true from rfl)
  simp only [SelectReport.fields, List.forall_mem_cons, Field.reads_mk, reads_flt] at hreads
  refine ⟨b, hb, ?_⟩
  simp only [decodeSelectDataReply, fltAt, index_of_readAt hreads.2.2.1,
    index_of_readAt hreads.2.2.2.1,
    index_of_readAt hreads.2.2.2.2.1, hreads, byteChar_charByte hchar,
    unconvert_convertSdSelOptions hconf, unconvert_convertSdSelOptions heff, ok_bind, pure_eq]
  rfl

/-! ## NTP data -/

/-- mirrors client.rs:681-723 -/
def decodeNtpDataReply (body : Bytes) : Rust (NtpReport F × IPAddr × UInt16) := do
  let remoteAddr ← readAt IPAddr body 0
  let localAddr ← readAt IPAddr body 20
  let remotePort ← readAt UInt16 body 40
  let refTime ← timeAt body 60
  let flags ← readAt UInt16 body 92
  let leap ← index body 42
  let version ← index body 43
  let mode ← index body 44
  let stratum ← index body 45
  let poll ← index body 46
  let precision ← index body 47
  let rootDelay ← fltAt body 48
  let rootDispersion ← fltAt body 52
  let refId ← readAt UInt32 body 56
  let offset ← fltAt body 72
  let peerDelay ← fltAt body 76
  let peerDispersion ← fltAt body 80
  let responseTime ← fltAt body 84
  let jitterAsymmetry ← fltAt body 88
  let txTss ← index body 94
  let rxTss ← index body 95
  let totalTxCount ← readAt UInt32 body 96
  let totalRxCount ← readAt UInt32 body 100
  let totalValidCount ← readAt UInt32 body 104
  let totalGoodCount ← readAt UInt32 body 108
  pure ({ localAddr, leap, version, mode, stratum, poll := poll.toInt8,
          precision := precision.toInt8, rootDelay, rootDispersion, refId, refTime, offset,
          peerDelay, peerDispersion, responseTime, jitterAsymmetry, tests := flags &&& 0x3ff,
          interleaved := flags &&& 0x4000 ≠ 0, authenticated := flags &&& 0x8000 ≠ 0,
          txTssChar := byteChar txTss, rxTssChar := byteChar rxTss, totalTxCount, totalRxCount,
          totalValidCount, totalGoodCount },
    remoteAddr, remotePort)

def NtpReport.wired (r : NtpReport F) : NtpReport F :=
  { r with
    rootDelay := Cmd.wired r.rootDelay
    rootDispersion := Cmd.wired r.rootDispersion
    offset := Cmd.wired r.offset
    peerDelay := Cmd.wired r.peerDelay
    peerDispersion := Cmd.wired r.peerDispersion
    responseTime := Cmd.wired r.responseTime
    jitterAsymmetry := Cmd.wired r.jitterAsymmetry }

omit [WireFloat F] in
/-- Ten test bits and two flags above them do not mix. -/
theorem NtpReport.flags_bits (r : NtpReport F) (h : r.tests &&& 0x3ff = r.tests) :
    r.flags &&& 0x3ff = r.tests ∧ decide (r.flags &&& 0x4000 ≠ 0) = r.interleaved ∧
      decide (r.flags &&& 0x8000 ≠ 0) = r.authenticated := by
  have hdistrib : ∀ a b c : UInt16, (a ||| b) &&& c = a &&& c ||| b &&& c :=
    fun a b c => UInt16.toBitVec_inj.1 BitVec.and_or_distrib_right
  have hdisjoint : (0x3ff : UInt16) &&& 0x4000 = 0 ∧ (0x3ff : UInt16) &&& 0x8000 = 0 ∧
      (0x4000 : UInt16) &&& 0x3ff = 0 ∧ (0x4000 : UInt16) &&& 0x8000 = 0 ∧
      (0x8000 : UInt16) &&& 0x3ff = 0 ∧ (0x8000 : UInt16) &&& 0x4000 = 0 := by decide
  simp only [NtpReport.flags, hdistrib, UInt16.and_assoc]
  cases r.interleaved <;> cases r.authenticated <;> simp [h, hdisjoint]

theorem decodeNtpDataReply_encode (r : NtpReport F) (remoteAddr : IPAddr) (remotePort : UInt16)
    (ht : r.refTime.Normalised) (htests : r.tests &&& 0x3ff = r.tests)
    (htx : r.txTssChar.toNat < 256) (hrx : r.rxTssChar.toNat < 256) :
    ∃ b, encodeNtpDataReply r remoteAddr remotePort = .ok b ∧
      decodeNtpDataReply b.bytes = .ok (r.wired, remoteAddr, remotePort) := by
  obtain ⟨b, hb, hreads⟩ := Layout.write_reads
    (show Layout.inOrder 128 0 (r.fields remoteAddr remotePort) = true from rfl)
  simp only [NtpReport.fields, List.forall_mem_append, List.forall_mem_cons, reads_timeFields,
    Field.reads_mk, reads_flt] at hreads
  obtain ⟨⟨⟨h0, h20, h40, h42, h43, h44, h45, h46, h47, hhead⟩, htime⟩, h72, h76, h80, h84,
    h88, h92, h94, h95, htail⟩ := hreads
  refine ⟨b, hb, ?_⟩
  simp only [decodeNtpDataReply, timeAt, fltAt, h0, h20, h40, index_of_readAt h42,
    index_of_readAt h43,
    index_of_readAt h44, index_of_readAt h45, index_of_readAt_int8 h46,
      index_of_readAt_int8 h47, hhead,
    htime, h72, h76, h80, h84, h88, h92, index_of_readAt h94, index_of_readAt h95, htail,
    timespec_roundtrip ht, r.flags_bits htests, byteChar_charByte htx, byteChar_charByte hrx,
    ok_bind, pure_eq]
  rfl

end ChronyRs.L4.Cmd

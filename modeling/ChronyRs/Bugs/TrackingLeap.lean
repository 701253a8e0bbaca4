import ChronyRs.L4Cmd.ClientReplies

/-!
# The leap status of a tracking report is read back as normal

The daemon sends the leap status of its tracking report, and one of the two readers of the client,
`decode_tracking_reply_cmdmon`, from which chronyc prints, gives it back. The other,
`decode_tracking_reply`, sets `LeapStatus::Normal` whatever it receives: a daemon that is not
synchronised, or has a leap second pending, is reported as normal. Every other field of every report
is read as it was written.

* `report_read_back_iff`: exactly which reports are read back.
* `unsynchronised_shown_normal`: a daemon that is not synchronised.
-/
namespace ChronyRs.Bugs.TrackingLeap

open L4.Cmd

variable {F S : Type} [WireFloat F]

inductive Report (F : Type) where
  | tracking (r : TrackingReport F)
  | sourcestats (r : SourcestatsReport F)
  | sourceData (r : SourceDataReport F)
  | activity (r : ActivityReport)
  | serverStats (r : ServerStatsReport)
  | ntpData (r : NtpReport F) (remoteAddr : IPAddr) (remotePort : UInt16)
  | rtc (r : RtcReport F)
  | smoothing (r : SmoothingReport F)
  | authData (r : AuthReport)
  | selectData (r : SelectReport F)

namespace Report

/-- Normalised times, characters of one byte, ten test bits and the four select options. -/
def WellFormed : Report F → Prop
  | tracking r => r.refTime.Normalised
  | ntpData r _ _ => r.refTime.Normalised ∧ r.tests &&& 0x3ff = r.tests ∧ r.txTssChar.toNat < 256 ∧
      r.rxTssChar.toNat < 256
  | rtc r => r.refTime.Normalised
  | selectData r =>
    r.stateChar.toNat < 256 ∧ SelectOptions r.confOptions ∧ SelectOptions r.effOptions
  | _ => True

def encode : Report F → Rust Bytes
  | tracking r => do let b ← encodeTrackingReply r; pure b.bytes
  | sourcestats r => do let b ← encodeSourcestatsReply r; pure b.bytes
  | sourceData r => do let b ← encodeSourceDataReply r; pure b.bytes
  | activity r => do let b ← encodeActivityReply r; pure b.bytes
  | serverStats r => do let b ← encodeServerStatsReply r; pure b.bytes
  | ntpData r addr port => do let b ← encodeNtpDataReply r addr port; pure b.bytes
  | rtc r => do let b ← encodeRtcReply r; pure b.bytes
  | smoothing r => do let b ← encodeSmoothingReply r; pure b.bytes
  | authData r => do let b ← encodeAuthDataReply r; pure b.bytes
  | selectData r => do let b ← encodeSelectDataReply r; pure b.bytes

/-- The leap status of a code.
mirrors reference.rs:48-57 -/
def leapStatusOf : UInt16 → Option LeapStatus
  | 0 => some .normal
  | 1 => some .insertSecond
  | 2 => some .deleteSecond
  | 3 => some .notSynchronised
  | _ => none

/-- Every reader of the client for the kind of report gives the fields back, with each float as
the value of its word. -/
def ReadBack (timeToLogForm : Int64 → S) (body : Bytes) : Report F → Prop
  | tracking r => decodeTrackingReplyCmdmon body = .ok r.wired ∧
      ∃ leap, leapStatusOf r.leapStatus = some leap ∧
        decodeTrackingReply timeToLogForm body = .ok (r.wired.display timeToLogForm leap)
  | sourcestats r => decodeSourcestatsReply body = .ok r.wired
  | sourceData r => decodeSourceDataReply body = .ok (some r.wired)
  | activity r => decodeActivityReply body = .ok r
  | serverStats r => decodeServerstatsReply body = .ok r
  | ntpData r addr port => decodeNtpDataReply body = .ok (r.wired, addr, port)
  | rtc r => decodeRtcReply body = .ok r.wired
  | smoothing r => decodeSmoothingReply body = .ok r.wired
  | authData r => decodeAuthDataReply body = .ok (some r)
  | selectData r => decodeSelectDataReply body = .ok r.wired

theorem leapStatusOf_eq_normal_iff (code : UInt16) :
    leapStatusOf code = some .normal ↔ code = 0 := by
  constructor
  · intro h
    unfold leapStatusOf at h
    split at h
    · rfl
    all_goals cases h
  · rintro rfl
    rfl

theorem tracking_read_back_iff (timeToLogForm : Int64 → S) (r : TrackingReport F)
    (ht : r.refTime.Normalised) :
    (∃ body, (tracking r).encode = .ok body ∧ (tracking r).ReadBack timeToLogForm body) ↔
      r.leapStatus = 0 := by
  obtain ⟨b, hb, hcmdmon, hdisplay⟩ := decodeTrackingReply_encode timeToLogForm r ht
  have hencode : (tracking r).encode = .ok b.bytes := by
    rw [encode, hb]
    rfl
  rw [← leapStatusOf_eq_normal_iff]
  constructor
  · rintro ⟨body, hbody, -, leap, hleap, hread⟩
    rw [hencode] at hbody
    cases hbody
    rw [hdisplay] at hread
    have hnormal : LeapStatus.normal = leap :=
      congrArg TrackingDisplay.leapStatus (Except.ok.inj hread)
    rw [hnormal, hleap]
  · intro hnormal
    exact ⟨b.bytes, hencode, hcmdmon, .normal, hnormal, hdisplay⟩

/-- A report whose encoder and reader agree. -/
theorem read_back_of {n : Nat} {x : Rust (Buf n)} {P : Bytes → Prop}
    (h : ∃ b, x = .ok b ∧ P b.bytes) :
    ∃ body, (do let b ← x; pure b.bytes : Rust Bytes) = .ok body ∧ P body := by
  obtain ⟨b, rfl, hb⟩ := h
  exact ⟨b.bytes, rfl, hb⟩

end Report

/-- **The exact condition.** A report is read back unless it is a tracking report with a leap
status other than normal. -/
theorem report_read_back_iff (timeToLogForm : Int64 → S) (r : Report F) (h : r.WellFormed) :
    (∃ body, r.encode = .ok body ∧ r.ReadBack timeToLogForm body) ↔
      ∀ t, r = .tracking t → t.leapStatus = 0 := by
  cases r with
  | tracking r =>
    rw [Report.tracking_read_back_iff timeToLogForm r h]
    exact ⟨by rintro h0 t ⟨⟩; exact h0, fun h0 => h0 r rfl⟩
  | sourcestats r => exact iff_of_true (Report.read_back_of (decodeSourcestatsReply_encode r)) nofun
  | sourceData r => exact iff_of_true (Report.read_back_of (decodeSourceDataReply_encode r)) nofun
  | activity r => exact iff_of_true (Report.read_back_of (decodeActivityReply_encode r)) nofun
  | serverStats r => exact iff_of_true (Report.read_back_of (decodeServerstatsReply_encode r)) nofun
  | ntpData r addr port =>
    obtain ⟨ht, htests, htx, hrx⟩ := h
    exact iff_of_true (Report.read_back_of (decodeNtpDataReply_encode r addr port ht htests
      htx hrx)) nofun
  | rtc r => exact iff_of_true (Report.read_back_of (decodeRtcReply_encode r h)) nofun
  | smoothing r => exact iff_of_true (Report.read_back_of (decodeSmoothingReply_encode r)) nofun
  | authData r => exact iff_of_true (Report.read_back_of (decodeAuthDataReply_encode r)) nofun
  | selectData r =>
    obtain ⟨hchar, hconf, heff⟩ := h
    exact iff_of_true (Report.read_back_of (decodeSelectDataReply_encode r hchar hconf heff)) nofun

/-- A tracking report at 2023-11-14 22:13:20 with the given leap status. -/
def trackingReport (leapStatus : UInt16) : TrackingReport UInt32 :=
  ⟨0x7f7f0101, .inet4 0x7f000001, 3, leapStatus, ⟨1700000000, 5⟩, 1, 2, 3, 4, 5, 6, 7, 8, 9⟩

theorem trackingReport_normalised (leapStatus : UInt16) :
    (trackingReport leapStatus).refTime.Normalised := by
  have hnormal : Timespec.Normalised ⟨1700000000, 5⟩ := by
    unfold Timespec.Normalised
    decide
  exact hnormal

theorem normal_read_back :
    (Report.tracking (trackingReport 0)).WellFormed ∧
    ∃ body, (Report.tracking (trackingReport 0)).encode = .ok body ∧
      (Report.tracking (trackingReport 0)).ReadBack id body :=
  ⟨trackingReport_normalised 0,
    (report_read_back_iff id (.tracking (trackingReport 0)) (trackingReport_normalised 0)).2
      (by rintro t ⟨⟩; rfl)⟩

/-- The code of "not synchronised" goes out and comes in, and is shown as "normal". -/
theorem unsynchronised_shown_normal :
    Report.leapStatusOf 3 = some .notSynchronised ∧
    (do let b ← encodeTrackingReply (trackingReport 3)
        let r ← (decodeTrackingReplyCmdmon b.bytes : Rust (TrackingReport UInt32))
        pure r.leapStatus : Rust UInt16) = .ok 3 ∧
    (do let b ← encodeTrackingReply (trackingReport 3)
        let d ← (decodeTrackingReply id b.bytes : Rust (TrackingDisplay UInt32 Int64))
        pure d.leapStatus : Rust LeapStatus) = .ok .normal := by
  refine ⟨rfl, ?_, ?_⟩
  all_goals decide +kernel

end ChronyRs.Bugs.TrackingLeap

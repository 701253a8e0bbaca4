import ChronyRs.L4Server.Interleaved

/-!
# A transmit time too far before the receive time panics (`clientlog.rs`)

`set_ntp_tx` stores a transmit time as an `i32` of nanoseconds from the receive time, if it is at
most two seconds off, and marks the entry as one without a transmit time otherwise. The distance is
taken by `Timespec::diff`, in `i64` with overflow checks: for a time whose seconds are more than
`2^63` away it panics before the window is looked at.

* `transmit_kept_iff`: a time within the window comes back from `get_ntp_tx`, any other is refused,
  unless the subtraction overflows. The `i32` offset never does.
* `earliest_time`: the time of `i64::MIN` seconds.

Fix: `checked_sub` in `diff`, or a comparison of the seconds before the subtraction.
-/
namespace ChronyRs.Bugs.FarTransmit

open L4.Server

variable {t r : Timespec}

/-! ## Differences -/

/-- A normalised time with `i64` seconds. -/
structure Valid (t : Timespec) : Prop where
  sec_ge : -2 ^ 63 ≤ t.tvSec
  sec_lt : t.tvSec < 2 ^ 63
  nsec_ge : 0 ≤ t.tvNsec
  nsec_lt : t.tvNsec < nsecPerSec

/-- The seconds of the difference fit, before the borrow and after it. -/
def Subtracts (t r : Timespec) : Prop :=
  t.tvSec - r.tvSec < 2 ^ 63 ∧ -2 ^ 63 * nsecPerSec ≤ t.total - r.total

/-- The window of `set_ntp_tx`: two seconds, without the upper end. -/
def InWindow (t r : Timespec) : Prop :=
  -2 * nsecPerSec ≤ t.total - r.total ∧ t.total - r.total < 2 * nsecPerSec

theorem diff_cases (ht : Valid t) (hr : Valid r) :
    (Subtracts t r ∧ t.diffChecked r = .ok (t.diff r)) ∨
    (¬ Subtracts t r ∧ t.diffChecked r = .error .overflow) := by
  obtain ⟨-, -, ht1, ht2⟩ := ht
  obtain ⟨-, -, hr1, hr2⟩ := hr
  have hns : nsecPerSec = 1000000000 := rfl
  have hsecs : t.total - r.total = (t.tvSec - r.tvSec) * 1000000000 + (t.tvNsec - r.tvNsec) := by
    simp only [Timespec.total, nsecPerSec]
    omega
  rw [Timespec.diffChecked, Subtracts]
  by_cases hsec : InI64 (t.tvSec - r.tvSec)
  · rw [i64_of_range hsec.1 hsec.2, ok_bind, i64_of_range (by omega) (by omega), ok_bind,
      Timespec.normaliseChecked_eq hsec, ← Timespec.diff]
    have hdiff : (t.diff r).tvSec = (t.total - r.total) / 1000000000 := by
      rw [Timespec.diff_eq, hns]
    rw [hns] at ht2 hr2 ⊢
    by_cases hleft : -2 ^ 63 * 1000000000 ≤ t.total - r.total
    · rw [if_pos (by omega)]
      exact .inl ⟨⟨hsec.2, hleft⟩, rfl⟩
    · rw [if_neg (by omega)]
      exact .inr ⟨fun h => hleft h.2, rfl⟩
  · rw [i64, if_neg hsec]
    exact .inr ⟨by omega, rfl⟩

theorem inWindow_iff :
    InWindow t r ↔ ¬ ((t.diff r).tvSec < -2 ∨ 1 < (t.diff r).tvSec) := by
  simp only [InWindow, Timespec.diff_eq, nsecPerSec]
  omega

/-! ## Stored and read back -/

section
variable {conv : UInt64 → Timespec} {tss : NtpTimestamps} {src : TimestampSource}

theorem getNtpTx_stored (ht : Valid t) (hr : Valid (conv tss.rxTs))
    (hw : InWindow t (conv tss.rxTs)) (src : TimestampSource) :
    getNtpTx conv (tss.storeTx (t.total - (conv tss.rxTs).total) src) = .ok (t, src) := by
  have hdiv : t = ⟨t.total / nsecPerSec, t.total % nsecPerSec⟩ :=
    Timespec.eq_divMod ht.nsec_ge ht.nsec_lt rfl
  have hsec : t.tvSec = t.total / nsecPerSec := congrArg Timespec.tvSec hdiv
  obtain ⟨tx, htx⟩ := addOffset_returns ⟨hr.sec_ge, hr.sec_lt⟩ hr.nsec_ge hr.nsec_lt hw.1 hw.2
    (by rw [add_sub_cancel, ← hsec]; exact ⟨ht.sec_ge, ht.sec_lt⟩)
  have hback : tx = t := by
    rw [addOffset_ok htx, Timespec.normalise_sub, Timespec.normalise_eq, ← hdiv]
  rw [getNtpTx_storeTx, htx, hback]
  rfl

/-- What is asked of `set_ntp_tx` followed by `get_ntp_tx`: a time within the window comes back with
its source; without such a time the entry has none, and zero is returned. -/
def Kept (conv : UInt64 → Timespec) (tss : NtpTimestamps) (tx : Option Timespec)
    (src : TimestampSource) : Prop :=
  ∃ tss', setNtpTx conv tss tss.rxTs tx src = .ok tss' ∧
    (∀ t ∈ tx, InWindow t (conv tss.rxTs) → getNtpTx conv tss' = .ok (t, src)) ∧
    ((∀ t ∈ tx, ¬ InWindow t (conv tss.rxTs)) →
      tss'.flags &&& ntptsValidTx = 0 ∧ ∃ src', getNtpTx conv tss' = .ok (.zero, src'))

theorem clearTx_absent (conv : UInt64 → Timespec) (tss : NtpTimestamps) :
    tss.clearTx.flags &&& ntptsValidTx = 0 ∧ ∃ src', getNtpTx conv tss.clearTx =
      .ok (.zero, src') :=
  ⟨validTx_cleared _, _, getNtpTx_clearTx conv tss⟩

/-- **Which transmit times are handled.** -/
theorem transmit_kept_iff (hconv : ∀ rx, Valid (conv rx)) (tss : NtpTimestamps)
    {tx : Option Timespec} (htx : ∀ t ∈ tx, Valid t) (src : TimestampSource) :
    Kept conv tss tx src ↔ ∀ t ∈ tx, Subtracts t (conv tss.rxTs) := by
  cases tx with
  | none =>
    exact iff_of_true ⟨_, rfl, by simp, fun _ => clearTx_absent conv tss⟩ (by simp)
  | some t =>
    rw [Kept, setNtpTx_some]
    rcases diff_cases (htx t rfl) (hconv tss.rxTs) with ⟨hsub, hdiff⟩ | ⟨hsub, hdiff⟩
    · refine iff_of_true ?_ (by simpa using hsub)
      rw [hdiff, ok_bind, Timespec.total_diff]
      by_cases hw : InWindow t (conv tss.rxTs)
      · rw [if_neg (inWindow_iff.1 hw)]
        refine ⟨_, rfl, fun t' ht' _ => ?_, fun hout => absurd hw (hout t rfl)⟩
        obtain rfl := Option.some.inj ht'
        exact getNtpTx_stored (htx t rfl) (hconv _) hw src
      · rw [if_pos (not_not.1 (mt inWindow_iff.2 hw))]
        refine ⟨_, rfl, fun t' ht' hw' => ?_, fun _ => clearTx_absent conv tss⟩
        obtain rfl := Option.some.inj ht'
        exact absurd hw' hw
    · refine iff_of_false ?_ (by simpa using hsub)
      rintro ⟨tss', hset, -⟩
      rw [hdiff] at hset
      cases hset

end

/-- A second and a half behind the receive time, and ten seconds. -/
theorem transmit_kept_iff_near : Kept (fun _ => ⟨5, 0⟩) .blank (some ⟨6, 500000000⟩) .kernel ∧
    Kept (fun _ => ⟨5, 0⟩) .blank (some ⟨15, 0⟩) .kernel := by
  have hvalid : Valid ⟨5, 0⟩ := ⟨by decide, by decide, by decide, by decide⟩
  have hconv : ∀ rx : UInt64, Valid ((fun _ => ⟨5, 0⟩ : UInt64 → Timespec) rx) := fun _ => hvalid
  refine ⟨(transmit_kept_iff hconv .blank (fun t ht => ?_) .kernel).2 fun t ht => ?_,
    (transmit_kept_iff hconv .blank (fun t ht => ?_) .kernel).2 fun t ht => ?_⟩
  all_goals
    cases ht
    first
      | exact ⟨by decide, by decide, by decide, by decide⟩
      | exact ⟨by decide, by decide⟩

/-- The time of `i64::MIN` seconds is far outside the window and is not refused. -/
theorem earliest_time : ntp64ToTimespec ℚ 0x83aa7e85_00000000 = ⟨5, 0⟩ ∧ Valid ⟨-2 ^ 63, 0⟩ ∧
    ¬ InWindow ⟨-2 ^ 63, 0⟩ ⟨5, 0⟩ ∧ setNtpTx (ntp64ToTimespec ℚ) .blank 0x83aa7e85_00000000
      (some ⟨-2 ^ 63, 0⟩) .kernel = .error .overflow := by
  refine ⟨by decide +kernel, ⟨by decide, by decide, by decide, by decide⟩, fun h =>
    absurd h.1 (by decide),
    by decide +kernel⟩

end ChronyRs.Bugs.FarTransmit

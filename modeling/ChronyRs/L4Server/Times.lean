import Mathlib.Algebra.Order.Ring.Int
import ChronyRs.Core.F64
import ChronyRs.Core.Rust

/-!
# Times of a second and a nanosecond part

The `Timespec` of clientlog.rs, which sched.rs and refclock_shm.rs repeat. `normalise` is the
division with remainder of the whole by a second (`normalise_eq`).

The operations of the code have the overflow checks of `i64`. Where they return, they do the same as
those in unbounded integers (`normaliseChecked_eq`, `normaliseChecked_ok`, `diffChecked_ok`).
-/
namespace ChronyRs.L4.Server

/-- mirrors clientlog.rs:145-150 -/
structure Timespec where
  tvSec : Int
  tvNsec : Int
  deriving DecidableEq, Repr

def nsecPerSec : Int := 1000000000

namespace Timespec

/-- `Timespec::default()`. -/
def zero : Timespec := ⟨0, 0⟩

/-- `normaliseChecked` without the overflow checks. -/
def normalise (t : Timespec) : Timespec :=
  if nsecPerSec ≤ t.tvNsec ∨ t.tvNsec < 0 then
    let sec := t.tvSec + t.tvNsec.tdiv nsecPerSec
    let nsec := t.tvNsec.tmod nsecPerSec
    if nsec < 0 then ⟨sec - 1, nsec + nsecPerSec⟩ else ⟨sec, nsec⟩
  else t

/-- `diffChecked` without the overflow checks. -/
def diff (a b : Timespec) : Timespec := normalise ⟨a.tvSec - b.tvSec, a.tvNsec - b.tvNsec⟩

/-- Nanoseconds. -/
def total (t : Timespec) : Int := t.tvSec * nsecPerSec + t.tvNsec

theorem eq_divMod {sec nsec total : Int} (h0 : 0 ≤ nsec) (h1 : nsec < nsecPerSec)
    (ht : sec * nsecPerSec + nsec = total) :
    (⟨sec, nsec⟩ : Timespec) = ⟨total / nsecPerSec, total % nsecPerSec⟩ := by
  simp only [nsecPerSec, Timespec.mk.injEq] at *
  omega

theorem normalise_eq (t : Timespec) :
    t.normalise = ⟨t.total / nsecPerSec, t.total % nsecPerSec⟩ := by
  have hn : nsecPerSec = 1000000000 := rfl
  have hd := Int.mul_tdiv_add_tmod t.tvNsec nsecPerSec
  have h1 := Int.tmod_lt_of_pos t.tvNsec (show 0 < nsecPerSec by decide)
  have h2 := Int.lt_tmod_of_pos t.tvNsec (show 0 < nsecPerSec by decide)
  rw [normalise]
  by_cases hc : nsecPerSec ≤ t.tvNsec ∨ t.tvNsec < 0
  · rw [if_pos hc]
    dsimp only
    split
    · refine eq_divMod (by omega) (by omega) ?_
      rw [total, Int.sub_mul, Int.add_mul, Int.mul_comm (t.tvNsec.tdiv nsecPerSec)]
      omega
    · refine eq_divMod (by omega) (by omega) ?_
      rw [total, Int.add_mul, Int.mul_comm (t.tvNsec.tdiv nsecPerSec)]
      omega
  · rw [if_neg hc]
    exact eq_divMod (by omega) (by omega) rfl

theorem normalise_congr {a b : Timespec} (h : a.total = b.total) : a.normalise = b.normalise := by
  rw [normalise_eq, normalise_eq, h]

theorem diff_eq (a b : Timespec) :
    a.diff b = ⟨(a.total - b.total) / nsecPerSec, (a.total - b.total) % nsecPerSec⟩ := by
  have htotal : (⟨a.tvSec - b.tvSec, a.tvNsec - b.tvNsec⟩ : Timespec).total =
      a.total - b.total := by
    simp only [total, Int.sub_mul]
    omega
  rw [diff, normalise_eq, htotal]

/-- Adding a difference back. -/
theorem normalise_sub (a b : Timespec) :
    normalise ⟨b.tvSec, b.tvNsec + (a.total - b.total)⟩ = a.normalise := by
  refine normalise_congr ?_
  simp only [total]
  omega

theorem total_diff (a b : Timespec) : (a.diff b).total = a.total - b.total := by
  rw [diff_eq, total]
  exact Int.ediv_mul_add_emod _ _

/-! ## With the overflow checks -/

/-- mirrors clientlog.rs:159-168, sched.rs:113-122, refclock_shm.rs:75-84 -/
def normaliseChecked (t : Timespec) : Rust Timespec :=
  if nsecPerSec ≤ t.tvNsec ∨ t.tvNsec < 0 then do
    let sec ← i64 (t.tvSec + t.tvNsec.tdiv nsecPerSec)
    let nsec := t.tvNsec.tmod nsecPerSec
    if nsec < 0 then do
      let sec ← i64 (sec - 1)
      .ok ⟨sec, nsec + nsecPerSec⟩
    else .ok ⟨sec, nsec⟩
  else .ok t

/-- mirrors clientlog.rs:171-175, sched.rs:148-155 -/
def diffChecked (a b : Timespec) : Rust Timespec := do
  let sec ← i64 (a.tvSec - b.tvSec)
  let nsec ← i64 (a.tvNsec - b.tvNsec)
  normaliseChecked ⟨sec, nsec⟩

/-- mirrors clientlog.rs:178-186, sched.rs:138-146 -/
def addDoubleChecked {F : Type} [F64Math F] (t : Timespec) (increment : F) : Rust Timespec := do
  let intPart := F64Math.toI64 increment
  let sec ← i64 (t.tvSec + intPart)
  let nsec ← i64 (t.tvNsec +
    F64Math.toI64 (F64.mul (F64.lit 1000000000) (F64.sub increment (F64.ofInt intPart))))
  normaliseChecked ⟨sec, nsec⟩

variable {t t' : Timespec}

/-- Only the seconds that are left can be out of range. -/
theorem normaliseChecked_eq (h : InI64 t.tvSec) :
    t.normaliseChecked = if InI64 t.normalise.tvSec then .ok t.normalise else .error .overflow := by
  have hdiv := Int.mul_tdiv_add_tmod t.tvNsec nsecPerSec
  have hlt := Int.tmod_lt_of_pos t.tvNsec (show 0 < nsecPerSec by decide)
  have hgt := Int.lt_tmod_of_pos t.tvNsec (show 0 < nsecPerSec by decide)
  have hsign : 0 ≤ t.tvNsec → 0 ≤ t.tvNsec.tmod nsecPerSec := fun h => Int.tmod_nonneg _ h
  unfold normaliseChecked normalise
  generalize t.tvNsec.tdiv nsecPerSec = q at *
  generalize t.tvNsec.tmod nsecPerSec = m at *
  rw [show nsecPerSec = 1000000000 from rfl] at *
  dsimp only
  split
  · by_cases hm : m < 0
    · simp only [if_pos hm]
      by_cases hq : InI64 (t.tvSec + q)
      · rw [i64, if_pos hq, ok_bind, i64]
        split <;> rfl
      · rw [i64, if_neg hq, if_neg (by omega)]
        rfl
    · simp only [if_neg hm]
      rw [i64]
      split <;> rfl
  · rfl

theorem normaliseChecked_ok (h : t.normaliseChecked = .ok t') : t' = t.normalise := by
  rw [normaliseChecked] at h
  rw [normalise]
  split at h
  · rw [if_pos ‹_›]
    obtain ⟨sec, hsec, h⟩ := bind_eq_ok.1 h
    cases i64_eq_ok hsec
    dsimp only at h ⊢
    split at h
    · rw [if_pos ‹_›]
      obtain ⟨sec, hsec, h⟩ := bind_eq_ok.1 h
      cases i64_eq_ok hsec
      cases h
      rfl
    · rw [if_neg ‹_›]
      cases h
      rfl
  · rw [if_neg ‹_›]
    cases h
    rfl

theorem diffChecked_ok {r : Timespec} (h : t.diffChecked r = .ok t') : t' = t.diff r := by
  obtain ⟨sec, hsec, h⟩ := bind_eq_ok.1 h
  obtain ⟨nsec, hnsec, h⟩ := bind_eq_ok.1 h
  cases i64_eq_ok hsec
  cases i64_eq_ok hnsec
  exact normaliseChecked_ok h

end Timespec

end ChronyRs.L4.Server

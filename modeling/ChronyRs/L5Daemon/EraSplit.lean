import ChronyRs.L4Server.Transmit
import ChronyRs.L5Daemon.Manager

/-!
# Timestamps around the era split (`util.rs`)

A timestamp has the seconds modulo `2 ^ 32`, counted from 1900; `ntp64_to_timespec` puts them into
the `2 ^ 32` seconds from the era split on. The timestamp zero stands for an unknown time in both
directions.

* `ntp64_round_trip`: within these seconds none is lost, in either direction, wherever the split is.
-/
namespace ChronyRs.L5

open L4

/-- With the check of the sum. mirrors util.rs:484-496 -/
def ntp64ToTimespec (F : Type) [F64Math F] (ts : UInt32 × UInt32) (eraSplit : Int) :
    Rust Server.Timespec := do
  let tv := Transmit.utilTimespec F ts.1 ts.2 eraSplit
  return { tv with tvSec := ← i64 tv.tvSec }

section
variable {F : Type} [F64Math F] {eraSplit sec nsec : Int} {ts : UInt32 × UInt32}

/-- The seconds are those of the window that agree with the timestamp. -/
theorem ntp64ToTimespec_of_ne (hts : ts ≠ (0, 0)) (h1 : -2 ^ 62 < eraSplit)
    (h2 : eraSplit < 2 ^ 62) :
    ∃ tv, ntp64ToTimespec F ts eraSplit = .ok tv ∧ eraSplit ≤ tv.tvSec ∧
      tv.tvSec < eraSplit + 2 ^ 32 ∧ (tv.tvSec + 0x83aa7e80) % 2 ^ 32 = ts.1.toNat := by
  have hne : ¬ (ts.1 = 0 ∧ ts.2 = 0) := fun h => hts (Prod.ext h.1 h.2)
  have hlt := ts.1.toNat_lt
  generalize hpos : ts.1 - UInt32.ofNat ((eraSplit + 0x83aa7e80) % 2 ^ 32).toNat = pos
  have hpos' := congrArg UInt32.toNat hpos
  rw [UInt32.toNat_sub, UInt32.toNat_ofNat'] at hpos'
  have hi : i64 (pos.toNat + eraSplit) = .ok (pos.toNat + eraSplit) := if_pos (by omega)
  simp only [ntp64ToTimespec, Transmit.utilTimespec, if_neg hne, hpos, hi, ok_bind]
  refine ⟨_, rfl, ?_, ?_, ?_⟩ <;> dsimp only <;> omega

theorem timespecToNtp64_seconds (hts : timespecToNtp64 F sec nsec none ≠ (0, 0) ∨
    sec % 2 ^ 32 ≠ 0) :
    ((timespecToNtp64 F sec nsec none).1.toNat : Int) = (sec + 0x83aa7e80) % 2 ^ 32 := by
  have hzero : ¬ (UInt32.ofNat (nsec % 2 ^ 32).toNat = 0 ∧
      UInt32.ofNat (sec % 2 ^ 32).toNat = 0) := by
    intro h
    rcases hts with hts | hts
    · exact hts (if_pos h)
    · have hsec := congrArg UInt32.toNat h.2
      rw [UInt32.toNat_ofNat'] at hsec
      have : (0 : UInt32).toNat = 0 := rfl
      omega
  simp only [timespecToNtp64, if_neg hzero]
  rw [UInt32.toNat_add, UInt32.toNat_ofNat']
  have : (0x83aa7e80 : UInt32).toNat = 0x83aa7e80 := rfl
  omega

end

/-- **No second is lost.** The floating-point arithmetic of the fractions is arbitrary. -/
theorem ntp64_round_trip (F : Type) [F64Math F] (eraSplit : Int) (h1 : -2 ^ 62 < eraSplit)
    (h2 : eraSplit < 2 ^ 62) :
    (∀ sec nsec, eraSplit ≤ sec → sec < eraSplit + 2 ^ 32 → 0 ≤ nsec → nsec < Server.nsecPerSec →
      timespecToNtp64 F sec nsec none ≠ (0, 0) →
      ∃ nsec', ntp64ToTimespec F (timespecToNtp64 F sec nsec none) eraSplit = .ok ⟨sec, nsec'⟩) ∧
    ∀ ts : UInt32 × UInt32, ts.1 ≠ 0 → ts.1 ≠ 2208988800 →
      ∃ tv, ntp64ToTimespec F ts eraSplit = .ok tv ∧
      (timespecToNtp64 F tv.tvSec tv.tvNsec none).1 = ts.1 := by
  refine ⟨fun sec nsec hlo hhi _ _ hne => ?_, fun ts h0 hj => ?_⟩
  · obtain ⟨tv, htv, hge, hlt, hsec⟩ := ntp64ToTimespec_of_ne (F := F) hne h1 h2
    rw [timespecToNtp64_seconds (.inl hne)] at hsec
    have : tv.tvSec = sec := by omega
    exact ⟨tv.tvNsec, by rw [htv, ← this]⟩
  · obtain ⟨tv, htv, -, -, hsec⟩ := ntp64ToTimespec_of_ne (F := F)
      (fun h => h0 (congrArg Prod.fst h)) h1 h2
    have hj' : ts.1.toNat ≠ 2208988800 := fun h => hj (UInt32.toNat_inj.1 h)
    have hback : ((timespecToNtp64 F tv.tvSec tv.tvNsec none).1.toNat : Int) =
        (tv.tvSec + 0x83aa7e80) % 2 ^ 32 :=
      timespecToNtp64_seconds (.inr (by omega))
    refine ⟨tv, htv, UInt32.toNat_inj.1 ?_⟩
    omega

/-- A time of 2040, in the second era of timestamps, and a timestamp of the first. -/
theorem ntp64_round_trip_2040 :
    (∃ nsec', ntp64ToTimespec ℚ (timespecToNtp64 ℚ 2208988801 5 none) 0 = .ok ⟨2208988801, nsec'⟩) ∧
    ∃ tv, ntp64ToTimespec ℚ (0xe0000000, 7) 0 = .ok tv ∧
      (timespecToNtp64 ℚ tv.tvSec tv.tvNsec none).1 = 0xe0000000 :=
  have hround := ntp64_round_trip ℚ 0 (by decide) (by decide)
  ⟨hround.1 2208988801 5 (by decide) (by decide) (by decide) (by decide) (by decide +kernel),
    hround.2 (0xe0000000, 7) (by decide) (by decide)⟩

end ChronyRs.L5

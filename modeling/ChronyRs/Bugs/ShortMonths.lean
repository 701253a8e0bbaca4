import ChronyRs.L5Daemon.LeapInstant

/-!
# The leap second is scheduled half a year late on three days of a year

The daemon picks the end of June when `mon <= 6 && day_of_month < 30`, with days counted from zero.
On the 31st of January, March and May the second test fails, and the end of December is picked.

* `leapInstant_iff`: exactly when the instant is the right one.
* `end_of_january`: on 31 January 1970 it is the end of December.

Fix: `mon < 6 || mon == 6 && day_of_month < 30`, or `mon <= 6` alone.
-/
namespace ChronyRs.Bugs.ShortMonths

open L5.LeapInstant

/-- A 31st in the first half of a year. -/
def Skipped (d : Date) : Prop := d.month < 6 ∧ d.day = 31

/-- **When the instant is right.** For every time there is a first day from the current one on that
ends a half-year, and the instant is its last second iff today is not the 31st of January, March or
May, and the second is in the range of an `i64`. -/
theorem leapInstant_iff (nowSecs : Nat) : ∃ t,
    IsLeast {t | nowSecs / 86400 ≤ t ∧ HalfYearEnd (date t)} t ∧
    (leapInstant nowSecs = .ok ((t * 86400 + 86399 : Nat) : Int) ↔
      ¬ Skipped (date (nowSecs / 86400)) ∧ t * 86400 + 86399 < 2 ^ 63) := by
  obtain ⟨n, k, hloop, hk, htoday⟩ := date_eq (nowSecs / 86400)
  have hleast := next_end hk
  rw [← htoday] at hleast
  refine ⟨_, hleast, ?_⟩
  obtain ⟨hm12, hd31, hd6, hjune, -⟩ := dayOfYear_table (isLeap (1970 + n)) k hk
  obtain ⟨hrd6, hrd12⟩ := rd_eq n
  rw [htoday, date_of_year (date_start n) k hk, leapInstant, hloop, Skipped]
  rw [dayOfYear] at hm12 hd31 hd6 hjune ⊢
  dsimp only
  generalize monthLoop (daysInMonths (isLeap (1970 + n))) 0 k = p at *
  generalize leapDays (isLeap (1970 + n)) = l at *
  obtain ⟨m, d⟩ := p
  dsimp only at *
  by_cases hm : m ≤ 6
  · rw [if_pos (hjune.1 hm)]
    by_cases hd : d < 30
    · rw [if_pos ⟨hm, hd⟩, hrd6, endOfDay_eq]
      split <;> simp <;> omega
    · -- the 31st
      rw [if_neg fun h => hd h.2, if_pos ⟨hm12, hd31⟩, hrd12, endOfDay_eq]
      split <;> simp <;> omega
  · rw [if_neg fun h => hm (hjune.2 h), if_neg fun h => hm h.1, if_pos ⟨hm12, hd31⟩,
      hrd12, endOfDay_eq]
    split <;> simp <;> omega

/-- **On 31 January 1970** the end of December is scheduled. -/
theorem end_of_january : date 30 = ⟨1970, 1, 31⟩ ∧ HalfYearEnd (date 180) ∧
    leapInstant (30 * 86400) = .ok ((364 * 86400 + 86399 : Nat) : Int) := by
  refine ⟨by decide, .inl (by decide +kernel), ?_⟩
  rw [leapInstant, yearLoop, if_pos (by decide)]
  rfl

end ChronyRs.Bugs.ShortMonths

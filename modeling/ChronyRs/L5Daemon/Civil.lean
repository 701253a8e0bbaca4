import ChronyRs.Core.Gregorian
import ChronyRs.Core.Rust

/-!
# Dates of the log (`util.rs`, `reference.rs`)

Both files compute the date of a Unix time with the same arithmetic. It counts years from 1 March in
eras of 400 years, so that the leap day is the last of its year and all eras have the same length.

* `yearOfEra_spec`: the year of a day of an era.
* `monthDay_table`: the month and the day of a day of a year.
* `civil_date`: both copies give the one date of the day, and the second one the time of the day.
-/
namespace ChronyRs.L5

open ChronyRs.Gregorian

/-- mirrors util.rs:712-719 and reference.rs:1513-1521 -/
def dateInEra (era doe : Int) : Int × Int × Int :=
  let yoe := (doe - doe.tdiv 1460 + doe.tdiv 36524 - doe.tdiv 146096).tdiv 365
  let y := yoe + era * 400
  let doy := doe - (365 * yoe + yoe.tdiv 4 - yoe.tdiv 100)
  let mp := (5 * doy + 2).tdiv 153
  let d := doy - (153 * mp + 2).tdiv 5 + 1
  let m := if mp < 10 then mp + 3 else mp - 9
  (if m ≤ 2 then y + 1 else y, m, d)

/-- What the two copies have in common. If the first numbers fit into an `i64`, so do all others.
mirrors util.rs:709-720 and reference.rs:1510-1522 -/
def civil (days : Int) : Rust (Int × Int × Int) := do
  let z ← i64 (days + 719468)
  let era := (← i64 (if 0 ≤ z then z else z - 146096)).tdiv 146097
  return dateInEra era (z - era * 146097)

/-- `x as u32`. -/
def asU32 (x : Int) : UInt32 := UInt32.ofNat (x % 2 ^ 32).toNat

/-- mirrors util.rs:709-720 -/
def civilFromDays (days : Int) : Rust (Int × UInt32 × UInt32) := do
  let (year, m, d) ← civil days
  return (year, asU32 m, asU32 d)

/-- The date and the hour, minute and second. mirrors reference.rs:1504-1523 -/
def civilFromUnix (t : Int) : Rust ((Int × Int × Int) × Int × Int × Int) := do
  let secs := t % 86400
  return (← civil (t / 86400), secs.tdiv 3600, (secs.tmod 3600).tdiv 60, secs.tmod 60)

/-! ## The year -/

/-- The days of an era without its leap days, almost. -/
def evenDays (doe : Nat) : Nat := doe - doe / 1460 + doe / 36524 - doe / 146096

/-- The first day of a year of an era. -/
def yearDay (yoe : Nat) : Nat := 365 * yoe + yoe / 4 - yoe / 100

theorem evenDays_mono {a b : Nat} (h : a ≤ b) (hb : b < 146097) : evenDays a ≤ evenDays b := by
  simp only [evenDays]
  omega

/-- The first day of a year is in it, and the day before is not. -/
theorem evenDays_table : ∀ yoe < 400, 365 * yoe ≤ evenDays (yearDay yoe) ∧
    (0 < yoe → evenDays (yearDay yoe - 1) < 365 * yoe) := by
  decide +kernel

/-- The days of a year of an era are those between its first and the next year's; the last year has
a day more. -/
theorem yearOfEra_spec {doe yoe : Nat} (h : doe < 146097) (hyoe : evenDays doe / 365 = yoe) :
    yoe < 400 ∧ yearDay yoe ≤ doe ∧ doe < yearDay (yoe + 1) + (yoe + 1) / 400 := by
  have hlast : evenDays doe ≤ 145999 := evenDays_mono (Nat.le_of_lt_succ h) (by decide)
  have h400 : yoe < 400 := by omega
  refine ⟨h400, ?_, ?_⟩
  · by_contra hlt
    have hpos : 0 < yoe := by
      rcases Nat.eq_zero_or_pos yoe with rfl | hpos
      · exact absurd (Nat.zero_le _) hlt
      · exact hpos
    have :=
      evenDays_mono (a := doe) (b := yearDay yoe - 1) (by omega) (by simp only [yearDay]; omega)
    have := (evenDays_table yoe h400).2 hpos
    omega
  · by_contra hge
    by_cases h399 : yoe = 399
    · subst h399
      exact hge h
    have := evenDays_mono (a := yearDay (yoe + 1)) (b := doe) (by omega) h
    have := (evenDays_table (yoe + 1) (by omega)).1
    omega

/-! ## The month and the day -/

def monthOf (doy : Nat) : Nat :=
  if (5 * doy + 2) / 153 < 10 then (5 * doy + 2) / 153 + 3 else (5 * doy + 2) / 153 - 9

def dayOf (doy : Nat) : Nat := doy - (153 * ((5 * doy + 2) / 153) + 2) / 5 + 1

/-- January and February are of the year that begins in them; its leap day ends the year counted
from March. -/
theorem monthDay_table : ∀ leap, ∀ doy < 365 + leapDays leap, 1 ≤ monthOf doy ∧ monthOf doy ≤ 12 ∧
    (monthOf doy ≤ 2 → dayOf doy ≤ (monthLengths leap).getD (monthOf doy - 1) 0 ∧
      monthStart leap (monthOf doy) + dayOf doy + 305 = doy) ∧
    (2 < monthOf doy → ∀ leap', dayOf doy ≤ (monthLengths leap').getD (monthOf doy - 1) 0 ∧
      monthStart leap' (monthOf doy) + dayOf doy = doy + 60 + leapDays leap') := by
  decide +kernel

/-! ## The date -/

/-- The first of March of a year is 306 days before the next year. -/
theorem yearStart_era {yoe : Nat} (h : yoe < 400) (era : Int) :
    yearStart (yoe + era * 400 + 1) = era * 146097 + yearDay yoe + 306 - 719468 := by
  simp only [yearStart, yearDay]
  omega

theorem yearDay_succ {yoe : Nat} (h : yoe < 400) (era : Int) :
    yearDay (yoe + 1) + (yoe + 1) / 400 = yearDay yoe +
      (365 + leapDays (isLeap (yoe + era * 400 + 1))) := by
  simp only [yearDay, leapDays, isLeap, Bool.and_eq_true, Bool.or_eq_true, decide_eq_true_eq]
  split <;> omega

/-- In terms of natural numbers. -/
theorem dateInEra_eq {doe yoe doy : Nat} (hyoe : evenDays doe / 365 = yoe)
    (hdoe : doe = yearDay yoe + doy) (era : Int) : dateInEra era doe =
      (if monthOf doy ≤ 2 then yoe + era * 400 + 1 else yoe + era * 400, (monthOf doy : Int),
        (dayOf doy : Int)) := by
  have hdiv : ∀ (a : Nat) (b : Int), (a : Int).tdiv b = a / b := fun a _ =>
    Int.tdiv_eq_ediv_of_nonneg (Int.natCast_nonneg a)
  have heven : (doe - (doe : Int).tdiv 1460 + (doe : Int).tdiv 36524 - (doe : Int).tdiv 146096).tdiv
      365 = yoe := by
    have hnat : doe - (doe : Int).tdiv 1460 + (doe : Int).tdiv 36524 - (doe : Int).tdiv 146096 =
        evenDays doe := by
      simp only [hdiv, evenDays]
      omega
    rw [hnat, hdiv]
    omega
  have hdoy : doe - (365 * (yoe : Int) + (yoe : Int).tdiv 4 - (yoe : Int).tdiv 100) = doy := by
    simp only [hdiv, hdoe, yearDay]
    omega
  have hmp : (5 * (doy : Int) + 2).tdiv 153 = ((5 * doy + 2) / 153 : Nat) := hdiv (5 * doy + 2) 153
  have hday : (153 * (((5 * doy + 2) / 153 : Nat) : Int) + 2).tdiv 5 =
      ((153 * ((5 * doy + 2) / 153) + 2) / 5 : Nat) :=
    hdiv (153 * ((5 * doy + 2) / 153) + 2) 5
  simp only [dateInEra, heven, hdoy, hmp, hday, monthOf, dayOf, Prod.mk.injEq]
  refine ⟨?_, ?_, by omega⟩ <;> split_ifs <;> omega

theorem dateInEra_spec {doe : Nat} (h : doe < 146097) (era : Int) :
    ∃ date : Date, dateInEra era doe = (date.year, (date.month : Int), (date.day : Int)) ∧
      date.number = era * 146097 + doe - 719468 := by
  generalize hyoe : evenDays doe / 365 = yoe
  obtain ⟨h400, hge, hlt⟩ := yearOfEra_spec h hyoe
  obtain ⟨doy, rfl⟩ := Nat.exists_eq_add_of_le hge
  have hstart := yearStart_era h400 era
  rw [yearDay_succ h400 era] at hlt
  obtain ⟨h1, h12, hearly, hlate⟩ := monthDay_table (isLeap (yoe + era * 400 + 1)) doy (by omega)
  rw [dateInEra_eq hyoe rfl]
  by_cases hm : monthOf doy ≤ 2
  · obtain ⟨hday, hsum⟩ := hearly hm
    refine ⟨⟨yoe + era * 400 + 1, monthOf doy, dayOf doy, h1, h12, Nat.le_add_left _ _,
      hday⟩, by rw [if_pos hm], ?_⟩
    simp only [Date.number]
    omega
  · obtain ⟨hday, hsum⟩ := hlate (Nat.not_le.1 hm) (isLeap (yoe + era * 400))
    refine ⟨⟨yoe + era * 400, monthOf doy, dayOf doy, h1, h12, Nat.le_add_left _ _,
      hday⟩, by rw [if_neg hm], ?_⟩
    have hnext := yearStart_succ (yoe + era * 400)
    simp only [Date.number]
    omega

/-- The division that truncates is made to round down. -/
theorem era_eq (z : Int) : (if 0 ≤ z then z else z - 146096).tdiv 146097 = z / 146097 := by
  rw [Int.tdiv_eq_ediv]
  have hsign : Int.sign 146097 = 1 := rfl
  split_ifs <;> omega

theorem civil_spec (days : Int) (h1 : -2 ^ 62 ≤ days) (h2 : days < 2 ^ 62) :
    ∃ date : Date, civil days = .ok (date.year, (date.month : Int), (date.day : Int)) ∧
      date.number = days := by
  have hz : i64 (days + 719468) = .ok (days + 719468) := if_pos (by omega)
  generalize hzero : days + 719468 = z at hz
  have hera : i64 (if 0 ≤ z then z else z - 146096) = .ok (if 0 ≤ z then z else z - 146096) :=
    if_pos (by split <;> omega)
  obtain ⟨doe, hdoe⟩ := Int.eq_ofNat_of_zero_le (Int.emod_nonneg z (by decide : (146097 : Int) ≠ 0))
  have hrest : z - z / 146097 * 146097 = doe := by omega
  obtain ⟨date, hdate, hnumber⟩ := dateInEra_spec (by omega : doe < 146097) (z / 146097)
  refine ⟨date, ?_, by omega⟩
  rw [civil, hzero, hz, ok_bind, hera, ok_bind, era_eq]
  dsimp only
  rw [hrest, hdate, pure_eq]

theorem asU32_natCast {n : Nat} (h : n < 2 ^ 32) : (asU32 n).toNat = n := by
  rw [asU32, UInt32.toNat_ofNat']
  omega

/-- **The date of every Unix time.** -/
theorem civil_date (t : Int) (h1 : -2 ^ 63 ≤ t) (h2 : t < 2 ^ 63) : ∃ date : Date,
    date.number = t / 86400 ∧ (∀ date' : Date, date'.number = t / 86400 → date' = date) ∧
    (∃ month day, civilFromDays (t / 86400) = .ok (date.year, month, day) ∧
      month.toNat = date.month ∧ day.toNat = date.day) ∧
    ∃ hour minute second,
      civilFromUnix t = .ok ((date.year, (date.month : Int), (date.day : Int)), hour,
        minute, second) ∧
      0 ≤ hour ∧ hour < 24 ∧ 0 ≤ minute ∧ minute < 60 ∧ 0 ≤ second ∧ second < 60 ∧
      t = 86400 * date.number + 3600 * hour + 60 * minute + second := by
  obtain ⟨date, hdate, hnumber⟩ := civil_spec (t / 86400) (by omega) (by omega)
  have hmonth := date.month_le
  have hday := date.day_le_31
  refine ⟨date, hnumber, fun date' h => Date.number_inj (h.trans hnumber.symm),
    ⟨asU32 date.month, asU32 date.day, ?_, asU32_natCast (by omega), asU32_natCast (by omega)⟩, ?_⟩
  · rw [civilFromDays, hdate]
    rfl
  · have hsecs := Int.emod_nonneg t (by decide : (86400 : Int) ≠ 0)
    have hlt := Int.emod_lt_of_pos t (by decide : (0 : Int) < 86400)
    refine ⟨_, _, _, by rw [civilFromUnix, hdate]; rfl, ?_⟩
    rw [hnumber, Int.tdiv_eq_ediv_of_nonneg hsecs, Int.tmod_eq_emod_of_nonneg hsecs,
      Int.tmod_eq_emod_of_nonneg hsecs, Int.tdiv_eq_ediv_of_nonneg (Int.emod_nonneg _ (by decide))]
    refine ⟨?_, ?_, ?_, ?_, ?_, ?_, ?_⟩ <;> omega

/-- The second before 1970. -/
theorem civil_date_1969 : ∃ date : Date, date.number = -1 ∧
    (∀ date' : Date, date'.number = -1 → date' = date) ∧
    ∃ month day, civilFromDays (-1) = .ok (date.year, month, day) ∧ month.toNat = date.month ∧
      day.toNat = date.day :=
  (civil_date (-1) (by decide) (by decide)).imp fun _ h => ⟨h.1, h.2.1, h.2.2.1⟩

example : civilFromUnix (-1) = .ok ((1969, 12, 31), 23, 59, 59) := by decide

end ChronyRs.L5

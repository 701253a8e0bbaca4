import Mathlib.Tactic.Common

/-!
# The proleptic Gregorian calendar

The calendar, extended to all years: dates, and their numbers counted from 1 January 1970.

* `yearStart_succ`: a year has 365 days, or 366 if it is a leap year; 1970 starts at zero.
* `Date.number_inj`: a day has one date.
-/
namespace ChronyRs.Gregorian

def isLeap (y : Int) : Bool := y % 4 = 0 && (y % 100 ≠ 0 || y % 400 = 0)

def leapDays (leap : Bool) : Nat := if leap then 1 else 0

def monthLengths (leap : Bool) : List Nat :=
  [31, 28 + leapDays leap, 31, 30, 31, 30, 31, 31, 30, 31, 30, 31]

/-- The days of the year before a month. -/
def monthStart (leap : Bool) (month : Nat) : Nat :=
  ((monthLengths leap).take (month - 1)).foldl (· + ·) 0

@[ext] structure Date where
  year : Int
  month : Nat
  day : Nat
  month_pos : 1 ≤ month
  month_le : month ≤ 12
  day_pos : 1 ≤ day
  day_le : day ≤ (monthLengths (isLeap year)).getD (month - 1) 0

/-- 477 years before 1970 are leap years. -/
def yearStart (y : Int) : Int :=
  365 * (y - 1970) + (y - 1) / 4 - (y - 1) / 100 + (y - 1) / 400 - 477

def Date.number (date : Date) : Int :=
  yearStart date.year + monthStart (isLeap date.year) date.month + (date.day - 1)

example : yearStart 1970 = 0 := rfl

theorem yearStart_succ (y : Int) : yearStart (y + 1) = yearStart y + 365 + leapDays (isLeap y) := by
  simp only [yearStart, leapDays, isLeap, Bool.and_eq_true, Bool.or_eq_true, decide_eq_true_eq]
  split <;> omega

theorem yearStart_mono {y y' : Int} (h : y ≤ y') : yearStart y ≤ yearStart y' := by
  simp only [yearStart]
  omega

theorem month_after : ∀ leap, ∀ m < 13, ∀ m' < 13, 0 < m → m < m' →
    monthStart leap m + (monthLengths leap).getD (m - 1) 0 ≤ monthStart leap m' := by
  decide

/-- The last month ends with the year. -/
theorem month_in_year : ∀ leap, ∀ m < 13, 0 < m →
    monthStart leap m + (monthLengths leap).getD (m - 1) 0 ≤ 365 + leapDays leap := by
  decide

theorem Date.day_le_31 (date : Date) : date.day ≤ 31 := by
  have hlengths : ∀ leap, ∀ m < 13, (monthLengths leap).getD (m - 1) 0 ≤ 31 := by decide
  exact Nat.le_trans date.day_le (hlengths _ _ (Nat.lt_succ_of_le date.month_le))

theorem Date.number_range (date : Date) :
    yearStart date.year ≤ date.number ∧ date.number < yearStart (date.year + 1) := by
  have hin :=
    month_in_year (isLeap date.year) date.month (by have := date.month_le; omega) date.month_pos
  have h1 := date.day_pos
  have h2 := date.day_le
  rw [yearStart_succ, Date.number]
  omega

theorem Date.year_le {a b : Date} (h : a.number ≤ b.number) : a.year ≤ b.year := by
  by_contra hlt
  have hyears := yearStart_mono (Int.not_le.1 hlt)
  have ha := a.number_range
  have hb := b.number_range
  omega

theorem Date.le_month {a b : Date} (hyear : a.year = b.year) (h : a.number ≤ b.number) :
    a.month ≤ b.month := by
  by_contra hlt
  have hmonths := month_after (isLeap b.year) b.month (by have := b.month_le; omega) a.month
    (by have := a.month_le; omega) b.month_pos (Nat.not_le.1 hlt)
  have ha := a.day_pos
  have hb := b.day_le
  rw [Date.number, Date.number, hyear] at h
  omega

theorem Date.number_inj {a b : Date} (h : a.number = b.number) : a = b := by
  have hyear := Int.le_antisymm (Date.year_le (Int.le_of_eq h)) (Date.year_le (Int.le_of_eq h.symm))
  have hmonth := Nat.le_antisymm (Date.le_month hyear (Int.le_of_eq h))
    (Date.le_month hyear.symm (Int.le_of_eq h.symm))
  rw [Date.number, Date.number, hyear, hmonth] at h
  exact Date.ext hyear hmonth (by omega)

end ChronyRs.Gregorian

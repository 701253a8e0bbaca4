import ChronyRs.Core.Gregorian
import ChronyRs.Core.Rust
import Mathlib.Order.Bounds.Basic

/-!
# The next leap second (`main.rs`)

At its start the daemon computes the next instant at which a leap second may be inserted, the end of
June or of December.

* `date_eq`: the loops over years and months find the date.
* `rd_eq`: the numbers of the two days, in closed form.
* `next_end`: the first day from a given one on that ends a half-year.
-/
namespace ChronyRs.L5.LeapInstant

/-! ## The computation -/

/-- The Gregorian rule. -/
def isLeap (y : Nat) : Bool := y % 4 = 0 && (y % 100 ≠ 0 || y % 400 = 0)

def leapDays (leap : Bool) : Nat := if leap then 1 else 0

/-- mirrors chronyd-rs/main.rs:1616-1623 -/
def yearDays (y : Nat) : Nat := 365 + leapDays (isLeap y)

/-- The loop over the years: the year, and the days of it that have passed.
mirrors chronyd-rs/main.rs:1624-1633 -/
def yearLoop (y remaining : Nat) : Nat × Nat :=
  if remaining < yearDays y then (y, remaining) else yearLoop (y + 1) (remaining - yearDays y)
termination_by remaining
decreasing_by simp only [yearDays] at *; omega

def daysInMonths (leap : Bool) : List Nat :=
  [31, if leap then 29 else 28, 31, 30, 31, 30, 31, 31, 30, 31, 30, 31]

/-- The loop over the months, from the month behind the `i`-th on: the month, and the days of it
that have passed. -/
def monthLoop : List Nat → Nat → Nat → Nat × Nat
  | [], _, dayOfMonth => (0, dayOfMonth)
  | dm :: dms, i, dayOfMonth =>
    if dayOfMonth < dm then (i + 1, dayOfMonth) else monthLoop dms (i + 1) (dayOfMonth - dm)

/-- The number of the day. -/
def rd (y m d : Int) : Int :=
  let ya := if m ≤ 2 then y - 1 else y
  let mAdj := if m ≤ 2 then m + 12 else m
  let era := (if 0 ≤ ya then ya else ya - 399).tdiv 400
  let yoe := ya - era * 400
  let doy := (153 * (mAdj - 3) + 2).tdiv 5 + d - 1
  let doe := yoe * 365 + yoe.tdiv 4 - yoe.tdiv 100 + doy
  era * 146097 + doe - 719468

/-- The numbers before the multiplication are far from the bounds of an `i64`.
mirrors chronyd-rs/main.rs:1610-1673 -/
def leapInstant (nowSecs : Nat) : Rust Int := do
  let (y, remaining) := yearLoop 1970 (nowSecs / 86400)
  let (mon, dayOfMonth) := monthLoop (daysInMonths (isLeap y)) 0 remaining
  let (ty, tm, td) : Int × Int × Int :=
    if mon ≤ 6 ∧ dayOfMonth < 30 then (y, 6, 30)
    else if mon ≤ 12 ∧ dayOfMonth < 31 then (y, 12, 31)
    else (y + 1, 6, 30)
  let seconds ← i64 (rd ty tm td * 86400)
  i64 ((← i64 (seconds + 24 * 3600)) - 1)

/-! ## The calendar -/

structure Date where
  year : Nat
  month : Nat
  day : Nat
  deriving DecidableEq

def Date.next (d : Date) : Date :=
  if d.day < (daysInMonths (isLeap d.year)).getD (d.month - 1) 0 then { d with day := d.day + 1 }
  else if d.month < 12 then ⟨d.year, d.month + 1, 1⟩
  else ⟨d.year + 1, 1, 1⟩

def date : Nat → Date
  | 0 => ⟨1970, 1, 1⟩
  | n + 1 => (date n).next

/-- The days after which a leap second may be inserted. -/
def HalfYearEnd (d : Date) : Prop := (d.month = 6 ∧ d.day = 30) ∨ (d.month = 12 ∧ d.day = 31)

/-- The day of the `k`-th day of a year. -/
def dayOfYear (leap : Bool) (k : Nat) : Nat × Nat := monthLoop (daysInMonths leap) 0 k

/-- Everything about the days of a year that is used. -/
theorem dayOfYear_table : ∀ leap, ∀ k < 365 + leapDays leap,
    (dayOfYear leap k).1 ≤ 12 ∧ (dayOfYear leap k).2 < 31 ∧
      ((dayOfYear leap k).1 = 6 → (dayOfYear leap k).2 < 30) ∧
      ((dayOfYear leap k).1 ≤ 6 ↔ k ≤ 180 + leapDays leap) ∧
      ((dayOfYear leap k).1 = 6 ∧ (dayOfYear leap k).2 = 29 ↔ k = 180 + leapDays leap) ∧
      ((dayOfYear leap k).1 = 12 ∧ (dayOfYear leap k).2 = 30 ↔ k = 364 + leapDays leap) := by
  decide +kernel

theorem dayOfYear_succ : ∀ leap, ∀ k < 364 + leapDays leap,
    if (dayOfYear leap k).2 + 1 < (daysInMonths leap).getD ((dayOfYear leap k).1 - 1) 0 then
      dayOfYear leap (k + 1) = ((dayOfYear leap k).1, (dayOfYear leap k).2 + 1)
    else (dayOfYear leap k).1 < 12 ∧ dayOfYear leap (k + 1) = ((dayOfYear leap k).1 + 1, 0) := by
  decide +kernel

/-- The days before the `n`-th year since 1970. -/
def start : Nat → Nat
  | 0 => 0
  | n + 1 => start n + yearDays (1970 + n)

/-- Within a year, by induction on the day. -/
theorem date_of_year {n : Nat} (h : date (start n) = ⟨1970 + n, 1, 1⟩) (k : Nat)
    (hk : k < yearDays (1970 + n)) : date (start n + k) =
      ⟨1970 + n, (dayOfYear (isLeap (1970 + n)) k).1, (dayOfYear (isLeap (1970 + n)) k).2 + 1⟩ := by
  induction k with
  | zero => rw [Nat.add_zero, h]; cases isLeap (1970 + n) <;> rfl
  | succ k ih =>
    have hnext := dayOfYear_succ (isLeap (1970 + n)) k (by rw [yearDays] at hk; omega)
    rw [← Nat.add_assoc, date, ih (Nat.lt_of_succ_lt hk), Date.next]
    split at hnext
    · next hin => rw [if_pos hin, hnext]
    · next hout => rw [if_neg hout, if_pos hnext.1, hnext.2]

theorem date_start (n : Nat) : date (start n) = ⟨1970 + n, 1, 1⟩ := by
  induction n with
  | zero => rfl
  | succ n ih =>
    -- the last day of the year is 31 December
    have hlast := date_of_year ih (364 + leapDays (isLeap (1970 + n))) (by rw [yearDays]; omega)
    have hdec : ∀ leap, dayOfYear leap (364 + leapDays leap) = (12, 30) := by decide
    rw [hdec] at hlast
    have hdays : start (n + 1) = start n + (364 + leapDays (isLeap (1970 + n))) +
        1 := by rw [start, yearDays]; omega
    rw [hdays, date, hlast, Date.next]
    simp [daysInMonths, Nat.add_assoc]

/-- **The loops find the date.** -/
theorem date_eq (today : Nat) : ∃ n k, yearLoop 1970 today = (1970 + n, k) ∧
    k < yearDays (1970 + n) ∧ today = start n + k := by
  suffices hloop : ∀ r n, today = start n + r → ∃ n' k, yearLoop (1970 + n) r = (1970 + n', k) ∧
      k < yearDays (1970 + n') ∧ today = start n' + k from hloop today 0 (Nat.zero_add today).symm
  intro r
  induction r using Nat.strong_induction_on with
  | _ r ih =>
    intro n hr
    rw [yearLoop]
    split
    · next hlt => exact ⟨n, r, rfl, hlt, hr⟩
    · next hge =>
      have hpos : 0 < yearDays (1970 + n) := by rw [yearDays]; omega
      exact ih (r - yearDays (1970 + n)) (by omega) (n + 1) (by rw [start]; omega)

theorem isLeap_eq (y : Nat) : isLeap y = Gregorian.isLeap y := by
  rw [isLeap, Gregorian.isLeap, Bool.eq_iff_iff]
  simp only [Bool.and_eq_true, Bool.or_eq_true, decide_eq_true_eq]
  omega

/-- The days before a year, in the closed form that `rd` uses. -/
theorem start_eq (n : Nat) : (start n : Int) = Gregorian.yearStart (1970 + n) := by
  induction n with
  | zero => rfl
  | succ n ih =>
    have hleap : leapDays (isLeap (1970 + n)) = Gregorian.leapDays (Gregorian.isLeap (1970 + n)) :=
      congrArg leapDays (isLeap_eq (1970 + n))
    have hsucc := Gregorian.yearStart_succ (1970 + n)
    rw [show ((n + 1 : Nat) : Int) = n + 1 from rfl, ← Int.add_assoc, hsucc, start, yearDays, hleap]
    omega

theorem rd_eq (n : Nat) : rd (1970 + n : Nat) 6 30 =
    (start n + (180 + leapDays (isLeap (1970 + n))) : Nat) ∧
    rd (1970 + n : Nat) 12 31 = (start n + (364 + leapDays (isLeap (1970 + n))) : Nat) := by
  have hnext := start_eq (n + 1)
  rw [start, yearDays, Gregorian.yearStart] at hnext
  have hera : ((1970 + n : Nat) : Int).tdiv 400 = ((1970 + n : Nat) : Int) / 400 :=
    Int.tdiv_eq_ediv_of_nonneg (Int.natCast_nonneg _)
  have hyoe : 0 ≤ ((1970 + n : Nat) : Int) - ((1970 + n : Nat) : Int) / 400 * 400 := by omega
  simp only [rd, Int.reduceLE, if_false, if_pos (Int.natCast_nonneg (1970 + n)), hera,
    Int.tdiv_eq_ediv_of_nonneg hyoe, Int.reduceSub, Int.reduceMul, Int.reduceAdd, Int.reduceTDiv]
  constructor <;> omega

theorem next_end {n k : Nat} (hk : k < yearDays (1970 + n)) :
    IsLeast {t | start n + k ≤ t ∧ HalfYearEnd (date t)}
      (start n + ((if k ≤ 180 + leapDays (isLeap (1970 + n)) then 180 else 364) + leapDays
        (isLeap (1970 + n)))) := by
  have hdate := date_of_year (date_start n)
  rw [yearDays] at hk hdate
  have htable := dayOfYear_table (isLeap (1970 + n))
  generalize hl : leapDays (isLeap (1970 + n)) = l at *
  constructor
  · refine ⟨by split <;> omega, ?_⟩
    rw [HalfYearEnd, hdate _ (by split <;> omega)]
    split
    · obtain ⟨hm, hd⟩ := (htable (180 + l) (by omega)).2.2.2.2.1.2 rfl
      exact .inl ⟨hm, congrArg (· + 1) hd⟩
    · obtain ⟨hm, hd⟩ := (htable (364 + l) (by omega)).2.2.2.2.2.2 rfl
      exact .inr ⟨hm, congrArg (· + 1) hd⟩
  · rintro t ⟨hle, hend⟩
    by_contra hlt
    -- an earlier day is in the same year
    obtain ⟨k', rfl⟩ := Nat.exists_eq_add_of_le (Nat.le_of_add_right_le hle)
    have hk' : k' < 365 + l := by split at hlt <;> omega
    rw [HalfYearEnd, hdate k' hk'] at hend
    obtain ⟨-, -, -, -, hjune, hdec⟩ := htable k' hk'
    obtain ⟨hm, hd⟩ | ⟨hm, hd⟩ := hend
    · have := hjune.1 ⟨hm, Nat.succ.inj hd⟩
      split at hlt <;> omega
    · have := hdec.1 ⟨hm, Nat.succ.inj hd⟩
      split at hlt <;> omega

theorem endOfDay_eq (t : Nat) : (do
      let seconds ← i64 ((t : Int) * 86400)
      i64 ((← i64 (seconds + 24 * 3600)) - 1)) =
    if t * 86400 + 86399 < 2 ^ 63 then .ok ((t * 86400 + 86399 : Nat) : Int)
    else .error .overflow := by
  rw [i64]
  by_cases h0 : (t : Int) * 86400 < 2 ^ 63
  · rw [if_pos ⟨by omega, h0⟩, ok_bind, i64]
    by_cases h1 : (t : Int) * 86400 + 24 * 3600 < 2 ^ 63
    · rw [if_pos ⟨by omega, h1⟩, ok_bind, i64, if_pos ⟨by omega, by omega⟩, if_pos (by omega)]
      exact congrArg Except.ok (by omega)
    · rw [if_neg fun h => h1 h.2, if_neg (by omega)]
      rfl
  · rw [if_neg fun h => h0 h.2, if_neg (by omega)]
    rfl

end ChronyRs.L5.LeapInstant

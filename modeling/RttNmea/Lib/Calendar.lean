import Mathlib.Algebra.BigOperators.Intervals
import Mathlib.Algebra.Order.BigOperators.Group.Finset
import Mathlib.Tactic.IntervalCases

/-!
# The Gregorian calendar

Dates by year, month and day, and the days from one of them to another, counted year by year
and month by month. `yearsSum_eq` is the usual closed form, which holds from 1901 to 2099, and
`yearsSum_leaps` the one that always holds.
-/

namespace Gregorian

open Finset

def Leap (year : Nat) : Prop := 4 ∣ year ∧ (¬ 100 ∣ year ∨ 400 ∣ year)

instance (year : Nat) : Decidable (Leap year) := inferInstanceAs (Decidable (_ ∧ _))

def yearDays (year : Nat) : Nat := if Leap year then 366 else 365

/-- The days of a month from 1 to 12. -/
def monthDays (year month : Nat) : Nat :=
  match month with
  | 2 => if Leap year then 29 else 28
  | 4 | 6 | 9 | 11 => 30
  | _ => 31

structure Date where
  year : Nat
  month : Nat
  day : Nat
  month_pos : 1 ≤ month
  month_le : month ≤ 12
  day_pos : 1 ≤ day
  day_le : day ≤ monthDays year month

/-- The days from 1 January of year `start` to 1 January of `year`. -/
def yearsSum (start year : Nat) : Nat := ∑ y ∈ Ico start year, yearDays y

/-- The days of a year in front of a month. -/
def monthsSum (year month : Nat) : Nat := ∑ m ∈ Ico 1 month, monthDays year m

/-- The days from 1 January of year `start` to a date. -/
def Date.daysSince (start : Nat) (d : Date) : Nat :=
  yearsSum start d.year + monthsSum d.year d.month + (d.day - 1)

theorem monthDays_le (year month : Nat) : monthDays year month ≤ 31 := by
  unfold monthDays
  split
  · split <;> decide
  all_goals decide

theorem leap_iff (year : Nat) (hlow : 1900 < year) (hhigh : year < 2100) :
    Leap year ↔ year % 4 = 0 := by
  unfold Leap
  omega

/-- The years that 4 divides are counted by a division. -/
theorem yearsSum_eq (start year : Nat) (hlow : 1900 < start) (hle : start ≤ year)
    (hhigh : year ≤ 2100) :
    yearsSum start year + (start - 1) / 4 = 365 * (year - start) + (year - 1) / 4 := by
  induction year, hle using Nat.le_induction with
  | base => simp [yearsSum]
  | succ year hle ih =>
    have hleap := leap_iff year (by omega) (by omega)
    have hsum : yearsSum start (year + 1) = yearsSum start year + yearDays year :=
      sum_Ico_succ_top hle _
    have hdays : yearDays year = 365 + (if year % 4 = 0 then 1 else 0) := by
      unfold yearDays
      simp only [hleap]
      split <;> rfl
    have ih := ih (by omega)
    rw [hsum, hdays]
    split <;> omega

/-- The days in front of a month, in a year that is not a leap year. -/
def commonSum (month : Nat) : Nat :=
  [0, 31, 59, 90, 120, 151, 181, 212, 243, 273, 304, 334].getD (month - 1) 0

theorem monthsSum_eq (year month : Nat) (hpos : 1 ≤ month) (hle : month ≤ 12) :
    monthsSum year month =
      commonSum month + (if Leap year ∧ 2 < month then 1 else 0) := by
  unfold monthsSum monthDays
  by_cases hleap : Leap year
  · simp only [hleap, true_and, if_true]
    interval_cases month <;> rfl
  · simp only [hleap, false_and, if_false]
    interval_cases month <;> rfl

/-- The leap years from the year 1 to a year. -/
def leaps (year : Nat) : Nat := year / 4 - year / 100 + year / 400

theorem leaps_succ (year : Nat) :
    leaps (year + 1) = leaps year + if Leap (year + 1) then 1 else 0 := by
  unfold leaps
  by_cases h : Leap (year + 1)
  · rw [if_pos h]
    unfold Leap at h
    omega
  · rw [if_neg h]
    unfold Leap at h
    omega

theorem yearsSum_leaps (start year : Nat) (hpos : 1 ≤ start) (hle : start ≤ year) :
    yearsSum start year + leaps (start - 1) = 365 * (year - start) + leaps (year - 1) := by
  induction year, hle using Nat.le_induction with
  | base => simp [yearsSum]
  | succ year hle ih =>
    have hsum : yearsSum start (year + 1) = yearsSum start year + yearDays year :=
      sum_Ico_succ_top hle _
    have hdays : yearDays year = 365 + if Leap year then 1 else 0 := by
      unfold yearDays
      split <;> rfl
    have hleaps := leaps_succ (year - 1)
    rw [Nat.sub_add_cancel (by omega)] at hleaps
    rw [hsum, hdays, Nat.add_sub_cancel, hleaps]
    omega

theorem yearsSum_mono {start y z : Nat} (h : y ≤ z) : yearsSum start y ≤ yearsSum start z :=
  sum_le_sum_of_subset (Ico_subset_Ico_right h)

theorem monthsSum_mono {year m n : Nat} (h : m ≤ n) : monthsSum year m ≤ monthsSum year n :=
  sum_le_sum_of_subset (Ico_subset_Ico_right h)

/-- The days of a year in front of a date. -/
def Date.ofYear (d : Date) : Nat := monthsSum d.year d.month + (d.day - 1)

theorem Date.daysSince_eq (start : Nat) (d : Date) :
    d.daysSince start = yearsSum start d.year + d.ofYear :=
  Nat.add_assoc _ _ _

theorem Date.ofYear_lt_month (d : Date) : d.ofYear < monthsSum d.year (d.month + 1) := by
  have hsum : monthsSum d.year (d.month + 1) =
      monthsSum d.year d.month + monthDays d.year d.month := sum_Ico_succ_top d.month_pos _
  have hpos := d.day_pos
  have hle := d.day_le
  unfold Date.ofYear
  omega

theorem monthsSum_year (year : Nat) : monthsSum year 13 = yearDays year := by
  have hsum : monthsSum year 13 = monthsSum year 12 + monthDays year 12 :=
    sum_Ico_succ_top (by decide) _
  rw [hsum, monthsSum_eq year 12 (by decide) (by decide)]
  unfold yearDays
  by_cases h : Leap year
  · rw [if_pos h, if_pos ⟨h, by decide⟩]
    rfl
  · rw [if_neg h, if_neg fun hboth => h hboth.1]
    rfl

theorem Date.ofYear_lt (d : Date) : d.ofYear < yearDays d.year := by
  have hmono : monthsSum d.year (d.month + 1) ≤ monthsSum d.year 13 :=
    monthsSum_mono (Nat.succ_le_succ d.month_le)
  rw [monthsSum_year] at hmono
  exact Nat.lt_of_lt_of_le d.ofYear_lt_month hmono

theorem Date.daysSince_lt {start : Nat} {d e : Date} (hstart : start ≤ d.year)
    (h : d.year < e.year) : d.daysSince start < e.daysSince start := by
  have hsum : yearsSum start (d.year + 1) = yearsSum start d.year + yearDays d.year :=
    sum_Ico_succ_top hstart _
  have hmono : yearsSum start (d.year + 1) ≤ yearsSum start e.year := yearsSum_mono h
  have hday := d.ofYear_lt
  rw [d.daysSince_eq, e.daysSince_eq]
  omega

/-- **No two dates are the same number of days away.** -/
theorem Date.daysSince_inj {start : Nat} {d e : Date} (hd : start ≤ d.year) (he : start ≤ e.year)
    (h : d.daysSince start = e.daysSince start) : d = e := by
  have hyear : d.year = e.year := by
    rcases Nat.lt_trichotomy d.year e.year with hlt | heq | hgt
    · exact absurd h (Nat.ne_of_lt (Date.daysSince_lt hd hlt))
    · exact heq
    · exact absurd h.symm (Nat.ne_of_lt (Date.daysSince_lt he hgt))
  have hof : d.ofYear = e.ofYear := by
    rw [d.daysSince_eq, e.daysSince_eq, hyear] at h
    omega
  have hmonth : d.month = e.month := by
    have hdlt := d.ofYear_lt_month
    have helt := e.ofYear_lt_month
    have hdge : monthsSum d.year d.month ≤ d.ofYear := Nat.le_add_right _ _
    have hege : monthsSum e.year e.month ≤ e.ofYear := Nat.le_add_right _ _
    rw [hyear] at hdlt hdge
    rcases Nat.lt_trichotomy d.month e.month with hlt | heq | hgt
    · have hmono : monthsSum e.year (d.month + 1) ≤ monthsSum e.year e.month := monthsSum_mono hlt
      omega
    · exact heq
    · have hmono : monthsSum e.year (e.month + 1) ≤ monthsSum e.year d.month := monthsSum_mono hgt
      omega
  have hday : d.day = e.day := by
    have hdpos := d.day_pos
    have hepos := e.day_pos
    unfold Date.ofYear at hof
    rw [hyear, hmonth] at hof
    omega
  cases d
  cases e
  cases hyear
  cases hmonth
  cases hday
  rfl

end Gregorian

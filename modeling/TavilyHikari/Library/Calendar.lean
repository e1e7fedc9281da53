/-
Module: TavilyHikari.Library.Calendar
Purpose: Months of the proleptic Gregorian calendar over integer timestamps.
  Years are counted from 1 March, so the leap day is the last day of a year and
  the first days of the months follow one linear formula. The first days of the
  months form a strictly increasing sequence and `monthOf` locates a day in it;
  what is said about the start of a month follows from that alone.
Trusted boundary: human-reviewed spec (the calendar itself)
Main exports: startOfMonthTs, startOfMonthTs_le, startOfMonthTs_mono,
  startOfMonthTs_eq_of_between
-/
import Mathlib.Algebra.Order.Group.Int
import Mathlib.Algebra.Order.SuccPred
import Mathlib.Data.Int.SuccPred
import Mathlib.Order.Interval.Set.Monotone

namespace TavilyHikari.Library

/-- Days from 0000-03-01 to 1 March of the year `y`. -/
def yearFirst (y : Int) : Int := 365 * y + y / 4 - y / 100 + y / 400

/-- Days from 1 March to the first day of the `m`-th month, March being 0. -/
def monthOffset (m : Int) : Int := (153 * m + 2) / 5

/-- The year, counted from 1 March, that the day `d` lies in. The quotient is
off by at most one year. -/
def yearOf (d : Int) : Int :=
  if d < yearFirst (400 * d / 146097) then 400 * d / 146097 - 1
  else if d < yearFirst (400 * d / 146097 + 1) then 400 * d / 146097
  else 400 * d / 146097 + 1

/-- First day of the month number `k`, twelve months to a year. -/
def monthFirst (k : Int) : Int := yearFirst (k / 12) + monthOffset (k % 12)

/-- The number of the month that the day `d` lies in. -/
def monthOf (d : Int) : Int :=
  12 * yearOf d + (5 * (d - yearFirst (yearOf d)) + 2) / 153

def secsPerDay : Int := 86400

/-- Day number of the Unix epoch, counted from 0000-03-01. -/
def epochDay : Int := 719468

/-- The timestamp of midnight UTC on the first day of the month of `t`. -/
def startOfMonthTs (t : Int) : Int :=
  (monthFirst (monthOf (t / secsPerDay + epochDay)) - epochDay) * secsPerDay

theorem yearOf_spec (d : Int) :
    yearFirst (yearOf d) ≤ d ∧ d < yearFirst (yearOf d + 1) := by
  unfold yearOf
  split_ifs with early middle
  · refine ⟨?_, by simpa using early⟩
    unfold yearFirst
    omega
  · omega
  · refine ⟨by omega, ?_⟩
    unfold yearFirst
    omega

theorem yearFirst_succ_le (y : Int) : yearFirst (y + 1) ≤ yearFirst y + 366 := by
  unfold yearFirst
  omega

theorem monthFirst_lt_succ (k : Int) : monthFirst k < monthFirst (k + 1) := by
  unfold monthFirst yearFirst monthOffset
  by_cases last : k % 12 = 11
  · have month : (k + 1) % 12 = 0 := by omega
    have year : (k + 1) / 12 = k / 12 + 1 := by omega
    omega
  · have month : (k + 1) % 12 = k % 12 + 1 := by omega
    have year : (k + 1) / 12 = k / 12 := by omega
    rw [month, year]
    omega

theorem monthFirst_lt_iff {j k : Int} : monthFirst j < monthFirst k ↔ j < k :=
  (strictMono_int_of_lt_succ monthFirst_lt_succ).lt_iff_lt

/-- A day lies in its month. -/
theorem monthOf_spec (d : Int) :
    monthFirst (monthOf d) ≤ d ∧ d < monthFirst (monthOf d + 1) := by
  obtain ⟨lower, upper⟩ := yearOf_spec d
  have length := yearFirst_succ_le (yearOf d)
  generalize named : (5 * (d - yearFirst (yearOf d)) + 2) / 153 = m
  have bounds : 0 ≤ m ∧ m ≤ 11 := by omega
  have year : monthOf d / 12 = yearOf d := by
    unfold monthOf
    omega
  have month : monthOf d % 12 = m := by
    unfold monthOf
    omega
  constructor
  · unfold monthFirst monthOffset
    rw [year, month]
    omega
  · -- February closes the year, every other month is followed in its own year.
    by_cases last : m = 11
    · have nextYear : (monthOf d + 1) / 12 = yearOf d + 1 := by omega
      have nextMonth : (monthOf d + 1) % 12 = 0 := by omega
      unfold monthFirst monthOffset
      rw [nextYear, nextMonth]
      omega
    · have nextYear : (monthOf d + 1) / 12 = yearOf d := by omega
      have nextMonth : (monthOf d + 1) % 12 = m + 1 := by omega
      unfold monthFirst monthOffset
      rw [nextYear, nextMonth]
      omega

/-- The month of a day is the only one that contains it. -/
theorem monthOf_eq {d k : Int} (lower : monthFirst k ≤ d)
    (upper : d < monthFirst (k + 1)) : monthOf d = k := by
  obtain ⟨lower', upper'⟩ := monthOf_spec d
  have first : k < monthOf d + 1 :=
    monthFirst_lt_iff.1 (lt_of_le_of_lt lower upper')
  have second : monthOf d < k + 1 :=
    monthFirst_lt_iff.1 (lt_of_le_of_lt lower' upper)
  omega

theorem startOfMonthTs_le (t : Int) : startOfMonthTs t ≤ t := by
  have := (monthOf_spec (t / secsPerDay + epochDay)).1
  unfold startOfMonthTs
  unfold secsPerDay epochDay at *
  omega

/-- Every moment between the start of a month and a moment of it lies in that
month. -/
theorem startOfMonthTs_eq_of_between {t u : Int} (lower : startOfMonthTs t ≤ u)
    (upper : u ≤ t) : startOfMonthTs u = startOfMonthTs t := by
  have bounds := monthOf_spec (t / secsPerDay + epochDay)
  have same :
      monthOf (u / secsPerDay + epochDay) = monthOf (t / secsPerDay + epochDay) := by
    unfold startOfMonthTs at lower
    unfold secsPerDay epochDay at *
    apply monthOf_eq <;> omega
  unfold startOfMonthTs
  rw [same]

theorem startOfMonthTs_mono {t u : Int} (later : t ≤ u) :
    startOfMonthTs t ≤ startOfMonthTs u := by
  by_cases inside : startOfMonthTs u ≤ t
  · exact le_of_eq (startOfMonthTs_eq_of_between inside later)
  · have := startOfMonthTs_le t
    omega

/-- 2024-02-29 12:00 UTC lies in the month that starts at 2024-02-01. -/
example : startOfMonthTs 1709208000 = 1706745600 := by decide

end TavilyHikari.Library

import Mathlib.Algebra.BigOperators.Group.List.Basic
import Mathlib.Tactic.Ring

/-!
# Day counts of the Gregorian calendar

Days are counted from 1 January of the year 1.  A year is located by the number
of days before it, a month by the number of days before it in its year, so a
date is one number in a mixed radix whose digits have varying ranges.
-/

namespace GregorianCalendar

/-- Every fourth year is a leap year, except the centuries not divisible by 400. -/
def isLeapYear (year : Nat) : Bool :=
  4 ∣ year ∧ (¬ 100 ∣ year ∨ 400 ∣ year)

def yearLength (year : Nat) : Nat :=
  if isLeapYear year then 366 else 365

/-- The days of all years before the given one. -/
def daysBeforeYear (year : Nat) : Nat :=
  365 * (year - 1) + (year - 1) / 4 - (year - 1) / 100 + (year - 1) / 400

def monthLengths (leap : Bool) : List Nat :=
  [31, if leap then 29 else 28, 31, 30, 31, 30, 31, 31, 30, 31, 30, 31]

/-- The days of the first `month` months of a year. -/
def daysBeforeMonth (leap : Bool) (month : Nat) : Nat :=
  ((monthLengths leap).take month).sum

/-- The days before a date, its month and day counted from zero. -/
def dayNumber (year month day : Nat) : Nat :=
  daysBeforeYear year + daysBeforeMonth (isLeapYear year) month + day

/-- The day of the week, counted from Sunday: 1 January of the year 1 was a Monday. -/
def weekday (number : Nat) : Nat :=
  (number + 1) % 7

theorem daysBeforeYear_succ {year : Nat} (positive : 0 < year) :
    daysBeforeYear (year + 1) = daysBeforeYear year + yearLength year := by
  obtain ⟨previous, rfl⟩ := Nat.exists_eq_add_one_of_ne_zero positive.ne'
  have centuries : previous / 100 ≤ previous / 4 := Nat.div_le_div_left (by decide) (by decide)
  have four : 100 ∣ previous + 1 → 4 ∣ previous + 1 := (by decide : 4 ∣ 100).trans
  have hundred : 400 ∣ previous + 1 → 100 ∣ previous + 1 := (by decide : 100 ∣ 400).trans
  simp only [daysBeforeYear, yearLength, isLeapYear, Nat.add_sub_cancel, Nat.succ_div,
    decide_eq_true_eq]
  generalize previous / 4 = fours at *
  generalize previous / 100 = hundreds at *
  generalize previous / 400 = fourHundreds
  by_cases by400 : 400 ∣ previous + 1
  · simp only [by400, hundred by400, four (hundred by400), if_true]
    simp
    omega
  · by_cases by100 : 100 ∣ previous + 1
    · simp only [by400, by100, four by100, if_true, if_false]
      simp
      omega
    · by_cases by4 : 4 ∣ previous + 1 <;>
        simp [by400, by100, by4] <;> omega

/-- Thursday is the fourth day of a week that begins on Monday. -/
def firstThursday (year : Nat) : Nat :=
  daysBeforeYear year + (3 + 7 - daysBeforeYear year % 7) % 7

/-- The Monday of the week with the first Thursday of the year. -/
def weekOne (year : Nat) : Nat :=
  firstThursday year - 3

/-- The number of the week that contains a day of the given year.  Its weeks are counted
from the last week one that has begun. -/
def isoWeek (year number : Nat) : Nat :=
  if number < weekOne year then (number - weekOne (year - 1)) / 7 + 1
  else if number < weekOne (year + 1) then (number - weekOne year) / 7 + 1
  else (number - weekOne (year + 1)) / 7 + 1

/-- The days from the Monday of week one to 1 January; negative when the year begins
before its week one. -/
def januaryShift (year : Nat) : Int :=
  if daysBeforeYear year % 7 < 4 then daysBeforeYear year % 7
  else daysBeforeYear year % 7 - 7

theorem weekOne_eq {year : Nat} (second : 1 < year) :
    (weekOne year : Int) = daysBeforeYear year - januaryShift year := by
  have later : 365 ≤ daysBeforeYear year := by
    have centuries : (year - 1) / 100 ≤ (year - 1) / 4 :=
      Nat.div_le_div_left (by decide) (by decide)
    unfold daysBeforeYear
    omega
  unfold weekOne firstThursday januaryShift
  split_ifs <;> omega

theorem januaryShift_bounds (year : Nat) : -3 ≤ januaryShift year ∧ januaryShift year ≤ 3 := by
  unfold januaryShift
  split_ifs <;> omega

/-- A year begins one or two weekdays after the one before it. -/
theorem januaryShift_succ {year : Nat} (positive : 0 < year) :
    januaryShift (year + 1) =
      let shift := januaryShift year + 1 + (isLeapYear year).toNat
      if shift < 4 then shift else shift - 7 := by
  have next := daysBeforeYear_succ positive
  unfold yearLength at next
  unfold januaryShift
  rw [next]
  cases isLeapYear year
  all_goals
    simp only [Bool.toNat_true, Bool.toNat_false, if_true, Bool.false_eq_true, if_false]
    split_ifs <;> omega

theorem monthLengths_sum (leap : Bool) :
    (monthLengths leap).sum = if leap then 366 else 365 := by
  cases leap <;> rfl

/-- Split a count against consecutive lengths: the index of the length the count
falls into and what is left of the count there. -/
def locate : List Nat → Nat → Nat × Nat
  | [], count => (0, count)
  | length :: lengths, count =>
      if count < length then (0, count)
      else
        let rest := locate lengths (count - length)
        (rest.1 + 1, rest.2)

theorem locate_lt {lengths : List Nat} {count : Nat} (bounded : count < lengths.sum) :
    (locate lengths count).1 < lengths.length := by
  induction lengths generalizing count with
  | nil => simp at bounded
  | cons length lengths ih =>
      by_cases inside : count < length
      · simp [locate, inside]
      · have := @ih (count - length) (by simp at bounded; omega)
        simpa [locate, inside] using this

theorem locate_sum {lengths : List Nat} {count : Nat} (bounded : count < lengths.sum) :
    (lengths.take (locate lengths count).1).sum + (locate lengths count).2 = count := by
  induction lengths generalizing count with
  | nil => simp at bounded
  | cons length lengths ih =>
      by_cases inside : count < length
      · simp [locate, inside]
      · have := @ih (count - length) (by simp at bounded; omega)
        simp only [locate, inside, if_false, List.take_succ_cons, List.sum_cons]
        omega

theorem locate_rest_lt {lengths : List Nat} {count : Nat} (bounded : count < lengths.sum) :
    (locate lengths count).2 < lengths.getD (locate lengths count).1 0 := by
  induction lengths generalizing count with
  | nil => simp at bounded
  | cons length lengths ih =>
      by_cases inside : count < length
      · simp [locate, inside]
      · have := @ih (count - length) (by simp at bounded; omega)
        simpa [locate, inside] using this

end GregorianCalendar

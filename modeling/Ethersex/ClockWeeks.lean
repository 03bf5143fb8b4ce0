import Ethersex.ClockDatetime

/-!
# The week of the year

`clock_woy` numbers the weeks after DIN 1355: a week begins on Monday and week 1
contains the first Thursday of the year.  Days before week 1 take the number of
31 December of the year before, by a recursive call.  The comparison in front of
that call also catches the Monday that begins week 1.
-/

namespace Ethersex.Clock

open GregorianCalendar (daysBeforeYear daysBeforeYear_succ yearLength monthLengths daysBeforeMonth
  dayNumber weekday weekOne weekOne_eq isoWeek januaryShift januaryShift_bounds
  januaryShift_succ)

/-- `clock_woy` with a bound on the depth of its recursion; `none` beyond it. -/
def clockWoy : Nat → Nat → Nat → Nat → Option Nat
  | 0, _, _, _ => none
  | depth + 1, day, month, year =>
      let yday := Int.bmod (clockYday day month year) (2 ^ 16)
      let yday1jan : Int := clockDow 1 1 year - 1
      let yday1jan := if yday1jan ≥ 4 then yday1jan - 7 else yday1jan
      if yday + yday1jan ≤ 0 then clockWoy depth 31 12 ((year + 2 ^ 8 - 1) % 2 ^ 8)
      else
        let week := (((yday + yday1jan).tdiv 7 + 1) % 2 ^ 8).toNat
        -- only some years have a week 53
        if week = 53 then
          if yday1jan = 3 ∨ yday1jan = 2 ∧ isLeapYear year then some week else some 1
        else some week

/-- A date of the years 1901 to 2155, which `clock_woy` receives as 1 to 255. -/
structure ValidDate (day month year : Nat) : Prop where
  first : 1901 ≤ year
  last : year ≤ 2155
  isMonth : 1 ≤ month ∧ month ≤ 12
  isDay : 1 ≤ day ∧
    day ≤ (monthLengths (GregorianCalendar.isLeapYear year)).getD (month - 1) 0

/-- The Mondays that begin week 1 in January, and those of 2000 after its leap day. -/
def MissedWeek (day month year : Nat) : Prop :=
  weekday (dayNumber year (month - 1) (day - 1)) = 1 ∧
    (month = 1 ∧ day ≤ 4 ∨ year = 2000 ∧ 3 ≤ month)

/-- The number `clock_woy` gives to a day of the year, from the shift of 1 January. -/
def weekNumber (yday : Int) (shift : Int) (leap : Bool) : Int :=
  if (yday + shift) / 7 = 52 ∧ ¬ (shift = 3 ∨ shift = 2 ∧ leap) then 1
  else (yday + shift) / 7 + 1

/-- The weekday of 1 January, corrected for Friday and Saturday, is the shift. -/
theorem yday1jan_eq (year : Nat) :
    (if (clockDow 1 1 year : Int) - 1 ≥ 4 then (clockDow 1 1 year : Int) - 1 - 7
      else (clockDow 1 1 year : Int) - 1) = januaryShift (year + 1900) := by
  have found := @clockDow_eq year 0 0 (by decide)
  rw [Nat.zero_add] at found
  rw [found]
  simp only [weekday, dayNumber, daysBeforeMonth, List.take_zero, List.sum_nil, januaryShift]
  split_ifs <;> omega

/-- One call of `clock_woy`. -/
theorem clockWoy_succ {depth day month year yday : Nat}
    (ydayIs : clockYday day month year = yday) (small : yday ≤ 366) :
    clockWoy (depth + 1) day month year =
      if yday + januaryShift (year + 1900) ≤ 0 then
        clockWoy depth 31 12 ((year + 2 ^ 8 - 1) % 2 ^ 8)
      else some (weekNumber yday (januaryShift (year + 1900)) (isLeapYear year)).toNat := by
  have bounds := januaryShift_bounds (year + 1900)
  have signed : Int.bmod yday (2 ^ 16) = yday := by
    apply Int.bmod_eq_of_le <;> omega
  conv_lhs => unfold clockWoy
  simp only [ydayIs, signed, yday1jan_eq]
  generalize januaryShift (year + 1900) = shift at *
  by_cases early : yday + shift ≤ 0
  · simp [early]
  · have week : (((yday + shift).tdiv 7 + 1) % 2 ^ 8).toNat = ((yday + shift) / 7 + 1).toNat := by
      rw [Int.tdiv_eq_ediv_of_nonneg (by omega)]
      omega
    have isLast : ((yday + shift) / 7 + 1).toNat = 53 ↔ (yday + shift) / 7 = 52 := by omega
    simp only [early, if_false, week, weekNumber, isLast]
    by_cases last : (yday + shift) / 7 = 52
    · by_cases allowed : shift = 3 ∨ shift = 2 ∧ isLeapYear year = true
      · simp [last, allowed]
      · simp [last, allowed]
    · simp [last]

/-- From week 1 on, the week of a day is the number `clock_woy` computes. -/
theorem isoWeek_eq_weekNumber {year yday : Nat} (second : 1 < year)
    (inside : yday < yearLength year) (begun : 0 ≤ yday + januaryShift year) :
    (isoWeek year (daysBeforeYear year + yday) : Int) =
      weekNumber yday (januaryShift year) (GregorianCalendar.isLeapYear year) := by
  have one := weekOne_eq second
  have nextOne := @weekOne_eq (year + 1) (by omega)
  have next := @daysBeforeYear_succ year (by omega)
  have nextShift := @januaryShift_succ year (by omega)
  have bounds := januaryShift_bounds year
  unfold yearLength at inside next
  unfold isoWeek weekNumber
  generalize weekOne year = monday at *
  generalize weekOne (year + 1) = nextMonday at *
  generalize weekOne (year - 1) = previousMonday
  generalize januaryShift year = shift at *
  generalize januaryShift (year + 1) = shift' at *
  generalize GregorianCalendar.isLeapYear year = leap at *
  cases leap
  all_goals
    simp at inside next nextShift ⊢
    split_ifs at * <;> omega

/-- A day before week 1 belongs to the week of the last day of the year before. -/
theorem isoWeek_of_before {year yday : Nat} (second : 1 < year)
    (early : yday + januaryShift (year + 1) < 0) :
    (isoWeek (year + 1) (daysBeforeYear (year + 1) + yday) : Int) =
      weekNumber (yearLength year - 1) (januaryShift year)
        (GregorianCalendar.isLeapYear year) := by
  have one := weekOne_eq second
  have nextOne := @weekOne_eq (year + 1) (by omega)
  have next := @daysBeforeYear_succ year (by omega)
  have nextShift := @januaryShift_succ year (by omega)
  have bounds := januaryShift_bounds year
  have nextBounds := januaryShift_bounds (year + 1)
  unfold yearLength at next ⊢
  unfold isoWeek weekNumber
  simp only [Nat.add_sub_cancel]
  generalize weekOne year = monday at *
  generalize weekOne (year + 1) = nextMonday at *
  generalize weekOne (year + 1 + 1) = laterMonday
  generalize januaryShift year = shift at *
  generalize januaryShift (year + 1) = shift' at *
  generalize GregorianCalendar.isLeapYear year = leap at *
  cases leap
  all_goals
    simp at next nextShift ⊢
    split_ifs at * <;> omega

/-- When week 1 begins in January, the year before ends with week 52 or 53. -/
theorem weekNumber_lastDay {year : Nat} (second : 1 < year)
    (early : januaryShift (year + 1) ≤ 0) :
    52 ≤ weekNumber (yearLength year - 1) (januaryShift year)
        (GregorianCalendar.isLeapYear year) := by
  have nextShift := @januaryShift_succ year (by omega)
  have bounds := januaryShift_bounds year
  unfold weekNumber yearLength
  generalize januaryShift year = shift at *
  generalize januaryShift (year + 1) = shift' at *
  generalize GregorianCalendar.isLeapYear year = leap at *
  cases leap
  all_goals
    simp at nextShift ⊢
    split_ifs at * <;> omega

/-- 31 December has the week of the calendar's last day, but for the leap day of 2000. -/
theorem clockWoy_lastDay {depth year : Nat} (first : 1 ≤ year) (last : year ≤ 255)
    (normal : year ≠ 100) :
    clockWoy (depth + 1) 31 12 year =
      some (weekNumber (yearLength (year + 1900) - 1) (januaryShift (year + 1900))
        (GregorianCalendar.isLeapYear (year + 1900))).toNat := by
  have normal' : year + 1900 ≠ 2000 := by omega
  have leap := @isLeapYear_sub_century (year + 1900) (by omega) (by omega)
  have bounds := januaryShift_bounds (year + 1900)
  simp only [normal', if_false, Nat.add_sub_cancel, isLeapYear_eq (year + 1900)] at leap
  have lastDay : clockYday 31 12 year = yearLength (year + 1900) - 1 := by
    simp only [clockYday, yearLength, leap]
    cases GregorianCalendar.isLeapYear (year + 1900) <;> decide
  have long : 365 ≤ yearLength (year + 1900) ∧ yearLength (year + 1900) ≤ 366 := by
    unfold yearLength
    split <;> omega
  have cast : ((yearLength (year + 1900) - 1 : Nat) : Int) = yearLength (year + 1900) - 1 := by
    omega
  have begun : ¬ ((yearLength (year + 1900) : Int) - 1 + januaryShift (year + 1900) ≤ 0) := by
    omega
  have call := @clockWoy_succ depth 31 12 year _ lastDay (by omega)
  rw [cast, if_neg begun, leap] at call
  exact call

/-- The last day of 2000 is Sunday of week 52, also without its leap day. -/
theorem clockWoy_lastDay2000 (depth : Nat) : clockWoy (depth + 1) 31 12 100 = some 52 := by
  have yday : clockYday 31 12 100 = 364 := by decide
  have shift : januaryShift (100 + 1900) = -2 := by decide
  rw [clockWoy_succ yday (by decide), shift]
  rfl

theorem daysBeforeMonth_january (leap : Bool) {month : Nat} (isMonth : month < 12) :
    if month = 0 then daysBeforeMonth leap month = 0 else 31 ≤ daysBeforeMonth leap month := by
  revert month leap
  decide

/-- A year's Monday of week 1 is one of its first four days. -/
theorem beginsWeekOne_iff {year month day : Nat} (isMonth : month < 12) :
    weekday (dayNumber year month day) = 1 ∧ month = 0 ∧ day ≤ 3 ↔
      (daysBeforeMonth (GregorianCalendar.isLeapYear year) month + day : Nat) +
        januaryShift year = 0 := by
  have january := daysBeforeMonth_january (GregorianCalendar.isLeapYear year) isMonth
  unfold weekday dayNumber januaryShift
  generalize daysBeforeMonth (GregorianCalendar.isLeapYear year) month = before at *
  split_ifs at * <;> omega

/-- The recursive call of `clock_woy` is right but for the Monday of week 1. -/
theorem clockWoy_early (depth : Nat) {year days : Nat} (first : 1 ≤ year) (last : year ≤ 255)
    (early : days + januaryShift (year + 1900) ≤ 0) :
    ∃ week, clockWoy (depth + 1) 31 12 ((year + 2 ^ 8 - 1) % 2 ^ 8) = some week ∧
      (week = isoWeek (year + 1900) (daysBeforeYear (year + 1900) + days) ↔
        ¬ days + januaryShift (year + 1900) = 0) := by
  obtain ⟨previous, rfl⟩ := Nat.exists_eq_add_of_le' first
  have called : (previous + 1 + 2 ^ 8 - 1) % 2 ^ 8 = previous := by omega
  have later : previous ≠ 0 := by
    rintro rfl
    have shift : januaryShift (0 + 1 + 1900) = 1 := by decide
    omega
  have same : previous + 1 + 1900 = previous + 1900 + 1 := by omega
  rw [called]
  by_cases monday : days + januaryShift (previous + 1 + 1900) = 0
  · -- the day is the first of its week 1, the call answers with the last week before
    have one : (isoWeek (previous + 1 + 1900) (daysBeforeYear (previous + 1 + 1900) + days) : Int) =
        1 := by
      have week := @isoWeek_eq_weekNumber (previous + 1 + 1900) days (by omega)
        (by have := januaryShift_bounds (previous + 1 + 1900); unfold yearLength; split <;> omega)
        monday.ge
      rw [week, weekNumber, monday]
      rfl
    by_cases century : previous = 100
    · subst century
      refine ⟨52, clockWoy_lastDay2000 depth, ?_⟩
      simp only [monday, not_true, iff_false]
      omega
    · refine ⟨_, clockWoy_lastDay (by omega) (by omega) century, ?_⟩
      have high := @weekNumber_lastDay (previous + 1900) (by omega) (by rw [same] at early; omega)
      simp only [monday, not_true, iff_false]
      omega
  · have before : days + januaryShift (previous + 1900 + 1) < 0 := by
      rw [same] at early monday
      omega
    have normal : previous ≠ 100 := by
      rintro rfl
      have shift : januaryShift (100 + 1900 + 1) = 0 := by decide
      omega
    refine ⟨_, clockWoy_lastDay (by omega) (by omega) normal, ?_⟩
    have week := isoWeek_of_before (by omega) before
    simp only [monday, not_false_iff, iff_true, same]
    omega

/-- `clock_woy` returns for every date, and outside the year 2000 misses only the
Mondays that begin week 1 in January. -/
theorem clockWoy_normal (depth : Nat) {year month day : Nat} (first : 1 ≤ year)
    (last : year ≤ 255) (normal : year ≠ 100) (isMonth : month < 12)
    (isDay : day < (monthLengths (GregorianCalendar.isLeapYear (year + 1900))).getD month 0) :
    ∃ week, clockWoy (depth + 2) (day + 1) (month + 1) year = some week ∧
      (week = isoWeek (year + 1900) (dayNumber (year + 1900) month day) ↔
        ¬ (weekday (dayNumber (year + 1900) month day) = 1 ∧ month = 0 ∧ day ≤ 3)) := by
  have leap := @isLeapYear_sub_century (year + 1900) (by omega) (by omega)
  have normal' : year + 1900 ≠ 2000 := by omega
  simp only [normal', if_false, Nat.add_sub_cancel, isLeapYear_eq (year + 1900)] at leap
  have dayBound := monthLengths_getD_le (GregorianCalendar.isLeapYear (year + 1900)) isMonth
  have yday := @clockYday_eq_add year month day isMonth (by omega)
  rw [leap] at yday
  have inside : daysBeforeMonth (GregorianCalendar.isLeapYear (year + 1900)) month + day <
      yearLength (year + 1900) := by
    have := daysBeforeMonth_add_le (GregorianCalendar.isLeapYear (year + 1900)) isMonth
    unfold yearLength
    omega
  have length : yearLength (year + 1900) ≤ 366 := by
    unfold yearLength
    split <;> decide
  have number : dayNumber (year + 1900) month day = daysBeforeYear (year + 1900) +
      (daysBeforeMonth (GregorianCalendar.isLeapYear (year + 1900)) month + day) :=
    Nat.add_assoc _ _ _
  rw [beginsWeekOne_iff isMonth, clockWoy_succ yday (by omega), leap, number]
  generalize daysBeforeMonth (GregorianCalendar.isLeapYear (year + 1900)) month + day = days at *
  by_cases begun : 0 < days + januaryShift (year + 1900)
  · have week := isoWeek_eq_weekNumber (by omega) inside begun.le
    have notMonday : ¬ days + januaryShift (year + 1900) = 0 := by omega
    rw [if_neg (by omega), ← week, Int.toNat_natCast]
    exact ⟨_, rfl, iff_of_true rfl notMonday⟩
  · rw [if_pos (by omega)]
    exact clockWoy_early depth first last (by omega)

/-- In 2000 every day after February is counted one day too early, which moves the
Mondays into the week before. -/
theorem clockWoy_2000 (depth : Nat) {month day : Nat} (isMonth : month < 12)
    (isDay : day < (monthLengths true).getD month 0) :
    ∃ week, clockWoy (depth + 2) (day + 1) (month + 1) 100 = some week ∧
      (week = isoWeek 2000 (dayNumber 2000 month day) ↔
        ¬ (weekday (dayNumber 2000 month day) = 1 ∧ (month = 0 ∧ day ≤ 3 ∨ 2 ≤ month))) := by
  have dayBound := monthLengths_getD_le true isMonth
  have yday := @clockYday_eq_add 100 month day isMonth (by omega)
  have normalDays := daysBeforeMonth_normal isMonth
  have february := daysBeforeMonth_leap isMonth
  have inside : daysBeforeMonth true month + day < 366 := by
    have yearEnd := daysBeforeMonth_add_le true isMonth
    rw [if_pos rfl] at yearEnd
    omega
  have january := @beginsWeekOne_iff 2000 month day isMonth
  have leap : GregorianCalendar.isLeapYear 2000 = true := by decide
  have shift : januaryShift 2000 = -2 := by decide
  have first : daysBeforeYear 2000 = 730119 := by decide
  have number : dayNumber 2000 month day =
      daysBeforeYear 2000 + (daysBeforeMonth true month + day) := by
    rw [dayNumber, leap, Nat.add_assoc]
  rw [leap, shift] at january
  rw [show isLeapYear 100 = false from rfl] at yday
  have week : 2 ≤ daysBeforeMonth true month + day →
      isoWeek 2000 (dayNumber 2000 month day) = (daysBeforeMonth true month + day - 2) / 7 + 1 := by
    intro begun
    have week := @isoWeek_eq_weekNumber 2000 _ (by decide) inside (by rw [shift]; omega)
    rw [← number, shift, weekNumber, if_neg (by omega)] at week
    omega
  rw [clockWoy_succ yday (by omega), show 100 + 1900 = 2000 from rfl, shift]
  by_cases begun : 2 < daysBeforeMonth false month + day
  · rw [if_neg (by omega), weekNumber, if_neg (by omega)]
    refine ⟨_, rfl, ?_⟩
    rw [week (by omega)]
    simp only [weekday, number, first] at january ⊢
    split_ifs at * <;> omega
  · have winter : month = 0 := by
      have := daysBeforeMonth_january false isMonth
      split_ifs at * <;> omega
    subst winter
    rw [if_neg (by decide), Nat.add_zero] at normalDays
    rw [if_pos (by omega), number]
    have early := @clockWoy_early depth 100 (daysBeforeMonth true 0 + day) (by decide) (by decide)
      (by rw [show 100 + 1900 = 2000 from rfl, shift]; omega)
    rw [show 100 + 1900 = 2000 from rfl, shift, ← january, number] at early
    simpa using early

/-- `clock_woy` returns for every date, with the week of the date unless it is one of
the missed Mondays. -/
theorem clockWoy_correct_iff (depth : Nat) {day month year : Nat}
    (valid : ValidDate day month year) :
    (∃ week, clockWoy (depth + 2) day month (year - 1900) = some week) ∧
      (clockWoy (depth + 2) day month (year - 1900) =
          some (isoWeek year (dayNumber year (month - 1) (day - 1))) ↔
        ¬ MissedWeek day month year) := by
  obtain ⟨first, last, isMonth, isDay⟩ := valid
  obtain ⟨code, rfl⟩ := Nat.exists_eq_add_of_le' (by omega : 1900 ≤ year)
  obtain ⟨month, rfl⟩ := Nat.exists_eq_add_of_le' isMonth.1
  obtain ⟨day, rfl⟩ := Nat.exists_eq_add_of_le' isDay.1
  simp only [Nat.add_sub_cancel, MissedWeek] at isDay ⊢
  by_cases century : code = 100
  · subst century
    obtain ⟨week, result, right⟩ := @clockWoy_2000 depth month day (by omega) isDay.2
    rw [result]
    refine ⟨⟨week, rfl⟩, ?_⟩
    rw [Option.some.injEq, right]
    simp only [Nat.reduceAdd, true_and]
    constructor <;> intro missed <;> omega
  · obtain ⟨week, result, right⟩ := clockWoy_normal depth (by omega : 1 ≤ code) (by omega) century
      (by omega : month < 12) (by omega : day < _)
    rw [result]
    refine ⟨⟨week, rfl⟩, ?_⟩
    rw [Option.some.injEq, right]
    have : ¬ code + 1900 = 2000 := by omega
    simp only [this, false_and, or_false]
    constructor <;> intro missed <;> omega

theorem clockWoy_firstThursday2026 :
    ValidDate 1 1 2026 ∧ clockWoy 2 1 1 126 = some 1 ∧ isoWeek 2026 (dayNumber 2026 0 0) = 1 := by
  have valid : ValidDate 1 1 2026 := ⟨by decide, by decide, by decide, by decide⟩
  have right := (clockWoy_correct_iff 0 valid).2.2 (by unfold MissedWeek; decide)
  exact ⟨valid, right, by decide⟩

/-- Monday, 1 January 2007 begins week 1, but is given week 52 of 2006. -/
theorem newYear2007_missed :
    ¬ ∀ day month year, ValidDate day month year →
      ∃ depth, clockWoy depth day month (year - 1900) =
        some (isoWeek year (dayNumber year (month - 1) (day - 1))) := by
  intro always
  obtain ⟨depth, result⟩ := always 1 1 2007 ⟨by decide, by decide, by decide, by decide⟩
  have week : isoWeek 2007 (dayNumber 2007 (1 - 1) (1 - 1)) = 1 := by decide
  rw [week] at result
  have yday : clockYday 1 1 107 = 0 := by decide
  match depth, result with
  | 0, result => exact absurd result (by decide)
  | 1, result => exact absurd result (by decide)
  | depth + 2, result =>
      rw [clockWoy_succ yday (by decide), if_pos (by decide)] at result
      have lastDay := @clockWoy_lastDay depth 106 (by decide) (by decide) (by decide)
      have fiftyTwo := lastDay.symm.trans result
      exact absurd fiftyTwo (by decide)

end Ethersex.Clock

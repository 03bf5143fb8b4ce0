import Ethersex.GregorianCalendar
import Mathlib.Data.UInt

/-!
# Conversion between timestamps and dates

`services/clock/clock_lib.c` turns a 32-bit timestamp into a date with
`clock_datetime` and a date into a timestamp with `clock_mktime`.  The fields
are the machine integers of `clock_datetime_t`, stored here as numbers below
their width; intermediate results are reduced where the target's 8, 16 and 32 bit
arithmetic reduces them.
-/

namespace Ethersex.Clock

open GregorianCalendar (daysBeforeYear daysBeforeYear_succ yearLength monthLengths daysBeforeMonth
  locate locate_lt locate_sum locate_rest_lt)

def epochYear : Nat := 1970

def epochCentury : Nat := 1900

/-- 1 January 1970 was a Thursday. -/
def epochDow : Nat := 4

/-- The macro `IS_LEAP_YEAR`. -/
def isLeapYear (y : Nat) : Bool :=
  y % 4 = 0 ∧ (y % 100 ≠ 0 ∨ y % 400 = 0)

def clockMonthdays : List Nat :=
  [31, 28, 31, 30, 31, 30, 31, 31, 30, 31, 30, 31]

/-- The rows of `clock_monthydays`: normal years and leap years. -/
def clockMonthydays (leap : Bool) : List Nat :=
  if leap then [0, 31, 60, 91, 121, 152, 182, 213, 244, 274, 305, 335, 366]
  else [0, 31, 59, 90, 120, 151, 181, 212, 243, 273, 304, 334, 365]

/-- The macro `clock_month_days`; a month outside 1..12 reads outside the table. -/
def clockMonthDays (month : Nat) : Nat :=
  clockMonthdays.getD (month - 1) 0

structure ClockDatetime where
  sec : Nat
  min : Nat
  hour : Nat
  day : Nat
  month : Nat
  dow : Nat
  year : Nat
  yday : Nat
  isdst : Int
  deriving DecidableEq, Repr

/-- The year loop of `clock_datetime`: the days left over and the year reached. -/
def yearLoop (days year : Nat) : Nat × Nat :=
  if 365 ≤ days then
    if isLeapYear year then
      -- a leap year is not over after 365 days
      if days = 365 then (days, year)
      else yearLoop (days - 1 - 365) (year + 1)
    else yearLoop (days - 365) (year + 1)
  else (days, year)
termination_by days
decreasing_by all_goals omega

/-- The month loop of `clock_datetime` from the given entry of `clock_monthdays` on:
the zero-based month reached and the days left over. -/
def monthLoop (leap : Bool) : List Nat → Nat → Nat → Nat × Nat
  | [], month, days => (month, days)
  | entry :: entries, month, days =>
      let monthdays := if month = 1 ∧ leap then entry + 1 else entry
      if days < monthdays then (month, days)
      else monthLoop leap entries (month + 1) (days - monthdays)

def clockDatetime (t : Nat) : ClockDatetime :=
  let days := t / 60 / 60 / 24 % 2 ^ 16
  let reached := yearLoop days epochYear
  let left := monthLoop (isLeapYear reached.2) clockMonthdays 0 reached.1
  { sec := t % 60
    min := t / 60 % 60
    hour := t / 60 / 60 % 24
    day := (left.2 % 2 ^ 8 + 1) % 2 ^ 8
    month := left.1 + 1
    dow := (days + epochDow) % 7
    year := (reached.2 - epochCentury) % 2 ^ 8
    yday := reached.1
    isdst := 0 }

/-- Zeller's congruence, in the signed arithmetic of `clock_dow`. -/
def clockDow (day month year : Nat) : Nat :=
  let y : Int := year + epochCentury
  let m : Int := Int.bmod (month - 2) (2 ^ 8)
  let y' := if m ≤ 0 then y - 1 else y
  let m' := if m ≤ 0 then Int.bmod (m + 12) (2 ^ 8) else m
  (((83 * m').tdiv 32 + day + y' + y'.tdiv 4 - y'.tdiv 100 + y'.tdiv 400).tmod 7
    % 2 ^ 8).toNat

/-- The day of the year.  The leap rule is applied to the years since 1900. -/
def clockYday (day month year : Nat) : Nat :=
  let yday := (clockMonthydays (isLeapYear year)).getD (month - 1) 0
  (yday + day + (2 ^ 16 - 1)) % 2 ^ 16

def clockDateToTimestamp (day month year : Nat) : Nat :=
  let y := year + epochCentury
  let days : Int := (y - epochYear) * 365 + ((y - 1) / 4 - epochYear / 4)
  let days := ((days + clockYday day month year) % 2 ^ 16).toNat
  days * 86400 % 2 ^ 32

structure ClockDst where
  month : Nat
  week : Nat
  dow : Nat
  hour : Nat

/-- The configured time zone; the offsets are the 32-bit readings of the signed
seconds. -/
structure ClockTimezone where
  utctime : UInt32
  dsttime : UInt32
  dstbegin : ClockDst
  dstend : ClockDst

structure DstChange where
  whenChanged : Nat
  year : Int

/-- The static array `dst_change`: the begin and the end of daylight saving time. -/
structure DstChanges where
  beginning : DstChange
  ending : DstChange

def initialDstChanges : DstChanges :=
  ⟨⟨0, -1⟩, ⟨0, -1⟩⟩

/-- The week loop of `clock_compute_change`, with its remaining rounds. -/
def weekLoop (monthdays : Nat) : Nat → Int → Int
  | 0, day => day
  | rounds + 1, day =>
      if day + 7 ≥ monthdays then day
      else weekLoop monthdays rounds (day + 7)

/-- The new cache entry and whether it was computed. -/
def clockComputeChange (tz : ClockTimezone) (change : DstChange) (dst : ClockDst)
    (year : Nat) : DstChange × Bool :=
  if change.year = year then (change, false)
  else
    let day := Int.bmod (dst.dow - clockDow 1 dst.month year) (2 ^ 8)
    let day := if day < 0 then day + 7 else day
    let day := weekLoop (clockMonthDays dst.month) (dst.week - 1) day + 1
    let t := clockDateToTimestamp (day % 2 ^ 8).toNat dst.month year
    let t := (t + (2 ^ 32 - tz.utctime.toNat)) % 2 ^ 32
    (⟨(t + dst.hour * 3600) % 2 ^ 32, Int.bmod year (2 ^ 8)⟩, true)

def clockTzCompute (tz : ClockTimezone) (changes : DstChanges) (year : Nat) : DstChanges :=
  let beginning := (clockComputeChange tz changes.beginning tz.dstbegin year).1
  let (ending, computed) := clockComputeChange tz changes.ending tz.dstend year
  -- the end of daylight saving time is configured in daylight saving time
  if computed then
    ⟨beginning, { ending with
      whenChanged := (ending.whenChanged + (2 ^ 32 - tz.dsttime.toNat)) % 2 ^ 32 }⟩
  else ⟨beginning, ending⟩

def clockIsDst (tz : ClockTimezone) (changes : DstChanges) (t : Nat) : Bool :=
  if tz.dsttime = 0 then false
  else if changes.beginning.whenChanged > changes.ending.whenChanged then
    t < changes.ending.whenChanged ∨ t ≥ changes.beginning.whenChanged
  else t ≥ changes.beginning.whenChanged ∧ t < changes.ending.whenChanged

/-- What `clock_mktime` returns, and what it leaves in `*d` and in `dst_change`. -/
def clockMktime (tz : ClockTimezone) (changes : DstChanges) (d : ClockDatetime)
    (islocal : Bool) : Nat × ClockDatetime × DstChanges :=
  let t := clockDateToTimestamp d.day d.month d.year
  let t := (t + 3600 * d.hour) % 2 ^ 32
  let t := (t + 60 * d.min) % 2 ^ 32
  let t := (t + d.sec) % 2 ^ 32
  let dow := clockDow d.day d.month d.year
  if islocal then
    let t := (t + (2 ^ 32 - tz.utctime.toNat)) % 2 ^ 32
    let changes := if d.isdst < 0 then clockTzCompute tz changes d.year else changes
    let isdst : Int := if d.isdst < 0 then (clockIsDst tz changes t).toNat else d.isdst
    let t := if isdst > 0 then (t + (2 ^ 32 - tz.dsttime.toNat)) % 2 ^ 32 else t
    (t, { d with isdst := isdst, dow := dow }, changes)
  else (t, { d with dow := dow }, changes)

theorem isLeapYear_eq (y : Nat) : isLeapYear y = GregorianCalendar.isLeapYear y := by
  simp only [isLeapYear, GregorianCalendar.isLeapYear, Nat.dvd_iff_mod_eq_zero, ne_eq]

/-- The year loop moves whole years from the days into the year. -/
theorem yearLoop_spec {days year : Nat} (positive : 0 < year) :
    year ≤ (yearLoop days year).2 ∧
      daysBeforeYear (yearLoop days year).2 + (yearLoop days year).1 =
        daysBeforeYear year + days ∧
      (yearLoop days year).1 < yearLength (yearLoop days year).2 := by
  fun_induction yearLoop days year with
  | case1 year leap full =>
      simp [yearLength, ← isLeapYear_eq, leap]
  | case2 days year full leap more ih =>
      obtain ⟨later, total, short⟩ := ih (by omega)
      have next := daysBeforeYear_succ positive
      simp only [yearLength, ← isLeapYear_eq, leap, if_true] at next
      exact ⟨by omega, by omega, short⟩
  | case3 days year full normal ih =>
      obtain ⟨later, total, short⟩ := ih (by omega)
      have next := daysBeforeYear_succ positive
      simp only [yearLength, ← isLeapYear_eq, normal] at next
      exact ⟨by omega, by simp at next; omega, short⟩
  | case4 days year short =>
      refine ⟨le_rfl, rfl, ?_⟩
      unfold yearLength
      split <;> omega

/-- The lengths the month loop compares with, from the given month on. -/
def monthLengthsFrom (leap : Bool) : Nat → List Nat → List Nat
  | _, [] => []
  | month, entry :: entries =>
      (if month = 1 ∧ leap then entry + 1 else entry) ::
        monthLengthsFrom leap (month + 1) entries

theorem monthLoop_eq_locate (leap : Bool) (entries : List Nat) (month days : Nat) :
    monthLoop leap entries month days =
      (month + (locate (monthLengthsFrom leap month entries) days).1,
        (locate (monthLengthsFrom leap month entries) days).2) := by
  induction entries generalizing month days with
  | nil => rfl
  | cons entry entries ih =>
      simp only [monthLoop, monthLengthsFrom, locate]
      generalize (if month = 1 ∧ leap then entry + 1 else entry) = monthdays
      by_cases inside : days < monthdays
      · simp [inside]
      · simp [inside, ih]
        omega

theorem monthLengthsFrom_clockMonthdays (leap : Bool) :
    monthLengthsFrom leap 0 clockMonthdays = monthLengths leap := by
  cases leap <;> rfl

theorem clockMonthydays_getD (leap : Bool) {month : Nat} (isMonth : month < 12) :
    (clockMonthydays leap).getD month 0 = daysBeforeMonth leap month := by
  revert month leap
  decide

/-- The zero-based month and day of a year are the date of a timestamp. -/
structure IsDateOf (t year month day : Nat) : Prop where
  epoch : 1970 ≤ year
  isMonth : month < 12
  dayBound : day < (monthLengths (isLeapYear year)).getD month 0
  total : daysBeforeYear year + (daysBeforeMonth (isLeapYear year) month + day) =
    daysBeforeYear 1970 + t / 86400

theorem monthLengths_getD_le (leap : Bool) {month : Nat} (isMonth : month < 12) :
    (monthLengths leap).getD month 0 ≤ 31 := by
  revert month leap
  decide

/-- No date of a 32-bit timestamp lies after 2106. -/
theorem IsDateOf.year_le {t year month day : Nat} (date : IsDateOf t year month day)
    (isWord : t < 2 ^ 32) : year ≤ 2106 := by
  have total := date.total
  simp only [daysBeforeYear] at total
  omega

/-- The loops of `clock_datetime` find the date of its timestamp. -/
theorem loops_isDateOf (t : Nat) :
    ∃ days year month day, yearLoop (t / 86400) epochYear = (days, year) ∧
      monthLoop (isLeapYear year) clockMonthdays 0 days = (month, day) ∧
      IsDateOf t year month day ∧ days = daysBeforeMonth (isLeapYear year) month + day := by
  obtain ⟨later, total, short⟩ := @yearLoop_spec (t / 86400) epochYear (by decide)
  generalize yearLoop (t / 86400) epochYear = reached at later total short ⊢
  have bounded : reached.1 < (monthLengths (isLeapYear reached.2)).sum := by
    rw [GregorianCalendar.monthLengths_sum, isLeapYear_eq]
    exact short
  have walked := monthLoop_eq_locate (isLeapYear reached.2) clockMonthdays 0 reached.1
  rw [monthLengthsFrom_clockMonthdays, Nat.zero_add] at walked
  have sum := locate_sum bounded
  generalize monthEnds : locate (monthLengths (isLeapYear reached.2)) reached.1 = left
    at walked sum
  have isMonth : left.1 < 12 := monthEnds ▸ locate_lt bounded
  have dayBound : left.2 < (monthLengths (isLeapYear reached.2)).getD left.1 0 :=
    monthEnds ▸ locate_rest_lt bounded
  have date : IsDateOf t reached.2 left.1 left.2 :=
    ⟨later, isMonth, dayBound, by rw [daysBeforeMonth, sum]; exact total⟩
  exact ⟨reached.1, reached.2, left.1, left.2, rfl, walked, date, sum.symm⟩

/-- `clock_datetime` finds the date of its timestamp. -/
theorem clockDatetime_isDateOf {t : Nat} (isWord : t < 2 ^ 32) :
    ∃ year month day, IsDateOf t year month day ∧
      (clockDatetime t).year = year - 1900 ∧ (clockDatetime t).month = month + 1 ∧
      (clockDatetime t).day = day + 1 ∧
      (clockDatetime t).yday = daysBeforeMonth (isLeapYear year) month + day := by
  have days : t / 60 / 60 / 24 % 2 ^ 16 = t / 86400 := by omega
  obtain ⟨rest, year, month, day, yearEnds, monthEnds, date, sum⟩ := loops_isDateOf t
  refine ⟨year, month, day, date, ?_, ?_, ?_, ?_⟩
  · have := date.year_le isWord
    simp only [clockDatetime, days, yearEnds, epochCentury]
    omega
  · simp only [clockDatetime, days, yearEnds, monthEnds]
  · have := monthLengths_getD_le (isLeapYear year) date.isMonth
    have := date.dayBound
    simp only [clockDatetime, days, yearEnds, monthEnds]
    omega
  · simp only [clockDatetime, days, yearEnds, sum]

/-- The leap rule on the years since 1900 differs only in the year 2000. -/
theorem isLeapYear_sub_century {year : Nat} (first : 1901 ≤ year) (bounded : year ≤ 2155) :
    isLeapYear (year - 1900) = if year = 2000 then false else isLeapYear year := by
  by_cases century : year = 2000
  · subst century
    rfl
  · rw [if_neg century]
    simp only [isLeapYear, decide_eq_decide]
    omega

/-- Between 1970 and 2106 the centuries change the day count only after 2100. -/
theorem daysBeforeYear_eq {year : Nat} (epoch : 1970 ≤ year) (bounded : year ≤ 2106) :
    daysBeforeYear year + 15 + (if 2101 ≤ year then 1 else 0) =
      365 * (year - 1) + (year - 1) / 4 := by
  unfold daysBeforeYear
  split <;> omega

theorem daysBeforeMonth_le (leap : Bool) {month : Nat} (isMonth : month < 12) :
    daysBeforeMonth leap month ≤ 366 := by
  revert month leap
  decide

/-- In the year 2000 every day after February is counted one day too early. -/
theorem daysBeforeMonth_normal {month : Nat} (isMonth : month < 12) :
    daysBeforeMonth false month + (if 2 ≤ month then 1 else 0) = daysBeforeMonth true month := by
  revert month
  decide

theorem clockYday_eq_add (year : Nat) {month day : Nat} (isMonth : month < 12)
    (small : day ≤ 31) :
    clockYday (day + 1) (month + 1) year = daysBeforeMonth (isLeapYear year) month + day := by
  have bounded := daysBeforeMonth_le (isLeapYear year) isMonth
  simp only [clockYday, Nat.add_sub_cancel, clockMonthydays_getD _ isMonth]
  omega

theorem clockYday_eq {year month day : Nat} (first : 1901 ≤ year) (last : year ≤ 2155)
    (isMonth : month < 12) (isDay : day < (monthLengths (isLeapYear year)).getD month 0) :
    clockYday (day + 1) (month + 1) (year - 1900) + (if year = 2000 ∧ 2 ≤ month then 1 else 0) =
      daysBeforeMonth (isLeapYear year) month + day := by
  have dayBound := monthLengths_getD_le (isLeapYear year) isMonth
  rw [clockYday_eq_add _ isMonth (by omega), isLeapYear_sub_century first last]
  by_cases century : year = 2000
  · subst century
    have normal := daysBeforeMonth_normal isMonth
    rw [if_pos rfl, show isLeapYear 2000 = true from rfl]
    simp only [true_and]
    omega
  · simp [century]

/-- By how many days `clock_date_to_timestamp` misses the date: the leap rule of
`clock_yday` drops 29 February 2000, the leap-day count keeps 29 February 2100. -/
def dayShift (year month : Nat) : Int :=
  if year = 2000 ∧ 2 ≤ month then -1 else if 2101 ≤ year then 1 else 0

theorem IsDateOf.clockDateToTimestamp_eq {t year month day : Nat}
    (date : IsDateOf t year month day) (isWord : t < 2 ^ 32) :
    (clockDateToTimestamp (day + 1) (month + 1) (year - 1900) : Int) =
      (86400 * ((t / 86400 : Nat) + dayShift year month)) % 2 ^ 32 := by
  have epoch := date.epoch
  have yearBound := date.year_le isWord
  have yday := clockYday_eq (by omega) (by omega) date.isMonth date.dayBound
  have total := date.total
  rw [← yday] at total
  have century : year - 1900 + 1900 = year := by omega
  simp only [clockDateToTimestamp, epochCentury, epochYear, century]
  generalize clockYday (day + 1) (month + 1) (year - 1900) = codeYday at *
  have days : ((year : Int) - 1970) * 365 + (((year : Int) - 1) / 4 - 1970 / 4) + codeYday =
      (t / 86400 : Nat) + dayShift year month := by
    have before := daysBeforeYear_eq epoch yearBound
    have first : daysBeforeYear 1970 = 719162 := rfl
    unfold dayShift
    split_ifs at * <;> omega
  have fits : (t / 86400 : Nat) + dayShift year month < 2 ^ 16 ∧
      0 ≤ (t / 86400 : Nat) + dayShift year month := by
    unfold dayShift at *
    split_ifs at * <;> omega
  rw [Int.natCast_mod, Int.natCast_mul]
  simp only [Nat.cast_ofNat, days]
  rw [Int.emod_eq_of_lt fits.2 fits.1, Int.toNat_of_nonneg fits.2, mul_comm]
  rfl

/-- The fields of `clock_datetime` below the day add up to the seconds of the day. -/
theorem clockDatetime_time (t : Nat) :
    3600 * (clockDatetime t).hour + 60 * (clockDatetime t).min + (clockDatetime t).sec =
      t % 86400 := by
  simp only [clockDatetime]
  omega

theorem clockMktime_utc (tz : ClockTimezone) (changes : DstChanges) (d : ClockDatetime) :
    (clockMktime tz changes d false).1 =
      (clockDateToTimestamp d.day d.month d.year + (3600 * d.hour + 60 * d.min + d.sec)) %
        2 ^ 32 := by
  simp only [clockMktime, Bool.false_eq_true, if_false]
  omega

/-- The round trip moves a timestamp by the days its date is missed by. -/
theorem clockMktime_clockDatetime (tz : ClockTimezone) (changes : DstChanges) {t : Nat}
    (isWord : t < 2 ^ 32) :
    ∃ year month day, IsDateOf t year month day ∧
      ((clockMktime tz changes (clockDatetime t) false).1 : Int) =
        (t + 86400 * dayShift year month) % 2 ^ 32 := by
  obtain ⟨year, month, day, date, yearEq, monthEq, dayEq, -⟩ := clockDatetime_isDateOf isWord
  refine ⟨year, month, day, date, ?_⟩
  have stamp := date.clockDateToTimestamp_eq isWord
  rw [clockMktime_utc, clockDatetime_time, yearEq, monthEq, dayEq]
  generalize clockDateToTimestamp (day + 1) (month + 1) (year - 1900) = dateStamp at stamp
  omega

theorem daysBeforeMonth_add_le (leap : Bool) {month : Nat} (isMonth : month < 12) :
    daysBeforeMonth leap month + (monthLengths leap).getD month 0 ≤
      if leap then 366 else 365 := by
  revert month leap
  decide

/-- January and February of a leap year have 60 days. -/
theorem daysBeforeMonth_leap {month : Nat} (isMonth : month < 12) :
    if 2 ≤ month then 60 ≤ daysBeforeMonth true month
    else daysBeforeMonth true month + (monthLengths true).getD month 0 ≤ 60 := by
  revert month
  decide

theorem IsDateOf.dayShift_eq_zero_iff {t year month day : Nat}
    (date : IsDateOf t year month day) (isWord : t < 2 ^ 32) :
    dayShift year month = 0 ↔ (t < 951868800 ∨ 978307200 ≤ t) ∧ t < 4133980800 := by
  have total := date.total
  have before := daysBeforeYear_eq date.epoch (date.year_le isWord)
  have dayBound := date.dayBound
  have yearEnd := daysBeforeMonth_add_le (isLeapYear year) date.isMonth
  have first : daysBeforeYear 1970 = 719162 := rfl
  unfold dayShift
  by_cases year2000 : year = 2000
  · subst year2000
    rw [show isLeapYear 2000 = true from rfl] at *
    have february := daysBeforeMonth_leap date.isMonth
    simp only [if_true] at yearEnd
    by_cases spring : 2 ≤ month
    · rw [if_pos spring] at february
      simp [spring] at before ⊢
      omega
    · rw [if_neg spring] at february
      simp [spring] at before ⊢
      omega
  · by_cases year2100 : year = 2100
    · subst year2100
      rw [show isLeapYear 2100 = false from rfl] at *
      simp only [Bool.false_eq_true, if_false] at yearEnd
      simp at before ⊢
      omega
    · have short : (if isLeapYear year then 366 else 365) ≤ 366 := by split <;> decide
      simp only [year2000, false_and, if_false]
      split_ifs at before ⊢ <;> omega

/-- The date of a timestamp leads back to the timestamp. -/
def RoundTrips (tz : ClockTimezone) (changes : DstChanges) (t : Nat) : Prop :=
  (clockMktime tz changes (clockDatetime t) false).1 = t

/-- The round trip fails from 1 March 2000 to the end of that year and from 2101 on. -/
theorem roundTrips_iff (tz : ClockTimezone) (changes : DstChanges) (t : Nat)
    (isWord : t < 2 ^ 32) :
    RoundTrips tz changes t ↔ (t < 951868800 ∨ 978307200 ≤ t) ∧ t < 4133980800 := by
  obtain ⟨year, month, day, date, result⟩ := clockMktime_clockDatetime tz changes isWord
  rw [← date.dayShift_eq_zero_iff isWord, RoundTrips, ← Int.natCast_inj, result]
  have small : dayShift year month = -1 ∨ dayShift year month = 0 ∨ dayShift year month = 1 := by
    unfold dayShift
    split_ifs <;> simp
  rcases small with shift | shift | shift
  all_goals
    rw [shift]
    omega

/-- Central European time, as configured by default. -/
def centralEurope : ClockTimezone :=
  ⟨3600, 3600, ⟨3, 5, 0, 2⟩, ⟨10, 5, 0, 3⟩⟩

theorem roundTrips_epoch :
    RoundTrips centralEurope initialDstChanges 0 :=
  (roundTrips_iff centralEurope initialDstChanges 0 (by decide)).2 (by decide)

/-- Midnight of 1 March 2000 comes back as midnight of 29 February. -/
theorem march2000_not_roundTrips :
    ¬ ∀ tz changes t, t < 2 ^ 32 → RoundTrips tz changes t := by
  intro always
  have value : (clockMktime centralEurope initialDstChanges (clockDatetime 951868800) false).1 =
      951782400 := by
    decide +kernel
  have := always centralEurope initialDstChanges 951868800 (by decide)
  rw [RoundTrips, value] at this
  exact absurd this (by decide)

end Ethersex.Clock

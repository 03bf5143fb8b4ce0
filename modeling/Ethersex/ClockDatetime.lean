import Ethersex.ClockCalendar

/-!
# The calendar date of every timestamp

`clock_datetime` computes in 8 and 16 bit variables.  A second reading of it, in
arithmetic that stops at the first value its variable cannot hold, never stops, so
no intermediate result overflows; and the date it yields is the date of the
Gregorian calendar, with the weekday that `clock_dow` finds on its own.
-/

namespace Ethersex.Clock

open GregorianCalendar (daysBeforeYear daysBeforeYear_succ yearLength monthLengths daysBeforeMonth
  dayNumber weekday)

/-- A value that must be held by an unsigned variable of the given width. -/
def held (width : Nat) (value : Int) : Option Nat :=
  if 0 ≤ value ∧ value < 2 ^ width then some value.toNat else none

theorem held_eq_some {width : Nat} {value : Int} {number : Nat} (same : value = number)
    (fits : number < 2 ^ width) : held width value = some number := by
  have bound : (number : Int) < 2 ^ width := by exact_mod_cast fits
  simp [held, same, bound]

/-- The year loop with every assignment checked; `none` also when the rounds run out. -/
def checkedYearLoop : Nat → Nat → Nat → Option (Nat × Nat)
  | 0, _, _ => none
  | rounds + 1, days, year =>
      if 365 ≤ days then
        if isLeapYear year then
          if days = 365 then some (days, year)
          else do
            let days ← held 16 (days - 1)
            let days ← held 16 (days - 365)
            let year ← held 16 (year + 1)
            checkedYearLoop rounds days year
        else do
          let days ← held 16 (days - 365)
          let year ← held 16 (year + 1)
          checkedYearLoop rounds days year
      else some (days, year)

/-- The month loop with every assignment and every access to `clock_monthdays` checked. -/
def checkedMonthLoop (leap : Bool) : Nat → Nat → Nat → Option (Nat × Nat)
  | 0, _, _ => none
  | rounds + 1, month, days => do
      let entry ← clockMonthdays[month]?
      let monthdays ← (if month = 1 ∧ leap then held 8 (entry + 1) else some entry)
      if days < monthdays then some (month, days)
      else do
        let days ← held 16 (days - monthdays)
        let month ← held 8 (month + 1)
        checkedMonthLoop leap rounds month days

/-- `clock_datetime` with every assignment checked and the given rounds for each loop. -/
def checkedDatetime (rounds t : Nat) : Option ClockDatetime := do
  let sec ← held 8 (t % 60)
  let min ← held 8 (t / 60 % 60)
  let hour ← held 8 (t / 60 / 60 % 24)
  let days ← held 16 (t / 60 / 60 / 24)
  let shifted ← held 16 (days + epochDow)
  let dow ← held 8 (shifted % 7)
  let reached ← checkedYearLoop rounds days epochYear
  let year ← held 8 (reached.2 - epochCentury)
  let left ← checkedMonthLoop (isLeapYear reached.2) rounds 0 reached.1
  let month ← held 8 (left.1 + 1)
  let cropped ← held 8 left.2
  let day ← held 8 (cropped + 1)
  some { sec, min, hour, day, month, dow, year, yday := reached.1, isdst := 0 }

theorem checkedYearLoop_eq {rounds days year : Nat} (enough : days < 365 * rounds)
    (fitsDays : days < 2 ^ 16) (fitsYear : year + rounds < 2 ^ 16) :
    checkedYearLoop rounds days year = some (yearLoop days year) := by
  induction rounds generalizing days year with
  | zero => omega
  | succ rounds ih =>
      unfold checkedYearLoop yearLoop
      by_cases full : 365 ≤ days
      · by_cases leap : isLeapYear year
        · by_cases last : days = 365
          · simp [leap, last]
          · have first : held 16 ((days : Int) - 1) = some (days - 1) :=
              held_eq_some (by omega) (by omega)
            have second : held 16 (((days - 1 : Nat) : Int) - 365) = some (days - 1 - 365) :=
              held_eq_some (by omega) (by omega)
            have next : held 16 ((year : Int) + 1) = some (year + 1) :=
              held_eq_some (by omega) (by omega)
            simp only [full, leap, last, if_true, if_false, first, second, next,
              Option.bind_eq_bind, Option.bind_some]
            exact ih (by omega) (by omega) (by omega)
        · have rest : held 16 ((days : Int) - 365) = some (days - 365) :=
            held_eq_some (by omega) (by omega)
          have next : held 16 ((year : Int) + 1) = some (year + 1) :=
            held_eq_some (by omega) (by omega)
          simp only [full, leap, if_true, rest, next, Option.bind_eq_bind, Option.bind_some]
          exact ih (by omega) (by omega) (by omega)
      · simp [full]

/-- A count below the lengths from a month on never leaves the table. -/
theorem checkedMonthLoop_eq (leap : Bool) {rounds month days : Nat}
    (enough : 12 < month + rounds) (fitsDays : days < 2 ^ 16)
    (bounded : days < (monthLengthsFrom leap month (clockMonthdays.drop month)).sum) :
    checkedMonthLoop leap rounds month days =
      some (monthLoop leap (clockMonthdays.drop month) month days) := by
  have isMonth : month < 12 := by
    by_contra past
    have none : clockMonthdays.drop month = [] :=
      List.drop_eq_nil_of_le (by simpa [clockMonthdays] using Nat.le_of_not_lt past)
    simp [none, monthLengthsFrom] at bounded
  induction rounds generalizing month days with
  | zero => omega
  | succ rounds ih =>
      have inside : month < clockMonthdays.length := isMonth
      have small : clockMonthdays[month] ≤ 31 :=
        (by decide : ∀ entry ∈ clockMonthdays, entry ≤ 31) _ (List.getElem_mem inside)
      rw [List.drop_eq_getElem_cons inside] at bounded ⊢
      generalize entryIs : clockMonthdays[month] = entry at small bounded ⊢
      have found : clockMonthdays[month]? = some entry := by
        rw [List.getElem?_eq_getElem inside, entryIs]
      have adjusted : (if month = 1 ∧ leap = true then held 8 ((entry : Int) + 1)
          else some entry) = some (if month = 1 ∧ leap = true then entry + 1 else entry) := by
        split
        · exact held_eq_some (by omega) (by omega)
        · rfl
      simp only [checkedMonthLoop, monthLoop, monthLengthsFrom, List.sum_cons, found, adjusted,
        Option.bind_eq_bind, Option.bind_some] at bounded ⊢
      generalize (if month = 1 ∧ leap = true then entry + 1 else entry) = monthdays at bounded ⊢
      by_cases ends : days < monthdays
      · simp [ends]
      · have rest : held 16 ((days : Int) - monthdays) = some (days - monthdays) :=
          held_eq_some (by omega) (by omega)
        have next : held 8 ((month : Int) + 1) = some (month + 1) :=
          held_eq_some (by omega) (by omega)
        have more : month + 1 < 12 := by
          by_contra past
          have none : clockMonthdays.drop (month + 1) = [] :=
            List.drop_eq_nil_of_le (by simpa [clockMonthdays] using Nat.le_of_not_lt past)
          simp [none, monthLengthsFrom] at bounded
          omega
        simp only [ends, if_false, rest, next, Option.bind_some]
        exact ih (by omega) (by omega) (by omega) more

theorem bind_of_eq_some {First Second : Type} {value : Option First} {first : First}
    (isSome : value = some first) (rest : First → Option Second) :
    (value >>= rest) = rest first := by
  rw [isSome]
  rfl

/-- No assignment of `clock_datetime` overflows, and both loops end. -/
theorem checkedDatetime_eq {rounds t : Nat} (isWord : t < 2 ^ 32) (enough : 137 ≤ rounds)
    (few : rounds < 2 ^ 15) : checkedDatetime rounds t = some (clockDatetime t) := by
  have days : t / 60 / 60 / 24 = t / 86400 := by omega
  have cropped : t / 86400 % 2 ^ 16 = t / 86400 := by omega
  obtain ⟨rest, year, month, day, yearEnds, monthEnds, date, sum⟩ := loops_isDateOf t
  have yearBound := date.year_le isWord
  have epoch := date.epoch
  have isMonth := date.isMonth
  have dayBound := monthLengths_getD_le (isLeapYear year) isMonth
  have dayShort := date.dayBound
  have years := @checkedYearLoop_eq rounds (t / 86400) epochYear (by omega) (by omega)
    (by unfold epochYear; omega)
  have restShort : rest < (monthLengths (isLeapYear year)).sum := by
    have := daysBeforeMonth_add_le (isLeapYear year) isMonth
    rw [GregorianCalendar.monthLengths_sum]
    omega
  have months := @checkedMonthLoop_eq (isLeapYear year) rounds 0 rest (by omega)
    (by have := daysBeforeMonth_le (isLeapYear year) isMonth; omega)
    (by rwa [List.drop_zero, monthLengthsFrom_clockMonthdays])
  rw [yearEnds] at years
  rw [List.drop_zero, monthEnds] at months
  have sec : held 8 ((t : Int) % 60) = some (t % 60) := held_eq_some (by omega) (by omega)
  have min : held 8 ((t : Int) / 60 % 60) = some (t / 60 % 60) :=
    held_eq_some (by omega) (by omega)
  have hour : held 8 ((t : Int) / 60 / 60 % 24) = some (t / 60 / 60 % 24) :=
    held_eq_some (by omega) (by omega)
  have day16 : held 16 ((t : Int) / 60 / 60 / 24) = some (t / 86400) :=
    held_eq_some (by omega) (by omega)
  have shifted : held 16 ((t / 86400 : Nat) + (epochDow : Nat)) = some (t / 86400 + 4) :=
    held_eq_some (by simp [epochDow]) (by omega)
  have dow : held 8 ((t / 86400 + 4 : Nat) % 7) = some ((t / 86400 + 4) % 7) :=
    held_eq_some (by omega) (by omega)
  have year8 : held 8 ((year : Int) - (epochCentury : Nat)) = some (year - 1900) :=
    held_eq_some (by unfold epochCentury; omega) (by omega)
  have month8 : held 8 ((month : Int) + 1) = some (month + 1) :=
    held_eq_some (by omega) (by omega)
  have day8 : held 8 (day : Int) = some day := held_eq_some rfl (by omega)
  have nextDay : held 8 ((day : Int) + 1) = some (day + 1) := held_eq_some (by omega) (by omega)
  have result : clockDatetime t = ⟨t % 60, t / 60 % 60, t / 60 / 60 % 24, day + 1, month + 1,
      (t / 86400 + 4) % 7, year - 1900, rest, 0⟩ := by
    unfold clockDatetime
    simp only [days, cropped, yearEnds, monthEnds, ClockDatetime.mk.injEq, true_and, and_true,
      epochCentury, epochDow]
    omega
  unfold checkedDatetime
  rw [bind_of_eq_some sec, bind_of_eq_some min, bind_of_eq_some hour, bind_of_eq_some day16,
    bind_of_eq_some shifted, bind_of_eq_some dow, bind_of_eq_some years, bind_of_eq_some year8,
    bind_of_eq_some months, bind_of_eq_some month8, bind_of_eq_some day8,
    bind_of_eq_some nextDay, result]

/-- From March on the days left in a year do not depend on its leap day. -/
theorem daysBeforeMonth_spring (leap : Bool) {month : Nat} (isMonth : month < 12) :
    daysBeforeMonth leap month =
      if month < 2 then daysBeforeMonth false month
      else daysBeforeMonth false month + leap.toNat := by
  revert month leap
  decide

/-- The sum of Zeller's congruence counts the days of all years up to the given one. -/
theorem zeller_eq (day : Nat) {term y : Int} {shift year : Nat} (termEq : term = shift)
    (yearEq : y = year) :
    ((term + (day + 1 : Nat) + y + y.tdiv 4 - y.tdiv 100 + y.tdiv 400).tmod 7 % 2 ^ 8).toNat =
      weekday (daysBeforeYear (year + 1) + (shift + day)) := by
  subst termEq yearEq
  have nonneg : (0 : Int) ≤ year := Int.natCast_nonneg year
  rw [Int.tdiv_eq_ediv_of_nonneg nonneg, Int.tdiv_eq_ediv_of_nonneg nonneg,
    Int.tdiv_eq_ediv_of_nonneg nonneg, Int.tmod_eq_emod_of_nonneg (by omega)]
  have sum : ((shift : Int) + (day + 1 : Nat) + year + year / 4 - year / 100 + year / 400) =
      (shift + (day + 1) + year + year / 4 - year / 100 + year / 400 : Nat) := by
    omega
  have reduced : ∀ total : Nat, ((total : Int) % 7 % 2 ^ 8).toNat = total % 7 := by
    intro total
    omega
  rw [sum, reduced]
  simp only [weekday, daysBeforeYear, Nat.add_sub_cancel]
  omega

theorem clockDow_eq_zeller (year day : Nat) {month : Nat} (isMonth : month < 12) :
    clockDow (day + 1) (month + 1) year =
      if month < 2 then weekday (daysBeforeYear (year + 1900) + (83 * (month + 11) / 32 + day))
      else weekday (daysBeforeYear (year + 1901) + (83 * (month - 1) / 32 + day)) := by
  have shifted : Int.bmod ((month + 1 : Nat) - 2) (2 ^ 8) = month - 1 := by
    revert month
    decide
  unfold clockDow
  simp only [shifted]
  by_cases winter : month < 2
  · have wrapped : Int.bmod ((month : Int) - 1 + 12) (2 ^ 8) = (month + 11 : Nat) := by
      revert month
      decide
    have early : (month : Int) - 1 ≤ 0 := by omega
    simp only [winter, early, if_true, wrapped]
    refine zeller_eq day ?_ (by unfold epochCentury; omega)
    rw [Int.tdiv_eq_ediv_of_nonneg (by omega)]
    omega
  · have late : ¬ (month : Int) - 1 ≤ 0 := by omega
    simp only [winter, late, if_false]
    refine zeller_eq day ?_ (by unfold epochCentury; omega)
    rw [Int.tdiv_eq_ediv_of_nonneg (by omega)]
    omega

/-- The month terms of the congruence, against the days before each month. -/
theorem zellerTerm_mod {month : Nat} (isMonth : month < 12) :
    if month < 2 then 83 * (month + 11) / 32 % 7 = daysBeforeMonth false month % 7
    else (83 * (month - 1) / 32 + 365) % 7 = daysBeforeMonth false month % 7 := by
  revert month
  decide

/-- Zeller's congruence finds the weekday of every date. -/
theorem clockDow_eq (year day : Nat) {month : Nat} (isMonth : month < 12) :
    clockDow (day + 1) (month + 1) year = weekday (dayNumber (year + 1900) month day) := by
  have next : daysBeforeYear (year + 1901) = _ := daysBeforeYear_succ (Nat.succ_pos (year + 1899))
  have before := daysBeforeMonth_spring (GregorianCalendar.isLeapYear (year + 1900)) isMonth
  have length : yearLength (year + 1900) =
      365 + (GregorianCalendar.isLeapYear (year + 1900)).toNat := by
    unfold yearLength
    cases GregorianCalendar.isLeapYear (year + 1900) <;> rfl
  have terms := zellerTerm_mod isMonth
  rw [clockDow_eq_zeller year day isMonth]
  simp only [dayNumber, before, weekday]
  split_ifs at * <;> omega

/-- The fields of a date are the Gregorian date and time, in UTC, of a timestamp. -/
structure IsUtcOf (d : ClockDatetime) (t : Nat) : Prop where
  sec : d.sec = t % 60
  min : d.min = t / 60 % 60
  hour : d.hour = t / 3600 % 24
  isMonth : 1 ≤ d.month ∧ d.month ≤ 12
  isDay : 1 ≤ d.day ∧ d.day ≤
    (monthLengths (GregorianCalendar.isLeapYear (d.year + 1900))).getD (d.month - 1) 0
  total : dayNumber (d.year + 1900) (d.month - 1) (d.day - 1) = dayNumber 1970 0 0 + t / 86400
  yday : d.yday = daysBeforeMonth (GregorianCalendar.isLeapYear (d.year + 1900)) (d.month - 1) +
    (d.day - 1)
  dow : d.dow = weekday (dayNumber (d.year + 1900) (d.month - 1) (d.day - 1))
  isdst : d.isdst = 0

theorem clockDatetime_isUtcOf {t : Nat} (isWord : t < 2 ^ 32) : IsUtcOf (clockDatetime t) t := by
  obtain ⟨year, month, day, date, yearEq, monthEq, dayEq, ydayEq⟩ := clockDatetime_isDateOf isWord
  have epoch := date.epoch
  have century : year - 1900 + 1900 = year := by omega
  have isMonth := date.isMonth
  have dayBound := date.dayBound
  have total : dayNumber year month day = dayNumber 1970 0 0 + t / 86400 := by
    have total := date.total
    rw [isLeapYear_eq] at total
    simp only [dayNumber, daysBeforeMonth, List.take_zero, List.sum_nil] at total ⊢
    omega
  have first : dayNumber 1970 0 0 = 719162 := rfl
  rw [isLeapYear_eq] at dayBound ydayEq
  constructor
  case sec => rfl
  case min => rfl
  case hour =>
    simp only [clockDatetime]
    omega
  case isMonth =>
    rw [monthEq]
    omega
  case isDay =>
    rw [yearEq, monthEq, dayEq, century, Nat.add_sub_cancel]
    omega
  case total => simpa only [yearEq, monthEq, dayEq, century, Nat.add_sub_cancel] using total
  case yday => simpa only [yearEq, monthEq, dayEq, century, Nat.add_sub_cancel] using ydayEq
  case dow =>
    simp only [yearEq, monthEq, dayEq, century, Nat.add_sub_cancel, total, first, weekday]
    simp only [clockDatetime, epochDow]
    omega
  case isdst => rfl

/-- For every timestamp `clock_datetime` ends without an overflow, with the date and time
of the timestamp and with the weekday `clock_dow` finds. -/
theorem clockDatetime_correct (t : UInt32) :
    (∃ rounds, checkedDatetime rounds t.toNat = some (clockDatetime t.toNat)) ∧
      IsUtcOf (clockDatetime t.toNat) t.toNat ∧
      clockDow (clockDatetime t.toNat).day (clockDatetime t.toNat).month
        (clockDatetime t.toNat).year = (clockDatetime t.toNat).dow := by
  have isWord : t.toNat < 2 ^ 32 := t.toNat_lt
  have date := clockDatetime_isUtcOf isWord
  refine ⟨⟨137, checkedDatetime_eq isWord le_rfl (by decide)⟩, date, ?_⟩
  generalize clockDatetime t.toNat = d at date ⊢
  have isMonth := date.isMonth
  have isDay := date.isDay
  have found := clockDow_eq d.year (d.day - 1) (by omega : d.month - 1 < 12)
  rw [Nat.sub_add_cancel isDay.1, Nat.sub_add_cancel isMonth.1] at found
  rw [found, date.dow]

end Ethersex.Clock

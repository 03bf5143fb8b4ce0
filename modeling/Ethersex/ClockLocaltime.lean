import Ethersex.ClockCalendar

/-!
# Local time and the cache of change instants

`clock_localtime` adds the offset of the time zone and, during daylight saving
time, a second offset; `clock_mktime` takes both off again.  The instants at which
daylight saving time begins and ends are computed once a year and kept in
`dst_change`, so every call depends on the calls before it.  The kept instants are
always those of the year they are kept for.
-/

namespace Ethersex.Clock

variable {tz : ClockTimezone} {changes : DstChanges}

/-- What `clock_localtime` leaves in `*d` and in `dst_change`. -/
def clockLocaltime (tz : ClockTimezone) (changes : DstChanges) (t : Nat) :
    ClockDatetime × DstChanges :=
  let localtime := (t + tz.utctime.toNat) % 2 ^ 32
  let d := clockDatetime localtime
  let changes := clockTzCompute tz changes d.year
  let isdst := clockIsDst tz changes t
  if isdst then
    ({ clockDatetime ((localtime + tz.dsttime.toNat) % 2 ^ 32) with isdst := 1 }, changes)
  else (d, changes)

def clockResetDstChange (changes : DstChanges) : DstChanges :=
  { beginning := { changes.beginning with year := -1 }
    ending := { changes.ending with year := -1 } }

/-- The seconds `clock_mktime` finds before it looks at the time zone. -/
def dateSeconds (d : ClockDatetime) : Nat :=
  (clockDateToTimestamp d.day d.month d.year + (3600 * d.hour + 60 * d.min + d.sec)) % 2 ^ 32

/-- Between 2001 and 2099 no day is lost or counted twice. -/
theorem dateSeconds_clockDatetime {t : Nat} (isWord : t < 2 ^ 32)
    (first : 101 ≤ (clockDatetime t).year) (last : (clockDatetime t).year ≤ 199) :
    dateSeconds (clockDatetime t) = t := by
  obtain ⟨year, month, day, date, yearEq, monthEq, dayEq, -⟩ := clockDatetime_isDateOf isWord
  have stamp := date.clockDateToTimestamp_eq isWord
  have noShift : dayShift year month = 0 := by
    unfold dayShift
    rw [if_neg (by omega), if_neg (by omega)]
  rw [noShift] at stamp
  rw [dateSeconds, clockDatetime_time, yearEq, monthEq, dayEq]
  generalize clockDateToTimestamp (day + 1) (month + 1) (year - 1900) = dateStamp at stamp
  omega

/-- With daylight saving time decided, the cache is not asked. -/
theorem clockMktime_local (tz : ClockTimezone) (changes : DstChanges) (d : ClockDatetime)
    (decided : 0 ≤ d.isdst) :
    (clockMktime tz changes d true).1 =
      (dateSeconds d + (2 ^ 32 - tz.utctime.toNat) +
        if 0 < d.isdst then 2 ^ 32 - tz.dsttime.toNat else 0) % 2 ^ 32 := by
  have notUndecided : ¬ d.isdst < 0 := by omega
  simp only [clockMktime, dateSeconds, notUndecided, if_true, if_false, gt_iff_lt]
  split <;> omega

/-- Local time is the date of the shifted timestamp, with the flag that says by how much. -/
theorem clockLocaltime_eq (tz : ClockTimezone) (changes : DstChanges) (t : Nat) :
    ∃ shifted, shifted < 2 ^ 32 ∧
      ((shifted = (t + tz.utctime.toNat) % 2 ^ 32 ∧
          (clockLocaltime tz changes t).1 = clockDatetime shifted) ∨
        (shifted = (t + tz.utctime.toNat + tz.dsttime.toNat) % 2 ^ 32 ∧
          (clockLocaltime tz changes t).1 = { clockDatetime shifted with isdst := 1 })) := by
  unfold clockLocaltime
  simp only
  split
  · refine ⟨_, Nat.mod_lt _ (by decide), Or.inr ⟨rfl, ?_⟩⟩
    rw [Nat.mod_add_mod]
  · exact ⟨_, Nat.mod_lt _ (by decide), Or.inl ⟨rfl, rfl⟩⟩

/-- Local time of the years 2001 to 2099 leads back to its timestamp, in every time zone
and whatever the cache holds. -/
theorem clockMktime_clockLocaltime (tz : ClockTimezone) (changes changes' : DstChanges)
    (t : UInt32) (d : ClockDatetime) (fills : (clockLocaltime tz changes t.toNat).1 = d)
    (first : 2001 ≤ d.year + 1900) (last : d.year + 1900 ≤ 2099) :
    (clockMktime tz changes' d true).1 = t.toNat := by
  have isWord : t.toNat < 2 ^ 32 := t.toNat_lt
  have offset : tz.utctime.toNat < 2 ^ 32 := tz.utctime.toNat_lt
  have dstOffset : tz.dsttime.toNat < 2 ^ 32 := tz.dsttime.toNat_lt
  obtain ⟨shifted, isWord', standard | summer⟩ := clockLocaltime_eq tz changes t.toNat
  · obtain ⟨shift, result⟩ := standard
    rw [result] at fills
    have isdst : d.isdst = 0 := fills ▸ rfl
    have seconds : dateSeconds d = shifted := by
      subst fills
      exact dateSeconds_clockDatetime isWord' (by omega) (by omega)
    rw [clockMktime_local tz changes' d isdst.ge, seconds, isdst, if_neg (by decide)]
    omega
  · obtain ⟨shift, result⟩ := summer
    rw [result] at fills
    have isdst : d.isdst = 1 := fills ▸ rfl
    have year : (clockDatetime shifted).year = d.year := fills ▸ rfl
    have seconds : dateSeconds d = shifted := by
      subst fills
      exact dateSeconds_clockDatetime isWord' (by omega) (by omega)
    rw [clockMktime_local tz changes' d (by omega), seconds, isdst, if_pos (by decide)]
    omega

/-- Half past two on 30 October 2005 in central Europe, for the first time. -/
theorem clockMktime_clockLocaltime_repeatedHour :
    (clockMktime centralEurope initialDstChanges
      (clockLocaltime centralEurope initialDstChanges 1130632200).1 true).1 = 1130632200 :=
  clockMktime_clockLocaltime centralEurope initialDstChanges initialDstChanges 1130632200 _ rfl
    (by decide +kernel) (by decide +kernel)

inductive ClockCall where
  | localtime (t : UInt32)
  | mktime (d : ClockDatetime) (islocal : Bool)
  | resetDstChange

/-- What a call hands to its caller. -/
inductive ClockAnswer where
  | datetime (d : ClockDatetime)
  | timestamp (t : Nat) (d : ClockDatetime)
  | nothing
  deriving DecidableEq

def perform (tz : ClockTimezone) (changes : DstChanges) : ClockCall → ClockAnswer × DstChanges
  | .localtime t =>
      let (d, changes) := clockLocaltime tz changes t.toNat
      (.datetime d, changes)
  | .mktime d islocal =>
      let (t, d, changes) := clockMktime tz changes d islocal
      (.timestamp t d, changes)
  | .resetDstChange => (.nothing, clockResetDstChange changes)

/-- The answers to a sequence of calls. -/
def answers (tz : ClockTimezone) : DstChanges → List ClockCall → List ClockAnswer
  | _, [] => []
  | changes, call :: calls =>
      (perform tz changes call).1 :: answers tz (perform tz changes call).2 calls

/-- The year of a date is an 8-bit field. -/
def ClockCall.WellFormed : ClockCall → Prop
  | .localtime _ => True
  | .mktime d _ => d.year < 2 ^ 8
  | .resetDstChange => True

/-- The change instants computed for a year with nothing cached. -/
def freshChanges (tz : ClockTimezone) (year : Nat) : DstChanges :=
  clockTzCompute tz initialDstChanges year

/-- Every cached instant is the one of the year it is cached for. -/
structure CacheRight (tz : ClockTimezone) (changes : DstChanges) : Prop where
  beginning : ∀ year < 2 ^ 8, changes.beginning.year = (year : Nat) →
    changes.beginning.whenChanged = (freshChanges tz year).beginning.whenChanged
  ending : ∀ year < 2 ^ 8, changes.ending.year = (year : Nat) →
    changes.ending.whenChanged = (freshChanges tz year).ending.whenChanged

theorem cacheRight_initial (tz : ClockTimezone) : CacheRight tz initialDstChanges := by
  constructor
  all_goals
    intro year _ cached
    simp only [initialDstChanges] at cached
    omega

theorem CacheRight.reset (changes : DstChanges) :
    CacheRight tz (clockResetDstChange changes) := by
  constructor
  all_goals
    intro year _ cached
    simp only [clockResetDstChange] at cached
    omega

/-- An entry for another year is computed as if there were none. -/
theorem clockComputeChange_of_ne (tz : ClockTimezone) {change : DstChange} (dst : ClockDst)
    {year : Nat} (other : change.year ≠ year) :
    clockComputeChange tz change dst year = clockComputeChange tz ⟨0, -1⟩ dst year := by
  have empty : (-1 : Int) ≠ year := by omega
  simp only [clockComputeChange, other, empty, if_false]

/-- The signed key of a computed entry names the year it was computed for, or no year. -/
theorem clockComputeChange_year (tz : ClockTimezone) (change : DstChange) (dst : ClockDst)
    {year year' : Nat} (small : year < 2 ^ 8)
    (key : (clockComputeChange tz change dst year).1.year = (year' : Nat)) : year' = year := by
  unfold clockComputeChange at key
  split at key
  case isTrue cached =>
    rw [cached] at key
    omega
  case isFalse =>
    simp only [Int.bmod_def] at key
    split at key <;> omega

theorem clockTzCompute_beginning (tz : ClockTimezone) (changes : DstChanges) (year : Nat) :
    (clockTzCompute tz changes year).beginning =
      (clockComputeChange tz changes.beginning tz.dstbegin year).1 := by
  unfold clockTzCompute
  simp only
  split <;> rfl

theorem clockTzCompute_ending_year (tz : ClockTimezone) (changes : DstChanges) (year : Nat) :
    (clockTzCompute tz changes year).ending.year =
      (clockComputeChange tz changes.ending tz.dstend year).1.year := by
  unfold clockTzCompute
  simp only
  split <;> rfl

/-- Asked for a year, the cache holds the instants of that year. -/
theorem CacheRight.whenChanged (right : CacheRight tz changes) {year : Nat} (small : year < 2 ^ 8) :
    (clockTzCompute tz changes year).beginning.whenChanged =
        (freshChanges tz year).beginning.whenChanged ∧
      (clockTzCompute tz changes year).ending.whenChanged =
        (freshChanges tz year).ending.whenChanged := by
  constructor
  · rw [clockTzCompute_beginning]
    by_cases cached : changes.beginning.year = year
    · rw [clockComputeChange, if_pos cached]
      exact right.beginning year small cached
    · rw [clockComputeChange_of_ne tz _ cached, freshChanges, clockTzCompute_beginning]
      rfl
  · by_cases cached : changes.ending.year = year
    · rw [← right.ending year small cached]
      simp [clockTzCompute, clockComputeChange, cached]
    · simp only [freshChanges, clockTzCompute, clockComputeChange_of_ne tz _ cached,
        initialDstChanges]
      by_cases computed : (clockComputeChange tz ⟨0, -1⟩ tz.dstend year).2 = true
      · simp only [computed, if_true]
      · simp [computed]

/-- Computing the instants of one year spoils no other. -/
theorem CacheRight.tzCompute (right : CacheRight tz changes) {year : Nat} (small : year < 2 ^ 8) :
    CacheRight tz (clockTzCompute tz changes year) := by
  constructor
  · intro year' _ key
    rw [clockTzCompute_beginning] at key
    have same := clockComputeChange_year tz _ _ small key
    rw [same]
    exact (right.whenChanged small).1
  · intro year' _ key
    rw [clockTzCompute_ending_year] at key
    have same := clockComputeChange_year tz _ _ small key
    rw [same]
    exact (right.whenChanged small).2

theorem CacheRight.isDst (right : CacheRight tz changes) {year : Nat} (small : year < 2 ^ 8)
    (t : Nat) :
    clockIsDst tz (clockTzCompute tz changes year) t =
      clockIsDst tz (clockTzCompute tz initialDstChanges year) t := by
  obtain ⟨beginning, ending⟩ := right.whenChanged small
  simp only [clockIsDst, beginning, ending, freshChanges]

theorem clockDatetime_year_lt (t : Nat) : (clockDatetime t).year < 2 ^ 8 :=
  Nat.mod_lt _ (by decide)

theorem CacheRight.localtime (right : CacheRight tz changes) (t : Nat) :
    (clockLocaltime tz changes t).1 = (clockLocaltime tz initialDstChanges t).1 ∧
      CacheRight tz (clockLocaltime tz changes t).2 := by
  have small := clockDatetime_year_lt ((t + tz.utctime.toNat) % 2 ^ 32)
  unfold clockLocaltime
  simp only [right.isDst small]
  split
  · exact ⟨rfl, right.tzCompute small⟩
  · exact ⟨rfl, right.tzCompute small⟩

theorem CacheRight.mktime (right : CacheRight tz changes) (d : ClockDatetime) (islocal : Bool)
    (small : d.year < 2 ^ 8) :
    (clockMktime tz changes d islocal).1 = (clockMktime tz initialDstChanges d islocal).1 ∧
      (clockMktime tz changes d islocal).2.1 = (clockMktime tz initialDstChanges d islocal).2.1 ∧
      CacheRight tz (clockMktime tz changes d islocal).2.2 := by
  cases islocal with
  | false => exact ⟨rfl, rfl, right⟩
  | true =>
      by_cases undecided : d.isdst < 0
      · simp only [clockMktime, undecided, if_true, right.isDst small, true_and]
        exact right.tzCompute small
      · simp only [clockMktime, undecided, if_true, if_false, true_and]
        exact right

theorem CacheRight.perform (right : CacheRight tz changes) {call : ClockCall}
    (wellFormed : call.WellFormed) :
    (perform tz changes call).1 = (Clock.perform tz initialDstChanges call).1 ∧
      CacheRight tz (Clock.perform tz changes call).2 := by
  cases call with
  | localtime t =>
      obtain ⟨same, kept⟩ := right.localtime t.toNat
      exact ⟨congrArg ClockAnswer.datetime same, kept⟩
  | mktime d islocal =>
      obtain ⟨sameTime, sameDate, kept⟩ := right.mktime d islocal wellFormed
      exact ⟨congrArg₂ ClockAnswer.timestamp sameTime sameDate, kept⟩
  | resetDstChange => exact ⟨rfl, .reset changes⟩

theorem CacheRight.answers (right : CacheRight tz changes) {calls : List ClockCall}
    (wellFormed : ∀ call ∈ calls, call.WellFormed) :
    Clock.answers tz changes calls =
      calls.map fun call => (Clock.perform tz initialDstChanges call).1 := by
  induction calls generalizing changes with
  | nil => rfl
  | cons call calls ih =>
      obtain ⟨same, kept⟩ := right.perform (wellFormed call List.mem_cons_self)
      have rest := ih kept fun later member => wellFormed later (List.mem_cons_of_mem call member)
      simp only [Clock.answers, List.map_cons, same, rest]

/-- Whatever was asked before, every call answers as if nothing had been cached. -/
theorem answers_transparent (tz : ClockTimezone) (calls : List ClockCall)
    (wellFormed : ∀ call ∈ calls, call.WellFormed) :
    answers tz initialDstChanges calls =
      calls.map fun call => (perform tz initialDstChanges call).1 :=
  (cacheRight_initial tz).answers wellFormed

/-- Noon of 1 July 2030, before and after the instants of 2026 were cached. -/
def summerCalls : List ClockCall :=
  [.mktime ⟨0, 0, 12, 1, 7, 1, 130, 181, -1⟩ true, .localtime 1783000000,
    .mktime ⟨0, 0, 12, 1, 7, 1, 130, 181, -1⟩ true]

theorem answers_transparent_summerCalls :
    answers centralEurope initialDstChanges summerCalls =
      summerCalls.map fun call => (perform centralEurope initialDstChanges call).1 :=
  answers_transparent centralEurope summerCalls (by simp [summerCalls, ClockCall.WellFormed])

end Ethersex.Clock

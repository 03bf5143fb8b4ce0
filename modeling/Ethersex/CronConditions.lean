import Ethersex.ClockLocaltime
import Mathlib.Tactic.Tauto

/-!
# The condition of a cron job

`cron_check_event` compares the condition of a job with a date.  It is given the
date in UTC and in local time and picks one of them, as the job asks for.  Absolute
values and the weekday are compared with the picked date, step values always with
the date in UTC.
-/

namespace Ethersex.Cron

open Clock (ClockDatetime ClockTimezone clockDatetime clockLocaltime initialDstChanges)

/-- `cron_conditions_t` -/
structure CronConditions where
  minute : Int8
  hour : Int8
  day : Int8
  month : Int8
  daysofweek : Int8
  deriving DecidableEq

def CronConditions.fields (cond : CronConditions) : List Int8 :=
  [cond.minute, cond.hour, cond.day, cond.month]

/-- The array `cron_fields` of a date. -/
def cronFields (d : ClockDatetime) : List Nat :=
  [d.min, d.hour, d.day, d.month]

/-- The loop of `cron_check_event` over the fields of the condition, of `cd` and of `d`. -/
def checkFields : List Int8 → List Nat → List Nat → Bool
  | field :: fields, value :: values, utcValue :: utcValues =>
      if field.toInt = -1 then checkFields fields values utcValues
      else if 0 ≤ field.toInt ∧ field.toInt ≠ value then false
      else if field.toInt < 0 ∧ utcValue % (-field.toInt % 2 ^ 8).toNat ≠ 0 then false
      else checkFields fields values utcValues
  | _, _, _ => true

def cronCheckEvent (cond : CronConditions) (useUtc : Bool) (d ld : ClockDatetime) : Bool :=
  let cd := if useUtc then d else ld
  if !checkFields cond.fields (cronFields cd) (cronFields d) then false
  else if cond.daysofweek.toBitVec.signExtend 16 &&& BitVec.twoPow 16 cd.dow = 0 then false
  else true

/-- Steps are stored as the negative of the step. -/
def IsStep (field : Int8) : Prop :=
  field.toInt < -1

/-- The field of a condition is a wildcard, the value itself or a step that divides it. -/
def FieldMatches (field : Int8) (value : Nat) : Prop :=
  field.toInt = -1 ∨ field.toInt = value ∨ IsStep field ∧ -field.toInt ∣ value

def WeekdayMatches (cond : CronConditions) (d : ClockDatetime) : Prop :=
  (cond.daysofweek.toBitVec.signExtend 16).getLsbD d.dow = true

/-- The date meets the condition in all fields and in the weekday. -/
def Matches (cond : CronConditions) (d : ClockDatetime) : Prop :=
  List.Forall₂ FieldMatches cond.fields (cronFields d) ∧ WeekdayMatches cond d

/-- The date meets what the condition says in absolute values and in weekdays. -/
def AbsolutesMatch (cond : CronConditions) (d : ClockDatetime) : Prop :=
  List.Forall₂ (fun field value => 0 ≤ field.toInt → field.toInt = Int.ofNat value) cond.fields
    (cronFields d) ∧ WeekdayMatches cond d

/-- The date meets the steps of the condition. -/
def StepsMatch (cond : CronConditions) (d : ClockDatetime) : Prop :=
  List.Forall₂ (fun field value => IsStep field → -field.toInt ∣ Int.ofNat value) cond.fields
    (cronFields d)

instance (field : Int8) : Decidable (IsStep field) :=
  inferInstanceAs (Decidable (field.toInt < -1))

instance (field : Int8) (value : Nat) : Decidable (FieldMatches field value) :=
  inferInstanceAs (Decidable (_ ∨ _ ∨ _ ∧ _))

instance (cond : CronConditions) (d : ClockDatetime) : Decidable (Matches cond d) :=
  inferInstanceAs (Decidable (_ ∧ _ = _))

/-- The result depends only on the date the job asks for, and says whether it matches. -/
structure TimeBase (cond : CronConditions) (useUtc : Bool) (selected : ClockDatetime) :
    Prop where
  independent : ∀ d ld d' ld', (if useUtc then d else ld) = selected →
    (if useUtc then d' else ld') = selected →
    cronCheckEvent cond useUtc d ld = cronCheckEvent cond useUtc d' ld'
  exact : ∀ d ld, (if useUtc then d else ld) = selected →
    (cronCheckEvent cond useUtc d ld = true ↔ Matches cond selected)

theorem fieldMatches_iff (field : Int8) (value : Nat) :
    FieldMatches field value ↔
      (0 ≤ field.toInt → field.toInt = Int.ofNat value) ∧
        (IsStep field → -field.toInt ∣ Int.ofNat value) := by
  unfold FieldMatches IsStep
  constructor
  · rintro (wildcard | same | ⟨isStep, divides⟩)
    · exact ⟨by omega, by omega⟩
    · exact ⟨fun _ => same, by omega⟩
    · exact ⟨by omega, fun _ => divides⟩
  · rintro ⟨absolute, step⟩
    by_cases wildcard : field.toInt = -1
    · exact Or.inl wildcard
    · by_cases isStep : field.toInt < -1
      · exact Or.inr (Or.inr ⟨isStep, step isStep⟩)
      · exact Or.inr (Or.inl (absolute (by omega)))

/-- A condition asks for absolute values and weekdays, and for steps. -/
theorem matches_iff (cond : CronConditions) (d : ClockDatetime) :
    Matches cond d ↔ AbsolutesMatch cond d ∧ StepsMatch cond d := by
  simp only [Matches, AbsolutesMatch, StepsMatch, CronConditions.fields, cronFields,
    List.forall₂_cons, List.forall₂_nil_left_iff, fieldMatches_iff]
  tauto

/-- The remainder in the loop is zero when the step divides the value. -/
theorem step_mod_iff {field : Int8} (isStep : IsStep field) (value : Nat) :
    value % (-field.toInt % 2 ^ 8).toNat = 0 ↔ -field.toInt ∣ Int.ofNat value := by
  have lower : -2 ^ 7 ≤ field.toInt := field.le_toInt
  unfold IsStep at isStep
  generalize field.toInt = number at *
  obtain ⟨step, rfl⟩ : ∃ step : Nat, number = -step := ⟨(-number).toNat, by omega⟩
  have reduced : (- -(step : Int) % 2 ^ 8).toNat = step := by omega
  rw [reduced, neg_neg, ← Nat.dvd_iff_mod_eq_zero]
  exact Int.natCast_dvd_natCast.symm

/-- One round of the loop. -/
theorem checkFields_cons (field : Int8) (fields : List Int8) (value utcValue : Nat)
    (values utcValues : List Nat) :
    checkFields (field :: fields) (value :: values) (utcValue :: utcValues) = true ↔
      ((0 ≤ field.toInt → field.toInt = Int.ofNat value) ∧
        (IsStep field → -field.toInt ∣ Int.ofNat utcValue)) ∧
      checkFields fields values utcValues = true := by
  rw [checkFields]
  by_cases isStep : IsStep field
  · have negative : field.toInt < -1 := isStep
    have notWildcard : ¬ field.toInt = -1 := by omega
    have notAbsolute : ¬ 0 ≤ field.toInt := by omega
    have below : field.toInt < 0 := by omega
    have whole := step_mod_iff isStep utcValue
    simp only [notWildcard, notAbsolute, below, isStep, false_and, true_and, if_false, ne_eq,
      whole, forall_const, false_implies]
    split_ifs with divides
    · simp only [divides, true_and]
    · simp only [divides, false_and]
  · have above : ¬ field.toInt < -1 := isStep
    by_cases wildcard : field.toInt = -1
    · simp [isStep, wildcard]
    · have absolute : 0 ≤ field.toInt := by omega
      simp [isStep, wildcard, absolute]

theorem checkFields_iff {fields : List Int8} {values utcValues : List Nat}
    (length : values.length = fields.length) (utcLength : utcValues.length = fields.length) :
    checkFields fields values utcValues = true ↔
      List.Forall₂ (fun field value => 0 ≤ field.toInt → field.toInt = Int.ofNat value)
          fields values ∧
        List.Forall₂ (fun field value => IsStep field → -field.toInt ∣ Int.ofNat value)
          fields utcValues := by
  induction fields generalizing values utcValues with
  | nil =>
      rw [List.length_eq_zero_iff.1 length, List.length_eq_zero_iff.1 utcLength]
      simp [checkFields]
  | cons field fields ih =>
      obtain ⟨value, values, rfl⟩ := List.exists_cons_of_length_eq_add_one length
      obtain ⟨utcValue, utcValues, rfl⟩ := List.exists_cons_of_length_eq_add_one utcLength
      rw [checkFields_cons, ih (by simpa using length) (by simpa using utcLength),
        List.forall₂_cons, List.forall₂_cons]
      tauto

theorem weekday_iff (cond : CronConditions) (d : ClockDatetime) :
    cond.daysofweek.toBitVec.signExtend 16 &&& BitVec.twoPow 16 d.dow = 0 ↔
      ¬ WeekdayMatches cond d := by
  unfold WeekdayMatches
  generalize cond.daysofweek.toBitVec.signExtend 16 = mask
  rw [BitVec.and_twoPow]
  by_cases bit : mask.getLsbD d.dow = true
  · have inside : d.dow < 16 := BitVec.lt_of_getLsbD bit
    have nonzero : BitVec.twoPow 16 d.dow ≠ 0 := by
      intro zero
      have := congrArg (fun word => word.getLsbD d.dow) zero
      simp [inside] at this
    simpa [bit] using nonzero
  · simp [bit]

/-- What the function computes: steps are looked up in the date in UTC. -/
theorem cronCheckEvent_iff (cond : CronConditions) (useUtc : Bool) (d ld : ClockDatetime) :
    cronCheckEvent cond useUtc d ld = true ↔
      AbsolutesMatch cond (if useUtc then d else ld) ∧ StepsMatch cond d := by
  unfold cronCheckEvent
  simp only
  generalize (if useUtc = true then d else ld) = cd
  have fields := @checkFields_iff cond.fields (cronFields cd) (cronFields d) rfl rfl
  have weekday := weekday_iff cond cd
  unfold AbsolutesMatch StepsMatch
  split_ifs with loop missing
  · have failed := mt fields.2 (by simpa using loop)
    simp only [false_iff]
    tauto
  · have missed := weekday.1 missing
    simp only [false_iff]
    tauto
  · have passed := fields.1 (by simpa using loop)
    have found := not_not.1 (mt weekday.2 missing)
    simp only [true_iff]
    exact ⟨⟨passed.1, found⟩, passed.2⟩

/-- A date all of whose fields have the same value. -/
def uniformDate (value : Nat) : ClockDatetime :=
  ⟨value, value, value, value, value, 0, value, value, 0⟩

theorem stepsMatch_uniformDate_zero (cond : CronConditions) :
    StepsMatch cond (uniformDate 0) := by
  simp [StepsMatch, CronConditions.fields, cronFields, uniformDate]

/-- No step divides one. -/
theorem not_stepsMatch_uniformDate_one {cond : CronConditions}
    (hasStep : ∃ field ∈ cond.fields, IsStep field) : ¬ StepsMatch cond (uniformDate 1) := by
  have notDivides {field : Int8} (isStep : IsStep field) : ¬ -field.toInt ∣ 1 := by
    intro divides
    have := Int.le_of_dvd (by decide) divides
    unfold IsStep at isStep
    omega
  obtain ⟨field, member, isStep⟩ := hasStep
  intro matching
  simp only [StepsMatch, CronConditions.fields, cronFields, uniformDate, List.forall₂_cons,
    List.mem_cons] at matching member
  obtain ⟨first, second, third, fourth, -⟩ := matching
  rcases member with rfl | rfl | rfl | rfl | none
  · exact notDivides isStep (first isStep)
  · exact notDivides isStep (second isStep)
  · exact notDivides isStep (third isStep)
  · exact notDivides isStep (fourth isStep)
  · exact absurd none List.not_mem_nil

theorem stepsMatch_of_noStep {cond : CronConditions}
    (noStep : ¬ ∃ field ∈ cond.fields, IsStep field) (d : ClockDatetime) : StepsMatch cond d := by
  simp only [CronConditions.fields, List.mem_cons, List.not_mem_nil, or_false, not_exists,
    not_and] at noStep
  simp [StepsMatch, CronConditions.fields, cronFields, noStep]

/-- The result follows the date the job asks for when that is UTC, when the condition has no
step, and when the absolute values or the weekday already decide. -/
theorem timeBase_iff (cond : CronConditions) (useUtc : Bool) (selected : ClockDatetime) :
    TimeBase cond useUtc selected ↔
      useUtc = true ∨ (¬ ∃ field ∈ cond.fields, IsStep field) ∨
        ¬ AbsolutesMatch cond selected := by
  constructor
  · intro base
    by_contra wrong
    push Not at wrong
    obtain ⟨isLocal, hasStep, absolutes⟩ := wrong
    have isLocal : useUtc = false := by simpa using isLocal
    subst isLocal
    have same := base.independent (uniformDate 0) selected (uniformDate 1) selected rfl rfl
    have zero := (cronCheckEvent_iff cond false (uniformDate 0) selected).2
      ⟨absolutes, stepsMatch_uniformDate_zero cond⟩
    have one := (cronCheckEvent_iff cond false (uniformDate 1) selected).1 (same ▸ zero)
    exact not_stepsMatch_uniformDate_one hasStep one.2
  · intro right
    have exact : ∀ d ld, (if useUtc then d else ld) = selected →
        (cronCheckEvent cond useUtc d ld = true ↔ Matches cond selected) := by
      intro d ld picked
      rw [cronCheckEvent_iff, picked, matches_iff]
      rcases right with utc | noStep | missed
      · rw [if_pos utc] at picked
        rw [picked]
      · simp [stepsMatch_of_noStep noStep]
      · simp [missed]
    refine ⟨?_, exact⟩
    intro d ld d' ld' picked picked'
    rw [Bool.eq_iff_iff, exact d ld picked, exact d' ld' picked']

/-- Every two hours, on every day, in local time. -/
def everySecondHour : CronConditions :=
  ⟨0, -2, -1, -1, 127⟩

/-- At one o'clock in UTC on 15 January 2026 it is two in central Europe, where the job
should run. -/
theorem everySecondHour_missed :
    ¬ ∀ cond useUtc selected, TimeBase cond useUtc selected := by
  intro always
  have base := always everySecondHour false
    (clockLocaltime Clock.centralEurope initialDstChanges 1768438800).1
  have result := (base.exact (clockDatetime 1768438800) _ rfl).2 (by decide +kernel)
  exact absurd result (by decide +kernel)

end Ethersex.Cron

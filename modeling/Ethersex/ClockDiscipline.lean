import Ethersex.GuardedRuns
import Mathlib.Data.UInt

/-!
# The software clock and its time source

`services/clock/clock.c` keeps two counters: the clock that is reported, and the
time of the last synchronization counted on.  `clock_tick` stops the reported
clock until the other counter has caught up, and `clock_set_time` lets it jump
forward, or backward when it is more than five minutes ahead.  This is the
configuration with NTP or DCF77 and without a crystal.
-/

namespace Ethersex.Clock

open GuardedRuns

/-- `HZ`, the calls of `clock_tick` in a second. -/
def hz : UInt8 := 50

structure ClockState where
  clockTimestamp : UInt32
  ticks : UInt8
  syncTimestamp : UInt32
  nSyncTimestamp : UInt32
  nSyncTick : UInt32
  delta : Int16

/-- The static variables before the first call. -/
def poweredClock : ClockState := ⟨0, 0, 0, 0, 0, 0⟩

/-- The next call of `clock_tick` ends a second. -/
def SecondTick (state : ClockState) : Prop := hz ≤ state.ticks + 1

/-- The clock was never synchronized, or it is where it should be. -/
def InTime (state : ClockState) : Prop :=
  state.syncTimestamp = 0 ∨ state.syncTimestamp = state.clockTimestamp

instance (state : ClockState) : Decidable (SecondTick state) :=
  inferInstanceAs (Decidable (_ ≤ _))

instance (state : ClockState) : Decidable (InTime state) :=
  inferInstanceAs (Decidable (_ ∨ _))

def clockTick (state : ClockState) : ClockState :=
  let ticks := state.ticks + 1
  if SecondTick state then
    { state with
      clockTimestamp :=
        if InTime state then state.clockTimestamp + 1 else state.clockTimestamp
      syncTimestamp :=
        if state.syncTimestamp ≠ 0 then state.syncTimestamp + 1 else state.syncTimestamp
      ticks := ticks - hz }
  else
    { state with ticks := ticks }

def clockSetTime (state : ClockState) (newSyncTimestamp : UInt32) : ClockState where
  delta :=
    if state.syncTimestamp ≠ 0 then (newSyncTimestamp - state.syncTimestamp).toUInt16.toInt16
    else state.delta
  syncTimestamp := newSyncTimestamp
  nSyncTimestamp := newSyncTimestamp
  nSyncTick := state.ticks.toUInt32
  ticks := state.ticks
  -- forward always, backward only by more than five minutes
  clockTimestamp :=
    if state.clockTimestamp < newSyncTimestamp ∨ 300 < state.clockTimestamp - newSyncTimestamp then
      newSyncTimestamp
    else
      state.clockTimestamp

inductive ClockStep where
  | tick
  | setTime (newSyncTimestamp : UInt32)

def clockStep (state : ClockState) : ClockStep → ClockState
  | .tick => clockTick state
  | .setTime newSyncTimestamp => clockSetTime state newSyncTimestamp

def clockRun (steps : List ClockStep) : ClockState := steps.foldl clockStep poweredClock

/-- A timestamp that the step increments is not the last one of 32 bits. -/
def NoWrap (state : ClockState) : ClockStep → Prop
  | .tick => SecondTick state →
      (InTime state → state.clockTimestamp.toNat + 1 < 2 ^ 32) ∧
        (state.syncTimestamp ≠ 0 → state.syncTimestamp.toNat + 1 < 2 ^ 32)
  | .setTime _ => True

instance (state : ClockState) : ∀ step, Decidable (NoWrap state step)
  | .tick => inferInstanceAs (Decidable (SecondTick state → _ ∧ _))
  | .setTime _ => isTrue trivial

/-- The calls of `clock_tick` among the steps. -/
def tickCount : List ClockStep → Nat
  | [] => 0
  | .tick :: steps => tickCount steps + 1
  | .setTime _ :: steps => tickCount steps

/-- The seconds that have ended behind these steps of a run: every `HZ` calls one. -/
def seconds (steps : List ClockStep) : Nat := tickCount steps / hz.toNat

/-- The clock is at most `limit` seconds ahead of the synchronized time. -/
structure Ahead (limit : Nat) (state : ClockState) : Prop where
  synchronized : state.syncTimestamp ≠ 0
  notBehind : state.syncTimestamp.toNat ≤ state.clockTimestamp.toNat
  close : state.clockTimestamp.toNat ≤ state.syncTimestamp.toNat + limit

/-- The clock is not synchronized, or at most five minutes ahead. -/
def Disciplined (state : ClockState) : Prop :=
  state.syncTimestamp = 0 ∨
    state.syncTimestamp.toNat ≤ state.clockTimestamp.toNat ∧
      state.clockTimestamp.toNat ≤ state.syncTimestamp.toNat + 300

/-- The reported clock does not run backwards, unless the step sets a time that is more
than five minutes behind it. -/
def Forward (state : ClockState) (step : ClockStep) : Prop :=
  state.clockTimestamp.toNat ≤ (clockStep state step).clockTimestamp.toNat ∨
    ∃ newSyncTimestamp, step = .setTime newSyncTimestamp ∧
      newSyncTimestamp.toNat + 300 < state.clockTimestamp.toNat

section Steps

variable {state : ClockState}

theorem toNat_add_one {number : UInt32} (below : number.toNat + 1 < 2 ^ 32) :
    (number + 1).toNat = number.toNat + 1 := by
  rw [UInt32.toNat_add]
  exact Nat.mod_eq_of_lt below

theorem add_one_ne_zero {number : UInt32} (below : number.toNat + 1 < 2 ^ 32) :
    number + 1 ≠ 0 := by
  intro zero
  have value := toNat_add_one below
  rw [zero] at value
  simp at value

theorem disciplined_of_ahead (ahead : Ahead 300 state) : Disciplined state :=
  Or.inr ⟨ahead.notBehind, ahead.close⟩

theorem Disciplined.ahead (disciplined : Disciplined state)
    (synchronized : state.syncTimestamp ≠ 0) : Ahead 300 state := by
  obtain ⟨notBehind, close⟩ := disciplined.resolve_left synchronized
  exact ⟨synchronized, notBehind, close⟩

theorem clockTick_of_not_secondTick (within : ¬SecondTick state) :
    (clockTick state).clockTimestamp = state.clockTimestamp ∧
      (clockTick state).syncTimestamp = state.syncTimestamp := by
  simp [clockTick, within]

/-- Every second brings the synchronized time one second closer, or both go on. -/
theorem Ahead.tick {limit : Nat} (ahead : Ahead limit state) (noWrap : NoWrap state .tick) :
    Ahead (limit - if SecondTick state then 1 else 0) (clockTick state) := by
  by_cases second : SecondTick state
  · obtain ⟨clockBelow, syncBelow⟩ := noWrap second
    have syncBelow := syncBelow ahead.synchronized
    have syncNext : (clockTick state).syncTimestamp = state.syncTimestamp + 1 := by
      simp [clockTick, second, ahead.synchronized]
    have notBehind := ahead.notBehind
    have close := ahead.close
    rw [if_pos second]
    by_cases inTime : InTime state
    · have same := inTime.resolve_left ahead.synchronized
      have clockNext : (clockTick state).clockTimestamp = state.clockTimestamp + 1 := by
        simp [clockTick, second, inTime]
      refine ⟨?_, ?_, ?_⟩
      · rw [syncNext]
        exact add_one_ne_zero syncBelow
      · rw [syncNext, clockNext, same]
      · rw [syncNext, clockNext, same]
        exact Nat.le_add_right _ _
    · have clockNext : (clockTick state).clockTimestamp = state.clockTimestamp := by
        simp [clockTick, second, inTime]
      have different : state.syncTimestamp.toNat ≠ state.clockTimestamp.toNat := fun same =>
        inTime (Or.inr (UInt32.toNat_inj.mp same))
      refine ⟨?_, ?_, ?_⟩
      · rw [syncNext]
        exact add_one_ne_zero syncBelow
      · rw [syncNext, clockNext, toNat_add_one syncBelow]
        omega
      · rw [syncNext, clockNext, toNat_add_one syncBelow]
        omega
  · obtain ⟨clockSame, syncSame⟩ := clockTick_of_not_secondTick second
    rw [if_neg second, Nat.sub_zero]
    refine ⟨?_, ?_, ?_⟩
    · rw [syncSame]
      exact ahead.synchronized
    · rw [syncSame, clockSame]
      exact ahead.notBehind
    · rw [syncSame, clockSame]
      exact ahead.close

theorem clockTick_unsynchronized (zero : state.syncTimestamp = 0) :
    (clockTick state).syncTimestamp = 0 := by
  by_cases second : SecondTick state
  · simp [clockTick, second, zero]
  · rw [(clockTick_of_not_secondTick second).2, zero]

/-- Whatever the clock showed, it is at most five minutes ahead of the new time. -/
theorem clockSetTime_ahead (state : ClockState) {newSyncTimestamp : UInt32}
    (synchronized : newSyncTimestamp ≠ 0) : Ahead 300 (clockSetTime state newSyncTimestamp) := by
  refine ⟨synchronized, ?_, ?_⟩
  · simp only [clockSetTime]
    split
    · exact Nat.le_refl _
    next kept =>
      rw [not_or, UInt32.not_lt, UInt32.le_iff_toNat_le] at kept
      exact kept.1
  · simp only [clockSetTime]
    split
    · exact Nat.le_add_right _ _
    next kept =>
      rw [not_or, UInt32.not_lt, UInt32.not_lt] at kept
      have difference := UInt32.le_iff_toNat_le.mp kept.2
      rw [UInt32.toNat_sub_of_le _ _ kept.1] at difference
      have reduced : (300 : UInt32).toNat = 300 := rfl
      omega

theorem Disciplined.step (disciplined : Disciplined state) {step : ClockStep}
    (noWrap : NoWrap state step) : Disciplined (clockStep state step) := by
  cases step with
  | tick =>
      by_cases zero : state.syncTimestamp = 0
      · exact Or.inl (clockTick_unsynchronized zero)
      · have next := (disciplined.ahead zero).tick noWrap
        refine Or.inr ⟨next.notBehind, Nat.le_trans next.close ?_⟩
        exact Nat.add_le_add_left (Nat.sub_le _ _) _
  | setTime newSyncTimestamp =>
      by_cases zero : newSyncTimestamp = 0
      · exact Or.inl zero
      · exact disciplined_of_ahead (clockSetTime_ahead state zero)

theorem forward_of_noWrap {step : ClockStep} (noWrap : NoWrap state step) :
    Forward state step := by
  cases step with
  | tick =>
      apply Or.inl
      by_cases second : SecondTick state
      · by_cases inTime : InTime state
        · have clockNext : (clockTick state).clockTimestamp = state.clockTimestamp + 1 := by
            simp [clockTick, second, inTime]
          rw [clockStep, clockNext, toNat_add_one ((noWrap second).1 inTime)]
          exact Nat.le_succ _
        · exact Nat.le_of_eq (by simp [clockStep, clockTick, second, inTime])
      · rw [clockStep, (clockTick_of_not_secondTick second).1]
  | setTime newSyncTimestamp =>
      simp only [Forward, clockStep, clockSetTime]
      split
      next jumps =>
        by_cases ahead : state.clockTimestamp < newSyncTimestamp
        · exact Or.inl (Nat.le_of_lt (UInt32.lt_iff_toNat_lt.mp ahead))
        · have back := UInt32.lt_iff_toNat_lt.mp (jumps.resolve_left ahead)
          rw [UInt32.toNat_sub_of_le _ _ (UInt32.not_lt.mp ahead)] at back
          have reduced : (300 : UInt32).toNat = 300 := rfl
          exact Or.inr ⟨newSyncTimestamp, rfl, by omega⟩
      · exact Or.inl (Nat.le_refl _)

end Steps

/-- No step of the run wraps a timestamp around. -/
def NoWraps (steps : List ClockStep) : Prop :=
  Guarded (fun state step => some (clockStep state step)) NoWrap poweredClock steps

instance (steps : List ClockStep) : Decidable (NoWraps steps) :=
  inferInstanceAs (Decidable (Guarded _ _ _ _))

theorem NoWraps.disciplined {steps : List ClockStep} (noWraps : NoWraps steps) :
    Disciplined (clockRun steps) :=
  Guarded.invariant
    (fun _ _ _ disciplined noWrap stepped => Option.some.inj stepped ▸ disciplined.step noWrap)
    noWraps (Or.inl rfl) (run_total clockStep poweredClock steps)

/-- The tick counter has counted the calls since the last second. -/
def Counted (state : ClockState) (count : Nat) : Prop :=
  state.ticks.toNat = count % hz.toNat

theorem Counted.secondTick_iff {state : ClockState} {count : Nat} (counted : Counted state count) :
    SecondTick state ↔ (count + 1) % hz.toNat = 0 := by
  have size : hz.toNat = 50 := rfl
  rw [Counted, size] at counted
  rw [SecondTick, UInt8.le_iff_toNat_le, UInt8.toNat_add, counted, size]
  have one : (1 : UInt8).toNat = 1 := rfl
  omega

theorem Counted.tick {state : ClockState} {count : Nat} (counted : Counted state count) :
    Counted (clockTick state) (count + 1) := by
  have size : hz.toNat = 50 := rfl
  have one : (1 : UInt8).toNat = 1 := rfl
  have ends := counted.secondTick_iff
  rw [Counted, size] at counted ⊢
  rw [size] at ends
  have next : (state.ticks + 1).toNat = count % 50 + 1 := by
    rw [UInt8.toNat_add, counted, one]
    omega
  by_cases second : SecondTick state
  · have last := ends.mp second
    have ticks : (clockTick state).ticks = state.ticks + 1 - hz := by
      simp [clockTick, second]
    rw [ticks, UInt8.toNat_sub_of_le _ _ second, next, size]
    omega
  · have going := mt ends.mpr second
    have ticks : (clockTick state).ticks = state.ticks + 1 := by
      simp [clockTick, second]
    rw [ticks, next]
    omega

theorem Counted.run {state : ClockState} {count : Nat} (counted : Counted state count)
    (steps : List ClockStep) :
    Counted (steps.foldl clockStep state) (count + tickCount steps) := by
  induction steps generalizing state count with
  | nil => exact counted
  | cons step steps ih =>
      cases step with
      | tick =>
          have next := ih counted.tick
          rwa [Nat.add_right_comm] at next
      | setTime newSyncTimestamp => exact ih counted

theorem counted_clockRun (steps : List ClockStep) : Counted (clockRun steps) (tickCount steps) := by
  have counted := (show Counted poweredClock 0 from rfl).run steps
  rwa [Nat.zero_add] at counted

/-- Ticks alone bring the clock closer, one second for every `HZ` of them. -/
theorem Ahead.ticks {limit count : Nat} {state : ClockState} {steps : List ClockStep}
    (ahead : Ahead limit state) (counted : Counted state count)
    (guarded : Guarded (fun state step => some (clockStep state step)) NoWrap state steps)
    (ticks : ∀ step ∈ steps, step = .tick) :
    Ahead (limit - ((count + tickCount steps) / hz.toNat - count / hz.toNat))
      (steps.foldl clockStep state) := by
  have size : hz.toNat = 50 := rfl
  induction steps generalizing limit count state with
  | nil =>
      rw [tickCount, Nat.add_zero, Nat.sub_self]
      exact ahead
  | cons step steps ih =>
      obtain ⟨rfl, others⟩ := List.forall_mem_cons.mp ticks
      have next := ih (ahead.tick guarded.1) counted.tick (guarded.2 _ rfl) others
      have ends := counted.secondTick_iff
      have closer : (limit - if SecondTick state then 1 else 0) -
          ((count + 1 + tickCount steps) / hz.toNat - (count + 1) / hz.toNat) =
            limit - ((count + tickCount (.tick :: steps)) / hz.toNat - count / hz.toNat) := by
        rw [tickCount, size]
        rw [size] at ends
        split_ifs with second
        · have last := ends.mp second
          omega
        · have going := mt ends.mpr second
          omega
      rw [closer] at next
      exact next

theorem tickCount_append (before after : List ClockStep) :
    tickCount (before ++ after) = tickCount before + tickCount after := by
  induction before with
  | nil => rw [List.nil_append, tickCount, Nat.zero_add]
  | cons step before ih =>
      cases step with
      | tick => rw [List.cons_append, tickCount, tickCount, ih, Nat.add_right_comm]
      | setTime newSyncTimestamp => rw [List.cons_append, tickCount, tickCount, ih]

/-- The reported clock is not behind the synchronized time and at most five minutes ahead
of it, it goes backward only when a time more than five minutes behind is set, and when 300
seconds have ended since the last setting both are equal. -/
theorem clock_disciplined (steps : List ClockStep) (noWraps : NoWraps steps) :
    (∀ before after, steps = before ++ after → Disciplined (clockRun before)) ∧
      (∀ before step after, steps = before ++ step :: after → Forward (clockRun before) step) ∧
      ∀ before newSyncTimestamp after, steps = before ++ .setTime newSyncTimestamp :: after →
        newSyncTimestamp ≠ 0 → (∀ step ∈ after, step = .tick) →
        seconds before + 300 ≤ seconds steps →
        (clockRun steps).clockTimestamp = (clockRun steps).syncTimestamp := by
  refine ⟨?_, ?_, ?_⟩
  · rintro before after rfl
    exact NoWraps.disciplined (Guarded.of_append noWraps)
  · intro before step after split
    exact forward_of_noWrap (guarded_total_iff.mp noWraps before step after split)
  · rintro before newSyncTimestamp after rfl synchronized ticks long
    rw [List.append_cons] at noWraps
    have guarded := Guarded.drop noWraps (run_total clockStep poweredClock _)
    have whole : clockRun (before ++ .setTime newSyncTimestamp :: after) =
        after.foldl clockStep (clockRun (before ++ [.setTime newSyncTimestamp])) := by
      rw [List.append_cons, clockRun, List.foldl_append]
      rfl
    have set : clockRun (before ++ [.setTime newSyncTimestamp]) =
        clockSetTime (clockRun before) newSyncTimestamp := by
      rw [clockRun, List.foldl_append]
      rfl
    have ahead : Ahead 300 (clockRun (before ++ [.setTime newSyncTimestamp])) := by
      rw [set]
      exact clockSetTime_ahead (clockRun before) synchronized
    have last := ahead.ticks (counted_clockRun _) guarded ticks
    have counts : tickCount (before ++ [.setTime newSyncTimestamp]) = tickCount before := by
      rw [tickCount_append]
      rfl
    rw [counts, ← whole] at last
    rw [seconds, seconds, tickCount_append, tickCount] at long
    rw [Nat.sub_eq_zero_of_le (Nat.le_sub_of_add_le' long)] at last
    exact UInt32.toNat_inj.mp (Nat.le_antisymm last.close last.notBehind)

theorem tickCount_replicate (count : Nat) :
    tickCount (List.replicate count .tick) = count := by
  induction count with
  | zero => rfl
  | succ count ih => rw [List.replicate_succ, tickCount, ih]

/-- Small times and few steps do not wrap a timestamp around. -/
theorem noWraps_of_small {bound : Nat} {state : ClockState} {steps : List ClockStep}
    (clock : state.clockTimestamp.toNat ≤ bound) (sync : state.syncTimestamp.toNat ≤ bound)
    (times : ∀ newSyncTimestamp, .setTime newSyncTimestamp ∈ steps →
      newSyncTimestamp.toNat ≤ bound) (small : bound + steps.length < 2 ^ 32) :
    Guarded (fun state step => some (clockStep state step)) NoWrap state steps := by
  induction steps generalizing bound state with
  | nil => trivial
  | cons step steps ih =>
      rw [List.length_cons] at small
      refine ⟨?_, fun next stepped => ?_⟩
      · cases step with
        | tick => exact fun _ => ⟨fun _ => by omega, fun _ => by omega⟩
        | setTime newSyncTimestamp => trivial
      · rw [← Option.some.inj stepped]
        have later : ∀ newSyncTimestamp, .setTime newSyncTimestamp ∈ steps →
            newSyncTimestamp.toNat ≤ bound + 1 := fun newSyncTimestamp member =>
          Nat.le_succ_of_le (times newSyncTimestamp (List.mem_cons_of_mem _ member))
        cases step with
        | tick =>
            have clockNext := @toNat_add_one state.clockTimestamp (by omega)
            have syncNext := @toNat_add_one state.syncTimestamp (by omega)
            apply ih _ _ later (by omega)
            · simp only [clockStep, clockTick]
              split_ifs <;> dsimp only <;> omega
            · simp only [clockStep, clockTick]
              split_ifs <;> dsimp only <;> omega
        | setTime newSyncTimestamp =>
            have time := times newSyncTimestamp (List.mem_cons_self ..)
            apply ih _ (Nat.le_succ_of_le time) later (by omega)
            simp only [clockStep, clockSetTime]
            split_ifs <;> omega

/-- The time is set, a tick passes, and an earlier time is set. -/
def correctedSteps : List ClockStep := [.setTime 1000, .tick, .setTime 900]

theorem clock_disciplined_corrected :
    NoWraps (correctedSteps ++ List.replicate (300 * hz.toNat) .tick) ∧
      Disciplined (clockRun correctedSteps) ∧
      (clockRun (correctedSteps ++ List.replicate (300 * hz.toNat) .tick)).clockTimestamp =
        (clockRun (correctedSteps ++ List.replicate (300 * hz.toNat) .tick)).syncTimestamp := by
  have noWraps : NoWraps (correctedSteps ++ List.replicate (300 * hz.toNat) .tick) := by
    apply @noWraps_of_small 1000 _ _ (by decide) (by decide)
    · intro newSyncTimestamp member
      simp [correctedSteps, List.mem_replicate] at member
      rcases member with rfl | rfl <;> decide
    · rw [List.length_append, List.length_replicate]
      decide
  obtain ⟨disciplined, -, inTime⟩ := clock_disciplined _ noWraps
  refine ⟨noWraps, disciplined _ _ rfl, ?_⟩
  apply inTime [.setTime 1000, .tick] 900 _ rfl (by decide)
  · exact fun step member => List.eq_of_mem_replicate member
  · rw [seconds, seconds, tickCount_append, tickCount_replicate]
    decide

end Ethersex.Clock

import Ethersex.SchedulerTimers
import Mathlib.Tactic.Ring
import Mathlib.Tactic.NormNum

/-!
# The period of a dynamic timer

A round is one `scheduler_tick` followed by one `scheduler_dispatch_timer`; between
two rounds the rest of the program may register and change other timers.  When
no callback touches the control blocks, a round acts on each dynamic slot
alone, so the calls of one timer are determined by its own control block and by
the words its delay is reloaded from.  These are read from the data memory at an
address that belongs to program memory, and may differ from call to call.
-/

namespace Ethersex.Scheduler

section

variable {Func World : Type*} {staticMax dynamicMax : Nat}
variable (staticTimers : StaticTimers Func World staticMax dynamicMax)
  (callback : Func → Timers Func World staticMax dynamicMax →
    Timers Func World staticMax dynamicMax)
  (between : Nat → Timers Func World staticMax dynamicMax →
    Timers Func World staticMax dynamicMax)

/-- The rounds since the start, with the calls made in them. -/
def rounds (start : Timers Func World staticMax dynamicMax) :
    Nat → Dispatching Func World staticMax dynamicMax
  | 0 => (start, [])
  | count + 1 =>
      let before := rounds start count
      let after := schedulerDispatchTimer staticTimers callback
        (schedulerTick (between count before.1))
      (after.1, before.2 ++ after.2)

/-- How often the timer in a slot has been called. -/
def calls (start : Timers Func World staticMax dynamicMax) (slot : Fin dynamicMax)
    (count : Nat) : Nat :=
  (rounds staticTimers callback between start count).2.count (.dynamic slot)

/-- The timer in a slot is called for the `k`-th time exactly in round `k * n`. -/
def CalledEvery (start : Timers Func World staticMax dynamicMax) (slot : Fin dynamicMax)
    (n : Nat) : Prop :=
  ∀ k, 1 ≤ k →
    calls staticTimers callback between start slot (k * n - 1) = k - 1 ∧
      calls staticTimers callback between start slot (k * n) = k

/-- The program does not touch the control block of a slot between two rounds. -/
def Untouched (slot : Fin dynamicMax) : Prop :=
  ∀ count timers, (between count timers).dynamics slot = timers.dynamics slot

/-- No callback calls the scheduler's functions: all control blocks stay as they are. -/
def Quiet : Prop :=
  ∀ func timers, (callback func timers).statics = timers.statics ∧
    (callback func timers).dynamics = timers.dynamics

/-- The timers after some slots have been dispatched. -/
def dispatched (timers : Timers Func World staticMax dynamicMax)
    (slots : List (Fin dynamicMax)) : Dispatching Func World staticMax dynamicMax :=
  slots.foldl (dispatchDynamic staticTimers callback)
    ((List.finRange staticMax).foldl (dispatchStatic staticTimers callback) (timers, []))

/-- The timers when the callback of a slot has returned. -/
def returnedFrom (timers : Timers Func World staticMax dynamicMax) (slot : Fin dynamicMax) :
    Timers Func World staticMax dynamicMax :=
  let block := timers.dynamics slot
  callback block.timer (timers.setDynamic slot { block with state := setRunning block.state })

/-- The word that stands in the data memory at the address of
`scheduler_static_timers[slot].interval` when the callback of the slot has returned in the round
behind `count` others. -/
def reloadWord (start : Timers Func World staticMax dynamicMax) (slot : Fin dynamicMax)
    (count : Nat) : UInt16 :=
  let timers := schedulerTick (between count (rounds staticTimers callback between start count).1)
  let before := dispatched staticTimers callback timers ((List.finRange dynamicMax).take slot)
  staticTimers.dataWord (returnedFrom callback before.1 slot) slot

variable {callback between}

/-- The control block of a slot and the number of its calls, during a dispatch. -/
def observe (slot : Fin dynamicMax) (dispatching : Dispatching Func World staticMax dynamicMax) :
    DynamicTimerCb Func × Nat :=
  (dispatching.1.dynamics slot, dispatching.2.count (.dynamic slot))

theorem observe_dispatchStatic (quiet : Quiet callback) (slot : Fin dynamicMax)
    (dispatching : Dispatching Func World staticMax dynamicMax) (index : Fin staticMax) :
    observe slot (dispatchStatic staticTimers callback dispatching index) =
      observe slot dispatching := by
  simp only [dispatchStatic]
  split
  · simp [observe, (quiet _ _).2, List.count_append]
  · rfl

theorem observe_dispatchDynamic_of_ne (quiet : Quiet callback) {slot index : Fin dynamicMax}
    (other : index ≠ slot) (dispatching : Dispatching Func World staticMax dynamicMax) :
    observe slot (dispatchDynamic staticTimers callback dispatching index) =
      observe slot dispatching := by
  simp only [dispatchDynamic]
  split
  · simp [observe, (quiet _ _).2, List.count_append, other, other.symm]
  · rfl

/-- What one dispatch does to a slot: call it when it is ready. -/
def dispatchSlot (reload : UInt16) (observed : DynamicTimerCb Func × Nat) :
    DynamicTimerCb Func × Nat :=
  let block := observed.1
  if ready block.state block.delay then
    (afterCallback reload { block with state := setRunning block.state }, observed.2 + 1)
  else observed

theorem observe_dispatchDynamic_self (quiet : Quiet callback) (slot : Fin dynamicMax)
    (dispatching : Dispatching Func World staticMax dynamicMax) :
    observe slot (dispatchDynamic staticTimers callback dispatching slot) =
      dispatchSlot (staticTimers.dataWord (returnedFrom callback dispatching.1 slot) slot)
        (observe slot dispatching) := by
  simp only [dispatchDynamic, dispatchSlot]
  split <;> rename_i isReady
  · simp [observe] at isReady ⊢
    simp [isReady, (quiet _ _).2, returnedFrom]
  · simp [observe] at isReady ⊢
    simp [isReady]

theorem observe_foldl_dispatchStatic (quiet : Quiet callback) (slot : Fin dynamicMax)
    (indices : List (Fin staticMax)) (dispatching : Dispatching Func World staticMax dynamicMax) :
    observe slot (indices.foldl (dispatchStatic staticTimers callback) dispatching) =
      observe slot dispatching := by
  induction indices generalizing dispatching with
  | nil => rfl
  | cons index indices ih => simp [ih, observe_dispatchStatic staticTimers quiet]

theorem observe_foldl_dispatchDynamic (quiet : Quiet callback) {slot : Fin dynamicMax}
    {slots : List (Fin dynamicMax)} (others : slot ∉ slots)
    (dispatching : Dispatching Func World staticMax dynamicMax) :
    observe slot (slots.foldl (dispatchDynamic staticTimers callback) dispatching) =
      observe slot dispatching := by
  induction slots generalizing dispatching with
  | nil => rfl
  | cons index slots ih =>
      rw [List.mem_cons, not_or] at others
      rw [List.foldl_cons, ih others.2,
        observe_dispatchDynamic_of_ne staticTimers quiet (Ne.symm others.1)]

theorem finRange_split (slot : Fin dynamicMax) :
    List.finRange dynamicMax = (List.finRange dynamicMax).take slot ++
      slot :: (List.finRange dynamicMax).drop (slot + 1) := by
  have inside : slot.val < (List.finRange dynamicMax).length := by simp
  conv_lhs => rw [← List.take_append_drop slot.val (List.finRange dynamicMax),
    List.drop_eq_getElem_cons inside, List.getElem_finRange]
  rfl

/-- A dispatch acts on every dynamic slot alone. -/
theorem observe_schedulerDispatchTimer (quiet : Quiet callback) (slot : Fin dynamicMax)
    (timers : Timers Func World staticMax dynamicMax) :
    observe slot (schedulerDispatchTimer staticTimers callback timers) =
      dispatchSlot (staticTimers.dataWord (returnedFrom callback (dispatched staticTimers callback
          timers ((List.finRange dynamicMax).take slot)).1 slot) slot)
        (timers.dynamics slot, 0) := by
  have nodup := List.nodup_finRange dynamicMax
  rw [finRange_split slot, List.nodup_middle, List.nodup_cons, List.mem_append, not_or] at nodup
  obtain ⟨⟨front, back⟩, -⟩ := nodup
  have before : observe slot (dispatched staticTimers callback timers
      ((List.finRange dynamicMax).take slot)) = (timers.dynamics slot, 0) := by
    rw [dispatched, observe_foldl_dispatchDynamic staticTimers quiet front,
      observe_foldl_dispatchStatic staticTimers quiet]
    rfl
  have whole : schedulerDispatchTimer staticTimers callback timers =
      ((List.finRange dynamicMax).drop (slot + 1)).foldl (dispatchDynamic staticTimers callback)
        (dispatchDynamic staticTimers callback (dispatched staticTimers callback timers
          ((List.finRange dynamicMax).take slot)) slot) := by
    conv_lhs => rw [schedulerDispatchTimer, finRange_split slot]
    rw [List.foldl_append, List.foldl_cons]
    rfl
  rw [whole, observe_foldl_dispatchDynamic staticTimers quiet back,
    observe_dispatchDynamic_self _ quiet, before]

theorem dispatchSlot_count (reload : UInt16) (block : DynamicTimerCb Func) (count : Nat) :
    dispatchSlot reload (block, count) =
      ((dispatchSlot reload (block, 0)).1, count + (dispatchSlot reload (block, 0)).2) := by
  simp only [dispatchSlot]
  split <;> simp

/-- A round ticks the slot's delay and dispatches the slot. -/
theorem observe_rounds_succ (quiet : Quiet callback) {slot : Fin dynamicMax}
    (untouched : Untouched between slot)
    (start : Timers Func World staticMax dynamicMax) (count : Nat) :
    observe slot (rounds staticTimers callback between start (count + 1)) =
      let observed := observe slot (rounds staticTimers callback between start count)
      dispatchSlot (reloadWord staticTimers callback between start slot count)
        ({ observed.1 with delay := tickDelay observed.1.state observed.1.delay }, observed.2) := by
  have acts := observe_schedulerDispatchTimer staticTimers quiet slot
    (schedulerTick (between count (rounds staticTimers callback between start count).1))
  have ticked : (schedulerTick (between count
      (rounds staticTimers callback between start count).1)).dynamics slot =
        let block := (rounds staticTimers callback between start count).1.dynamics slot
        { block with delay := tickDelay block.state block.delay } := by
    simp only [schedulerTick, untouched count]
  rw [ticked] at acts
  simp only [observe] at acts ⊢
  rw [dispatchSlot_count, reloadWord, ← acts]
  simp [rounds, List.count_append]

/-- The control block of a running periodic timer. -/
def periodic (func : Func) (interval delay : UInt16) : DynamicTimerCb Func :=
  ⟨func, delay, interval, timerRunnable⟩

theorem tickDelay_runnable (delay : UInt16) :
    (tickDelay timerRunnable delay).toNat = delay.toNat - 1 := by
  have isRunnable : timerRunnable &&& timerRunnable ≠ 0 := by decide
  by_cases positive : 0 < delay
  · have : 0 < delay.toNat := by simpa [UInt16.lt_iff_toNat_lt] using positive
    simp only [tickDelay, isRunnable, positive, ne_eq, not_false_eq_true, and_self, if_true]
    rw [UInt16.toNat_sub_of_le delay 1 (UInt16.le_iff_toNat_le.2 this)]
    rfl
  · have : delay.toNat = 0 := by simpa [UInt16.lt_iff_toNat_lt] using positive
    simp [tickDelay, positive, this]

theorem ready_runnable (delay : UInt16) : ready timerRunnable delay ↔ delay.toNat = 0 := by
  simp [ready, ← UInt16.toNat_inj]

/-- A periodic timer that its callback leaves alone is reloaded and runnable again. -/
theorem afterCallback_running (reload : UInt16) (func : Func) (interval delay : UInt16) :
    afterCallback reload ⟨func, delay, interval, setRunning timerRunnable⟩ =
      periodic func interval reload := by
  have notOneshot : ¬ setRunning timerRunnable &&& timerOneshot = timerOneshot := by decide
  have stillActive : setRunning timerRunnable ≠ timerDeleted ∧
      setRunning timerRunnable &&& timerSuspended ≠ timerSuspended := by decide
  have runnable : setRunnable (setRunning timerRunnable) = timerRunnable := by decide
  simp [afterCallback, notOneshot, stillActive, runnable, periodic]

/-- A round of a periodic timer calls it when at most one tick is left. -/
theorem dispatchSlot_periodic (reload : UInt16) (func : Func) (interval delay : UInt16)
    (count : Nat) :
    dispatchSlot reload (⟨func, tickDelay timerRunnable delay, interval, timerRunnable⟩, count) =
      if delay.toNat ≤ 1 then (periodic func interval reload, count + 1)
      else (periodic func interval (tickDelay timerRunnable delay), count) := by
  have isReady : ready timerRunnable (tickDelay timerRunnable delay) ↔ delay.toNat ≤ 1 := by
    rw [ready_runnable, tickDelay_runnable]
    omega
  by_cases due : delay.toNat ≤ 1
  · simp [dispatchSlot, isReady.2 due, due, afterCallback_running]
  · simp [dispatchSlot, isReady, due, periodic]

/-- The rounds from one call to the next when the delay is reloaded with a word: a delay
of zero is called in the next round. -/
def period (reload : UInt16) : Nat :=
  max 1 reload.toNat

/-- The round of the call behind `called` others, when `reload count` is the word that a call in
the round behind `count` others reads. -/
def dueRound (reload : Nat → UInt16) (interval : UInt16) : Nat → Nat
  | 0 => interval.toNat
  | called + 1 =>
      let last := dueRound reload interval called
      last + period (reload (last - 1))

/-- After `count` rounds the timer has been called `called` times and its delay runs
out in the round of the next call. -/
structure OnSchedule (func : Func) (interval : UInt16) (reload : Nat → UInt16) (count : Nat)
    (observed : DynamicTimerCb Func × Nat) : Prop where
  periodic : observed.1 = periodic func interval observed.1.delay
  next : count + max 1 observed.1.delay.toNat = dueRound reload interval observed.2
  last : ∀ previous, observed.2 = previous + 1 → dueRound reload interval previous ≤ count

/-- A round keeps the schedule. -/
theorem OnSchedule.round {func : Func} {interval : UInt16} {reload : Nat → UInt16} {count : Nat}
    {observed : DynamicTimerCb Func × Nat}
    (onSchedule : OnSchedule func interval reload count observed) :
    OnSchedule func interval reload (count + 1) (dispatchSlot (reload count)
      ({ observed.1 with delay := tickDelay observed.1.state observed.1.delay }, observed.2)) := by
  obtain ⟨block, called⟩ := observed
  obtain ⟨isPeriodic, next, last⟩ := onSchedule
  simp only at isPeriodic next last
  rw [isPeriodic]
  generalize block.delay = delay at *
  simp only [Scheduler.periodic, dispatchSlot_periodic]
  by_cases due : delay.toNat ≤ 1
  · have now : dueRound reload interval called = count + 1 := by omega
    rw [if_pos due]
    refine ⟨rfl, ?_, ?_⟩
    · rw [dueRound, now, Nat.add_sub_cancel]
      rfl
    · intro previous same
      rw [← Nat.succ.inj same, now]
  · rw [if_neg due]
    refine ⟨rfl, ?_, ?_⟩
    · simp only [tickDelay_runnable]
      omega
    · exact fun previous same => Nat.le_succ_of_le (last previous same)

/-- On a schedule with a call every interval, the calls are the intervals that have passed. -/
theorem OnSchedule.called_eq {func : Func} {interval : UInt16} {reload : Nat → UInt16}
    {count : Nat} {observed : DynamicTimerCb Func × Nat}
    (onSchedule : OnSchedule func interval reload count observed)
    (regular : ∀ called, dueRound reload interval called = (called + 1) * interval.toNat) :
    observed.2 = count / interval.toNat := by
  obtain ⟨-, next, last⟩ := onSchedule
  rw [regular] at next
  symm
  apply Nat.div_eq_of_lt_le
  · cases called : observed.2 with
    | zero => simp
    | succ previous =>
        rw [← regular]
        exact last previous called
  · omega

theorem onSchedule_rounds (quiet : Quiet callback) {slot : Fin dynamicMax}
    (untouched : Untouched between slot) {start : Timers Func World staticMax dynamicMax}
    {func : Func} {interval : UInt16} (positive : 0 < interval)
    (registered : start.dynamics slot = periodic func interval interval) (count : Nat) :
    OnSchedule func interval (reloadWord staticTimers callback between start slot) count
      (observe slot (rounds staticTimers callback between start count)) := by
  induction count with
  | zero =>
      have : 0 < interval.toNat := by simpa [UInt16.lt_iff_toNat_lt] using positive
      simp only [rounds, observe, registered]
      refine ⟨rfl, ?_, fun previous some => by cases some⟩
      simp only [periodic, List.count_nil, dueRound]
      omega
  | succ count ih =>
      rw [observe_rounds_succ staticTimers quiet untouched]
      exact ih.round

/-- The calls are regular when each of them reads the interval. -/
theorem dueRound_iff (reload : Nat → UInt16) (interval : UInt16) :
    (∀ called, dueRound reload interval called = (called + 1) * interval.toNat) ↔
      ∀ k, 1 ≤ k → period (reload (k * interval.toNat - 1)) = interval.toNat := by
  constructor
  · intro regular k positive
    obtain ⟨called, rfl⟩ := Nat.exists_eq_add_of_le' positive
    have next := regular (called + 1)
    rw [dueRound, regular called, Nat.succ_mul (called + 1)] at next
    exact Nat.add_left_cancel next
  · intro same called
    induction called with
    | zero => rw [dueRound, Nat.zero_add, Nat.one_mul]
    | succ called ih =>
        rw [dueRound, ih, same (called + 1) (Nat.le_add_left 1 called), Nat.succ_mul (called + 1)]

theorem schedulerAddTimer_dynamics {timers : Timers Func World staticMax dynamicMax}
    {slot : Fin dynamicMax} (free : freeSlot timers = some slot) (func : Func)
    (interval : UInt16) :
    (schedulerAddTimer timers func interval false).2.dynamics slot =
      periodic func interval interval := by
  simp [schedulerAddTimer, addTimer, free, periodic]

/-- A periodic timer keeps its interval exactly when that is what each of its calls reads in the
data memory in place of the static table; a zero that is read acts like one. -/
theorem calledEvery_iff (quiet : Quiet callback)
    (timers : Timers Func World staticMax dynamicMax) (func : Func) (n : UInt16)
    (positive : 0 < n) (slot : Fin dynamicMax) (free : freeSlot timers = some slot)
    (untouched : Untouched between slot) :
    CalledEvery staticTimers callback between (schedulerAddTimer timers func n false).2 slot
        n.toNat ↔
      ∀ k, 1 ≤ k → max 1 (reloadWord staticTimers callback between
        (schedulerAddTimer timers func n false).2 slot (k * n.toNat - 1)).toNat = n.toNat := by
  have schedule := onSchedule_rounds staticTimers quiet untouched positive
    (schedulerAddTimer_dynamics free func n)
  have tick : 0 < n.toNat := by simpa [UInt16.lt_iff_toNat_lt] using positive
  simp only [← period.eq_1]
  rw [← dueRound_iff]
  simp only [CalledEvery, calls]
  generalize (schedulerAddTimer timers func n false).2 = start at schedule ⊢
  constructor
  · intro every called
    obtain ⟨first, second⟩ := every (called + 1) (Nat.le_add_left 1 called)
    have next := (schedule ((called + 1) * n.toNat - 1)).next
    have last := (schedule ((called + 1) * n.toNat)).last called second
    have whole : 0 < (called + 1) * n.toNat := Nat.mul_pos (Nat.succ_pos called) tick
    simp only [observe, first, Nat.add_sub_cancel] at next
    omega
  · intro regular k positiveCount
    have called count := (schedule count).called_eq regular
    simp only [observe] at called
    rw [called, called, Nat.mul_div_cancel k tick]
    refine ⟨?_, rfl⟩
    obtain ⟨previous, rfl⟩ := Nat.exists_eq_add_of_le' positiveCount
    rw [show (previous + 1) * n.toNat - 1 = n.toNat - 1 + previous * n.toNat by
      rw [add_mul]; omega, Nat.add_mul_div_right _ _ tick, Nat.div_eq_of_lt (by omega)]
    omega

end

/-- A scheduler with one static timer and one free dynamic slot. -/
def oneFreeSlot : Timers Unit Unit 1 1 :=
  ⟨fun _ => ⟨0, timerRunnable⟩, fun _ => ⟨(), 0, 0, timerDeleted⟩, ()⟩

/-- The table has one interval, and its address in the data memory has another word. -/
def apart (interval word : UInt16) : StaticTimers Unit Unit 1 1 :=
  ⟨fun _ => ⟨(), interval⟩, fun _ _ => word⟩

theorem calledEvery_five :
    CalledEvery (apart 9 5) (fun _ timers => timers) (fun _ timers => timers)
      (schedulerAddTimer oneFreeSlot () 5 false).2 0 5 :=
  (calledEvery_iff (apart 9 5) (fun _ _ => ⟨rfl, rfl⟩) oneFreeSlot () 5 (by decide) 0
    (by decide) (fun _ _ => rfl)).2 fun _ _ => rfl

/-- A timer of interval 2 that reads the word 1 is called in round 3. -/
theorem interval2_not_calledEvery :
    ¬ ∀ (staticTimers : StaticTimers Unit Unit 1 1) (timers : Timers Unit Unit 1 1) (n : UInt16)
      (slot : Fin 1), 0 < n → freeSlot timers = some slot →
        CalledEvery staticTimers (fun _ timers => timers) (fun _ timers => timers)
          (schedulerAddTimer timers () n false).2 slot n.toNat := by
  intro always
  have second := (always (apart 1 1) oneFreeSlot 2 0 (by decide) (by decide) 2 (by decide)).1
  revert second
  decide +kernel

end Ethersex.Scheduler

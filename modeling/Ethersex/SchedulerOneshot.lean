import Ethersex.SchedulerStages

/-!
# One-shot timers

A one-shot timer whose handle nobody uses waits for its ticks, is called in the first round
of the dispatch loop behind them, and then leaves its slot: every step of the scheduler
keeps the stages of the slots in line with their control blocks.

A callback that deletes its own timer frees the slot the dispatch loop is about to write
back.  A one-shot timer that it adds then can get this slot, and is taken for the timer
that has just been called.
-/

namespace Ethersex.Scheduler

variable {dynamicMax : Nat}

section Invariant

variable {Func World : Type*} {staticMax : Nat}

/-- A slot is in the stage that its control block shows while `running` is being called. -/
def Stage.Shown (running : Option (Fin dynamicMax)) (slot : Fin dynamicMax)
    (block : DynamicTimerCb Func) : Stage → Prop
  | unknown => True
  | waiting ticks =>
      running ≠ some slot ∧ block.state = timerOneshot ||| timerRunnable ∧
        block.delay.toNat = ticks
  | .running => running = some slot ∧ block.state = timerOneshot ||| timerRunning
  | doomed => running = some slot ∧ block.state = timerOneshot ||| timerRunnable
  | free => block.state = timerDeleted
  | violated => False

/-- The stage of a slot behind a trace. -/
def stageOf (slot : Fin dynamicMax) (trace : List (TimerEvent dynamicMax)) : Stage :=
  trace.foldl (Stage.next slot) .unknown

/-- The trace is in line with all control blocks. -/
def Shows (running : Option (Fin dynamicMax)) (traced : Traced Func World staticMax dynamicMax) :
    Prop :=
  ∀ slot, (stageOf slot traced.2).Shown running slot (traced.1.dynamics slot)

theorem stageOf_append (slot : Fin dynamicMax) (trace : List (TimerEvent dynamicMax))
    (event : TimerEvent dynamicMax) :
    stageOf slot (trace ++ [event]) = (stageOf slot trace).next slot event :=
  List.foldl_append ..

variable {running : Option (Fin dynamicMax)} {timers : Timers Func World staticMax dynamicMax}
  {trace : List (TimerEvent dynamicMax)}

/-- An event that concerns one slot, with the change of its control block. -/
theorem Shows.setDynamic {caller : Option (Fin dynamicMax)} {index : Fin dynamicMax}
    {block : DynamicTimerCb Func} {event : TimerEvent dynamicMax}
    (here : (stageOf index trace).Shown running index (timers.dynamics index) →
      ((stageOf index trace).next index event).Shown caller index block)
    (others : ∀ slot stage, slot ≠ index → Stage.next slot stage event = stage)
    (calls : ∀ slot, slot ≠ index → (running = some slot ↔ caller = some slot))
    (shows : Shows running (timers, trace)) :
    Shows caller (timers.setDynamic index block, trace ++ [event]) := by
  intro slot
  rw [stageOf_append]
  by_cases same : slot = index
  · subst same
    rw [setDynamic_self]
    exact here (shows slot)
  · have shown := shows slot
    rw [setDynamic_of_ne same, others slot _ same]
    cases stage : stageOf slot trace <;> simp_all [Stage.Shown]

theorem Stage.Shown.take {stage added : Stage} {slot : Fin dynamicMax}
    {block taken : DynamicTimerCb Func} (shown : stage.Shown running slot block)
    (isFree : block.state = timerDeleted) (next : added.Shown running slot taken) :
    (stage.take added).Shown running slot taken := by
  cases stage with
  | unknown => exact next
  | free => exact next
  | waiting ticks => exact absurd (isFree.symm.trans shown.2.1) (by decide)
  | running => exact absurd (isFree.symm.trans shown.2) (by decide)
  | doomed => exact absurd (isFree.symm.trans shown.2) (by decide)
  | violated => exact shown.elim

theorem state_freeSlot {index : Fin dynamicMax} (isFree : freeSlot timers = some index) :
    (timers.dynamics index).state = timerDeleted := by
  have found := List.find?_some isFree
  exact of_decide_eq_true found

/-- A timer is added to the first free slot, if there is one. -/
theorem Shows.add (shows : Shows running (timers, trace)) (func : Func) (delay interval : UInt16)
    (flags : UInt8) {event : Fin dynamicMax → TimerEvent dynamicMax}
    (added : Fin dynamicMax → Stage)
    (takes : ∀ index slot stage, Stage.next slot stage (event index) =
      if index = slot then stage.take (added slot) else stage)
    (shown : ∀ index, (added index).Shown running index ⟨func, delay, interval, flags⟩) :
    Shows running ((addTimer timers func delay interval flags).2,
      trace ++ (freeSlot timers).toList.map event) := by
  rw [addTimer]
  cases isFree : freeSlot timers with
  | none =>
      rw [Option.toList_none, List.map_nil, List.append_nil]
      exact shows
  | some index =>
      apply shows.setDynamic
      · intro before
        rw [takes, if_pos rfl]
        exact before.take (state_freeSlot isFree) (shown index)
      · intro slot stage other
        rw [takes, if_neg (Ne.symm other)]
      · intro slot _
        rfl

/-- A call with a handle. -/
theorem Shows.change (shows : Shows running (timers, trace)) (which : Int8)
    (change : DynamicTimerCb Func → DynamicTimerCb Func) :
    Shows running ((changeTimer timers which change).2,
      trace ++ (slotOf dynamicMax which).toList.map .touched) := by
  rw [changeTimer]
  cases slotOf dynamicMax which with
  | none =>
      rw [Option.toList_none, List.map_nil, List.append_nil]
      exact shows
  | some index =>
      apply shows.setDynamic
      · intro before
        rw [Stage.next, if_pos rfl]
        cases stage : stageOf index trace with
        | violated =>
            rw [stage] at before
            exact before
        | _ => trivial
      · intro slot stage other
        rw [Stage.next, if_neg (Ne.symm other)]
      · intro slot _
        rfl

theorem Stage.Shown.tick {stage : Stage} {slot : Fin dynamicMax} {block : DynamicTimerCb Func}
    (shown : stage.Shown running slot block) :
    stage.tick.Shown running slot { block with delay := tickDelay block.state block.delay } := by
  cases stage with
  | waiting ticks =>
      obtain ⟨notRunning, state, delay⟩ := shown
      refine ⟨notRunning, state, ?_⟩
      have counts : (timerOneshot ||| timerRunnable) &&& timerRunnable ≠ 0 := by decide
      simp only [tickDelay, state]
      split
      next both =>
        have positive : 1 ≤ block.delay :=
          UInt16.le_iff_toNat_le.2 (UInt16.lt_iff_toNat_lt.1 both.2)
        rw [UInt16.toNat_sub_of_le _ _ positive, delay]
        rfl
      next neither =>
        have zero : ¬ 0 < block.delay := fun positive => neither ⟨counts, positive⟩
        rw [UInt16.lt_iff_toNat_lt, delay] at zero
        change ¬ 0 < ticks at zero
        omega
  | _ => exact shown

theorem Shows.call (shows : Shows running (timers, trace)) (call : Call Func World) :
    Shows running (tracedCall running (timers, trace) call) := by
  cases call with
  | addTimer func interval suspended =>
      exact shows.add func interval interval _ (fun _ => .unknown) (fun _ _ _ => rfl)
        fun _ => trivial
  | addOneshotTimer func delay =>
      apply shows.add func delay 0 (timerOneshot ||| timerRunnable) _ fun _ _ _ => rfl
      intro index
      split
      next own => exact ⟨own, rfl⟩
      next other => exact ⟨other, rfl, rfl⟩
  | deleteTimer which => exact shows.change which _
  | suspendTimer which => exact shows.change which _
  | resumeTimer which => exact shows.change which _
  | resetTimer which => exact shows.change which _
  | tick =>
      intro slot
      rw [tracedCall, Call.events, stageOf_append]
      exact (shows slot).tick
  | work world =>
      rw [tracedCall, Call.events, List.append_nil]
      exact shows

theorem Shows.calls {traced : Traced Func World staticMax dynamicMax} (shows : Shows running traced)
    (calls : List (Call Func World)) : Shows running (calls.foldl (tracedCall running) traced) := by
  induction calls generalizing traced with
  | nil => exact shows
  | cons call calls ih => exact ih (shows.call call)

variable {traced : Traced Func World staticMax dynamicMax}

theorem Stage.Shown.visited {stage : Stage} {slot : Fin dynamicMax} {block : DynamicTimerCb Func}
    (shown : stage.Shown none slot block) (isReady : ready block.state block.delay) :
    (stage.visit true).Shown (some slot) slot { block with state := setRunning block.state } := by
  cases stage with
  | unknown => trivial
  | waiting ticks =>
      obtain ⟨-, state, delay⟩ := shown
      obtain rfl : ticks = 0 := by
        rw [← delay, isReady.2]
        rfl
      rw [state]
      exact ⟨rfl, rfl⟩
  | running => exact absurd shown.1 nofun
  | doomed => exact absurd shown.1 nofun
  | free =>
      have runnable := isReady.1
      rw [show block.state = timerDeleted from shown] at runnable
      exact absurd runnable (by decide)
  | violated => exact shown

theorem Stage.Shown.passed {stage : Stage} {slot : Fin dynamicMax} {block : DynamicTimerCb Func}
    (shown : stage.Shown none slot block) (notReady : ¬ ready block.state block.delay) :
    (stage.visit false).Shown none slot block := by
  cases stage with
  | unknown => trivial
  | waiting ticks =>
      obtain ⟨notRunning, state, delay⟩ := shown
      cases ticks with
      | zero =>
          have due : block.delay = 0 := UInt16.toNat_inj.mp delay
          have runnable : (timerOneshot ||| timerRunnable) &&& timerRunnable = timerRunnable := by
            decide
          exact absurd ⟨state ▸ runnable, due⟩ notReady
      | succ ticks => exact ⟨notRunning, state, delay⟩
  | running => exact absurd shown.1 nofun
  | doomed => exact absurd shown.1 nofun
  | free => exact shown
  | violated => exact shown

theorem Stage.Past.finish {stage : Stage} (past : stage.Past) :
    stage.finish timerDeleted = free := by
  rcases past with rfl | rfl | rfl <;> rfl

/-- Behind its callback a one-shot timer is deleted. -/
theorem Stage.Shown.deleted (reload : UInt16) {stage : Stage}
    {slot : Fin dynamicMax} {block : DynamicTimerCb Func}
    (shown : stage.Shown (some slot) slot block) (past : stage.Past) :
    (afterCallback reload block).state = timerDeleted := by
  rcases past with rfl | rfl | rfl
  · rw [afterCallback, shown.2, if_pos (by decide)]
  · rw [afterCallback, shown.2, if_pos (by decide)]
  · rw [afterCallback, show block.state = timerDeleted from shown, if_neg (by decide),
      if_neg (by simp)]
    rfl

theorem Stage.Shown.freed (reload : UInt16) {stage : Stage}
    {slot : Fin dynamicMax} {block : DynamicTimerCb Func}
    (shown : stage.Shown (some slot) slot block) (past : stage.Past) :
    (stage.finish (afterCallback reload block).state).Shown none slot
      (afterCallback reload block) := by
  have deleted := shown.deleted reload past
  rw [deleted, past.finish]
  exact deleted

theorem Stage.Shown.finish (reload : UInt16) {stage : Stage}
    {slot : Fin dynamicMax} {block : DynamicTimerCb Func}
    (shown : stage.Shown (some slot) slot block) :
    (stage.finish (afterCallback reload block).state).Shown none slot
      (afterCallback reload block) := by
  cases stage with
  | unknown => trivial
  | waiting ticks => exact absurd rfl shown.1
  | running => exact shown.freed reload (Or.inl rfl)
  | doomed => exact shown.freed reload (Or.inr (Or.inl rfl))
  | free => exact shown.freed reload (Or.inr (Or.inr rfl))
  | violated => exact shown

variable (staticTimers : StaticTimers Func World staticMax dynamicMax)
  (script : Func → Timers Func World staticMax dynamicMax → List (Call Func World))

theorem Shows.static (shows : Shows none traced) (index : Fin staticMax) :
    Shows none (tracedStatic staticTimers script traced index) := by
  rw [tracedStatic]
  split
  · have begins : Shows none (traced.1.setStatic index
        ⟨(traced.1.statics index).delay, setRunning (traced.1.statics index).state⟩, traced.2) :=
      shows
    exact begins.calls _
  · exact shows

theorem Shows.begun (shows : Shows none traced) {index : Fin dynamicMax}
    (isReady : ready (traced.1.dynamics index).state (traced.1.dynamics index).delay) :
    Shows (some index) (begun traced index) := by
  apply shows.setDynamic
  · intro before
    rw [Stage.next, if_pos rfl]
    exact before.visited isReady
  · intro slot stage other
    rw [Stage.next, if_neg (Ne.symm other)]
  · intro slot other
    simp [Ne.symm other]

theorem Shows.finished {index : Fin dynamicMax} (shows : Shows (some index) traced) :
    Shows none (finished staticTimers traced index) := by
  apply shows.setDynamic
  · intro before
    rw [Stage.next, if_pos rfl]
    exact before.finish _
  · intro slot stage other
    rw [Stage.next, if_neg (Ne.symm other)]
  · intro slot other
    simp [Ne.symm other]

theorem Shows.passed (shows : Shows none traced) {index : Fin dynamicMax}
    (notReady : ¬ ready (traced.1.dynamics index).state (traced.1.dynamics index).delay) :
    Shows none (traced.1, traced.2 ++ [.visited index false]) := by
  intro slot
  rw [stageOf_append, Stage.next]
  split
  next same =>
    subst same
    exact (shows index).passed notReady
  · exact shows slot

theorem Shows.dynamic (shows : Shows none traced) (index : Fin dynamicMax) :
    Shows none (tracedDynamic staticTimers script traced index) := by
  rw [tracedDynamic]
  split
  next isReady => exact ((shows.begun isReady).calls _).finished staticTimers
  next notReady => exact shows.passed notReady

theorem Shows.step (shows : Shows none traced) (step : SchedulerStep Func World) :
    Shows none (tracedStep staticTimers script traced step) := by
  cases step with
  | call call => exact shows.call call
  | dispatch =>
      rw [tracedStep, tracedDispatch]
      apply List.foldlRecOn
      · apply List.foldlRecOn
        · exact shows
        · intro traced shows index _
          exact shows.static staticTimers script index
      · intro traced shows index _
        exact shows.dynamic staticTimers script index

/-- The trace of a run stays in line with the control blocks. -/
theorem Shows.steps (shows : Shows none traced) (steps : List (SchedulerStep Func World)) :
    Shows none (steps.foldl (tracedStep staticTimers script) traced) := by
  induction steps generalizing traced with
  | nil => exact shows
  | cons step steps ih => exact ih (shows.step staticTimers script step)

/-- A run of the scheduler with its trace. -/
def tracedRun (start : Timers Func World staticMax dynamicMax)
    (steps : List (SchedulerStep Func World)) : Traced Func World staticMax dynamicMax :=
  steps.foldl (tracedStep staticTimers script) (start, [])

theorem shows_tracedRun (start : Timers Func World staticMax dynamicMax)
    (steps : List (SchedulerStep Func World)) :
    Shows none (tracedRun staticTimers script start steps) := by
  have shows : Shows none (start, ([] : List (TimerEvent dynamicMax))) := fun _ => trivial
  exact shows.steps staticTimers script steps

/-- The events behind the call that adds a one-shot timer. -/
theorem Shows.accepts (shows : Shows none traced) {slot : Fin dynamicMax} {delay : UInt16}
    {caller : Option (Fin dynamicMax)} {before after : List (TimerEvent dynamicMax)}
    (split : traced.2 = before ++ .addedOneshot slot delay caller :: after) :
    after.foldl (Stage.next slot) (if caller = some slot then .doomed else .waiting delay.toNat) ≠
      .violated := by
  have accepted : stageOf slot traced.2 ≠ .violated := by
    intro violation
    have shown := shows slot
    rw [violation] at shown
    exact shown
  rw [stageOf, split, List.foldl_append, List.foldl_cons, Stage.next, if_pos rfl] at accepted
  cases stage : before.foldl (Stage.next slot) .unknown <;>
    simp_all [Stage.take, Stage.foldl_next_violated]

/-- A dispatch that begins behind the ticks of a timer calls it, unless its handle is used. -/
theorem FiresOnce.called {slot : Fin dynamicMax} {delay : Nat}
    {after events : List (TimerEvent dynamicMax)} (fires : FiresOnce slot delay (after ++ events))
    (ticks : delay ≤ after.count .tick) {invoked : Bool}
    (visited : .visited slot invoked ∈ events) :
    .visited slot true ∈ after ++ events ∨ .touched slot ∈ after ++ events := by
  by_contra neither
  rw [not_or] at neither
  obtain ⟨notCalled, unused⟩ := neither
  obtain ⟨early, late, rfl⟩ := List.append_of_mem visited
  rw [← List.append_assoc] at fires notCalled unused
  have called := fires.due (after ++ early) invoked late rfl
    (fun member => unused (List.mem_append_left _ member))
    (fun member => notCalled (List.mem_append_left _ member))
  have enough : delay ≤ (after ++ early).count .tick := by
    rw [List.count_append]
    omega
  rw [called.2 enough] at notCalled
  exact notCalled (by simp)

/-- In every run a one-shot timer whose handle is not used fires once, in the first round of
its slot behind its ticks, and leaves the slot; a dispatch that begins behind the ticks has
this round.  When the timer was added to the slot of the timer that was running, it never
fires. -/
theorem oneshot_fires_once (start : Timers Func World staticMax dynamicMax)
    (steps : List (SchedulerStep Func World)) (slot : Fin dynamicMax) (delay : UInt16)
    (caller : Option (Fin dynamicMax)) (before after : List (TimerEvent dynamicMax))
    (split : (tracedRun staticTimers script start steps).2 =
      before ++ .addedOneshot slot delay caller :: after) :
    (tracedRun staticTimers script start steps).1 =
        steps.foldl (schedulerStep staticTimers script) start ∧
      (caller ≠ some slot → FiresOnce slot delay.toNat after) ∧
      (caller ≠ some slot → delay.toNat ≤ after.count .tick →
        ∃ later, (tracedRun staticTimers script start (steps ++ [.dispatch])).2 =
            before ++ .addedOneshot slot delay caller :: later ∧
          (.visited slot true ∈ later ∨ .touched slot ∈ later)) ∧
      (caller = some slot → NeverFires slot after) := by
  have accepts := (shows_tracedRun staticTimers script start steps).accepts split
  refine ⟨foldl_tracedStep_fst staticTimers script steps (start, []), ?_, ?_, ?_⟩
  · intro notOwn
    rw [if_neg notOwn] at accepts
    exact firesOnce_of_accepted accepts
  · intro notOwn ticks
    obtain ⟨events, dispatched, visits⟩ :=
      visits_tracedDispatch staticTimers script (tracedRun staticTimers script start steps)
    obtain ⟨invoked, visited⟩ := visits slot (List.mem_finRange slot)
    have next : (tracedRun staticTimers script start (steps ++ [.dispatch])).2 =
        before ++ .addedOneshot slot delay caller :: (after ++ events) := by
      rw [split, List.append_assoc, List.cons_append] at dispatched
      rw [tracedRun, List.foldl_append]
      exact dispatched
    have nextAccepts := (shows_tracedRun staticTimers script start _).accepts next
    rw [if_neg notOwn] at nextAccepts
    exact ⟨after ++ events, next, (firesOnce_of_accepted nextAccepts).called ticks visited⟩
  · rintro rfl
    rw [if_pos rfl] at accepts
    exact neverFires_of_accepted accepts

end Invariant

/-- A periodic timer that deletes itself and adds a one-shot timer. -/
def handsOver (func : Bool) (_ : Timers Bool Unit 0 1) : List (Call Bool Unit) :=
  if func then [.deleteTimer 0, .addOneshotTimer false 0] else []

def oneSlot : Timers Bool Unit 0 1 where
  statics := fun index => index.elim0
  dynamics := fun _ => ⟨false, 0, 0, timerDeleted⟩
  world := ()

def absentTimers : StaticTimers Bool Unit 0 1 := ⟨fun _ => ⟨false, 0⟩, fun _ _ => 0⟩

/-- A one-shot timer that is added by the main program fires behind one tick. -/
theorem oneshot_fires_after_tick :
    FiresOnce (0 : Fin 1) 1 [.tick, .visited 0 true, .returned 0 timerDeleted] :=
  (oneshot_fires_once absentTimers handsOver oneSlot
    [.call (.addOneshotTimer false 1), .call .tick, .dispatch] 0 1 none [] _
      (by decide +kernel)).2.1 (by decide)

/-- The one-shot timer that `handsOver` adds gets the slot of its caller, and is lost. -/
theorem oneshot_lost_in_own_slot :
    ¬ ∀ (steps : List (SchedulerStep Bool Unit)) (slot : Fin 1) (delay : UInt16)
      (caller : Option (Fin 1)) (before after : List (TimerEvent 1)),
        (tracedRun absentTimers handsOver oneSlot steps).2 =
            before ++ .addedOneshot slot delay caller :: after →
          FiresOnce slot delay.toNat after := by
  intro always
  have fires := always [.call (.addTimer true 0 false), .dispatch, .dispatch] 0 0 (some 0)
    [.added 0, .visited 0 true, .touched 0] [.returned 0 timerDeleted, .visited 0 false]
    (by decide +kernel)
  have due := fires.due [.returned 0 timerDeleted] false [] rfl (by simp [Unused]) (by simp)
  exact absurd (due.2 (by decide)) (by decide)

end Ethersex.Scheduler

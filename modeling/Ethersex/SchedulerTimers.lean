import Mathlib.Data.List.FinRange
import Mathlib.Data.UInt

/-!
# The timer scheduler

`core/scheduler` runs a generated table of static timers and a table of dynamic
timers filled at run time.  `scheduler_tick` counts the delays of all runnable
timers down, `scheduler_dispatch_timer` calls those whose delay is zero and
reloads them.  This file embeds both loops, and the registration of dynamic
timers, over the two control block tables.

A callback is an arbitrary function on the control blocks and on the rest of the
memory; the dispatch loop also returns the calls it makes, in their order.
-/

namespace Ethersex.Scheduler

def timerDeleted : UInt8 := 0x00
def timerSuspended : UInt8 := 0x01
def timerRunnable : UInt8 := 0x02
def timerRunning : UInt8 := 0x04
def timerOneshot : UInt8 := 0x10

def schedulerIntervalMax : UInt16 := 0xffff

def schedulerOk : Int := 0
def schedulerAgain : Int := -2
def schedulerInval : Int := -3

/-- `static_timer_func_t`. -/
structure StaticTimerFunc (Func : Type*) where
  timer : Func
  interval : UInt16

/-- `static_timer_cb_t`. -/
structure StaticTimerCb where
  delay : UInt16
  state : UInt8

/-- `dynamic_timer_cb_t`. -/
structure DynamicTimerCb (Func : Type*) where
  timer : Func
  delay : UInt16
  interval : UInt16
  state : UInt8

/-- The control blocks of both tables and the rest of the memory. -/
structure Timers (Func World : Type*) (staticMax dynamicMax : Nat) where
  statics : Fin staticMax → StaticTimerCb
  dynamics : Fin dynamicMax → DynamicTimerCb Func
  world : World

/-- The timers the dispatch loop calls. -/
inductive Invocation (staticMax dynamicMax : Nat) where
  | static (index : Fin staticMax)
  | dynamic (index : Fin dynamicMax)
  deriving DecidableEq

/-- What the dispatch loop reads of the static timers: the entries of the generated table, which
stands in program memory, and the words of the data memory at the addresses of their intervals. -/
structure StaticTimers (Func World : Type*) (staticMax dynamicMax : Nat) where
  entries : Nat → StaticTimerFunc Func
  dataWord : Timers Func World staticMax dynamicMax → Nat → UInt16

section

variable {Func World : Type*} {staticMax dynamicMax : Nat}

namespace Timers

def setStatic (timers : Timers Func World staticMax dynamicMax) (index : Fin staticMax)
    (block : StaticTimerCb) : Timers Func World staticMax dynamicMax :=
  { timers with statics := Function.update timers.statics index block }

def setDynamic (timers : Timers Func World staticMax dynamicMax) (index : Fin dynamicMax)
    (block : DynamicTimerCb Func) : Timers Func World staticMax dynamicMax :=
  { timers with dynamics := Function.update timers.dynamics index block }

@[simp]
theorem setStatic_dynamics (timers : Timers Func World staticMax dynamicMax)
    (index : Fin staticMax) (block : StaticTimerCb) :
    (timers.setStatic index block).dynamics = timers.dynamics :=
  rfl

@[simp]
theorem setDynamic_dynamics (timers : Timers Func World staticMax dynamicMax)
    (index : Fin dynamicMax) (block : DynamicTimerCb Func) :
    (timers.setDynamic index block).dynamics =
      Function.update timers.dynamics index block :=
  rfl

end Timers

/-- The first slot whose state is `TIMER_DELETED`. -/
def freeSlot (timers : Timers Func World staticMax dynamicMax) :
    Option (Fin dynamicMax) :=
  (List.finRange dynamicMax).find? fun index =>
    (timers.dynamics index).state = timerDeleted

/-- The handle and the timers after `add_timer`. -/
def addTimer (timers : Timers Func World staticMax dynamicMax) (func : Func)
    (delay interval : UInt16) (flags : UInt8) :
    Int × Timers Func World staticMax dynamicMax :=
  match freeSlot timers with
  | some index =>
      (Int.bmod index.val (2 ^ 8), timers.setDynamic index ⟨func, delay, interval, flags⟩)
  | none => (schedulerAgain, timers)

def schedulerAddTimer (timers : Timers Func World staticMax dynamicMax) (func : Func)
    (interval : UInt16) (suspended : Bool) : Int × Timers Func World staticMax dynamicMax :=
  addTimer timers func interval interval (if suspended then timerSuspended else timerRunnable)

def schedulerAddOneshotTimer (timers : Timers Func World staticMax dynamicMax)
    (func : Func) (delay : UInt16) : Int × Timers Func World staticMax dynamicMax :=
  addTimer timers func delay 0 (timerOneshot ||| timerRunnable)

/-- The slot of a handle, if it is in the table. -/
def slotOf (dynamicMax : Nat) (which : Int8) : Option (Fin dynamicMax) :=
  if valid : 0 ≤ which.toInt ∧ which.toInt < dynamicMax then
    some ⟨which.toInt.toNat, by omega⟩
  else
    none

/-- The functions that change one timer differ in what they do to its control block. -/
def changeTimer (timers : Timers Func World staticMax dynamicMax) (which : Int8)
    (change : DynamicTimerCb Func → DynamicTimerCb Func) :
    Int × Timers Func World staticMax dynamicMax :=
  match slotOf dynamicMax which with
  | some index => (schedulerOk, timers.setDynamic index (change (timers.dynamics index)))
  | none => (schedulerInval, timers)

def schedulerDeleteTimer (timers : Timers Func World staticMax dynamicMax) (which : Int8) :
    Int × Timers Func World staticMax dynamicMax :=
  changeTimer timers which fun block =>
    { block with delay := schedulerIntervalMax, state := timerDeleted }

def schedulerSuspendTimer (timers : Timers Func World staticMax dynamicMax) (which : Int8) :
    Int × Timers Func World staticMax dynamicMax :=
  changeTimer timers which fun block =>
    { block with state := block.state &&& ~~~timerRunnable ||| timerSuspended }

def schedulerResumeTimer (timers : Timers Func World staticMax dynamicMax) (which : Int8) :
    Int × Timers Func World staticMax dynamicMax :=
  changeTimer timers which fun block =>
    { block with state := block.state &&& ~~~timerSuspended ||| timerRunnable }

def schedulerResetTimer (timers : Timers Func World staticMax dynamicMax) (which : Int8) :
    Int × Timers Func World staticMax dynamicMax :=
  changeTimer timers which fun block =>
    { block with
      delay := block.interval
      state := block.state &&& ~~~timerSuspended ||| timerRunnable }

/-- One delay of `scheduler_tick`: runnable timers count down and stop at zero. -/
def tickDelay (state : UInt8) (delay : UInt16) : UInt16 :=
  if state &&& timerRunnable ≠ 0 ∧ 0 < delay then delay - 1 else delay

def schedulerTick (timers : Timers Func World staticMax dynamicMax) :
    Timers Func World staticMax dynamicMax :=
  { timers with
    statics := fun index =>
      let block := timers.statics index
      { block with delay := tickDelay block.state block.delay }
    dynamics := fun index =>
      let block := timers.dynamics index
      { block with delay := tickDelay block.state block.delay } }

/-- A valid timer that is ready to run. -/
def ready (state : UInt8) (delay : UInt16) : Prop :=
  state &&& timerRunnable = timerRunnable ∧ delay = 0

instance (state : UInt8) (delay : UInt16) : Decidable (ready state delay) :=
  inferInstanceAs (Decidable (_ ∧ _))

def setRunning (state : UInt8) : UInt8 :=
  state &&& ~~~timerRunnable ||| timerRunning

def setRunnable (state : UInt8) : UInt8 :=
  state &&& ~~~timerRunning ||| timerRunnable

/-- The timers during a dispatch, with the calls made so far. -/
abbrev Dispatching (Func World : Type*) (staticMax dynamicMax : Nat) :=
  Timers Func World staticMax dynamicMax × List (Invocation staticMax dynamicMax)

variable (staticTimers : StaticTimers Func World staticMax dynamicMax)
  (callback : Func → Timers Func World staticMax dynamicMax →
    Timers Func World staticMax dynamicMax)

/-- One round of the loop over the static timers. -/
def dispatchStatic (dispatching : Dispatching Func World staticMax dynamicMax)
    (index : Fin staticMax) : Dispatching Func World staticMax dynamicMax :=
  let timers := dispatching.1
  let block := timers.statics index
  if ready block.state block.delay then
    let entry := staticTimers.entries index
    let timers := timers.setStatic index { block with state := setRunning block.state }
    let timers := callback entry.timer timers
    let block := timers.statics index
    (timers.setStatic index ⟨entry.interval, setRunnable block.state⟩,
      dispatching.2 ++ [.static index])
  else dispatching

/-- A dynamic control block after its callback has returned, with the word its delay is
reloaded from. -/
def afterCallback (reload : UInt16) (block : DynamicTimerCb Func) : DynamicTimerCb Func :=
  if block.state &&& timerOneshot = timerOneshot then
    { block with delay := schedulerIntervalMax, state := timerDeleted }
  else if block.state ≠ timerDeleted ∧ block.state &&& timerSuspended ≠ timerSuspended then
    { block with delay := reload, state := setRunnable block.state }
  else { block with state := block.state &&& ~~~timerRunning }

/-- One round of the loop over the dynamic timers. -/
def dispatchDynamic (dispatching : Dispatching Func World staticMax dynamicMax)
    (index : Fin dynamicMax) : Dispatching Func World staticMax dynamicMax :=
  let timers := dispatching.1
  let block := timers.dynamics index
  if ready block.state block.delay then
    let timers := timers.setDynamic index { block with state := setRunning block.state }
    let timers := callback block.timer timers
    -- the table is read here without `pgm_read_word`, and at the index of the dynamic timer
    let reload := staticTimers.dataWord timers index
    (timers.setDynamic index (afterCallback reload (timers.dynamics index)),
      dispatching.2 ++ [.dynamic index])
  else dispatching

/-- `scheduler_dispatch_timer`, with the calls it makes. -/
def schedulerDispatchTimer (timers : Timers Func World staticMax dynamicMax) :
    Dispatching Func World staticMax dynamicMax :=
  (List.finRange dynamicMax).foldl (dispatchDynamic staticTimers callback)
    ((List.finRange staticMax).foldl (dispatchStatic staticTimers callback) (timers, []))

end

end Ethersex.Scheduler

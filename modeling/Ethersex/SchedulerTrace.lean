import Ethersex.SchedulerSlots

/-!
# The events of the timer slots

The scheduler with a trace of everything that concerns a dynamic slot: the ticks, the
timers added to it, the calls with its handle, and the rounds of the dispatch loop in
which its timer is called or passed over.  A one-shot timer is traced with the slot
whose callback is running while it is added.
-/

namespace Ethersex.Scheduler

/-- What the trace records. -/
inductive TimerEvent (dynamicMax : Nat) where
  | tick
  | added (slot : Fin dynamicMax)
  | addedOneshot (slot : Fin dynamicMax) (delay : UInt16) (running : Option (Fin dynamicMax))
  /-- A timer is deleted, suspended, resumed or reset by its handle. -/
  | touched (slot : Fin dynamicMax)
  /-- A round of the dispatch loop. -/
  | visited (slot : Fin dynamicMax) (invoked : Bool)
  /-- The callback of a slot has returned, and the loop has set this state. -/
  | returned (slot : Fin dynamicMax) (state : UInt8)
  deriving DecidableEq

section

variable {Func World : Type*} {staticMax dynamicMax : Nat}

/-- The events of a call that is made while this slot is running. -/
def Call.events (running : Option (Fin dynamicMax))
    (timers : Timers Func World staticMax dynamicMax) :
    Call Func World → List (TimerEvent dynamicMax)
  | .addTimer _ _ _ => (freeSlot timers).toList.map .added
  | .addOneshotTimer _ delay => (freeSlot timers).toList.map (.addedOneshot · delay running)
  | .deleteTimer which => (slotOf dynamicMax which).toList.map .touched
  | .suspendTimer which => (slotOf dynamicMax which).toList.map .touched
  | .resumeTimer which => (slotOf dynamicMax which).toList.map .touched
  | .resetTimer which => (slotOf dynamicMax which).toList.map .touched
  | .tick => [.tick]
  | .work _ => []

/-- The timers with the trace of their slots. -/
abbrev Traced (Func World : Type*) (staticMax dynamicMax : Nat) :=
  Timers Func World staticMax dynamicMax × List (TimerEvent dynamicMax)

def tracedCall (running : Option (Fin dynamicMax)) (traced : Traced Func World staticMax dynamicMax)
    (call : Call Func World) : Traced Func World staticMax dynamicMax :=
  (call.apply traced.1, traced.2 ++ call.events running traced.1)

variable (staticTimers : StaticTimers Func World staticMax dynamicMax)
  (script : Func → Timers Func World staticMax dynamicMax → List (Call Func World))

def tracedStatic (traced : Traced Func World staticMax dynamicMax) (index : Fin staticMax) :
    Traced Func World staticMax dynamicMax :=
  let block := traced.1.statics index
  if ready block.state block.delay then
    let entry := staticTimers.entries index
    let timers := traced.1.setStatic index { block with state := setRunning block.state }
    let called := (script entry.timer timers).foldl (tracedCall none) (timers, traced.2)
    let block := called.1.statics index
    (called.1.setStatic index ⟨entry.interval, setRunnable block.state⟩, called.2)
  else traced

/-- The timers when the callback of a slot begins. -/
def begun (traced : Traced Func World staticMax dynamicMax) (index : Fin dynamicMax) :
    Traced Func World staticMax dynamicMax :=
  let block := traced.1.dynamics index
  (traced.1.setDynamic index { block with state := setRunning block.state },
    traced.2 ++ [.visited index true])

/-- The timers when the callback of a slot has returned. -/
def finished (traced : Traced Func World staticMax dynamicMax) (index : Fin dynamicMax) :
    Traced Func World staticMax dynamicMax :=
  let reload := staticTimers.dataWord traced.1 index
  let block := afterCallback reload (traced.1.dynamics index)
  (traced.1.setDynamic index block, traced.2 ++ [.returned index block.state])

def tracedDynamic (traced : Traced Func World staticMax dynamicMax) (index : Fin dynamicMax) :
    Traced Func World staticMax dynamicMax :=
  let block := traced.1.dynamics index
  if ready block.state block.delay then
    let running := begun traced index
    finished staticTimers
      ((script block.timer running.1).foldl (tracedCall (some index)) running) index
  else (traced.1, traced.2 ++ [.visited index false])

def tracedDispatch (traced : Traced Func World staticMax dynamicMax) :
    Traced Func World staticMax dynamicMax :=
  (List.finRange dynamicMax).foldl (tracedDynamic staticTimers script)
    ((List.finRange staticMax).foldl (tracedStatic staticTimers script) traced)

def tracedStep (traced : Traced Func World staticMax dynamicMax) :
    SchedulerStep Func World → Traced Func World staticMax dynamicMax
  | .call call => tracedCall none traced call
  | .dispatch => tracedDispatch staticTimers script traced

theorem foldl_tracedCall_fst (running : Option (Fin dynamicMax)) (calls : List (Call Func World))
    (traced : Traced Func World staticMax dynamicMax) :
    (calls.foldl (tracedCall running) traced).1 = calls.foldl Call.apply traced.1 := by
  induction calls generalizing traced with
  | nil => rfl
  | cons call calls ih => exact ih (tracedCall running traced call)

theorem tracedStatic_fst {traced : Traced Func World staticMax dynamicMax}
    {dispatching : Dispatching Func World staticMax dynamicMax}
    (same : traced.1 = dispatching.1) (index : Fin staticMax) :
    (tracedStatic staticTimers script traced index).1 =
      (dispatchStatic staticTimers (scripted script) dispatching index).1 := by
  rw [tracedStatic, dispatchStatic, same]
  split
  · simp only [foldl_tracedCall_fst, scripted]
  · exact same

theorem tracedDynamic_fst {traced : Traced Func World staticMax dynamicMax}
    {dispatching : Dispatching Func World staticMax dynamicMax}
    (same : traced.1 = dispatching.1) (index : Fin dynamicMax) :
    (tracedDynamic staticTimers script traced index).1 =
      (dispatchDynamic staticTimers (scripted script) dispatching index).1 := by
  rw [tracedDynamic, dispatchDynamic, same]
  split
  · simp only [begun, finished, foldl_tracedCall_fst, scripted, same]
  · rfl

theorem tracedStep_fst (traced : Traced Func World staticMax dynamicMax)
    (step : SchedulerStep Func World) :
    (tracedStep staticTimers script traced step).1 =
      schedulerStep staticTimers script traced.1 step := by
  cases step with
  | call call => rfl
  | dispatch =>
      apply foldl_fst
      · intro traced dispatching index same
        exact tracedDynamic_fst staticTimers script same index
      · apply foldl_fst
        · intro traced dispatching index same
          exact tracedStatic_fst staticTimers script same index
        · rfl

theorem foldl_tracedStep_fst (steps : List (SchedulerStep Func World))
    (traced : Traced Func World staticMax dynamicMax) :
    (steps.foldl (tracedStep staticTimers script) traced).1 =
      steps.foldl (schedulerStep staticTimers script) traced.1 := by
  induction steps generalizing traced with
  | nil => rfl
  | cons step steps ih => rw [List.foldl_cons, List.foldl_cons, ih, tracedStep_fst]

/-- The trace grows by events among which the slots of a list are visited. -/
def Visits (slots : List (Fin dynamicMax)) (before after : Traced Func World staticMax dynamicMax) :
    Prop :=
  ∃ events, after.2 = before.2 ++ events ∧ ∀ slot ∈ slots, ∃ invoked, .visited slot invoked ∈ events

theorem Visits.trans {first second : List (Fin dynamicMax)}
    {start middle stop : Traced Func World staticMax dynamicMax}
    (visitsFirst : Visits first start middle) (visitsSecond : Visits second middle stop) :
    Visits (first ++ second) start stop := by
  obtain ⟨firstEvents, firstTrace, firstVisited⟩ := visitsFirst
  obtain ⟨secondEvents, secondTrace, secondVisited⟩ := visitsSecond
  refine ⟨firstEvents ++ secondEvents, ?_, ?_⟩
  · rw [secondTrace, firstTrace, List.append_assoc]
  · intro slot member
    rcases List.mem_append.mp member with inFirst | inSecond
    · obtain ⟨invoked, visited⟩ := firstVisited slot inFirst
      exact ⟨invoked, List.mem_append_left _ visited⟩
    · obtain ⟨invoked, visited⟩ := secondVisited slot inSecond
      exact ⟨invoked, List.mem_append_right _ visited⟩

theorem visits_tracedCall (running : Option (Fin dynamicMax))
    (traced : Traced Func World staticMax dynamicMax) (call : Call Func World) :
    Visits [] traced (tracedCall running traced call) :=
  ⟨call.events running traced.1, rfl, by simp⟩

theorem visits_refl (traced : Traced Func World staticMax dynamicMax) : Visits [] traced traced :=
  ⟨[], by simp, by simp⟩

/-- A loop visits what its rounds visit. -/
theorem visits_foldl {Index : Type*} {step : Traced Func World staticMax dynamicMax → Index →
      Traced Func World staticMax dynamicMax} {slots : Index → List (Fin dynamicMax)}
    (visits : ∀ traced index, Visits (slots index) traced (step traced index))
    (indices : List Index) (traced : Traced Func World staticMax dynamicMax) :
    Visits (indices.flatMap slots) traced (indices.foldl step traced) := by
  induction indices generalizing traced with
  | nil => exact visits_refl traced
  | cons index indices ih => exact (visits traced index).trans (ih (step traced index))

theorem visits_calls (running : Option (Fin dynamicMax)) (calls : List (Call Func World))
    (traced : Traced Func World staticMax dynamicMax) :
    Visits [] traced (calls.foldl (tracedCall running) traced) := by
  have visits := visits_foldl (visits_tracedCall running) calls traced
  rwa [List.flatMap_eq_nil_iff.mpr fun _ _ => rfl] at visits

theorem visits_tracedStatic (traced : Traced Func World staticMax dynamicMax)
    (index : Fin staticMax) : Visits [] traced (tracedStatic staticTimers script traced index) := by
  rw [tracedStatic]
  split
  · exact visits_calls none _ (_, traced.2)
  · exact visits_refl traced

theorem visits_tracedDynamic (traced : Traced Func World staticMax dynamicMax)
    (index : Fin dynamicMax) :
    Visits [index] traced (tracedDynamic staticTimers script traced index) := by
  rw [tracedDynamic]
  split
  · have begins : Visits [index] traced (begun traced index) :=
      ⟨[.visited index true], rfl, by simp⟩
    have returns (called : Traced Func World staticMax dynamicMax) :
        Visits [] called (finished staticTimers called index) :=
      ⟨[.returned index _], rfl, by simp⟩
    exact (begins.trans (visits_calls (some index) _ _)).trans (returns _)
  · exact ⟨[.visited index false], rfl, by simp⟩

theorem visits_tracedDispatch (traced : Traced Func World staticMax dynamicMax) :
    Visits (List.finRange dynamicMax) traced (tracedDispatch staticTimers script traced) := by
  have statics := visits_foldl (visits_tracedStatic staticTimers script)
    (List.finRange staticMax) traced
  have dynamics := visits_foldl (visits_tracedDynamic staticTimers script)
    (List.finRange dynamicMax) ((List.finRange staticMax).foldl
      (tracedStatic staticTimers script) traced)
  have both := statics.trans dynamics
  rwa [List.flatMap_eq_nil_iff.mpr fun _ _ => rfl, List.nil_append, List.flatMap_singleton'] at both

end

end Ethersex.Scheduler

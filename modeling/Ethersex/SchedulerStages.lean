import Ethersex.SchedulerTrace

/-!
# The stages of a one-shot timer

What a one-shot timer promises is said about the trace of its slot.  Here the promise is
reduced to a small machine that reads the trace: it knows how many ticks the timer still
waits for, whether it is running and whether its slot is free, and it stops at the first
event that breaks the promise.
-/

namespace Ethersex.Scheduler

variable {dynamicMax : Nat}

/-- Nobody uses the handle of a slot. -/
def Unused (slot : Fin dynamicMax) (events : List (TimerEvent dynamicMax)) : Prop :=
  .touched slot ∉ events

/-- An event puts a timer into a slot. -/
def TimerEvent.Takes (slot : Fin dynamicMax) : TimerEvent dynamicMax → Prop
  | .added other => other = slot
  | .addedOneshot other _ _ => other = slot
  | _ => False

/-- The events behind the call that adds a one-shot timer to a slot. -/
structure FiresOnce (slot : Fin dynamicMax) (delay : Nat) (after : List (TimerEvent dynamicMax)) :
    Prop where
  /-- It is called in the first round of its slot behind `delay` ticks. -/
  due : ∀ early invoked late, after = early ++ .visited slot invoked :: late →
    Unused slot early → .visited slot true ∉ early →
      (invoked = true ↔ delay ≤ early.count .tick)
  /-- When its callback returns, the slot is free. -/
  freed : ∀ early during state late,
    after = early ++ .visited slot true :: (during ++ .returned slot state :: late) →
      Unused slot early → .visited slot true ∉ early → Unused slot during →
        (∀ state, .returned slot state ∉ during) → state = timerDeleted
  /-- A second call is that of another timer. -/
  once : ∀ early between late,
    after = early ++ .visited slot true :: (between ++ .visited slot true :: late) →
      Unused slot early → .visited slot true ∉ early → Unused slot between →
        ∃ event ∈ between, event.Takes slot
  /-- The slot is its own until the callback returns. -/
  kept : ∀ early event late, after = early ++ event :: late → event.Takes slot →
    Unused slot early → .visited slot true ∈ early ∧ ∃ state, .returned slot state ∈ early

/-- The timer is never called. -/
def NeverFires (slot : Fin dynamicMax) (after : List (TimerEvent dynamicMax)) : Prop :=
  ∀ early late, after = early ++ .visited slot true :: late → Unused slot early →
    ∃ event ∈ early, event.Takes slot

/-- Where the one-shot timer of a slot is. -/
inductive Stage where
  /-- Nothing is known of the slot. -/
  | unknown
  | waiting (ticks : Nat)
  | running
  /-- The timer was added in the callback of its own slot. -/
  | doomed
  | free
  | violated
  deriving DecidableEq

namespace Stage

/-- A timer is put into the slot. -/
def take (stage added : Stage) : Stage :=
  match stage with
  | unknown => added
  | free => added
  | _ => violated

def visit : Stage → Bool → Stage
  | unknown, _ => unknown
  | waiting 0, true => running
  | waiting (ticks + 1), false => waiting (ticks + 1)
  | free, false => free
  | _, _ => violated

def finish (state : UInt8) : Stage → Stage
  | unknown => unknown
  | waiting _ => violated
  | violated => violated
  | _ => if state = timerDeleted then free else violated

def tick : Stage → Stage
  | waiting ticks => waiting (ticks - 1)
  | stage => stage

def touch : Stage → Stage
  | violated => violated
  | _ => unknown

/-- The stage of a slot behind an event. -/
def next (slot : Fin dynamicMax) (stage : Stage) : TimerEvent dynamicMax → Stage
  | .tick => stage.tick
  | .added other => if other = slot then stage.take unknown else stage
  | .addedOneshot other delay caller =>
      if other = slot then stage.take (if caller = some slot then doomed else waiting delay.toNat)
      else stage
  | .touched other => if other = slot then stage.touch else stage
  | .visited other invoked => if other = slot then stage.visit invoked else stage
  | .returned other state => if other = slot then stage.finish state else stage

theorem next_violated (slot : Fin dynamicMax) (event : TimerEvent dynamicMax) :
    next slot violated event = violated := by
  cases event <;> simp [next, take, visit, finish, tick, touch]

theorem foldl_next_violated (slot : Fin dynamicMax) (events : List (TimerEvent dynamicMax)) :
    events.foldl (next slot) violated = violated := by
  induction events with
  | nil => rfl
  | cons event events ih => rw [List.foldl_cons, next_violated, ih]

/-- A trace that was violated once stays so. -/
theorem ne_violated_of_append {slot : Fin dynamicMax} {stage : Stage}
    {early late : List (TimerEvent dynamicMax)}
    (accepted : (early ++ late).foldl (next slot) stage ≠ violated) :
    early.foldl (next slot) stage ≠ violated := by
  intro violation
  rw [List.foldl_append, violation, foldl_next_violated] at accepted
  exact accepted rfl

theorem ne_violated_of_cons {slot : Fin dynamicMax} {stage : Stage} {event : TimerEvent dynamicMax}
    {late : List (TimerEvent dynamicMax)}
    (accepted : (event :: late).foldl (next slot) stage ≠ violated) :
    next slot stage event ≠ violated :=
  @ne_violated_of_append _ slot stage [event] late accepted

variable {slot : Fin dynamicMax}

theorem next_waiting {ticks : Nat} {event : TimerEvent dynamicMax} (unused : event ≠ .touched slot)
    (notCalled : event ≠ .visited slot true)
    (accepted : next slot (waiting ticks) event ≠ violated) :
    next slot (waiting ticks) event = waiting (ticks - [event].count .tick) := by
  cases event with
  | tick => simp [next, tick]
  | added other =>
      by_cases same : other = slot <;> simp [next, take, same] at accepted ⊢
  | addedOneshot other delay caller =>
      by_cases same : other = slot <;> simp [next, take, same] at accepted ⊢
  | touched other =>
      have different : other ≠ slot := fun same => unused (by rw [same])
      simp [next, different]
  | visited other invoked =>
      by_cases same : other = slot
      · have passed : invoked = false := by
          cases invoked with
          | false => rfl
          | true => exact absurd (by rw [same]) notCalled
        cases ticks <;> simp [next, visit, same, passed] at accepted ⊢
      · simp [next, same]
  | returned other state =>
      by_cases same : other = slot <;> simp [next, finish, same] at accepted ⊢

/-- A timer that is not called only counts the ticks. -/
theorem foldl_waiting {ticks : Nat} {events : List (TimerEvent dynamicMax)}
    (unused : Unused slot events) (notCalled : .visited slot true ∉ events)
    (accepted : events.foldl (next slot) (waiting ticks) ≠ violated) :
    events.foldl (next slot) (waiting ticks) = waiting (ticks - events.count .tick) := by
  induction events generalizing ticks with
  | nil => rfl
  | cons event events ih =>
      rw [Unused, List.mem_cons, not_or] at unused
      rw [List.mem_cons, not_or] at notCalled
      have first := next_waiting (Ne.symm unused.1) (Ne.symm notCalled.1)
        (ne_violated_of_cons accepted)
      rw [List.foldl_cons, first] at accepted ⊢
      rw [ih unused.2 notCalled.2 accepted, Nat.sub_sub, ← List.count_append]
      rfl

theorem next_running {event : TimerEvent dynamicMax} (unused : event ≠ .touched slot)
    (notReturned : ∀ state, event ≠ .returned slot state)
    (accepted : next slot running event ≠ violated) :
    next slot running event = running ∧ ¬ event.Takes slot := by
  cases event with
  | tick => exact ⟨rfl, id⟩
  | added other =>
      by_cases same : other = slot <;> simp [next, take, TimerEvent.Takes, same] at accepted ⊢
  | addedOneshot other delay caller =>
      by_cases same : other = slot <;> simp [next, take, TimerEvent.Takes, same] at accepted ⊢
  | touched other =>
      have different : other ≠ slot := fun same => unused (by rw [same])
      simp [next, TimerEvent.Takes, different]
  | visited other invoked =>
      by_cases same : other = slot <;> simp [next, visit, TimerEvent.Takes, same] at accepted ⊢
  | returned other state =>
      have different : other ≠ slot := fun same => notReturned state (by rw [same])
      simp [next, TimerEvent.Takes, different]

/-- Until it returns, a running timer keeps its slot. -/
theorem foldl_running {events : List (TimerEvent dynamicMax)} (unused : Unused slot events)
    (notReturned : ∀ state, .returned slot state ∉ events)
    (accepted : events.foldl (next slot) running ≠ violated) :
    events.foldl (next slot) running = running := by
  induction events with
  | nil => rfl
  | cons event events ih =>
      rw [Unused, List.mem_cons, not_or] at unused
      have first := (next_running (Ne.symm unused.1)
        (fun state same => notReturned state (by simp [same]))
        (ne_violated_of_cons accepted)).1
      rw [List.foldl_cons, first] at accepted ⊢
      exact ih unused.2 (fun state member => notReturned state (by simp [member])) accepted

/-- The timer has been called, or it will not be called any more. -/
def Past (stage : Stage) : Prop :=
  stage = running ∨ stage = doomed ∨ stage = free

theorem Past.next {stage : Stage} {event : TimerEvent dynamicMax} (past : stage.Past)
    (unused : event ≠ .touched slot) (notTaken : ¬ event.Takes slot)
    (accepted : stage.next slot event ≠ violated) :
    (stage.next slot event).Past ∧ event ≠ .visited slot true := by
  cases event with
  | tick =>
      refine ⟨?_, nofun⟩
      rcases past with rfl | rfl | rfl <;> simp [Stage.next, Stage.tick, Past]
  | added other =>
      have different : other ≠ slot := notTaken
      simp [Stage.next, different, past]
  | addedOneshot other delay caller =>
      have different : other ≠ slot := notTaken
      simp [Stage.next, different, past]
  | touched other =>
      have different : other ≠ slot := fun same => unused (by rw [same])
      simp [Stage.next, different, past]
  | visited other invoked =>
      by_cases same : other = slot
      · rcases past with rfl | rfl | rfl <;> cases invoked <;>
          simp [Stage.next, visit, same, Past] at accepted ⊢
      · simp [Stage.next, same, past]
  | returned other state =>
      refine ⟨?_, nofun⟩
      by_cases same : other = slot
      · by_cases deleted : state = timerDeleted <;> rcases past with rfl | rfl | rfl <;>
          simp [Stage.next, finish, same, deleted, Past] at accepted ⊢
      · simp [Stage.next, same, past]

/-- It is not called until another timer is put into its slot. -/
theorem Past.not_called {stage : Stage} {early late : List (TimerEvent dynamicMax)}
    (past : stage.Past) (unused : Unused slot early)
    (accepted : (early ++ .visited slot true :: late).foldl (Stage.next slot) stage ≠ violated) :
    ∃ event ∈ early, event.Takes slot := by
  induction early generalizing stage with
  | nil =>
      have step := past.next (by simp) id (ne_violated_of_cons accepted)
      exact absurd rfl step.2
  | cons event early ih =>
      rw [Unused, List.mem_cons, not_or] at unused
      by_cases takes : event.Takes slot
      · exact ⟨event, List.mem_cons_self, takes⟩
      · have step := past.next (Ne.symm unused.1) takes
          (ne_violated_of_cons accepted)
        obtain ⟨other, member, taken⟩ := ih step.1 unused.2 accepted
        exact ⟨other, List.mem_cons_of_mem event member, taken⟩

end Stage

section Promise

variable {slot : Fin dynamicMax} {delay : Nat} {after : List (TimerEvent dynamicMax)}

open Stage

/-- A timer is called from the stage in which it waits for no more ticks. -/
theorem running_of_called {early late : List (TimerEvent dynamicMax)}
    (unused : Unused slot early) (notCalled : .visited slot true ∉ early)
    (accepted : (early ++ .visited slot true :: late).foldl (next slot) (waiting delay) ≠
      violated) :
    late.foldl (next slot) running ≠ violated := by
  have waits := foldl_waiting unused notCalled (ne_violated_of_append accepted)
  rw [List.foldl_append, waits, List.foldl_cons] at accepted
  cases remaining : delay - early.count .tick with
  | zero =>
      rw [remaining] at accepted
      simpa [next, visit] using accepted
  | succ ticks =>
      rw [remaining] at accepted
      simp [next, visit, foldl_next_violated] at accepted

theorem firesOnce_of_accepted (accepted : after.foldl (next slot) (waiting delay) ≠ violated) :
    FiresOnce slot delay after where
  due := by
    rintro early invoked late rfl unused notCalled
    have waits := foldl_waiting unused notCalled (ne_violated_of_append accepted)
    rw [List.foldl_append, waits] at accepted
    have visited := ne_violated_of_cons accepted
    cases remaining : delay - early.count .tick with
    | zero =>
        cases invoked <;> simp [next, visit, remaining] at visited ⊢
        omega
    | succ ticks =>
        cases invoked <;> simp [next, visit, remaining] at visited ⊢
        omega
  freed := by
    rintro early during state late rfl unused notCalled unusedRunning notReturned
    have runs := running_of_called unused notCalled accepted
    have stays := foldl_running unusedRunning notReturned (ne_violated_of_append runs)
    rw [List.foldl_append, stays] at runs
    have returned := ne_violated_of_cons runs
    by_contra taken
    simp [next, finish, taken] at returned
  once := by
    rintro early between late rfl unused notCalled unusedBetween
    exact Past.not_called (Or.inl rfl) unusedBetween
      (running_of_called unused notCalled accepted)
  kept := by
    rintro early event late rfl takes unused
    by_cases called : .visited slot true ∈ early
    · refine ⟨called, ?_⟩
      obtain ⟨first, rest, rfl, notCalled⟩ := List.eq_append_cons_of_mem called
      rw [Unused, List.mem_append, List.mem_cons, not_or, not_or] at unused
      rw [List.append_assoc, List.cons_append] at accepted
      have runs := running_of_called unused.1 notCalled accepted
      by_contra notReturned
      rw [not_exists] at notReturned
      have stays := foldl_running unused.2.2
        (fun state member => notReturned state (by simp [member])) (ne_violated_of_append runs)
      rw [List.foldl_append, stays] at runs
      have step := next_running (fun same => by rw [same] at takes; exact takes)
        (fun state same => by rw [same] at takes; exact takes) (ne_violated_of_cons runs)
      exact step.2 takes
    · have waits := foldl_waiting unused called (ne_violated_of_append accepted)
      rw [List.foldl_append, waits] at accepted
      have violation := ne_violated_of_cons accepted
      cases event <;> simp_all [TimerEvent.Takes, next, Stage.take]

theorem neverFires_of_accepted (accepted : after.foldl (next slot) doomed ≠ violated) :
    NeverFires slot after := by
  rintro early late rfl unused
  exact Past.not_called (Or.inr (Or.inl rfl)) unused accepted

end Promise

end Ethersex.Scheduler

import Ethersex.SchedulerTimers

/-!
# The lifetime of dynamic timers

A dynamic timer lives in its slot from the call that adds it until it is deleted
or, when it is a one-shot timer, until it has fired; its handle is the number of
the slot and outlives it.  This file runs the operations on dynamic timers, also
those inside callbacks, with a log of what happens to the slots.
-/

namespace Ethersex.Scheduler

/-- What happens to a slot.  A call that suspends, resumes or resets a timer is
logged with the state of its slot before and after it. -/
inductive SlotEvent (dynamicMax : Nat) where
  | added (slot : Fin dynamicMax)
  | deleted (slot : Fin dynamicMax)
  | changed (slot : Fin dynamicMax) (before after : UInt8)
  | invoked (slot : Fin dynamicMax) (oneshot : Bool)
  deriving DecidableEq

/-- An event starts or ends the life of a timer in this slot. -/
def SlotEvent.update {dynamicMax : Nat} (slot : Fin dynamicMax) (alive : Bool) :
    SlotEvent dynamicMax → Bool
  | .added other => if other = slot then true else alive
  | .deleted other => if other = slot then false else alive
  | .changed _ _ _ => alive
  | .invoked other oneshot => if other = slot ∧ oneshot = true then false else alive

/-- A timer was added to the slot, and since then it was neither deleted nor has it fired
as a one-shot timer. -/
def alive {dynamicMax : Nat} (log : List (SlotEvent dynamicMax)) (slot : Fin dynamicMax) : Bool :=
  log.foldl (SlotEvent.update slot) false

/-- No timer is invoked behind its end, and no free slot is taken but by an added timer. -/
structure Sound {dynamicMax : Nat} (log : List (SlotEvent dynamicMax)) : Prop where
  invoked : ∀ before slot oneshot after, log = before ++ .invoked slot oneshot :: after →
    alive before slot = true
  free : ∀ slot before after, .changed slot before after ∈ log → before = timerDeleted →
    after = timerDeleted

/-- A timer is suspended, resumed or reset only while its slot is taken. -/
def SlotEvent.Taken {dynamicMax : Nat} : SlotEvent dynamicMax → Prop
  | .changed _ before _ => before ≠ timerDeleted
  | _ => True

/-- What a callback or the main program does with the scheduler.  A tick is the timer
interrupt; `work` is everything else. -/
inductive Call (Func World : Type*) where
  | addTimer (func : Func) (interval : UInt16) (suspended : Bool)
  | addOneshotTimer (func : Func) (delay : UInt16)
  | deleteTimer (which : Int8)
  | suspendTimer (which : Int8)
  | resumeTimer (which : Int8)
  | resetTimer (which : Int8)
  | tick
  | work (world : World)

section

variable {Func World : Type*} {staticMax dynamicMax : Nat}

def Call.apply (timers : Timers Func World staticMax dynamicMax) :
    Call Func World → Timers Func World staticMax dynamicMax
  | .addTimer func interval suspended => (schedulerAddTimer timers func interval suspended).2
  | .addOneshotTimer func delay => (schedulerAddOneshotTimer timers func delay).2
  | .deleteTimer which => (schedulerDeleteTimer timers which).2
  | .suspendTimer which => (schedulerSuspendTimer timers which).2
  | .resumeTimer which => (schedulerResumeTimer timers which).2
  | .resetTimer which => (schedulerResetTimer timers which).2
  | .tick => schedulerTick timers
  | .work world => { timers with world := world }

/-- The record of a call that changes the state of a timer. -/
def recordChange (before after : Timers Func World staticMax dynamicMax) (which : Int8) :
    List (SlotEvent dynamicMax) :=
  (slotOf dynamicMax which).toList.map fun slot =>
    .changed slot (before.dynamics slot).state (after.dynamics slot).state

def Call.record (timers : Timers Func World staticMax dynamicMax) (call : Call Func World) :
    List (SlotEvent dynamicMax) :=
  match call with
  | .addTimer _ _ _ => (freeSlot timers).toList.map .added
  | .addOneshotTimer _ _ => (freeSlot timers).toList.map .added
  | .deleteTimer which => (slotOf dynamicMax which).toList.map .deleted
  | .suspendTimer which => recordChange timers (call.apply timers) which
  | .resumeTimer which => recordChange timers (call.apply timers) which
  | .resetTimer which => recordChange timers (call.apply timers) which
  | .tick => []
  | .work _ => []

/-- The timers with the log of their slots. -/
abbrev Logged (Func World : Type*) (staticMax dynamicMax : Nat) :=
  Timers Func World staticMax dynamicMax × List (SlotEvent dynamicMax)

def perform (logged : Logged Func World staticMax dynamicMax) (call : Call Func World) :
    Logged Func World staticMax dynamicMax :=
  (call.apply logged.1, logged.2 ++ call.record logged.1)

variable (staticTimers : StaticTimers Func World staticMax dynamicMax)
  (script : Func → Timers Func World staticMax dynamicMax → List (Call Func World))

/-- A callback, as the calls that it makes when it finds these timers. -/
def scripted (func : Func) (timers : Timers Func World staticMax dynamicMax) :
    Timers Func World staticMax dynamicMax :=
  (script func timers).foldl Call.apply timers

def loggedStatic (logged : Logged Func World staticMax dynamicMax) (index : Fin staticMax) :
    Logged Func World staticMax dynamicMax :=
  let block := logged.1.statics index
  if ready block.state block.delay then
    let entry := staticTimers.entries index
    let timers := logged.1.setStatic index { block with state := setRunning block.state }
    let called := (script entry.timer timers).foldl perform (timers, logged.2)
    let block := called.1.statics index
    (called.1.setStatic index ⟨entry.interval, setRunnable block.state⟩, called.2)
  else logged

def loggedDynamic (logged : Logged Func World staticMax dynamicMax) (index : Fin dynamicMax) :
    Logged Func World staticMax dynamicMax :=
  let block := logged.1.dynamics index
  if ready block.state block.delay then
    let timers := logged.1.setDynamic index { block with state := setRunning block.state }
    let event := SlotEvent.invoked index (block.state &&& timerOneshot = timerOneshot)
    let called := (script block.timer timers).foldl perform (timers, logged.2 ++ [event])
    let reload := staticTimers.dataWord called.1 index
    (called.1.setDynamic index (afterCallback reload (called.1.dynamics index)), called.2)
  else logged

def loggedDispatch (logged : Logged Func World staticMax dynamicMax) :
    Logged Func World staticMax dynamicMax :=
  (List.finRange dynamicMax).foldl (loggedDynamic staticTimers script)
    ((List.finRange staticMax).foldl (loggedStatic staticTimers script) logged)

/-- The main program makes a call, or it runs the scheduler loop. -/
inductive SchedulerStep (Func World : Type*) where
  | call (call : Call Func World)
  | dispatch

def schedulerStep (timers : Timers Func World staticMax dynamicMax) :
    SchedulerStep Func World → Timers Func World staticMax dynamicMax
  | .call call => call.apply timers
  | .dispatch => (schedulerDispatchTimer staticTimers (scripted script) timers).1

def loggedStep (logged : Logged Func World staticMax dynamicMax) :
    SchedulerStep Func World → Logged Func World staticMax dynamicMax
  | .call call => perform logged call
  | .dispatch => loggedDispatch staticTimers script logged

theorem foldl_perform_fst (calls : List (Call Func World))
    (logged : Logged Func World staticMax dynamicMax) :
    (calls.foldl perform logged).1 = calls.foldl Call.apply logged.1 := by
  induction calls generalizing logged with
  | nil => rfl
  | cons call calls ih => exact ih (perform logged call)

/-- Two loops that do the same to their first components. -/
theorem foldl_fst {Common First Second Index : Type*}
    {first : Common × First → Index → Common × First}
    {second : Common × Second → Index → Common × Second} {left : Common × First}
    {right : Common × Second} {indices : List Index}
    (same : ∀ left right index, left.1 = right.1 → (first left index).1 = (second right index).1)
    (start : left.1 = right.1) : (indices.foldl first left).1 = (indices.foldl second right).1 := by
  induction indices generalizing left right with
  | nil => exact start
  | cons index indices ih => exact ih (same left right index start)

theorem loggedStatic_fst {logged : Logged Func World staticMax dynamicMax}
    {dispatching : Dispatching Func World staticMax dynamicMax}
    (same : logged.1 = dispatching.1) (index : Fin staticMax) :
    (loggedStatic staticTimers script logged index).1 =
      (dispatchStatic staticTimers (scripted script) dispatching index).1 := by
  rw [loggedStatic, dispatchStatic, same]
  split
  · simp only [foldl_perform_fst, scripted]
  · exact same

theorem loggedDynamic_fst {logged : Logged Func World staticMax dynamicMax}
    {dispatching : Dispatching Func World staticMax dynamicMax}
    (same : logged.1 = dispatching.1) (index : Fin dynamicMax) :
    (loggedDynamic staticTimers script logged index).1 =
      (dispatchDynamic staticTimers (scripted script) dispatching index).1 := by
  rw [loggedDynamic, dispatchDynamic, same]
  split
  · simp only [foldl_perform_fst, scripted]
  · exact same

theorem loggedDispatch_fst (logged : Logged Func World staticMax dynamicMax) :
    (loggedDispatch staticTimers script logged).1 =
      (schedulerDispatchTimer staticTimers (scripted script) logged.1).1 := by
  rw [loggedDispatch, schedulerDispatchTimer]
  apply foldl_fst
  · intro logged dispatching index same
    exact loggedDynamic_fst staticTimers script same index
  · apply foldl_fst
    · intro logged dispatching index same
      exact loggedStatic_fst staticTimers script same index
    · rfl

theorem foldl_loggedStep_fst (steps : List (SchedulerStep Func World))
    (logged : Logged Func World staticMax dynamicMax) :
    (steps.foldl (loggedStep staticTimers script) logged).1 =
      steps.foldl (schedulerStep staticTimers script) logged.1 := by
  induction steps generalizing logged with
  | nil => rfl
  | cons step steps ih =>
      have same : (loggedStep staticTimers script logged step).1 =
          schedulerStep staticTimers script logged.1 step := by
        cases step with
        | call call => rfl
        | dispatch => exact loggedDispatch_fst staticTimers script logged
      rw [List.foldl_cons, List.foldl_cons, ih, same]

/-- A taken slot holds a living timer, or the one-shot timer that runs at the moment. -/
def Lives (running : Option (Fin dynamicMax)) (timers : Timers Func World staticMax dynamicMax)
    (log : List (SlotEvent dynamicMax)) : Prop :=
  ∀ slot, (timers.dynamics slot).state ≠ timerDeleted → alive log slot = true ∨
    running = some slot ∧ (timers.dynamics slot).state &&& timerOneshot = timerOneshot

/-- Every change of a state leaves the slot taken; when no free slot was changed, then the
log is sound. -/
structure Follows (running : Option (Fin dynamicMax))
    (logged : Logged Func World staticMax dynamicMax) : Prop where
  takes : ∀ slot before after, .changed slot before after ∈ logged.2 → after ≠ timerDeleted
  lives : (∀ event ∈ logged.2, event.Taken) → Sound logged.2 ∧ Lives running logged.1 logged.2

theorem alive_append (log : List (SlotEvent dynamicMax)) (event : SlotEvent dynamicMax)
    (slot : Fin dynamicMax) : alive (log ++ [event]) slot = event.update slot (alive log slot) :=
  List.foldl_append ..

theorem Sound.append {log : List (SlotEvent dynamicMax)} (sound : Sound log)
    {event : SlotEvent dynamicMax}
    (invoked : ∀ slot oneshot, event = .invoked slot oneshot → alive log slot = true)
    (taken : event.Taken) : Sound (log ++ [event]) where
  invoked := by
    intro before slot oneshot after split
    rcases List.eq_nil_or_concat after with rfl | ⟨rest, last, rfl⟩
    · obtain ⟨rfl, same⟩ := List.append_inj' split rfl
      exact invoked slot oneshot (List.singleton_inj.mp same)
    · rw [List.concat_eq_append, ← List.cons_append, ← List.append_assoc] at split
      exact sound.invoked before slot oneshot rest (List.append_inj' split rfl).1
  free := by
    intro slot before after member isFree
    rcases List.mem_append.mp member with earlier | now
    · exact sound.free slot before after earlier isFree
    · cases List.mem_singleton.mp now
      exact absurd isFree taken

theorem or_and_of_apart {state mask set bit : UInt8} (kept : ~~~mask &&& bit = bit)
    (apart : set &&& bit = 0) : (state &&& ~~~mask ||| set) &&& bit = state &&& bit := by
  have distributed : (state &&& ~~~mask ||| set) &&& bit =
      state &&& (~~~mask &&& bit) ||| set &&& bit := by
    apply UInt8.toBitVec_inj.mp
    ext index below
    simp [Bool.and_or_distrib_right, Bool.and_assoc]
  rw [distributed, kept, apart, UInt8.or_zero]

theorem or_ne_deleted {state set : UInt8} (nonzero : set ≠ 0) : state ||| set ≠ timerDeleted :=
  fun zero => nonzero (UInt8.or_eq_zero_iff.mp zero).2

section Events

variable {running next : Option (Fin dynamicMax)} {timers : Timers Func World staticMax dynamicMax}
  {log : List (SlotEvent dynamicMax)}

/-- A step that logs one event. -/
theorem Follows.event {changed : Timers Func World staticMax dynamicMax}
    {event : SlotEvent dynamicMax} (follows : Follows running (timers, log))
    (takes : ∀ slot before after, event = .changed slot before after → after ≠ timerDeleted)
    (invoked : Lives running timers log → ∀ slot oneshot, event = .invoked slot oneshot →
      alive log slot = true)
    (lives : Lives running timers log → event.Taken → Lives next changed (log ++ [event])) :
    Follows next (changed, log ++ [event]) where
  takes := by
    intro slot before after member
    rcases List.mem_append.mp member with earlier | now
    · exact follows.takes slot before after earlier
    · exact takes slot before after (List.mem_singleton.mp now).symm
  lives := by
    intro taken
    obtain ⟨takenEarlier, takenNow⟩ := List.forall_mem_append.mp taken
    obtain ⟨sound, livesBefore⟩ := follows.lives takenEarlier
    have takenNow := takenNow event (List.mem_singleton_self event)
    exact ⟨sound.append (invoked livesBefore) takenNow, lives livesBefore takenNow⟩

/-- A step that leaves the states alone logs nothing. -/
theorem Follows.same_states {changed : Timers Func World staticMax dynamicMax}
    (follows : Follows running (timers, log))
    (same : ∀ slot, (changed.dynamics slot).state = (timers.dynamics slot).state) :
    Follows running (changed, log) where
  takes := follows.takes
  lives := by
    intro taken
    obtain ⟨sound, lives⟩ := follows.lives taken
    refine ⟨sound, fun slot => ?_⟩
    rw [same slot]
    exact lives slot

theorem setDynamic_self (index : Fin dynamicMax) (block : DynamicTimerCb Func) :
    (timers.setDynamic index block).dynamics index = block :=
  Function.update_self ..

theorem setDynamic_of_ne {index slot : Fin dynamicMax} (other : slot ≠ index)
    (block : DynamicTimerCb Func) :
    (timers.setDynamic index block).dynamics slot = timers.dynamics slot :=
  Function.update_of_ne other ..

/-- A step that changes one control block and logs an event of its slot. -/
theorem Lives.setDynamic (lives : Lives running timers log) {index : Fin dynamicMax}
    {block : DynamicTimerCb Func} {event : SlotEvent dynamicMax}
    (keeps : ∀ slot, slot ≠ index → event.update slot (alive log slot) = alive log slot)
    (nextRunning : ∀ slot, slot ≠ index → running = some slot → next = some slot)
    (here : block.state ≠ timerDeleted → event.update index (alive log index) = true ∨
      next = some index ∧ block.state &&& timerOneshot = timerOneshot) :
    Lives next (timers.setDynamic index block) (log ++ [event]) := by
  intro slot taken
  rw [alive_append]
  by_cases isIndex : slot = index
  · subst isIndex
    rw [setDynamic_self] at taken ⊢
    exact here taken
  · rw [setDynamic_of_ne isIndex] at taken ⊢
    rw [keeps slot isIndex]
    exact (lives slot taken).imp_right fun runs => ⟨nextRunning slot isIndex runs.1, runs.2⟩

theorem Follows.add (follows : Follows running (timers, log)) (func : Func)
    (delay interval : UInt16) (flags : UInt8) :
    Follows running ((Scheduler.addTimer timers func delay interval flags).2,
      log ++ (freeSlot timers).toList.map .added) := by
  rw [Scheduler.addTimer]
  cases freeSlot timers with
  | none =>
      rw [Option.toList_none, List.map_nil, List.append_nil]
      exact follows
  | some index =>
      apply follows.event
      · intro slot before after isChanged
        cases isChanged
      · intro _ slot oneshot isInvoked
        cases isInvoked
      · intro lives _
        apply lives.setDynamic
        · intro slot other
          rw [SlotEvent.update, if_neg (Ne.symm other)]
        · intro slot _ runs
          exact runs
        · intro _
          rw [SlotEvent.update, if_pos rfl]
          exact Or.inl rfl

theorem Follows.delete (follows : Follows running (timers, log)) (which : Int8) :
    Follows running ((schedulerDeleteTimer timers which).2,
      log ++ (slotOf dynamicMax which).toList.map .deleted) := by
  rw [schedulerDeleteTimer, changeTimer]
  cases slotOf dynamicMax which with
  | none =>
      rw [Option.toList_none, List.map_nil, List.append_nil]
      exact follows
  | some index =>
      apply follows.event
      · intro slot before after isChanged
        cases isChanged
      · intro _ slot oneshot isInvoked
        cases isInvoked
      · intro lives _
        apply lives.setDynamic
        · intro slot other
          rw [SlotEvent.update, if_neg (Ne.symm other)]
        · intro slot _ runs
          exact runs
        · intro taken
          exact absurd rfl taken

/-- The calls that set a bit of the state and keep that of a one-shot timer. -/
theorem Follows.change (follows : Follows running (timers, log)) (which : Int8)
    {change : DynamicTimerCb Func → DynamicTimerCb Func}
    (taken : ∀ block, (change block).state ≠ timerDeleted)
    (oneshot : ∀ block, (change block).state &&& timerOneshot = block.state &&& timerOneshot) :
    Follows running ((changeTimer timers which change).2,
      log ++ recordChange timers (changeTimer timers which change).2 which) := by
  rw [recordChange, changeTimer]
  cases slotOf dynamicMax which with
  | none =>
      rw [Option.toList_none, List.map_nil, List.append_nil]
      exact follows
  | some index =>
      apply follows.event
      · intro slot before after isChanged
        cases isChanged
        rw [setDynamic_self]
        exact taken _
      · intro _ slot oneshot isInvoked
        cases isInvoked
      · intro lives takenBefore
        apply lives.setDynamic
        · intro slot _
          rfl
        · intro slot _ runs
          exact runs
        · intro _
          rw [oneshot]
          exact lives index takenBefore

theorem Follows.perform {logged : Logged Func World staticMax dynamicMax}
    (follows : Follows running logged) (call : Call Func World) :
    Follows running (perform logged call) := by
  cases call with
  | addTimer func interval suspended =>
      exact follows.add func interval interval (if suspended then timerSuspended else timerRunnable)
  | addOneshotTimer func delay => exact follows.add func delay 0 (timerOneshot ||| timerRunnable)
  | deleteTimer which => exact follows.delete which
  | suspendTimer which =>
      exact follows.change which (fun _ => or_ne_deleted (by decide))
        (fun _ => or_and_of_apart (by decide) (by decide))
  | resumeTimer which =>
      exact follows.change which (fun _ => or_ne_deleted (by decide))
        (fun _ => or_and_of_apart (by decide) (by decide))
  | resetTimer which =>
      exact follows.change which (fun _ => or_ne_deleted (by decide))
        (fun _ => or_and_of_apart (by decide) (by decide))
  | tick =>
      rw [Scheduler.perform, Call.record, List.append_nil]
      exact follows.same_states fun _ => rfl
  | work world =>
      rw [Scheduler.perform, Call.record, List.append_nil]
      exact follows.same_states fun _ => rfl

theorem Follows.performAll {logged : Logged Func World staticMax dynamicMax}
    (follows : Follows running logged) (calls : List (Call Func World)) :
    Follows running (calls.foldl Scheduler.perform logged) := by
  induction calls generalizing logged with
  | nil => exact follows
  | cons call calls ih => exact ih (follows.perform call)

end Events

section Loop

variable {logged : Logged Func World staticMax dynamicMax}

theorem Follows.static (follows : Follows none logged) (index : Fin staticMax) :
    Follows none (loggedStatic staticTimers script logged index) := by
  rw [loggedStatic]
  split
  · have called := (show Follows none (logged.1.setStatic index
      ⟨(logged.1.statics index).delay, setRunning (logged.1.statics index).state⟩, logged.2) from
        follows.same_states fun _ => rfl).performAll
    exact (called _).same_states fun _ => rfl
  · exact follows

/-- Behind the callback of a timer no one-shot timer runs any more. -/
theorem Follows.returned {index : Fin dynamicMax} (follows : Follows (some index) logged)
    (reload : UInt16) :
    Follows none (logged.1.setDynamic index
      (afterCallback reload (logged.1.dynamics index)), logged.2) where
  takes := follows.takes
  lives := by
    intro taken
    obtain ⟨sound, lives⟩ := follows.lives taken
    refine ⟨sound, fun slot takenSlot => Or.inl ?_⟩
    by_cases isIndex : slot = index
    · subst isIndex
      rw [setDynamic_self] at takenSlot
      rw [afterCallback] at takenSlot
      split at takenSlot
      · exact absurd rfl takenSlot
      next notOneshot =>
        have takenBefore : (logged.1.dynamics slot).state ≠ timerDeleted := by
          intro deleted
          rw [if_neg (fun both => both.1 deleted), deleted] at takenSlot
          exact takenSlot rfl
        exact (lives slot takenBefore).resolve_right fun runs => notOneshot runs.2
    · rw [setDynamic_of_ne isIndex] at takenSlot
      exact (lives slot takenSlot).resolve_right fun runs =>
        isIndex (Option.some.inj runs.1).symm

theorem Follows.dynamic (follows : Follows none logged) (index : Fin dynamicMax) :
    Follows none (loggedDynamic staticTimers script logged index) := by
  rw [loggedDynamic]
  split
  next isReady =>
    have taken : (logged.1.dynamics index).state ≠ timerDeleted := by
      intro deleted
      rw [ready, deleted] at isReady
      exact absurd isReady.1 (by decide)
    refine Follows.returned ?_ _
    apply Follows.performAll
    apply Follows.event follows
    · intro slot before after isChanged
      cases isChanged
    · intro lives slot oneshot isInvoked
      cases isInvoked
      exact (lives index taken).resolve_right fun runs => nomatch runs.1
    · intro lives _
      apply lives.setDynamic
      · intro slot other
        rw [SlotEvent.update, if_neg fun both => other both.1.symm]
      · intro slot _ runs
        cases runs
      · intro _
        have kept : setRunning (logged.1.dynamics index).state &&& timerOneshot =
            (logged.1.dynamics index).state &&& timerOneshot :=
          or_and_of_apart (by decide) (by decide)
        rw [kept]
        by_cases oneshot : (logged.1.dynamics index).state &&& timerOneshot = timerOneshot
        · exact Or.inr ⟨rfl, oneshot⟩
        · rw [SlotEvent.update, if_neg fun both => oneshot (of_decide_eq_true both.2)]
          exact Or.inl ((lives index taken).resolve_right fun runs => nomatch runs.1)
  · exact follows

theorem Follows.step (follows : Follows none logged) (step : SchedulerStep Func World) :
    Follows none (loggedStep staticTimers script logged step) := by
  cases step with
  | call call => exact follows.perform call
  | dispatch =>
      rw [loggedStep, loggedDispatch]
      apply List.foldlRecOn
      · apply List.foldlRecOn
        · exact follows
        · intro logged follows index _
          exact follows.static staticTimers script index
      · intro logged follows index _
        exact follows.dynamic staticTimers script index

theorem Follows.steps (follows : Follows none logged) (steps : List (SchedulerStep Func World)) :
    Follows none (steps.foldl (loggedStep staticTimers script) logged) := by
  induction steps generalizing logged with
  | nil => exact follows
  | cons step steps ih => exact ih (follows.step staticTimers script step)

end Loop

/-- The log of every run from an empty table is sound exactly when no timer is suspended,
resumed or reset behind its end. -/
theorem slots_sound_iff (start : Timers Func World staticMax dynamicMax)
    (empty : ∀ slot, (start.dynamics slot).state = timerDeleted)
    (steps : List (SchedulerStep Func World)) :
    (steps.foldl (loggedStep staticTimers script) (start, [])).1 =
        steps.foldl (schedulerStep staticTimers script) start ∧
      (Sound (steps.foldl (loggedStep staticTimers script) (start, [])).2 ↔
        ∀ event ∈ (steps.foldl (loggedStep staticTimers script) (start, [])).2, event.Taken) := by
  have initial : Follows none (start, ([] : List (SlotEvent dynamicMax))) := by
    refine ⟨?_, ?_⟩
    · intro slot before after member
      cases member
    · intro _
      refine ⟨⟨?_, ?_⟩, ?_⟩
      · intro before slot oneshot after split
        cases before with
        | nil => cases split
        | cons event before => cases split
      · intro slot before after member
        cases member
      · intro slot taken
        exact absurd (empty slot) taken
  have follows := initial.steps staticTimers script steps
  refine ⟨foldl_loggedStep_fst staticTimers script steps (start, []), ?_, ?_⟩
  · intro sound event member
    cases event with
    | changed slot before after =>
        intro isFree
        exact follows.takes slot before after member (sound.free slot before after member isFree)
    | added slot => trivial
    | deleted slot => trivial
    | invoked slot oneshot => trivial
  · intro taken
    exact (follows.lives taken).1

end

/-- A table of one slot, and no static timers. -/
def emptyTable : Timers Unit Unit 0 1 where
  statics := fun index => index.elim0
  dynamics := fun _ => ⟨(), 0, 0, timerDeleted⟩
  world := ()

def noStaticTimers : StaticTimers Unit Unit 0 1 := ⟨fun _ => ⟨(), 0⟩, fun _ _ => 0⟩

/-- A timer is deleted twice and added again. -/
theorem slots_sound_deleted_twice :
    (∀ slot, (emptyTable.dynamics slot).state = timerDeleted) ∧
      (Sound ([.call (.addTimer () 1 false), .call (.deleteTimer 0), .call (.deleteTimer 0),
          .call (.addTimer () 0 false), .dispatch].foldl
            (loggedStep noStaticTimers fun _ _ => []) (emptyTable, [])).2 ↔
        ∀ event ∈ ([.call (.addTimer () 1 false), .call (.deleteTimer 0), .call (.deleteTimer 0),
          .call (.addTimer () 0 false), .dispatch].foldl
            (loggedStep noStaticTimers fun _ _ => []) (emptyTable, [])).2, event.Taken) :=
  ⟨fun _ => rfl, (slots_sound_iff noStaticTimers (fun _ _ => []) emptyTable (fun _ => rfl) _).2⟩

/-- A one-shot timer that has fired is reset, and is called again. -/
theorem expired_oneshot_invoked :
    (∀ slot, (emptyTable.dynamics slot).state = timerDeleted) ∧
      ¬Sound ([.call (.addOneshotTimer () 0), .dispatch, .call (.resetTimer 0), .dispatch].foldl
        (loggedStep noStaticTimers fun _ _ => []) (emptyTable, [])).2 := by
  refine ⟨fun _ => rfl, fun sound => ?_⟩
  have log : ([.call (.addOneshotTimer () 0), .dispatch, .call (.resetTimer 0), .dispatch].foldl
      (loggedStep noStaticTimers fun _ _ => []) (emptyTable, [])).2 =
        [.added 0, .invoked 0 true, .changed 0 timerDeleted timerRunnable, .invoked 0 false] := by
    decide +kernel
  rw [log] at sound
  exact absurd (sound.invoked [.added 0, .invoked 0 true,
    .changed 0 timerDeleted timerRunnable] 0 false [] rfl) (by decide)

end Ethersex.Scheduler

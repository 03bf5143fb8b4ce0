import Ethersex.CronAnacron

/-!
# The ticks of cron

`cron_periodic` is called every second or so and evaluates the jobs at most once a
minute.  This file follows a sequence of calls with commands that leave the list alone,
and records the minutes that are evaluated and for which minute every job is executed.
-/

namespace Ethersex.Cron

open DoublyLinked GuardedRuns

variable {Condition : Type}

/-- `clock` is what the last call of `cron_periodic` has read. -/
structure TickState (Condition : Type) where
  cron : CronState Condition
  clock : UInt32
  evaluated : List UInt32
  executions : List (Nat × UInt32)

/-- A call of `cron_periodic`, a round of its loops and the end of a command. -/
inductive TickAction
  | call (timestamp : UInt32)
  | next
  | commandReturns

def TickAction.toCron : TickAction → CronAction Condition
  | .call timestamp => .periodic timestamp
  | .next => .next
  | .commandReturns => .commandReturns

/-- The minute a job is executed for: the minute of the tick or, when it is caught up, the
minute at which `cron_anacron` has found it. -/
def executedFor (due : Condition → UInt32 → Bool) (state : CronState Condition) (minute : UInt32)
    (exec : Ptr) : Phase → UInt32
  | .loop _ _ => minute
  | .anacron _ =>
      ((minutesBack (anacronStart state.lastCheck minute) 1441 minute).find?
        fun earlier => due (state.events exec).condition earlier).getD minute

def newMinute : Mode → Mode → List UInt32
  | .idle, .walking minute _ => [minute]
  | _, _ => []

def newExecution (due : Condition → UInt32 → Bool) (state : CronState Condition) :
    Mode → Mode → List (Nat × UInt32)
  | .walking _ phase, .executing minute exec _ =>
      [(state.serial exec, executedFor due state minute exec phase)]
  | _, _ => []

def newClock (clock : UInt32) : Mode → TickAction → UInt32
  | .idle, .call timestamp => timestamp
  | _, _ => clock

def tickStep (due : Condition → UInt32 → Bool) (anacronSupport : Bool)
    (state : TickState Condition) (action : TickAction) : Option (TickState Condition) := do
  let cron ← cronSystemStep due anacronSupport state.cron action.toCron
  return {
    cron := cron
    clock := newClock state.clock state.cron.mode action
    evaluated := state.evaluated ++ newMinute state.cron.mode cron.mode
    executions := state.executions ++ newExecution due state.cron state.cron.mode cron.mode }

/-- The clock does not go back. -/
def ClockForward (state : TickState Condition) : TickAction → Prop
  | .call timestamp => state.clock ≤ timestamp
  | _ => True

/-- A call that has to catch up finds at most 256 anacron jobs. -/
def FewAnacron (anacronSupport : Bool) (state : TickState Condition) : TickAction → Prop
  | .call timestamp =>
      anacronSupport = true → 60 < timestamp - timestamp % 60 - state.cron.lastCheck →
        (((listedJobs state.cron.heap).getD []).filter fun job =>
          (state.cron.events job).anacron).length ≤ 256
  | _ => True

/-- A list of jobs between two calls, while nobody lists the jobs; nothing is recorded yet. -/
structure Resting (state : CronState Condition) (jobs : List Ptr) : Prop where
  linked : Linked state.heap jobs
  mode : state.mode = .idle
  lastCheck : state.lastCheck.toNat % 60 = 0
  serials_nodup : (jobs.map state.serial).Nodup
  serials_lt : ∀ job ∈ jobs, state.serial job < state.serials
  noListing : ∀ connection, (state.lists connection).magic ≠ 23
  noStart : state.started = []
  noTurns : state.turns = []
  noExecution : state.executed = []

/-- What a sequence of calls promises. -/
structure TicksRight (due : Condition → UInt32 → Bool) (anacronSupport : Bool)
    (state : TickState Condition) : Prop where
  increasing : state.evaluated.Pairwise (· < ·)
  lastCheck : state.cron.lastCheck.toNat % 60 = 0 ∧ state.cron.lastCheck ≤ state.clock
  evaluates : state.cron.mode = .idle → state.cron.heap.head ≠ null → ∀ timestamp,
    ClockForward state (.call timestamp) → FewAnacron anacronSupport state (.call timestamp) →
    60 ≤ timestamp - state.cron.lastCheck →
    ∃ next, tickStep due anacronSupport state (.call timestamp) = some next ∧
      next.evaluated = state.evaluated ++ [timestamp - timestamp % 60]
  executedOnce : state.executions.Nodup

/-- The two outcomes of a call when the clock has not gone back. -/
theorem cronPeriodic_cases {due : Condition → UInt32 → Bool} {anacronSupport : Bool}
    {state next : CronState Condition} {timestamp : UInt32}
    (whole : state.lastCheck.toNat % 60 = 0) (forward : state.lastCheck ≤ timestamp)
    (called : cronPeriodic due anacronSupport state timestamp = some next) :
    ((state.heap.head = null ∨ timestamp - state.lastCheck < 60) ∧ next = state) ∨
      (60 ≤ timestamp - state.lastCheck ∧ state.lastCheck < timestamp - timestamp % 60 ∧
        ∃ phase, next = { beginTick state with
          mode := .walking (timestamp - timestamp % 60) phase }) := by
  have notBack : ¬ timestamp < state.lastCheck := UInt32.not_lt.2 forward
  rw [cronPeriodic, if_neg notBack] at called
  by_cases early : state.heap.head = null ∨ timestamp - state.lastCheck < 60
  · rw [if_pos early] at called
    exact Or.inl ⟨early, (Option.some.inj called).symm⟩
  · rw [if_neg early] at called
    have minute := toNat_minute timestamp
    have age := UInt32.toNat_sub_of_le _ _ forward
    have late : 60 ≤ timestamp - state.lastCheck := UInt32.not_lt.1 fun soon => early (Or.inr soon)
    have later : state.lastCheck < timestamp - timestamp % 60 := by
      have bound := UInt32.le_iff_toNat_le.1 late
      rw [age] at bound
      change 60 ≤ _ at bound
      rw [UInt32.lt_iff_toNat_lt, minute]
      omega
    refine Or.inr ⟨late, later, ?_⟩
    simp only at called
    split at called
    · cases table : cronAnacron due state state.lastCheck (timestamp - timestamp % 60) with
      | none => simp [table] at called
      | some tab =>
          rw [table] at called
          cases tab with
          | none => exact ⟨_, (Option.some.inj called).symm⟩
          | some tab => exact ⟨_, (Option.some.inj called).symm⟩
    · exact ⟨_, (Option.some.inj called).symm⟩

/-- The three outcomes of a round: it goes on, it ends the tick or it executes a job. -/
theorem nextJob_cases {due : Condition → UInt32 → Bool} {state next : CronState Condition}
    {minute : UInt32} {phase : Phase} (stepped : nextJob due state minute phase = some next) :
    next.lists = state.lists ∧
      ((next.lastCheck = state.lastCheck ∧ next.executed = state.executed ∧
          ∃ phase', next.mode = .walking minute phase') ∨
        (next.lastCheck = minute ∧ next.mode = .idle) ∨
        (next.lastCheck = state.lastCheck ∧ ∃ exec phase',
          next.mode = .executing minute exec phase' ∧
          next.executed = state.executed ++ [state.serial exec])) := by
  have executing {state' : CronState Condition} {exec : Ptr} {phase' : Phase}
      (executes : cronExecute state' minute exec phase' = some next) :
      next = { state' with
        mode := .executing minute exec phase'
        executed := state'.executed ++ [state'.serial exec] } := by
    cases load : state'.heap.load exec with
    | none => simp [cronExecute, load] at executes
    | some node =>
        rw [cronExecute_eq load] at executes
        exact (Option.some.inj executes).symm
  cases phase with
  | anacron tab =>
      rw [nextJob] at stepped
      split at stepped
      · cases Option.some.inj stepped
        exact ⟨rfl, Or.inl ⟨rfl, rfl, _, rfl⟩⟩
      · cases executing stepped
        exact ⟨rfl, Or.inr (Or.inr ⟨rfl, _, _, rfl, rfl⟩)⟩
  | loop skipAnacron current =>
      rw [nextJob] at stepped
      split at stepped
      · cases Option.some.inj stepped
        exact ⟨rfl, Or.inr (Or.inl ⟨rfl, rfl⟩)⟩
      · cases load : state.heap.load current with
        | none => simp [load] at stepped
        | some node =>
            rw [load] at stepped
            simp only [Option.bind_eq_bind, Option.bind_some] at stepped
            split at stepped
            · cases Option.some.inj stepped
              exact ⟨rfl, Or.inl ⟨rfl, rfl, _, rfl⟩⟩
            · cases executing stepped
              exact ⟨rfl, Or.inr (Or.inr ⟨rfl, _, _, rfl, rfl⟩)⟩

theorem executeReturns_cases {state next : CronState Condition} {minute : UInt32} {exec : Ptr}
    {phase : Phase} (returned : executeReturns state minute exec phase = some next) :
    next.lists = state.lists ∧ next.lastCheck = state.lastCheck ∧
      next.executed = state.executed ∧ next.mode = .walking minute phase := by
  rw [executeReturns] at returned
  cases load : state.heap.load exec with
  | none => simp [load] at returned
  | some node =>
      rw [load] at returned
      simp only [Option.bind_eq_bind, Option.bind_some] at returned
      split at returned
      · split at returned
        · cases removed : cronJobrm state.heap exec with
          | none => simp [removed] at returned
          | some heap =>
              rw [removed] at returned
              cases Option.some.inj returned
              exact ⟨rfl, rfl, rfl, rfl⟩
        · cases Option.some.inj returned
          exact ⟨rfl, rfl, rfl, rfl⟩
      · cases Option.some.inj returned
        exact ⟨rfl, rfl, rfl, rfl⟩

/-- A job is executed for a minute of its tick's interval. -/
theorem executedFor_bounds (due : Condition → UInt32 → Bool) {state : CronState Condition}
    {minute : UInt32} (whole : minute.toNat % 60 = 0) (wholeCheck : state.lastCheck.toNat % 60 = 0)
    (later : state.lastCheck < minute) (exec : Ptr) (phase : Phase) :
    state.lastCheck < executedFor due state minute exec phase ∧
      executedFor due state minute exec phase ≤ minute := by
  cases phase with
  | loop => exact ⟨later, UInt32.le_refl _⟩
  | anacron tab =>
      have limited := toNat_anacronStart (UInt32.le_of_lt later)
      cases earlier : (minutesBack (anacronStart state.lastCheck minute) 1441 minute).find?
          fun earlier => due (state.events exec).condition earlier with
      | none =>
          simp only [executedFor, earlier, Option.getD_none]
          exact ⟨later, UInt32.le_refl _⟩
      | some found =>
          have inside := (mem_minutesBack whole (by omega) (by omega)).1
            (List.mem_of_find?_eq_some earlier)
          have after := UInt32.lt_iff_toNat_lt.1 inside.1
          simp only [executedFor, earlier, Option.getD_some]
          refine ⟨?_, inside.2.1⟩
          rw [UInt32.lt_iff_toNat_lt]
          omega

/-- The tick that is running. -/
def Mode.tick : Mode → Option UInt32
  | .idle => none
  | .walking minute _ => some minute
  | .executing minute _ _ => some minute

/-- What has been recorded before the running tick, and in it. -/
def LogRight (state : TickState Condition) : Option UInt32 → Prop
  | none => (∀ minute ∈ state.evaluated, minute ≤ state.cron.lastCheck) ∧
      ∀ execution ∈ state.executions, execution.2 ≤ state.cron.lastCheck
  | some tick => state.cron.lastCheck < tick ∧ tick ≤ state.clock ∧
      (∀ minute ∈ state.evaluated, minute ≤ tick) ∧
      ∃ before current, state.executions = before ++ current ∧
        (∀ execution ∈ before, execution.2 ≤ state.cron.lastCheck) ∧
        (∀ execution ∈ current, state.cron.lastCheck < execution.2 ∧ execution.2 ≤ tick) ∧
        current.map Prod.fst = state.cron.executed

structure TickInvariant (due : Condition → UInt32 → Bool) (state : TickState Condition) :
    Prop where
  walks : ∃ jobs, Walks due state.cron jobs
  noListing : ∀ connection, (state.cron.lists connection).magic ≠ 23
  lastCheck_le : state.cron.lastCheck ≤ state.clock
  log : LogRight state state.cron.mode.tick
  increasing : state.evaluated.Pairwise (· < ·)
  executedOnce : state.executions.Nodup

theorem Resting.invariant {due : Condition → UInt32 → Bool} {state : CronState Condition}
    {jobs : List Ptr} (resting : Resting state jobs) {clock : UInt32}
    (checked : state.lastCheck ≤ clock) : TickInvariant due ⟨state, clock, [], []⟩ where
  walks := by
    refine ⟨jobs, ⟨resting.linked, resting.serials_nodup, resting.serials_lt, ?_,
      resting.lastCheck, ?_, ?_, ?_, ?_, ?_, ?_⟩, ?_⟩
    · exact fun connection listing => absurd listing (resting.noListing connection)
    · simp [resting.noStart]
    · simp [CronState.visited, resting.noTurns]
    · simp [CronState.visited, resting.noTurns]
    · simp [resting.noExecution]
    · simp [resting.noExecution]
    · simp [resting.noTurns]
    · rw [resting.mode]
      intro job _ started
      rw [resting.noStart] at started
      exact absurd started List.not_mem_nil
  noListing := resting.noListing
  lastCheck_le := checked
  log := by
    rw [resting.mode]
    exact ⟨fun _ inside => absurd inside List.not_mem_nil,
      fun _ inside => absurd inside List.not_mem_nil⟩
  increasing := List.Pairwise.nil
  executedOnce := List.nodup_nil

/-- While a tick runs, no job is recorded twice for the same minute. -/
theorem executions_nodup {before current : List (Nat × UInt32)} {lastCheck : UInt32}
    (nodup : before.Nodup) (once : (current.map Prod.fst).Nodup)
    (earlier : ∀ execution ∈ before, execution.2 ≤ lastCheck)
    (later : ∀ execution ∈ current, lastCheck < execution.2) : (before ++ current).Nodup := by
  refine List.nodup_append.2 ⟨nodup, once.of_map, ?_⟩
  rintro execution inBefore other inCurrent rfl
  exact absurd (later execution inCurrent) (UInt32.not_lt.2 (earlier execution inBefore))

section Steps

variable {due : Condition → UInt32 → Bool} {anacronSupport : Bool} {state : TickState Condition}

theorem tickStep_eq {action : TickAction} {cron : CronState Condition}
    (stepped : cronSystemStep due anacronSupport state.cron action.toCron = some cron) :
    tickStep due anacronSupport state action = some {
      cron := cron
      clock := newClock state.clock state.cron.mode action
      evaluated := state.evaluated ++ newMinute state.cron.mode cron.mode
      executions := state.executions ++
        newExecution due state.cron state.cron.mode cron.mode } := by
  rw [tickStep, stepped]
  rfl

/-- A call finds the list as `listedJobs` does. -/
theorem TickInvariant.called (invariant : TickInvariant due state) {timestamp : UInt32}
    (few : FewAnacron anacronSupport state (.call timestamp)) (mode : state.cron.mode = .idle) :
    ∃ cron jobs, cronPeriodic due anacronSupport state.cron timestamp = some cron ∧
      Walks due cron jobs := by
  obtain ⟨jobs, walks⟩ := invariant.walks
  have few' := few
  rw [FewAnacron, walks.records.linked.listedJobs_eq, Option.getD_some] at few'
  obtain ⟨cron, called, walks'⟩ := walks.periodic mode few'
  exact ⟨cron, jobs, called, walks'⟩

theorem TickInvariant.call (invariant : TickInvariant due state) {timestamp : UInt32}
    (forward : ClockForward state (.call timestamp))
    (few : FewAnacron anacronSupport state (.call timestamp)) (mode : state.cron.mode = .idle) :
    ∃ next, tickStep due anacronSupport state (.call timestamp) = some next ∧
      TickInvariant due next := by
  obtain ⟨cron, jobs', called, walks'⟩ := invariant.called few mode
  obtain ⟨jobs, walks⟩ := invariant.walks
  have checked : state.cron.lastCheck ≤ timestamp := UInt32.le_trans invariant.lastCheck_le forward
  have stepped : cronSystemStep due anacronSupport state.cron
      (TickAction.call timestamp).toCron = some cron := by
    unfold cronSystemStep
    simp only [mode, TickAction.toCron]
    exact called
  have log := invariant.log
  rw [mode] at log
  refine ⟨_, tickStep_eq stepped, ?_⟩
  rcases cronPeriodic_cases walks.records.lastCheck checked called with
    ⟨-, rfl⟩ | ⟨-, later, phase, rfl⟩
  · rw [mode]
    exact {
      walks := ⟨jobs, walks⟩
      noListing := invariant.noListing
      lastCheck_le := checked
      log := by
        simp only [mode, Mode.tick, newMinute, newExecution, List.append_nil]
        exact log
      increasing := by simpa [mode, newMinute] using invariant.increasing
      executedOnce := by simpa [mode, newExecution] using invariant.executedOnce }
  · rw [mode]
    have below : timestamp - timestamp % 60 ≤ timestamp := by
      rw [UInt32.le_iff_toNat_le, toNat_minute]
      omega
    exact {
      walks := ⟨jobs', walks'⟩
      noListing := invariant.noListing
      lastCheck_le := checked
      log := by
        refine ⟨later, below, ?_, state.executions, [], ?_, log.2, ?_, rfl⟩
        · intro minute inside
          rcases List.mem_append.1 inside with old | new
          · exact UInt32.le_trans (log.1 minute old) (UInt32.le_of_lt later)
          · exact List.mem_singleton.1 new ▸ UInt32.le_refl _
        · simp [newExecution]
        · exact fun _ inside => absurd inside List.not_mem_nil
      increasing := by
        refine List.pairwise_append.2 ⟨invariant.increasing, List.pairwise_singleton _ _, ?_⟩
        intro minute old tick new
        rw [List.mem_singleton.1 new]
        exact UInt32.lt_of_le_of_lt (log.1 minute old) later
      executedOnce := by simpa [newExecution] using invariant.executedOnce }

/-- Outside of a call nothing happens that a tick would see. -/
theorem TickInvariant.unchanged (invariant : TickInvariant due state) {action : TickAction}
    (stepped : cronSystemStep due anacronSupport state.cron action.toCron = some state.cron)
    (sameClock : newClock state.clock state.cron.mode action = state.clock) :
    ∃ next, tickStep due anacronSupport state action = some next ∧ TickInvariant due next := by
  refine ⟨state, ?_, invariant⟩
  have noMinute : newMinute state.cron.mode state.cron.mode = [] := by
    cases state.cron.mode <;> rfl
  have noExecution : newExecution due state.cron state.cron.mode state.cron.mode = [] := by
    cases state.cron.mode <;> rfl
  rw [tickStep_eq stepped, sameClock, noMinute, noExecution, List.append_nil, List.append_nil]

/-- A step inside of a tick that records nothing. -/
theorem TickInvariant.goesOn (invariant : TickInvariant due state) {cron : CronState Condition}
    {jobs : List Ptr} (walks : Walks due cron jobs) (lists : cron.lists = state.cron.lists)
    (check : cron.lastCheck = state.cron.lastCheck)
    (executed : cron.executed = state.cron.executed)
    (mode : cron.mode.tick = state.cron.mode.tick) :
    TickInvariant due { state with cron := cron } where
  walks := ⟨jobs, walks⟩
  noListing := lists ▸ invariant.noListing
  lastCheck_le := by simpa [check] using invariant.lastCheck_le
  log := by
    have log := invariant.log
    simp only [mode]
    generalize state.cron.mode.tick = tick at log ⊢
    cases tick <;> simpa only [LogRight, check, executed] using log
  increasing := invariant.increasing
  executedOnce := invariant.executedOnce

theorem TickInvariant.nextRound (invariant : TickInvariant due state) {minute : UInt32}
    {phase : Phase} (mode : state.cron.mode = .walking minute phase) :
    ∃ next, tickStep due anacronSupport state .next = some next ∧ TickInvariant due next := by
  obtain ⟨jobs, walks⟩ := invariant.walks
  obtain ⟨cron, jobs', rounds, walks'⟩ := walks.nextJob mode
  have whole : minute.toNat % 60 = 0 := by
    have right := walks.mode
    rw [mode] at right
    exact right.1
  have stepped : cronSystemStep due anacronSupport state.cron TickAction.next.toCron =
      some cron := by
    unfold cronSystemStep
    simp only [mode, TickAction.toCron]
    exact rounds
  have log := invariant.log
  rw [mode] at log
  obtain ⟨later, reached, bounded, before, current, split, earlier, inside, recorded⟩ := log
  refine ⟨_, tickStep_eq stepped, ?_⟩
  obtain ⟨lists, ⟨check, executed, phase', mode'⟩ | ⟨check, mode'⟩ |
    ⟨check, exec, phase', mode', executed⟩⟩ := nextJob_cases rounds
  · simpa [mode, mode', newClock, newMinute, newExecution] using
      invariant.goesOn walks' lists check executed (by rw [mode, mode']; rfl)
  · exact {
      walks := ⟨jobs', walks'⟩
      noListing := lists ▸ invariant.noListing
      lastCheck_le := by simpa [mode, newClock, check] using reached
      log := by
        simp only [mode, mode', newMinute, newExecution, newClock, List.append_nil]
        refine ⟨check ▸ bounded, fun execution member => ?_⟩
        rw [check]
        rw [split] at member
        rcases List.mem_append.1 member with old | new
        · exact UInt32.le_trans (earlier execution old) (UInt32.le_of_lt later)
        · exact (inside execution new).2
      increasing := by simpa [mode, newMinute] using invariant.increasing
      executedOnce := by simpa [mode, mode', newExecution] using invariant.executedOnce }
  · have bounds := executedFor_bounds due whole walks.records.lastCheck later exec phase
    have recorded' : (current ++ [(state.cron.serial exec,
        executedFor due state.cron minute exec phase)]).map Prod.fst = cron.executed := by
      rw [List.map_append, recorded, executed]
      rfl
    have inside' : ∀ execution ∈ current ++ [(state.cron.serial exec,
        executedFor due state.cron minute exec phase)],
        state.cron.lastCheck < execution.2 ∧ execution.2 ≤ minute := by
      intro execution member
      rcases List.mem_append.1 member with old | new
      · exact inside execution old
      · rw [List.mem_singleton.1 new]
        exact bounds
    have nodup : (before ++ (current ++ [(state.cron.serial exec,
        executedFor due state.cron minute exec phase)])).Nodup := by
      have old := invariant.executedOnce
      rw [split] at old
      refine executions_nodup (List.nodup_append.1 old).1 ?_ earlier
        fun execution member => (inside' execution member).1
      rw [recorded']
      exact walks'.records.executed_nodup
    exact {
      walks := ⟨jobs', walks'⟩
      noListing := lists ▸ invariant.noListing
      lastCheck_le := by simpa [mode, newClock, check] using invariant.lastCheck_le
      log := by
        simp only [mode, mode', newMinute, newExecution, newClock, List.append_nil]
        refine ⟨check ▸ later, reached, bounded, before, _, ?_, check ▸ earlier,
          check ▸ inside', recorded'⟩
        rw [split, List.append_assoc]
      increasing := by simpa [mode, newMinute] using invariant.increasing
      executedOnce := by
        simp only [mode, mode', newExecution]
        rwa [split, List.append_assoc] }

theorem TickInvariant.returned (invariant : TickInvariant due state) {minute : UInt32}
    {exec : Ptr} {phase : Phase} (mode : state.cron.mode = .executing minute exec phase) :
    ∃ next, tickStep due anacronSupport state .commandReturns = some next ∧
      TickInvariant due next := by
  obtain ⟨jobs, walks⟩ := invariant.walks
  have notHeld : Harmless state.cron .commandReturns := by
    rintro minute exec phase - - ⟨connection, listing, -⟩
    exact invariant.noListing connection listing
  obtain ⟨cron, jobs', returns, walks'⟩ := walks.commandReturns mode notHeld
  have stepped : cronSystemStep due anacronSupport state.cron TickAction.commandReturns.toCron =
      some cron := by
    unfold cronSystemStep
    simp only [mode, TickAction.toCron]
    exact returns
  obtain ⟨lists, check, executed, mode'⟩ := executeReturns_cases returns
  refine ⟨_, tickStep_eq stepped, ?_⟩
  simpa [mode, mode', newClock, newMinute, newExecution] using
    invariant.goesOn walks' lists check executed (by rw [mode, mode']; rfl)

theorem TickInvariant.step (invariant : TickInvariant due state) {action : TickAction}
    (forward : ClockForward state action) (few : FewAnacron anacronSupport state action) :
    ∃ next, tickStep due anacronSupport state action = some next ∧ TickInvariant due next := by
  cases mode : state.cron.mode with
  | idle =>
      cases action with
      | call timestamp => exact invariant.call forward few mode
      | next => exact invariant.unchanged (by simp [cronSystemStep, mode, TickAction.toCron,
          changeStep]) (by rw [mode]; rfl)
      | commandReturns => exact invariant.unchanged (by simp [cronSystemStep, mode,
          TickAction.toCron, changeStep]) (by rw [mode]; rfl)
  | walking minute phase =>
      cases action with
      | call timestamp => exact invariant.unchanged (by simp [cronSystemStep, mode,
          TickAction.toCron]) (by rw [mode]; rfl)
      | next => exact invariant.nextRound mode
      | commandReturns => exact invariant.unchanged (by simp [cronSystemStep, mode,
          TickAction.toCron]) (by rw [mode]; rfl)
  | executing minute exec phase =>
      cases action with
      | call timestamp => exact invariant.unchanged (by simp [cronSystemStep, mode,
          TickAction.toCron, changeStep]) (by rw [mode]; rfl)
      | next => exact invariant.unchanged (by simp [cronSystemStep, mode, TickAction.toCron,
          changeStep]) (by rw [mode]; rfl)
      | commandReturns => exact invariant.returned mode

theorem TickInvariant.right (invariant : TickInvariant due state) :
    TicksRight due anacronSupport state where
  increasing := invariant.increasing
  lastCheck := by
    obtain ⟨jobs, walks⟩ := invariant.walks
    exact ⟨walks.records.lastCheck, invariant.lastCheck_le⟩
  evaluates := by
    intro mode notEmpty timestamp forward few late
    obtain ⟨cron, jobs', called, walks'⟩ := invariant.called few mode
    obtain ⟨jobs, walks⟩ := invariant.walks
    have checked := UInt32.le_trans invariant.lastCheck_le forward
    have stepped : cronSystemStep due anacronSupport state.cron
        (TickAction.call timestamp).toCron = some cron := by
      unfold cronSystemStep
      simp only [mode, TickAction.toCron]
      exact called
    refine ⟨_, tickStep_eq stepped, ?_⟩
    rcases cronPeriodic_cases walks.records.lastCheck checked called with
      ⟨early, -⟩ | ⟨-, -, phase, rfl⟩
    · rcases early with empty | soon
      · exact absurd empty notEmpty
      · exact absurd soon (UInt32.not_lt.2 late)
    · rw [mode]
      rfl
  executedOnce := invariant.executedOnce

end Steps

/-- In every sequence of calls that finds at most 256 anacron jobs when it catches up, the
ticks keep what they promise. -/
theorem ticksRight_of_guarded_run (due : Condition → UInt32 → Bool) (anacronSupport : Bool)
    {state : CronState Condition} {jobs : List Ptr} (resting : Resting state jobs)
    {clock : UInt32} (checked : state.lastCheck ≤ clock) {actions : List TickAction}
    (guarded : Guarded (tickStep due anacronSupport)
      (fun state action => ClockForward state action ∧ FewAnacron anacronSupport state action)
      ⟨state, clock, [], []⟩ actions) :
    ∃ last, run (tickStep due anacronSupport) ⟨state, clock, [], []⟩ actions = some last ∧
      TicksRight due anacronSupport last := by
  have progress : ∀ (state : TickState Condition) action, TickInvariant due state →
      ClockForward state action ∧ FewAnacron anacronSupport state action →
      ∃ next, tickStep due anacronSupport state action = some next ∧ TickInvariant due next :=
    fun state action invariant allowed => invariant.step allowed.1 allowed.2
  obtain ⟨last, reached, invariant⟩ := guarded.exists_run progress (resting.invariant checked)
  exact ⟨last, reached, invariant.right⟩

/-- One job that is always due, two minutes after the start. -/
theorem ticksRight_of_oneJob :
    ∃ heap, cronStep CronHeap.init (.insert 100 ⟨null, null⟩ (-1)) = some heap ∧
      ∃ last, run (tickStep (fun (_ : Unit) _ => true) true)
          ⟨{ cronInit fun _ => ⟨(), 0, true, 0⟩ with heap := heap, serials := 1 }, 0, [], []⟩
          [.call 120, .next, .commandReturns, .next] = some last ∧
        TicksRight (fun (_ : Unit) _ => true) true last := by
  obtain ⟨heap, built, linked⟩ := linked_init.insert ⟨null, null⟩ (by decide : (100 : Ptr) ≠ null)
    List.not_mem_nil (Or.inl (by decide : ¬ (0 : Int8) < -1))
  have resting : Resting { cronInit fun _ => ⟨(), 0, true, 0⟩ with heap := heap, serials := 1 }
      ([] ++ [(100 : Ptr)]) :=
    ⟨linked, rfl, rfl, List.nodup_singleton _, fun _ _ => Nat.zero_lt_one,
      fun _ => (by decide : (0 : UInt8) ≠ 23), rfl, rfl, rfl⟩
  refine ⟨heap, built, ticksRight_of_guarded_run _ true resting (UInt32.le_refl _) ?_⟩
  refine ⟨⟨(by decide : (0 : UInt32) ≤ 120), fun _ _ => ?_⟩, fun _ _ => ⟨⟨trivial, trivial⟩,
    fun _ _ => ⟨⟨trivial, trivial⟩, fun _ _ => ⟨⟨trivial, trivial⟩, fun _ _ => trivial⟩⟩⟩⟩
  rw [show listedJobs heap = some ([] ++ [(100 : Ptr)]) from linked.listedJobs_eq]
  exact (by decide : 1 ≤ 256)

def manyJobs (count : Nat) : List Ptr :=
  (List.range count).map fun index => UInt16.ofNat (index + 1)

theorem exists_linked_manyJobs {count : Nat} (small : count < 65535) :
    ∃ heap, Linked heap (manyJobs count) := by
  induction count with
  | zero => exact ⟨CronHeap.init, linked_init⟩
  | succ count ih =>
      obtain ⟨heap, linked⟩ := ih (by omega)
      have toNat {index : Nat} (fits : index ≤ count) :
          (UInt16.ofNat (index + 1)).toNat = index + 1 := by
        rw [UInt16.toNat_ofNat']
        omega
      have notNull : UInt16.ofNat (count + 1) ≠ null := by
        intro isNull
        have value := congrArg UInt16.toNat isNull
        rw [toNat (Nat.le_refl count)] at value
        exact absurd value (Nat.succ_ne_zero count)
      have fresh : UInt16.ofNat (count + 1) ∉ manyJobs count := by
        intro inside
        obtain ⟨index, below, same⟩ := List.mem_map.1 inside
        have value := congrArg UInt16.toNat same
        have isBelow := List.mem_range.1 below
        rw [toNat isBelow.le, toNat (Nat.le_refl count)] at value
        omega
      obtain ⟨after, -, linked'⟩ := linked.insert ⟨null, null⟩ notNull fresh
        (Or.inl (by decide : ¬ (0 : Int8) < -1))
      refine ⟨after, ?_⟩
      rw [manyJobs, List.range_succ, List.map_append]
      exact linked'

/-- 257 anacron jobs that are due are counted as one and run over the table. -/
theorem many_anacron_jobs_overrun :
    ¬ ∀ (due : Unit → UInt32 → Bool) (state : CronState Unit) jobs clock actions,
      Resting state jobs → jobs ≠ [] → state.lastCheck ≤ clock →
      Guarded (tickStep due true) ClockForward ⟨state, clock, [], []⟩ actions →
      ∃ last, run (tickStep due true) ⟨state, clock, [], []⟩ actions = some last ∧
        TicksRight due true last := by
  intro always
  obtain ⟨heap, linked⟩ := @exists_linked_manyJobs 257 (by decide)
  let state : CronState Unit :=
    { cronInit fun job => ⟨(), 0, true, job.toNat⟩ with heap := heap, serials := 65536 }
  have resting : Resting state (manyJobs 257) := by
    refine ⟨linked, rfl, rfl, ?_, ?_, fun _ => (by decide : (0 : UInt8) ≠ 23), rfl, rfl, rfl⟩
    · exact linked.nodup.map fun _ _ same => UInt16.toNat_inj.1 same
    · exact fun job _ => job.toNat_lt
  have all : (manyJobs 257).filter (fun job => (state.events job).anacron) = manyJobs 257 :=
    List.filter_eq_self.2 fun _ _ => rfl
  have length : (manyJobs 257).length = 257 := by simp [manyJobs]
  have noTable : cronAnacron (fun _ _ => true) state 0 120 = none := by
    rw [cronAnacron, show listedJobs state.heap = _ from linked.listedJobs_eq]
    simp only [Option.bind_eq_bind, Option.bind_some, all, length]
    rw [if_neg (by decide), anacronTab, if_pos (by decide)]
    simp only [List.filter_true, length]
    rw [if_pos (by decide)]
    rfl
  obtain ⟨last, reached, -⟩ := always (fun _ _ => true) state (manyJobs 257) 0 [.call 120] resting
    (List.ne_nil_of_length_pos (by rw [length]; decide)) (UInt32.le_refl _)
    ⟨(by decide : (0 : UInt32) ≤ 120), fun _ _ => trivial⟩
  have notEmpty : heap.head ≠ null := by
    rw [linked.head_eq]
    decide
  have noResult : cronPeriodic (fun _ _ => true) true state 120 = none := by
    have forward : ¬ (120 : UInt32) < state.lastCheck := (by decide : ¬ (120 : UInt32) < 0)
    have due : ¬ (state.heap.head = null ∨ 120 - state.lastCheck < 60) := by
      rintro (empty | soon)
      · exact notEmpty empty
      · exact absurd soon (by decide : ¬ (120 : UInt32) - 0 < 60)
    have late : 60 < 120 - 120 % 60 - state.lastCheck :=
      (by decide : (60 : UInt32) < 120 - 120 % 60 - 0)
    rw [cronPeriodic, if_neg forward, if_neg due]
    simp only
    rw [if_pos ⟨trivial, late⟩]
    exact congrArg (Option.bind · _) noTable
  have noStep : tickStep (fun _ _ => true) true ⟨state, 0, [], []⟩ (.call 120) = none := by
    rw [tickStep]
    exact congrArg (Option.bind · _) noResult
  rw [run, noStep] at reached
  cases reached

end Ethersex.Cron

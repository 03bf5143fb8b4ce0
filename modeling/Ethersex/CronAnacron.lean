import Ethersex.CronConditions
import Ethersex.CronIterationRuns

/-!
# Catching up on missed jobs

`cron_anacron` executes the jobs of its table from the end, so the jobs that were due
long ago come first.  Here the commands leave the list of jobs alone; only
`cron_execute` itself removes a job that has been repeated often enough.
-/

namespace Ethersex.Cron

open DoublyLinked
open Clock (ClockTimezone clockDatetime clockLocaltime initialDstChanges)

variable {Condition : Type}

/-- `cron_check_event` as `cron_anacron` calls it, for a condition with its flag `use_utc`.
What `dst_change` holds makes no difference to local time. -/
def cronDue (tz : ClockTimezone) (condition : CronConditions × Bool) (timestamp : UInt32) : Bool :=
  cronCheckEvent condition.1 condition.2 (clockDatetime timestamp.toNat)
    (clockLocaltime tz initialDstChanges timestamp.toNat).1

/-- The last loop of `cron_anacron`: the state it leaves and the jobs it executes. -/
def executeJobs (minute : UInt32) :
    List Ptr → CronState Condition → Option (CronState Condition × List Ptr)
  | [], state => some (state, [])
  | exec :: rest, state => do
      let running ← cronExecute state minute exec (.anacron rest.reverse)
      let returned ← executeReturns running minute exec (.anacron rest.reverse)
      let (last, executed) ← executeJobs minute rest returned
      return (last, exec :: executed)

/-- `cron_anacron` with commands that leave the list alone. -/
def cronAnacronRun (due : Condition → UInt32 → Bool) (state : CronState Condition)
    (starttime endtime : UInt32) : Option (CronState Condition × List Ptr) := do
  match ← cronAnacron due state starttime endtime with
  | none => return (state, [])
  | some tab => executeJobs endtime tab.reverse state

/-- Executing a job takes no other job from the list. -/
theorem execute_linked {state : CronState Condition} {jobs : List Ptr}
    (linked : Linked state.heap jobs) {exec : Ptr} (member : exec ∈ jobs) (minute : UInt32)
    (phase : Phase) :
    ∃ running returned jobs', cronExecute state minute exec phase = some running ∧
      executeReturns running minute exec phase = some returned ∧
      Linked returned.heap jobs' ∧ ∀ job ∈ jobs, job ≠ exec → job ∈ jobs' := by
  obtain ⟨node, load, -⟩ := linked.load_mem member
  let running : CronState Condition := { state with
    mode := .executing minute exec phase
    executed := state.executed ++ [state.serial exec] }
  have executes : cronExecute state minute exec phase = some running := cronExecute_eq load
  have loads : running.heap.load exec = some node := load
  have returns := executeReturns.eq_1 running minute exec phase
  rw [loads] at returns
  simp only [Option.bind_eq_bind, Option.bind_some] at returns
  by_cases limited : 0 < (running.events exec).repeats
  · rw [if_pos limited] at returns
    by_cases expires : (running.events exec).repeats - 1 = 0
    · obtain ⟨heap, removed, linked'⟩ := linked.jobrm member
      rw [if_pos expires, removed] at returns
      exact ⟨running, _, jobs.erase exec, executes, returns, linked',
        fun job inside other => (List.mem_erase_of_ne other).2 inside⟩
    · rw [if_neg expires] at returns
      exact ⟨running, _, jobs, executes, returns, linked, fun job inside _ => inside⟩
  · rw [if_neg limited] at returns
    exact ⟨running, _, jobs, executes, returns, linked, fun job inside _ => inside⟩

theorem executeJobs_linked (minute : UInt32) {order : List Ptr} {state : CronState Condition}
    {jobs : List Ptr} (linked : Linked state.heap jobs) (nodup : order.Nodup)
    (members : ∀ job ∈ order, job ∈ jobs) :
    ∃ last, executeJobs minute order state = some (last, order) := by
  induction order generalizing state jobs with
  | nil => exact ⟨state, rfl⟩
  | cons exec rest ih =>
      obtain ⟨others, nodup⟩ := List.nodup_cons.1 nodup
      obtain ⟨running, returned, jobs', executes, returns, linked', kept⟩ :=
        execute_linked linked (members exec List.mem_cons_self) minute (.anacron rest.reverse)
      have members' : ∀ job ∈ rest, job ∈ jobs' := by
        intro job inside
        refine kept job (members job (List.mem_cons_of_mem _ inside)) ?_
        rintro rfl
        exact others inside
      obtain ⟨last, executed⟩ := ih linked' nodup members'
      refine ⟨last, ?_⟩
      simp [executeJobs, executes, returns, executed]

/-- The last minute of the interval at which the job matches. -/
def IsLatest (due : Condition → UInt32 → Bool) (event : CronEvent Condition)
    (starttime endtime minute : UInt32) : Prop :=
  InInterval starttime endtime minute ∧ due event.condition minute = true ∧
    ∀ other, InInterval starttime endtime other → due event.condition other = true →
      other ≤ minute

/-- The table holds the jobs by decreasing latest minute. -/
theorem foundJobs_ordered {due : Condition → UInt32 → Bool} {events : Ptr → CronEvent Condition}
    {jobs : List Ptr} {starttime endtime : UInt32} (whole : endtime.toNat % 60 = 0)
    (wholeStart : starttime.toNat % 60 = 0) (ordered : starttime ≤ endtime) :
    (foundJobs due events jobs starttime endtime).Pairwise fun first second =>
      ∀ minute minute',
        IsLatest due (events first) (anacronStart starttime endtime) endtime minute →
        IsLatest due (events second) (anacronStart starttime endtime) endtime minute' →
        minute' ≤ minute := by
  have limited := toNat_anacronStart ordered
  have wholeLimit : (anacronStart starttime endtime).toNat % 60 = 0 := by omega
  have enough : endtime.toNat ≤ (anacronStart starttime endtime).toNat + 60 * 1441 := by omega
  have minutes {minute : UInt32} := @mem_minutesBack _ _ _ minute whole wholeLimit enough
  refine (Sweep.sweep_pairwise (minutesBack_descending whole wholeLimit enough)).imp ?_
  intro first second order minute minute' latest latest'
  obtain ⟨later, inside, bound, isDue⟩ := order minute' (minutes.2 latest'.1) latest'.2.1
  have upper := latest.2.2 later (minutes.1 inside) isDue
  rw [UInt32.le_iff_toNat_le] at upper ⊢
  omega

/-- `cron_anacron` executes the anacron jobs that match at a minute of the interval, each
once, those first that matched last the longest time ago. -/
theorem cronAnacron_catches_up (due : Condition → UInt32 → Bool) {state : CronState Condition}
    {jobs : List Ptr} (linked : Linked state.heap jobs)
    (few : (jobs.filter fun job => (state.events job).anacron).length ≤ 255)
    {starttime endtime : UInt32} (ordered : starttime ≤ endtime)
    (wholeStart : starttime.toNat % 60 = 0) (whole : endtime.toNat % 60 = 0) :
    ∃ last executed limit, cronAnacronRun due state starttime endtime = some (last, executed) ∧
      limit.toNat = max starttime.toNat (endtime.toNat - cronAnacronMaxage.toNat) ∧
      executed.Nodup ∧
      (∀ job, job ∈ executed ↔ job ∈ jobs ∧ (state.events job).anacron = true ∧
        ∃ minute, InInterval limit endtime minute ∧
          due (state.events job).condition minute = true) ∧
      executed.Pairwise fun first second => ∀ minute minute',
        IsLatest due (state.events first) limit endtime minute →
        IsLatest due (state.events second) limit endtime minute' → minute ≤ minute' := by
  have found {job : Ptr} := @mem_foundJobs Condition due state.events jobs starttime endtime whole
    wholeStart ordered job
  have table := cronAnacron_eq due linked.listedJobs_eq whole ordered (by omega)
  by_cases none : (jobs.filter fun job => (state.events job).anacron).length % 256 = 0
  · have noAnacron : jobs.filter (fun job => (state.events job).anacron) = [] :=
      List.length_eq_zero_iff.1 (by omega)
    refine ⟨state, [], anacronStart starttime endtime, ?_, toNat_anacronStart ordered,
      List.nodup_nil, ?_, List.Pairwise.nil⟩
    · rw [cronAnacronRun, table, if_pos none]
      rfl
    · intro job
      refine ⟨fun inside => absurd inside List.not_mem_nil, ?_⟩
      rintro ⟨member, anacron, -⟩
      have inside : job ∈ jobs.filter fun job => (state.events job).anacron :=
        List.mem_filter.2 ⟨member, anacron⟩
      rwa [noAnacron] at inside
  · have nodup : (foundJobs due state.events jobs starttime endtime).reverse.Nodup :=
      List.nodup_reverse.2 (foundJobs_nodup linked.nodup)
    obtain ⟨last, executes⟩ := executeJobs_linked endtime linked nodup
      (fun job inside => (found.1 (List.mem_reverse.1 inside)).1)
    refine ⟨last, _, anacronStart starttime endtime, ?_, toNat_anacronStart ordered, nodup, ?_, ?_⟩
    · rw [cronAnacronRun, table, if_neg none]
      exact executes
    · intro job
      rw [List.mem_reverse, found]
    · refine List.pairwise_reverse.2 ((foundJobs_ordered whole wholeStart ordered).imp ?_)
      exact fun order minute minute' latest latest' => order minute' minute latest' latest

/-- Two jobs for every second hour, after two hours without power. -/
theorem cronAnacron_catches_up_twoJobs :
    ∃ first heap, cronStep CronHeap.init (.insert 100 ⟨null, null⟩ (-1)) = some first ∧
      cronStep first (.insert 200 ⟨null, null⟩ (-1)) = some heap ∧
      ∃ last executed limit,
        cronAnacronRun (cronDue Clock.centralEurope)
            { cronInit fun _ => ⟨(everySecondHour, false), 0, true, 0⟩ with heap := heap }
            1768435200 1768442400 = some (last, executed) ∧
          limit.toNat = max 1768435200 (1768442400 - cronAnacronMaxage.toNat) ∧
          ∀ job, job ∈ executed ↔ (job = 100 ∨ job = 200) ∧
            ∃ minute, InInterval limit 1768442400 minute ∧
              cronDue Clock.centralEurope (everySecondHour, false) minute = true := by
  obtain ⟨first, built, linked⟩ := linked_init.insert ⟨null, null⟩ (by decide : (100 : Ptr) ≠ null)
    List.not_mem_nil (Or.inl (by decide : ¬ (0 : Int8) < -1))
  obtain ⟨heap, built', linked'⟩ := linked.insert ⟨null, null⟩ (by decide : (200 : Ptr) ≠ null)
    (by decide) (Or.inl (by decide : ¬ (0 : Int8) < -1))
  obtain ⟨last, executed, limit, result, bound, -, members, -⟩ :=
    @cronAnacron_catches_up _ (cronDue Clock.centralEurope)
      { cronInit fun _ => ⟨(everySecondHour, false), 0, true, 0⟩ with heap := heap } _ linked'
      (by simp [cronInit]) 1768435200 1768442400 (by decide) (by decide) (by decide)
  refine ⟨first, heap, built, built', last, executed, limit, result, bound, fun job => ?_⟩
  simpa [cronInit] using members job

end Ethersex.Cron

import Ethersex.CronIteration
import Ethersex.Sweep

/-!
# The table of `cron_anacron`

`cron_anacron` goes back from minute to minute and puts the pending jobs that are
due into its table, until every pending job is found or the beginning of the
interval is reached.  The table is the pending jobs swept minute by minute.
-/

namespace Ethersex.Cron

open Sweep

variable {Condition : Type}

/-- The whole minutes after `starttime`, from `timestamp` backwards. -/
def minutesBack (starttime : UInt32) : Nat → UInt32 → List UInt32
  | 0, _ => []
  | fuel + 1, timestamp =>
      if starttime < timestamp then timestamp :: minutesBack starttime fuel (timestamp - 60)
      else []

/-- A whole minute after `starttime` and not after `endtime`. -/
def InInterval (starttime endtime minute : UInt32) : Prop :=
  starttime < minute ∧ minute ≤ endtime ∧ minute.toNat % 60 = 0

theorem toNat_minuteBefore {starttime timestamp : UInt32} (whole : timestamp.toNat % 60 = 0)
    (later : starttime < timestamp) : (timestamp - 60).toNat = timestamp.toNat - 60 := by
  rw [UInt32.lt_iff_toNat_lt] at later
  apply UInt32.toNat_sub_of_le
  rw [UInt32.le_iff_toNat_le]
  show 60 ≤ timestamp.toNat
  omega

theorem mem_minutesBack {starttime : UInt32} {fuel : Nat} {timestamp minute : UInt32}
    (whole : timestamp.toNat % 60 = 0) (wholeStart : starttime.toNat % 60 = 0)
    (enough : timestamp.toNat ≤ starttime.toNat + 60 * fuel) :
    minute ∈ minutesBack starttime fuel timestamp ↔ InInterval starttime timestamp minute := by
  induction fuel generalizing timestamp with
  | zero =>
      simp only [minutesBack, InInterval, List.not_mem_nil, false_iff, UInt32.lt_iff_toNat_lt,
        UInt32.le_iff_toNat_le]
      omega
  | succ fuel ih =>
      unfold minutesBack
      by_cases later : starttime < timestamp
      · have before := toNat_minuteBefore whole later
        rw [if_pos later, List.mem_cons, ih (by omega) (by omega)]
        simp only [InInterval, UInt32.lt_iff_toNat_lt, UInt32.le_iff_toNat_le,
          ← UInt32.toNat_inj] at later ⊢
        omega
      · rw [if_neg later]
        simp only [InInterval, List.not_mem_nil, false_iff, UInt32.lt_iff_toNat_lt,
          UInt32.le_iff_toNat_le] at later ⊢
        omega

theorem minutesBack_descending {starttime : UInt32} {fuel : Nat} {timestamp : UInt32}
    (whole : timestamp.toNat % 60 = 0) (wholeStart : starttime.toNat % 60 = 0)
    (enough : timestamp.toNat ≤ starttime.toNat + 60 * fuel) :
    (minutesBack starttime fuel timestamp).Pairwise fun first second =>
      second.toNat < first.toNat := by
  induction fuel generalizing timestamp with
  | zero => exact List.Pairwise.nil
  | succ fuel ih =>
      unfold minutesBack
      split
      case isTrue later =>
          have before := toNat_minuteBefore whole later
          have isLater := UInt32.lt_iff_toNat_lt.1 later
          refine List.pairwise_cons.2 ⟨?_, ih (by omega) (by omega)⟩
          intro minute member
          have inside := (mem_minutesBack (by omega) wholeStart (by omega)).1 member
          have bound := UInt32.le_iff_toNat_le.1 inside.2.1
          omega
      case isFalse => exact List.Pairwise.nil

section Due

variable (due : Condition → UInt32 → Bool)

/-- The test of the loop in `cron_anacron`. -/
def jobDue (events : Ptr → CronEvent Condition) (job : Ptr) (minute : UInt32) : Bool :=
  due (events job).condition minute

/-- With room for all pending jobs the loop ends with the swept jobs in the table. -/
theorem anacronTab_eq (events : Ptr → CronEvent Condition) {starttime : UInt32} {count : UInt8}
    {fuel : Nat} {timestamp : UInt32} {tab pending : List Ptr}
    (total : (tab ++ pending).length = count.toNat) (whole : timestamp.toNat % 60 = 0)
    (enough : timestamp.toNat ≤ starttime.toNat + 60 * fuel) :
    anacronTab due events starttime count (fuel + 1) timestamp tab pending =
      some (tab ++ sweep (jobDue due events) (minutesBack starttime fuel timestamp) pending) := by
  induction fuel generalizing timestamp tab pending with
  | zero =>
      have ended : ¬starttime < timestamp := by
        rw [UInt32.lt_iff_toNat_lt]
        omega
      rw [anacronTab, if_neg fun more => ended more.1]
      simp [minutesBack, sweep]
  | succ fuel ih =>
      rw [anacronTab, minutesBack]
      by_cases later : starttime < timestamp
      · rw [if_pos later, sweep]
        by_cases more : UInt8.ofNat tab.length < count
        · have split := (List.filter_append_perm (fun job => due (events job).condition timestamp)
            pending).length_eq
          have before := toNat_minuteBefore whole later
          have isLater := UInt32.lt_iff_toNat_lt.1 later
          rw [List.length_append] at split total
          have total' : ((tab ++ pending.filter fun job => due (events job).condition timestamp) ++
              pending.filter fun job => !due (events job).condition timestamp).length =
                count.toNat := by
            simp only [List.length_append]
            omega
          rw [if_pos ⟨later, more⟩]
          simp only
          rw [if_neg (by omega), ih total' (by omega) (by omega), List.append_assoc]
          rfl
        · -- every pending job has been found
          have bound := count.toNat_lt
          rw [List.length_append] at total
          rw [UInt8.lt_iff_toNat_lt, UInt8.toNat_ofNat'] at more
          have noneLeft : pending = [] := List.length_eq_zero_iff.1 (by omega)
          rw [if_neg (by rw [UInt8.lt_iff_toNat_lt, UInt8.toNat_ofNat']; omega), noneLeft]
          simp
      · rw [if_neg later, if_neg fun more => later more.1]
        simp [sweep]

/-- `starttime` after `cron_anacron` has limited the range. -/
def anacronStart (starttime endtime : UInt32) : UInt32 :=
  if cronAnacronMaxage < endtime - starttime then endtime - cronAnacronMaxage else starttime

theorem toNat_anacronStart {starttime endtime : UInt32} (ordered : starttime ≤ endtime) :
    (anacronStart starttime endtime).toNat = max starttime.toNat (endtime.toNat - 86400) := by
  have before := UInt32.le_iff_toNat_le.1 ordered
  have age := UInt32.toNat_sub_of_le _ _ ordered
  have maxage : cronAnacronMaxage.toNat = 86400 := rfl
  unfold anacronStart
  by_cases old : cronAnacronMaxage < endtime - starttime
  · rw [if_pos old]
    rw [UInt32.lt_iff_toNat_lt, age, maxage] at old
    rw [UInt32.toNat_sub_of_le _ _ (by rw [UInt32.le_iff_toNat_le, maxage]; omega), maxage]
    omega
  · rw [if_neg old]
    rw [UInt32.lt_iff_toNat_lt, age, maxage] at old
    omega

/-- The jobs that `cron_anacron` finds, in the order in which it finds them. -/
def foundJobs (events : Ptr → CronEvent Condition) (jobs : List Ptr)
    (starttime endtime : UInt32) : List Ptr :=
  sweep (jobDue due events) (minutesBack (anacronStart starttime endtime) 1441 endtime)
    (jobs.filter fun job => (events job).anacron)

/-- What `cron_anacron` puts into its table; 256 anacron jobs are counted as none. -/
theorem cronAnacron_eq {state : CronState Condition} {jobs : List Ptr}
    (listed : listedJobs state.heap = some jobs) {starttime endtime : UInt32}
    (whole : endtime.toNat % 60 = 0) (ordered : starttime ≤ endtime)
    (few : (jobs.filter fun job => (state.events job).anacron).length ≤ 256) :
    cronAnacron due state starttime endtime =
      some (if (jobs.filter fun job => (state.events job).anacron).length % 256 = 0 then none
        else some (foundJobs due state.events jobs starttime endtime)) := by
  have limited := toNat_anacronStart ordered
  rw [cronAnacron, listed]
  simp only [Option.bind_eq_bind, Option.bind_some]
  have counted : UInt8.ofNat (jobs.filter fun job => (state.events job).anacron).length = 0 ↔
      (jobs.filter fun job => (state.events job).anacron).length % 256 = 0 := by
    rw [← UInt8.toNat_inj, UInt8.toNat_ofNat']
    rfl
  by_cases none : (jobs.filter fun job => (state.events job).anacron).length % 256 = 0
  · rw [if_pos (counted.2 none), if_pos none]
    rfl
  · have total : ([] ++ jobs.filter fun job => (state.events job).anacron).length =
        (UInt8.ofNat (jobs.filter fun job => (state.events job).anacron).length).toNat := by
      rw [List.nil_append, UInt8.toNat_ofNat']
      omega
    rw [if_neg (mt counted.1 none), if_neg none]
    have filled := anacronTab_eq due state.events total whole
      (show endtime.toNat ≤ (anacronStart starttime endtime).toNat + 60 * 1441 by omega)
    rw [anacronStart] at filled
    rw [filled]
    rfl

end Due

section Found

variable {due : Condition → UInt32 → Bool} {events : Ptr → CronEvent Condition}
  {jobs : List Ptr} {starttime endtime : UInt32}

theorem mem_foundJobs (whole : endtime.toNat % 60 = 0) (wholeStart : starttime.toNat % 60 = 0)
    (ordered : starttime ≤ endtime) {job : Ptr} :
    job ∈ foundJobs due events jobs starttime endtime ↔
      job ∈ jobs ∧ (events job).anacron = true ∧
        ∃ minute, InInterval (anacronStart starttime endtime) endtime minute ∧
          due (events job).condition minute = true := by
  have limited := toNat_anacronStart ordered
  simp only [foundJobs, mem_sweep, List.mem_filter, and_assoc, jobDue]
  simp only [mem_minutesBack whole (show (anacronStart starttime endtime).toNat % 60 = 0 by omega)
    (show endtime.toNat ≤ (anacronStart starttime endtime).toNat + 60 * 1441 by omega)]

theorem foundJobs_nodup (nodup : jobs.Nodup) :
    (foundJobs due events jobs starttime endtime).Nodup :=
  sweep_nodup (nodup.filter _)

end Found

end Ethersex.Cron

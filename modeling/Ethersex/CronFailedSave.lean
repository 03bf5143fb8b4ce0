import Ethersex.CronPersistence

/-!
# A save of the cron jobs that fails

When `vfs_write` stores fewer bytes than it was given, `cron_save` ends through
`cron_write_error`, which is to truncate the file: it opens the file and closes it again.
Opening does not truncate, so the count of all jobs and the records written so far stay
in the file, and `cron_load` takes the complete ones for the saved jobs.
-/

namespace Ethersex.Cron

/-- The write with this number stores only some bytes. -/
def shortWrite (failing stored : Nat) : VfsFaults :=
  fun number => if number = failing then some stored else none

/-- The sizes of the writes of `cron_save`. -/
def writeSizes (jobs : List CronJob) : List Nat :=
  1 :: (persistentJobs jobs).map CronJob.size

/-- What stands in the file when the write behind the records of `before` was short. -/
def tornContent (count : UInt8) (before : List CronJob) (torn : List UInt8) : List UInt8 :=
  count :: (records before ++ torn)

theorem vfsWrite_short {failing stored : Nat} (content : List UInt8) {data : List UInt8}
    (short : stored < data.length) :
    vfsWrite (shortWrite failing stored) failing ⟨content, content.length⟩ data =
      (stored, ⟨content ++ data.take stored, (content ++ data.take stored).length⟩) := by
  simp only [vfsWrite, shortWrite, if_true, Option.getD_some, ByteFile.write_at_end,
    List.length_take, Nat.min_eq_left (Nat.le_of_lt short)]

/-- The loop stops at the short write, behind the records of the jobs before. -/
theorem writeJobs_short {jobs before after : List CronJob} {job : CronJob} {stored : Nat}
    (split : persistentJobs jobs = before ++ job :: after) (short : stored < job.size)
    (number : Nat) (content : List UInt8) (filesize : Nat) (savedCount : UInt8) :
    ∃ position, writeJobs (shortWrite (number + before.length) stored) number jobs
      ⟨content, content.length⟩ filesize savedCount =
        .error ⟨content ++ (records before ++ job.bytes.take stored), position⟩ := by
  induction jobs generalizing before number content filesize savedCount with
  | nil => simp [persistentJobs] at split
  | cons first jobs ih =>
      rw [writeJobs]
      rw [persistentJobs_cons] at split
      by_cases persistent : first.persistent
      · rw [if_pos persistent] at split ⊢
        cases before with
        | nil =>
            obtain ⟨rfl, -⟩ := List.cons.inj split
            have torn : stored < first.bytes.length := by
              rw [first.length_bytes]
              exact short
            simp only [List.length_nil, Nat.add_zero, vfsWrite_short content torn]
            rw [if_pos (Nat.ne_of_lt short)]
            exact ⟨_, rfl⟩
        | cons _ before =>
            obtain ⟨rfl, rest⟩ := List.cons.inj split
            have complete : shortWrite (number + (first :: before).length) stored number = none :=
              if_neg (by simp)
            have next := ih rest (number + 1) (content ++ first.bytes) (filesize + first.size)
              (savedCount + 1)
            rw [Nat.add_right_comm, Nat.add_assoc] at next
            rw [vfsWrite_complete complete]
            simp only [first.length_bytes, ne_eq, not_true, if_false]
            simpa [records] using next
      · rw [if_neg persistent] at split ⊢
        exact ih split number content filesize savedCount

/-- What a save leaves behind whose write of a record was short. -/
theorem cronSaveVfs_short {jobs before after : List CronJob} {job : CronJob} {stored : Nat}
    (split : persistentJobs jobs = before ++ job :: after) (short : stored < job.size)
    (old : Option (List UInt8)) :
    cronSaveVfs (shortWrite (before.length + 1) stored) jobs old =
      (-1, tornContent (UInt8.ofNat (persistentJobs jobs).length) before
        (job.bytes.take stored)) := by
  have first : vfsWrite (shortWrite (before.length + 1) stored) 0 ⟨[], 0⟩
      [(countJobs jobs 0 1).1] = _ :=
    vfsWrite_complete (if_neg (by omega)) [] [(countJobs jobs 0 1).1]
  obtain ⟨position, rest⟩ := writeJobs_short split short 1 [(countJobs jobs 0 1).1] 1 0
  rw [Nat.add_comm] at rest
  rw [List.nil_append] at first
  rw [cronSaveVfs]
  simp only [first, List.length_singleton, ne_eq, not_true, if_false] at rest ⊢
  rw [rest]
  simp [cronWriteError, tornContent, countJobs_eq]

/-- A save whose first write fails leaves an empty file. -/
theorem cronSaveVfs_short_count (jobs : List CronJob) (old : Option (List UInt8)) :
    cronSaveVfs (shortWrite 0 0) jobs old = (-1, []) := by
  have first : vfsWrite (shortWrite 0 0) 0 ⟨[], 0⟩ [(countJobs jobs 0 1).1] = _ :=
    vfsWrite_short [] (by simp)
  rw [cronSaveVfs]
  simp [first, cronWriteError]

/-- A part of a record is not loaded. -/
theorem loadJobs_torn {job : CronJob} {stored : Nat} (short : stored < job.size) (rounds : Nat)
    (front : List UInt8) :
    loadJobs rounds ⟨front ++ job.bytes.take stored, front.length⟩ front.length = [] := by
  cases rounds with
  | zero => rfl
  | succ rounds =>
      obtain ⟨tail, bytes⟩ := job.exists_cons
      cases stored with
      | zero => simp [loadJobs, ByteFile.read]
      | succ stored =>
          have torn : (job.bytes.take (stored + 1)).length = stored + 1 := by
            rw [List.length_take, job.length_bytes]
            omega
          have peek : (ByteFile.mk (front ++ job.bytes.take (stored + 1)) front.length).read 1 =
              ([job.extrasize], ⟨front ++ job.bytes.take (stored + 1), front.length + 1⟩) := by
            have split := ByteFile.read_split front [job.extrasize] (tail.take stored)
            rw [bytes]
            exact split
          rw [CronJob.size] at short
          have load : (ByteFile.mk (front ++ job.bytes.take (stored + 1)) front.length).read
              (cronEventSize + job.extrasize.toNat) = _ :=
            ByteFile.read_short (by omega)
          rw [loadJobs, peek]
          simp only [ByteFile.seek, load]
          rw [if_pos (by omega)]

/-- The complete records are loaded, up to the number of rounds. -/
theorem loadJobs_before {job : CronJob} {stored : Nat} (short : stored < job.size) (rounds : Nat)
    (before : List CronJob) (front : List UInt8) :
    loadJobs rounds ⟨front ++ (records before ++ job.bytes.take stored), front.length⟩
      front.length = (before.take rounds).map CronJob.bytes := by
  by_cases few : rounds ≤ before.length
  · have split : records before = records (before.take rounds) ++ records (before.drop rounds) := by
      rw [records, records, records, ← List.flatMap_append, List.take_append_drop]
    have loaded := loadJobs_records (before.take rounds) 0 front
      (records (before.drop rounds) ++ job.bytes.take stored)
    rw [List.length_take, Nat.min_eq_left few] at loaded
    simpa [split, loadJobs] using loaded
  · obtain ⟨more, rfl⟩ := Nat.exists_eq_add_of_le (Nat.le_of_not_le few)
    have loaded := loadJobs_records before more front (job.bytes.take stored)
    have nothing := loadJobs_torn short more (front ++ records before)
    rw [List.append_assoc, List.length_append] at nothing
    rw [loaded, nothing, List.append_nil, List.take_of_length_le (Nat.le_add_right _ _)]

theorem cronLoadVfs_torn {job : CronJob} {stored : Nat} (short : stored < job.size)
    (count : UInt8) (before : List CronJob) :
    cronLoadVfs (tornContent count before (job.bytes.take stored)) =
      (before.take count.toNat).map CronJob.bytes :=
  loadJobs_before short count.toNat before [count]

/-- Nothing is loaded, or the jobs of one of the complete saves. -/
def NothingOrEarlier (earlier : List (List CronJob)) (loaded : List (List UInt8)) : Prop :=
  loaded = [] ∨ ∃ jobs ∈ earlier, loaded.Perm ((persistentJobs jobs).map CronJob.bytes)

/-- No record was written completely before the failing write, or the count byte is zero,
or the jobs whose records were written had once been saved on their own. -/
def HarmlessFailure (earlier : List (List CronJob)) (jobs : List CronJob) (failing : Nat) : Prop :=
  failing ≤ 1 ∨ (persistentJobs jobs).length % 256 = 0 ∨
    ∃ saved ∈ earlier, (((persistentJobs jobs).take
      (min (failing - 1) ((persistentJobs jobs).length % 256))).map CronJob.bytes).Perm
        ((persistentJobs saved).map CronJob.bytes)

/-- After a save whose write `failing` stored only `stored` bytes, a load finds nothing or the
jobs of an earlier save just when the failure is harmless. -/
theorem nothingOrEarlier_iff (jobs : List CronJob) (old : Option (List UInt8))
    (earlier : List (List CronJob)) (failing stored : Nat)
    (short : stored < (writeSizes jobs).getD failing 0) :
    (cronSaveVfs (shortWrite failing stored) jobs old).1 = -1 ∧
      (NothingOrEarlier earlier
          (cronLoadVfs (cronSaveVfs (shortWrite failing stored) jobs old).2) ↔
        HarmlessFailure earlier jobs failing) := by
  cases failing with
  | zero =>
      obtain rfl : stored = 0 := by
        simpa [writeSizes] using short
      rw [cronSaveVfs_short_count]
      simp [NothingOrEarlier, HarmlessFailure, cronLoadVfs, ByteFile.read]
  | succ index =>
      have made : index < (persistentJobs jobs).length := by
        by_contra behind
        simp [writeSizes, List.getElem?_eq_none (Nat.le_of_not_lt behind)] at short
      have split : persistentJobs jobs = (persistentJobs jobs).take index ++
          (persistentJobs jobs)[index] :: (persistentJobs jobs).drop (index + 1) := by
        rw [List.getElem_cons_drop, List.take_append_drop]
      have torn : stored < (persistentJobs jobs)[index].size := by
        simpa [writeSizes, made] using short
      have length : ((persistentJobs jobs).take index).length = index := by
        rw [List.length_take, Nat.min_eq_left (Nat.le_of_lt made)]
      have saved := cronSaveVfs_short split torn old
      rw [length] at saved
      rw [saved]
      refine ⟨rfl, ?_⟩
      simp only [cronLoadVfs_torn torn, NothingOrEarlier, HarmlessFailure, List.take_take,
        Nat.add_sub_cancel, UInt8.toNat_ofNat', Nat.min_comm index]
      rw [← or_assoc]
      apply or_congr_left
      have nonempty : persistentJobs jobs ≠ [] := List.ne_nil_of_length_pos (by omega)
      rw [List.map_eq_nil_iff, List.take_eq_nil_iff, or_iff_left nonempty]
      omega

theorem nothingOrEarlier_twoJobs :
    (cronSaveVfs (shortWrite 2 5) [minuteJob, minuteJob] none).1 = -1 ∧
      (NothingOrEarlier [[minuteJob]]
          (cronLoadVfs (cronSaveVfs (shortWrite 2 5) [minuteJob, minuteJob] none).2) ↔
        HarmlessFailure [[minuteJob]] [minuteJob, minuteJob] 2) :=
  nothingOrEarlier_iff [minuteJob, minuteJob] none [[minuteJob]] 2 5 (by decide)

/-- The second of two records is not written: the first job is loaded on its own. -/
theorem half_saved_jobs_loaded :
    ¬ ∀ (jobs : List CronJob) (old : Option (List UInt8)) (earlier : List (List CronJob))
      (failing stored : Nat), stored < (writeSizes jobs).getD failing 0 →
        NothingOrEarlier earlier
          (cronLoadVfs (cronSaveVfs (shortWrite failing stored) jobs old).2) := by
  intro always
  obtain nothing | ⟨_, saved, -⟩ := always [minuteJob, minuteJob] none [] 2 0 (by decide)
  · exact absurd nothing (by decide)
  · exact absurd saved (by simp)

end Ethersex.Cron

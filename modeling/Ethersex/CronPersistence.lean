import Mathlib.Data.UInt
import Ethersex.ByteFiles
import Ethersex.ByteMemory

/-!
# Saving and loading the cron jobs

`cron_save` writes the number of persistent jobs and, one after the other, their
`struct cron_event` with its extra bytes; `cron_load` reads them back into an empty
list.  The records go into a file of the virtual file system or into the array
`crontab` of the EEPROM.  A job is the bytes that are saved of it, in the layout of the
AVR.  The virtual file system follows its description in `core/vfs/vfs.h`: `vfs_create`
empties the file, a write that fails stores some of the bytes and returns their number.
-/

namespace Ethersex.Cron

open ByteMemory

/-- `sizeof(struct cron_event)` -/
def cronEventSize : Nat := 11

/-- `struct cron_event` and its extra bytes; the first byte is `extrasize`. -/
structure CronJob where
  bytes : List UInt8
  sized : bytes.length = cronEventSize + (bytes.headD 0).toNat

namespace CronJob

def extrasize (job : CronJob) : UInt8 :=
  job.bytes.headD 0

/-- The bit field `persistent` stands behind `cmd` and `use_utc`. -/
def persistent (job : CronJob) : Bool :=
  job.bytes.getD 7 0 >>> 5 &&& 1 = 1

/-- What is saved of the job. -/
def size (job : CronJob) : Nat :=
  cronEventSize + job.extrasize.toNat

theorem length_bytes (job : CronJob) : job.bytes.length = job.size :=
  job.sized

end CronJob

def persistentJobs (jobs : List CronJob) : List CronJob :=
  jobs.filter CronJob.persistent

/-- The number of bytes that the persistent jobs take, with the byte for their number. -/
def savedSize (jobs : List CronJob) : Nat :=
  1 + ((persistentJobs jobs).map CronJob.size).sum

/-- The first loop of `cron_save`: `count`, and `filesize` where it has 16 bits. -/
def countJobs : List CronJob → UInt8 → UInt16 → UInt8 × UInt16
  | [], count, filesize => (count, filesize)
  | job :: jobs, count, filesize =>
      if job.persistent then
        countJobs jobs (count + 1) (filesize + UInt16.ofNat job.size)
      else countJobs jobs count filesize

/-- The number of bytes stored by each write that fails. -/
abbrev VfsFaults := Nat → Option Nat

/-- The `number`-th write since the file was created: what it returns, and the file. -/
def vfsWrite (faults : VfsFaults) (number : Nat) (file : ByteFile) (data : List UInt8) :
    Nat × ByteFile :=
  let stored := data.take ((faults number).getD data.length)
  (stored.length, file.write stored)

/-- The second loop of `cron_save`; an error leaves the file as it is. -/
def writeJobs (faults : VfsFaults) :
    Nat → List CronJob → ByteFile → Nat → UInt8 → Except ByteFile (ByteFile × Nat × UInt8)
  | _, [], file, filesize, savedCount => .ok (file, filesize, savedCount)
  | number, job :: jobs, file, filesize, savedCount =>
      if job.persistent then
        let (written, file) := vfsWrite faults number file job.bytes
        if written ≠ job.size then .error file
        else writeJobs faults (number + 1) jobs file (filesize + job.size) (savedCount + 1)
      else writeJobs faults number jobs file filesize savedCount

/-- `cron_write_error`: the file is closed, opened and closed again. -/
def cronWriteError (file : ByteFile) : Int × List UInt8 :=
  (-1, file.content)

/-- What `cron_save` returns, and the content of the file afterwards.  The old content is
gone with `vfs_create`. -/
def cronSaveVfs (faults : VfsFaults) (jobs : List CronJob) (_old : Option (List UInt8)) :
    Int × List UInt8 :=
  let file : ByteFile := ⟨[], 0⟩
  let count := (countJobs jobs 0 1).1
  let (written, file) := vfsWrite faults 0 file [count]
  if written ≠ 1 then cronWriteError file
  else
    match writeJobs faults 1 jobs file 1 0 with
    | .error file => cronWriteError file
    | .ok (file, filesize, savedCount) => (savedCount.toNat, (file.truncate filesize).content)

/-- The loop of `cron_load`, with its remaining rounds: the jobs it appends. -/
def loadJobs : Nat → ByteFile → Nat → List (List UInt8)
  | 0, _, _ => []
  | rounds + 1, file, position =>
      match file.read 1 with
      | ([extrasize], file) =>
          let wsize := cronEventSize + extrasize.toNat
          let (event, file) := (file.seek position).read wsize
          if event.length ≠ wsize then []
          else event :: loadJobs rounds file (position + wsize)
      | _ => []

/-- `cron_load` into an empty list. -/
def cronLoadVfs (content : List UInt8) : List (List UInt8) :=
  match (ByteFile.mk content 0).read 1 with
  | ([count], file) => loadJobs count.toNat file 1
  | _ => []

/-- Where `crontab` ends and where the checksum is, counted from the begin of `crontab`. -/
structure EepromLayout where
  size : Nat
  crc : Nat
  sizeFits : size < 2 ^ 16
  crcBehind : size ≤ crc

def saveJobs : List CronJob → Memory → Nat → UInt8 → Memory × UInt8
  | [], eeprom, _, savedCount => (eeprom, savedCount)
  | job :: jobs, eeprom, filesize, savedCount =>
      if job.persistent then
        saveJobs jobs (writeBlock eeprom filesize job.bytes) (filesize + job.size) (savedCount + 1)
      else saveJobs jobs eeprom filesize savedCount

def cronSaveEeprom (layout : EepromLayout) (chksum : Memory → UInt8) (jobs : List CronJob)
    (eeprom : Memory) : Int × Memory :=
  let (count, filesize) := countJobs jobs 0 1
  if filesize.toNat ≥ layout.size then (-1, eeprom)
  else
    let (eeprom, savedCount) := saveJobs jobs (writeBlock eeprom 0 [count]) 1 0
    -- `eeprom_update_chksum`
    (savedCount.toNat, writeBlock eeprom layout.crc [chksum eeprom])

def restoreJobs (eeprom : Memory) : Nat → Nat → List (List UInt8)
  | 0, _ => []
  | rounds + 1, position =>
      let wsize := cronEventSize + (eeprom position).toNat
      readBlock eeprom position wsize :: restoreJobs eeprom rounds ((position + wsize) % 2 ^ 16)

def cronLoadEeprom (eeprom : Memory) : List (List UInt8) :=
  let count := if eeprom 0 = 0xFF then 0 else eeprom 0
  restoreJobs eeprom count.toNat 1

theorem persistentJobs_cons (job : CronJob) (jobs : List CronJob) :
    persistentJobs (job :: jobs) =
      if job.persistent then job :: persistentJobs jobs else persistentJobs jobs := by
  rw [persistentJobs, List.filter_cons]
  rfl

/-- The records of some jobs. -/
def records (jobs : List CronJob) : List UInt8 :=
  jobs.flatMap CronJob.bytes

theorem length_records (jobs : List CronJob) :
    (records jobs).length = (jobs.map CronJob.size).sum := by
  induction jobs with
  | nil => rfl
  | cons job jobs ih => simp [records, ← ih, job.length_bytes]

theorem countJobs_eq (jobs : List CronJob) (count : UInt8) (filesize : UInt16) :
    countJobs jobs count filesize =
      (count + UInt8.ofNat (persistentJobs jobs).length,
        filesize + UInt16.ofNat ((persistentJobs jobs).map CronJob.size).sum) := by
  induction jobs generalizing count filesize with
  | nil => simp [countJobs, persistentJobs]
  | cons job jobs ih =>
      rw [countJobs, persistentJobs_cons]
      split
      · rw [ih]
        simp only [List.length_cons, List.map_cons, List.sum_cons, UInt8.ofNat_add,
          UInt16.ofNat_add, Prod.mk.injEq]
        constructor
        · rw [UInt8.add_assoc, UInt8.add_comm 1]
          rfl
        · rw [UInt16.add_assoc]
      · exact ih count filesize

theorem vfsWrite_complete {faults : VfsFaults} {number : Nat} (complete : faults number = none)
    (content data : List UInt8) :
    vfsWrite faults number ⟨content, content.length⟩ data =
      (data.length, ⟨content ++ data, (content ++ data).length⟩) := by
  simp [vfsWrite, complete, ByteFile.write_at_end]

theorem writeJobs_complete (jobs : List CronJob) (number : Nat) (content : List UInt8)
    (filesize : Nat) (savedCount : UInt8) :
    writeJobs (fun _ => none) number jobs ⟨content, content.length⟩ filesize savedCount =
      .ok (⟨content ++ records (persistentJobs jobs),
          (content ++ records (persistentJobs jobs)).length⟩,
        filesize + (records (persistentJobs jobs)).length,
        savedCount + UInt8.ofNat (persistentJobs jobs).length) := by
  induction jobs generalizing number content filesize savedCount with
  | nil => simp [writeJobs, persistentJobs, records]
  | cons job jobs ih =>
      rw [writeJobs, persistentJobs_cons]
      split
      · rw [vfsWrite_complete rfl]
        simp only [job.length_bytes, ne_eq, not_true, if_false, ih]
        simp [records, job.length_bytes, Nat.add_assoc, UInt8.ofNat_add, UInt8.add_assoc,
          UInt8.add_comm]
      · exact ih number content filesize savedCount

theorem cronSaveVfs_content (jobs : List CronJob) (old : Option (List UInt8)) :
    (cronSaveVfs (fun _ => none) jobs old).2 =
      UInt8.ofNat (persistentJobs jobs).length :: records (persistentJobs jobs) := by
  have first : vfsWrite (fun _ => none) 0 ⟨[], 0⟩ [(countJobs jobs 0 1).1] = _ :=
    vfsWrite_complete rfl [] [(countJobs jobs 0 1).1]
  have rest := writeJobs_complete jobs 1 [(countJobs jobs 0 1).1] 1 0
  rw [List.nil_append] at first
  rw [cronSaveVfs]
  simp only [first, List.length_singleton, ne_eq, not_true, if_false] at rest ⊢
  rw [rest]
  have length : ([(countJobs jobs 0 1).1] ++ records (persistentJobs jobs)).length =
      1 + (records (persistentJobs jobs)).length := by
    rw [List.length_append, List.length_singleton]
  simp only [← length, ByteFile.truncate_all, countJobs_eq]
  simp

theorem CronJob.exists_cons (job : CronJob) :
    ∃ rest, job.bytes = job.extrasize :: rest := by
  have sized := job.sized
  unfold CronJob.extrasize
  generalize job.bytes = bytes at sized ⊢
  cases bytes with
  | nil => simp [cronEventSize] at sized
  | cons first rest => exact ⟨rest, rfl⟩

/-- The loop loads complete records one after the other. -/
theorem loadJobs_records (jobs : List CronJob) (rounds : Nat) (front rest : List UInt8) :
    loadJobs (jobs.length + rounds) ⟨front ++ (records jobs ++ rest), front.length⟩ front.length =
      jobs.map CronJob.bytes ++
        loadJobs rounds ⟨front ++ (records jobs ++ rest), front.length + (records jobs).length⟩
          (front.length + (records jobs).length) := by
  induction jobs generalizing front with
  | nil => simp [records]
  | cons job jobs ih =>
      obtain ⟨tail, bytes⟩ := job.exists_cons
      have content : front ++ (records (job :: jobs) ++ rest) =
          front ++ (job.bytes ++ (records jobs ++ rest)) := by
        simp [records]
      have peek : (ByteFile.mk (front ++ (job.bytes ++ (records jobs ++ rest)))
          front.length).read 1 = ([job.extrasize],
            ⟨front ++ (job.bytes ++ (records jobs ++ rest)), front.length + 1⟩) := by
        have split := ByteFile.read_split front [job.extrasize] (tail ++ (records jobs ++ rest))
        rw [bytes]
        exact split
      have load : (ByteFile.mk (front ++ (job.bytes ++ (records jobs ++ rest)))
          front.length).read (cronEventSize + job.extrasize.toNat) = (job.bytes,
            ⟨front ++ (job.bytes ++ (records jobs ++ rest)),
              front.length + job.bytes.length⟩) := by
        have split := ByteFile.read_split front job.bytes (records jobs ++ rest)
        rw [job.length_bytes] at split ⊢
        exact split
      have next := ih (front ++ job.bytes)
      rw [content, List.length_cons, Nat.add_right_comm, loadJobs, peek]
      simp only [ByteFile.seek, load]
      rw [if_neg (by rw [job.length_bytes, CronJob.size]; exact fun other => other rfl)]
      simp only [List.append_assoc, List.length_append] at next
      rw [job.length_bytes] at next ⊢
      rw [CronJob.size] at next ⊢
      rw [next, List.map_cons, List.cons_append]
      simp [records, job.length_bytes, CronJob.size, Nat.add_assoc]

/-- What has been saved in a file is loaded again. -/
theorem cronLoadVfs_cronSaveVfs {jobs : List CronJob} (few : (persistentJobs jobs).length ≤ 255)
    (old : Option (List UInt8)) :
    cronLoadVfs (cronSaveVfs (fun _ => none) jobs old).2 =
      (persistentJobs jobs).map CronJob.bytes := by
  have counted : (UInt8.ofNat (persistentJobs jobs).length).toNat =
      (persistentJobs jobs).length := by
    rw [UInt8.toNat_ofNat']
    omega
  have loaded := loadJobs_records (persistentJobs jobs) 0
    [UInt8.ofNat (persistentJobs jobs).length] []
  rw [cronSaveVfs_content, cronLoadVfs]
  simp only [List.append_nil, Nat.add_zero, loadJobs, List.cons_append, List.nil_append,
    List.length_singleton] at loaded
  simp only [ByteFile.read, List.drop_zero, List.take_succ_cons, List.take_zero,
    List.length_singleton, counted]
  exact loaded

theorem saveJobs_eq (jobs : List CronJob) (eeprom : Memory) (filesize : Nat) (savedCount : UInt8) :
    (saveJobs jobs eeprom filesize savedCount).1 =
      writeBlock eeprom filesize (records (persistentJobs jobs)) := by
  induction jobs generalizing eeprom filesize savedCount with
  | nil => simp [saveJobs, persistentJobs, records]
  | cons job jobs ih =>
      rw [saveJobs, persistentJobs_cons]
      split
      · rw [ih, ← job.length_bytes, ← writeBlock_append]
        rfl
      · exact ih eeprom filesize savedCount

theorem restoreJobs_records {eeprom : Memory} (jobs : List CronJob) {position : Nat}
    (stored : readBlock eeprom position (records jobs).length = records jobs)
    (fits : position + (records jobs).length < 2 ^ 16) :
    restoreJobs eeprom jobs.length position = jobs.map CronJob.bytes := by
  induction jobs generalizing position with
  | nil => rfl
  | cons job jobs ih =>
      have split : records (job :: jobs) = job.bytes ++ records jobs := rfl
      rw [split] at stored fits
      obtain ⟨storedFirst, storedRest⟩ := readBlock_append_iff.1 stored
      rw [List.length_append] at fits
      obtain ⟨tail, bytes⟩ := job.exists_cons
      have peek : eeprom position = job.extrasize := by
        rw [bytes, List.length_cons, readBlock_succ] at storedFirst
        exact (List.cons.inj storedFirst).1
      rw [List.length_cons, restoreJobs, peek]
      rw [job.length_bytes, CronJob.size] at storedFirst storedRest fits
      rw [storedFirst, Nat.mod_eq_of_lt (by omega), ih storedRest (by omega)]
      rfl

/-- The size that `cron_save` compares, when it fits into 16 bits. -/
theorem toNat_countJobs {jobs : List CronJob} (fits : savedSize jobs < 2 ^ 16) :
    (countJobs jobs 0 1).2.toNat = savedSize jobs := by
  unfold savedSize at fits ⊢
  have one : (1 : UInt16).toNat = 1 := rfl
  rw [countJobs_eq]
  simp only
  rw [UInt16.toNat_add, UInt16.toNat_ofNat', one]
  omega

/-- What has been saved in the EEPROM is loaded again. -/
theorem cronLoadEeprom_cronSaveEeprom {layout : EepromLayout} (chksum : Memory → UInt8)
    {jobs : List CronJob} (few : (persistentJobs jobs).length ≤ 254)
    (fits : savedSize jobs < layout.size) (eeprom : Memory) :
    cronLoadEeprom (cronSaveEeprom layout chksum jobs eeprom).2 =
      (persistentJobs jobs).map CronJob.bytes := by
  have sizeFits := layout.sizeFits
  have crcBehind := layout.crcBehind
  have total : 1 + (records (persistentJobs jobs)).length = savedSize jobs := by
    rw [length_records, savedSize]
  have count : (countJobs jobs 0 1).1 = UInt8.ofNat (persistentJobs jobs).length := by
    rw [countJobs_eq, UInt8.zero_add]
  have counted : (UInt8.ofNat (persistentJobs jobs).length).toNat =
      (persistentJobs jobs).length := by
    rw [UInt8.toNat_ofNat']
    omega
  rw [cronSaveEeprom]
  simp only
  rw [if_neg (by rw [toNat_countJobs (by omega)]; omega), saveJobs_eq, count]
  generalize chksum _ = crc
  generalize savedIs : writeBlock (writeBlock (writeBlock eeprom 0
    [UInt8.ofNat (persistentJobs jobs).length]) 1 (records (persistentJobs jobs))) layout.crc
      [crc] = saved
  have first : saved 0 = UInt8.ofNat (persistentJobs jobs).length := by
    rw [← savedIs, writeBlock_outside (by omega), writeBlock_outside (by omega),
      writeBlock_singleton, Function.update_self]
  have rest : readBlock saved 1 (records (persistentJobs jobs)).length =
      records (persistentJobs jobs) := by
    rw [← savedIs, readBlock_writeBlock_disjoint (by omega), readBlock_writeBlock_same]
  have notBogus : UInt8.ofNat (persistentJobs jobs).length ≠ 0xFF := by
    intro bogus
    have value := congrArg UInt8.toNat bogus
    rw [counted] at value
    change _ = 255 at value
    omega
  change cronLoadEeprom saved = _
  rw [cronLoadEeprom, first, if_neg notBogus]
  simp only [counted]
  exact restoreJobs_records _ rest (by omega)

/-- A list that fills the EEPROM exactly is refused. -/
theorem cronSaveEeprom_refused {layout : EepromLayout} (chksum : Memory → UInt8)
    {jobs : List CronJob} (full : savedSize jobs = layout.size) (eeprom : Memory) :
    cronSaveEeprom layout chksum jobs eeprom = (-1, eeprom) := by
  have sizeFits := layout.sizeFits
  rw [cronSaveEeprom]
  simp only
  rw [if_pos (by rw [toNat_countJobs (by omega)]; omega)]

/-- In the virtual file system the persistent jobs come back. -/
def VfsRoundTrip (jobs : List CronJob) : Prop :=
  ∀ old, cronLoadVfs (cronSaveVfs (fun _ => none) jobs old).2 =
    (persistentJobs jobs).map CronJob.bytes

/-- In the EEPROM the persistent jobs come back, whatever was there before. -/
def EepromRoundTrip (layout : EepromLayout) (chksum : Memory → UInt8) (jobs : List CronJob) :
    Prop :=
  ∀ eeprom, cronLoadEeprom (cronSaveEeprom layout chksum jobs eeprom).2 =
    (persistentJobs jobs).map CronJob.bytes

/-- Saving and loading gives back the persistent jobs, in each store that has room for
them. -/
def RoundTrip (layout : EepromLayout) (chksum : Memory → UInt8) (jobs : List CronJob) : Prop :=
  VfsRoundTrip jobs ∧ (savedSize jobs ≤ layout.size → EepromRoundTrip layout chksum jobs)

/-- A list comes back from the virtual file system, and from the EEPROM unless it fills it
exactly. -/
theorem roundTrip_iff_not_full (layout : EepromLayout) (chksum : Memory → UInt8)
    (jobs : List CronJob) (few : (persistentJobs jobs).length ≤ 254) :
    VfsRoundTrip jobs ∧ (RoundTrip layout chksum jobs ↔ savedSize jobs ≠ layout.size) := by
  have vfs : VfsRoundTrip jobs := cronLoadVfs_cronSaveVfs (by omega)
  refine ⟨vfs, ?_⟩
  constructor
  · rintro ⟨-, roundTrip⟩ full
    have eeprom := roundTrip (Nat.le_of_eq full)
    -- an empty EEPROM stays empty; one with a job keeps it
    have empty := eeprom fun _ => 0xFF
    have oneJob := eeprom fun address => if address = 0 then 1 else 0
    rw [cronSaveEeprom_refused chksum full] at empty oneJob
    have nothing : cronLoadEeprom (fun _ => 0xFF) = [] := rfl
    have something : (cronLoadEeprom fun address => if address = 0 then 1 else 0) ≠ [] := by
      decide
    exact something (oneJob.trans (empty.symm.trans nothing))
  · intro notFull
    exact ⟨vfs, fun fits => cronLoadEeprom_cronSaveEeprom chksum few (by omega)⟩

/-- A persistent job for every minute, with the command `x`. -/
def minuteJob : CronJob where
  bytes := [2, 255, 255, 255, 255, 127, 0, 34, 120, 0, 0, 0, 0]
  sized := rfl

/-- Another one, for every second hour, with the command `yz`. -/
def hourJob : CronJob where
  bytes := [3, 0, 254, 255, 255, 127, 0, 34, 121, 122, 0, 0, 0, 0]
  sized := rfl

def smallLayout : EepromLayout where
  size := 64
  crc := 64
  sizeFits := by decide
  crcBehind := by decide

theorem roundTrip_twoJobs :
    VfsRoundTrip [minuteJob, hourJob] ∧ (RoundTrip smallLayout (fun _ => 0) [minuteJob, hourJob] ↔
      savedSize [minuteJob, hourJob] ≠ smallLayout.size) :=
  roundTrip_iff_not_full smallLayout (fun _ => 0) [minuteJob, hourJob] (by decide)

/-- One job of 13 bytes fills 14 bytes of EEPROM, and is not saved. -/
theorem fullEeprom_not_saved :
    ¬ ∀ layout chksum jobs, (persistentJobs jobs).length ≤ 254 →
      RoundTrip layout chksum jobs := by
  intro always
  have trip := (always ⟨14, 14, by decide, by decide⟩ (fun _ => 0) [minuteJob] (by decide)).2
    (by decide) fun _ => 0xFF
  exact absurd trip (by decide)

end Ethersex.Cron

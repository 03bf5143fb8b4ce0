import Ethersex.EepromFileSystem

/-!
# The writes of the EEPROM file system

Creating, writing and unlinking a file are sequences of page and slice writes.
The chip keeps what was written when the power fails between two of them.  Each
sequence is computed from the chip at the start, also for a call that would not
return: then it holds what is written before the search that never ends.
-/

namespace Ethersex.Sfs

open ByteMemory

structure SliceWrite where
  page : Nat
  offset : Nat
  bytes : List UInt8
deriving DecidableEq, Repr

def applyWrite (geometry : Geometry) (chip : Chip) (write : SliceWrite) : Chip :=
  writeSlice geometry chip write.page write.offset write.bytes

def applyWrites (geometry : Geometry) (chip : Chip) (writes : List SliceWrite) : Chip :=
  writes.foldl (applyWrite geometry) chip

def clearChainWrites (geometry : Geometry) : Nat → Chip → Nat → List SliceWrite
  | 0, _, _ => []
  | fuel + 1, chip, page =>
      if page = 0 then
        []
      else
        let write : SliceWrite := ⟨page, 0, [0, 0, 0, 0]⟩
        write :: clearChainWrites geometry fuel (applyWrite geometry chip write)
          (nextPage (readPage geometry chip page))

/-- The link to the new file is written before its page. -/
def createNewWrites (geometry : Geometry) (chip : Chip) (filename : List UInt8) :
    List SliceWrite :=
  match vfsEepromFindFreePage geometry chip 0, vfsEepromFindFile geometry chip none with
  | some inode, some (lastFile, _) =>
      if inode = 0 then []
      else [⟨lastFile, 3, wordBytes inode⟩, ⟨inode, 0, filePageBytes filename 0⟩]
  | _, _ => []

def createAgainWrites (geometry : Geometry) (chip : Chip) (inode : Nat) (filename : List UInt8) :
    List SliceWrite :=
  let page := readPage geometry chip inode
  clearChainWrites geometry (geometry.pageCount + 1) chip (nextPage page) ++
    [⟨inode, 0, filePageBytes filename (nextFile page)⟩]

def createWrites (geometry : Geometry) (chip : Chip) (filename : List UInt8) :
    List SliceWrite :=
  match vfsEepromFindFile geometry chip (some filename) with
  | none => []
  | some (inode, _) =>
      if inode = 0 then createNewWrites geometry chip filename
      else createAgainWrites geometry chip inode filename

/-- A page is cleared before the chain is linked to it. -/
def appendWrites (geometry : Geometry) : Nat → Chip → Nat → List SliceWrite
  | 0, _, _ => []
  | needed + 1, chip, lastPage =>
      match vfsEepromFindFreePage geometry chip (lastPage + 1) with
      | none => []
      | some newNode =>
          if newNode = 0 then
            []
          else
            let writes : List SliceWrite :=
              [⟨newNode, 0, [magicData, 0, 0, 0]⟩, ⟨lastPage, 1, wordBytes newNode⟩]
            writes ++ appendWrites geometry needed (applyWrites geometry chip writes) newNode

def dataWrites (geometry : Geometry) : Nat → Chip → Nat → Nat → List UInt8 → List SliceWrite
  | 0, _, _, _, _ => []
  | fuel + 1, chip, page, writeOffset, data =>
      if data = [] then
        []
      else
        let copyLen := if dataSize < data.length + writeOffset then dataSize - writeOffset
          else data.length
        let next := nextPage (readPage geometry chip page)
        let writes : List SliceWrite :=
          [⟨page, 4 + writeOffset, data.take copyLen⟩,
            ⟨page, 3, [UInt8.ofNat (writeOffset + copyLen)]⟩]
        writes ++ dataWrites geometry fuel (applyWrites geometry chip writes) next 0
          (data.drop copyLen)

def writeWrites (geometry : Geometry) (chip : Chip) (handle : Handle) (data : List UInt8) :
    List SliceWrite :=
  match scanPages geometry chip (geometry.pageCount + 1)
      (nextPage (readPage geometry chip handle.filePage)) (handle.offset.toNat / dataSize) 0
      handle.filePage 0 with
  | none => []
  | some (allocated, lastPage, writePage) =>
      let writePage := if lastPage = handle.filePage then 0 else writePage
      let needed := pagesNeeded handle.offset.toNat data.length - allocated
      let appended := appendWrites geometry needed chip lastPage
      match appendPages geometry needed chip lastPage writePage with
      | some (true, chip, writePage) =>
          appended ++ dataWrites geometry data.length chip writePage
            (handle.offset.toNat % dataSize) data
      | _ => appended

def clearForUnlinkWrites (geometry : Geometry) (inode : Nat) : Nat → Chip → Nat → List SliceWrite
  | 0, _, _ => []
  | fuel + 1, chip, page =>
      if page = 0 then
        []
      else
        let write : SliceWrite := ⟨inode, 0, List.replicate pageSize 0⟩
        write :: clearForUnlinkWrites geometry inode fuel (applyWrite geometry chip write)
          (nextPage (readPage geometry chip page))

def unlinkWrites (geometry : Geometry) (chip : Chip) (filename : List UInt8) :
    List SliceWrite :=
  match vfsEepromFindFile geometry chip (some filename) with
  | none => []
  | some (inode, previous) =>
      if inode = 0 then
        []
      else
        let page := readPage geometry chip inode
        let before := writeBlock (readPage geometry chip previous) 3 (wordBytes (nextFile page))
        let writes : List SliceWrite :=
          [⟨previous, 0, readBlock before 0 pageSize⟩, ⟨inode, 0, List.replicate pageSize 0⟩]
        writes ++ clearForUnlinkWrites geometry inode (geometry.pageCount + 1)
          (applyWrites geometry chip writes) (nextPage page)

section Complete

variable {geometry : Geometry} {chip chip' : Chip}

theorem applyWrites_cons (write : SliceWrite) (writes : List SliceWrite) :
    applyWrites geometry chip (write :: writes) =
      applyWrites geometry (applyWrite geometry chip write) writes :=
  rfl

theorem applyWrites_append (first second : List SliceWrite) :
    applyWrites geometry chip (first ++ second) =
      applyWrites geometry (applyWrites geometry chip first) second :=
  List.foldl_append

theorem applyWrites_clearChain {fuel page : Nat}
    (cleared : clearChain geometry fuel chip page = some chip') :
    applyWrites geometry chip (clearChainWrites geometry fuel chip page) = chip' := by
  induction fuel generalizing chip page with
  | zero => cases cleared
  | succ fuel ih =>
      rw [clearChain] at cleared
      rw [clearChainWrites]
      split at cleared
      next zero =>
        rw [if_pos zero]
        exact Option.some.inj cleared
      next notZero =>
        rw [if_neg notZero]
        exact ih cleared

theorem applyWrites_createNew {filename : List UInt8} {result : Chip × Nat}
    (created : createNew geometry chip filename = some result) :
    applyWrites geometry chip (createNewWrites geometry chip filename) = result.1 := by
  rw [createNew, Option.bind_eq_some_iff] at created
  obtain ⟨inode, free, created⟩ := created
  rw [createNewWrites, free]
  split at created
  next zero =>
    cases Option.some.inj created
    split
    next found _ =>
      cases Option.some.inj found
      rw [if_pos zero]
      rfl
    next => rfl
  next notZero =>
    obtain ⟨⟨lastFile, previous⟩, findLast, rfl⟩ := Option.map_eq_some_iff.mp created
    rw [findLast]
    dsimp only
    rw [if_neg notZero]
    rfl

theorem applyWrites_createAgain {filename : List UInt8} {inode : Nat} {result : Chip × Nat}
    (created : createAgain geometry chip inode filename = some result) :
    applyWrites geometry chip (createAgainWrites geometry chip inode filename) = result.1 := by
  obtain ⟨cleared, clearing, rfl⟩ := Option.map_eq_some_iff.mp created
  rw [createAgainWrites, applyWrites_append, applyWrites_clearChain clearing]
  rfl

theorem applyWrites_create {filename : List UInt8} {allocated : Bool}
    {handle : Option Handle}
    (created : vfsEepromCreate geometry chip filename allocated = some (chip', handle)) :
    applyWrites geometry chip (createWrites geometry chip filename) = chip' := by
  obtain ⟨⟨_, inode⟩, fileCreated, resultEq⟩ := Option.map_eq_some_iff.mp created
  obtain ⟨rfl, _⟩ := Prod.mk.inj resultEq
  obtain ⟨⟨found, previous⟩, search, fileCreated⟩ := Option.bind_eq_some_iff.mp fileCreated
  rw [createWrites, search]
  dsimp only at fileCreated ⊢
  split at fileCreated
  next zero =>
    rw [if_pos zero]
    exact applyWrites_createNew fileCreated
  next notZero =>
    rw [if_neg notZero]
    exact applyWrites_createAgain fileCreated

theorem applyWrites_appendPages {needed lastPage writePage writePage' : Nat} {complete : Bool}
    (appended : appendPages geometry needed chip lastPage writePage =
      some (complete, chip', writePage')) :
    applyWrites geometry chip (appendWrites geometry needed chip lastPage) = chip' := by
  induction needed generalizing chip lastPage writePage with
  | zero =>
      rw [appendPages] at appended
      cases Option.some.inj appended
      rfl
  | succ needed ih =>
      obtain ⟨newNode, free, appended⟩ := Option.bind_eq_some_iff.mp appended
      rw [appendWrites, free]
      dsimp only
      split at appended
      next zero =>
        rw [if_pos zero]
        cases Option.some.inj appended
        rfl
      next notZero =>
        rw [if_neg notZero, applyWrites_append]
        exact ih appended

theorem applyWrites_writeData (fuel page writeOffset : Nat) (data : List UInt8) :
    applyWrites geometry chip (dataWrites geometry fuel chip page writeOffset data) =
      writeData geometry fuel chip page writeOffset data := by
  induction fuel generalizing chip page writeOffset data with
  | zero => rfl
  | succ fuel ih =>
      rw [dataWrites, writeData]
      split
      next => rfl
      next =>
        rw [applyWrites_append]
        exact ih _ _ _

theorem applyWrites_write {handle : Handle} {data : List UInt8} {count : Nat} {handle' : Handle}
    (written : vfsEepromWrite geometry chip handle data = some (count, chip', handle')) :
    applyWrites geometry chip (writeWrites geometry chip handle data) = chip' := by
  obtain ⟨⟨allocated, lastPage, writePage⟩, scan, written⟩ := Option.bind_eq_some_iff.mp written
  obtain ⟨⟨complete, extended, firstPage⟩, appended, resultEq⟩ :=
    Option.map_eq_some_iff.mp written
  rw [writeWrites, scan]
  dsimp only at resultEq ⊢
  rw [appended]
  cases complete with
  | false =>
      cases resultEq
      exact applyWrites_appendPages appended
  | true =>
      cases resultEq
      dsimp only
      rw [applyWrites_append, applyWrites_appendPages appended]
      exact applyWrites_writeData _ _ _ _

theorem applyWrites_clearForUnlink {inode fuel page : Nat}
    (cleared : clearForUnlink geometry inode fuel chip page = some chip') :
    applyWrites geometry chip (clearForUnlinkWrites geometry inode fuel chip page) = chip' := by
  induction fuel generalizing chip page with
  | zero => cases cleared
  | succ fuel ih =>
      rw [clearForUnlink] at cleared
      rw [clearForUnlinkWrites]
      split at cleared
      next zero =>
        rw [if_pos zero]
        exact Option.some.inj cleared
      next notZero =>
        rw [if_neg notZero]
        exact ih cleared

theorem applyWrites_unlink {filename : List UInt8} {status : Nat}
    (unlinked : vfsEepromUnlink geometry chip filename = some (status, chip')) :
    applyWrites geometry chip (unlinkWrites geometry chip filename) = chip' := by
  obtain ⟨⟨inode, previous⟩, search, unlinked⟩ := Option.bind_eq_some_iff.mp unlinked
  rw [unlinkWrites, search]
  dsimp only at unlinked ⊢
  split at unlinked
  next zero =>
    rw [if_pos zero]
    cases Option.some.inj unlinked
    rfl
  next notZero =>
    rw [if_neg notZero, applyWrites_append]
    obtain ⟨cleared, clearing, resultEq⟩ := Option.map_eq_some_iff.mp unlinked
    obtain ⟨_, rfl⟩ := Prod.mk.inj resultEq
    exact applyWrites_clearForUnlink clearing

end Complete

/-- A call that changes one file. -/
inductive FileOperation where
  | create (filename : List UInt8)
  | write (handle : Handle) (data : Buffer)
  | unlink (filename : List UInt8)

def FileOperation.writes (geometry : Geometry) (chip : Chip) : FileOperation → List SliceWrite
  | .create filename => createWrites geometry chip filename
  | .write handle data => writeWrites geometry chip handle data.bytes
  | .unlink filename => unlinkWrites geometry chip filename

/-- The chip after the call. -/
def FileOperation.perform (geometry : Geometry) (chip : Chip) : FileOperation → Option Chip
  | .create filename => (vfsEepromCreate geometry chip filename true).map Prod.fst
  | .write handle data =>
      (vfsEepromWrite geometry chip handle data.bytes).map fun result => result.2.1
  | .unlink filename => (vfsEepromUnlink geometry chip filename).map Prod.snd

/-- A call that returns has done all of its writes, and nothing else. -/
theorem FileOperation.perform_eq {geometry : Geometry} {chip chip' : Chip}
    {operation : FileOperation} (performed : operation.perform geometry chip = some chip') :
    applyWrites geometry chip (operation.writes geometry chip) = chip' := by
  cases operation with
  | create filename =>
      obtain ⟨⟨_, handle⟩, created, rfl⟩ := Option.map_eq_some_iff.mp performed
      exact applyWrites_create created
  | write handle data =>
      obtain ⟨⟨count, _, handle'⟩, written, rfl⟩ := Option.map_eq_some_iff.mp performed
      exact applyWrites_write written
  | unlink filename =>
      obtain ⟨⟨status, _⟩, unlinked, rfl⟩ := Option.map_eq_some_iff.mp performed
      exact applyWrites_unlink unlinked

/-- The chip after the reboot, when only the first writes of a call were done. -/
def afterPowerLoss (geometry : Geometry) (chip : Chip) (operation : FileOperation)
    (count : Nat) : Chip :=
  vfsEepromInit geometry (applyWrites geometry chip ((operation.writes geometry chip).take count))

/-- Any number of files with new names, which cannot be opened before. -/
inductive CreatesNew (geometry : Geometry) (first : Chip) : Chip → Prop
  | refl : CreatesNew geometry first first
  | step {chip chip' : Chip} {filename : List UInt8} {allocated : Bool} {handle : Option Handle} :
      CreatesNew geometry first chip →
      vfsEepromOpen geometry chip filename true = some none →
      vfsEepromCreate geometry chip filename allocated = some (chip', handle) →
      CreatesNew geometry first chip'

end Ethersex.Sfs

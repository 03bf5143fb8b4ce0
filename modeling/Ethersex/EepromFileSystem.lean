import Ethersex.ByteMemory

/-!
# The file system on the I2C EEPROM

`hardware/i2c/master/vfs_eeprom.c` divides the chip into pages.  Page 0 is the
superblock; a file is a page with its name, linked to the next file and to a
chain of data pages.  The chip is as large as the file system, and addresses
behind its end wrap.  Every transfer succeeds.  A function that would not
return has no result.
-/

namespace Ethersex.Sfs

open ByteMemory

def pageSize : Nat := 64
def dataSize : Nat := 60
def filenameSize : Nat := 58

def magicSuperblock : UInt8 := 0x05
def magicFile : UInt8 := 0x23
def magicData : UInt8 := 0x42
def sfsVersion : UInt8 := 0

/-- The number of pages, `SFS_PAGE_COUNT`; page addresses have 16 bits. -/
structure Geometry where
  pageCount : Nat
  pageCount_pos : 0 < pageCount
  pageCount_le : pageCount ≤ 1024
deriving DecidableEq, Repr

abbrev Chip := Nat → Memory

/-- The page that an address computed from a page number falls into. -/
def Geometry.pageIndex (geometry : Geometry) (page : Nat) : Nat :=
  page % 1024 % geometry.pageCount

def readPage (geometry : Geometry) (chip : Chip) (page : Nat) : Memory :=
  chip (geometry.pageIndex page)

def writeSlice (geometry : Geometry) (chip : Chip) (page offset : Nat) (bytes : List UInt8) :
    Chip :=
  Function.update chip (geometry.pageIndex page)
    (writeBlock (readPage geometry chip page) offset bytes)

def readWord (page : Memory) (offset : Nat) : Nat :=
  (page offset).toNat + 256 * (page (offset + 1)).toNat

def wordBytes (value : Nat) : List UInt8 :=
  [UInt8.ofNat value, UInt8.ofNat (value / 256)]

def pageMagic (page : Memory) : UInt8 := page 0
def nextPage (page : Memory) : Nat := readWord page 1
def nextFile (page : Memory) : Nat := readWord page 3
def pageLen (page : Memory) : Nat := (page 3).toNat

/-- `strcpy` from a page: the name ends at its first zero byte. -/
def cString (bytes : List UInt8) : List UInt8 := bytes.takeWhile fun byte => byte != 0

def storedName (page : Memory) : List UInt8 :=
  cString (readBlock page 5 (filenameSize + 1))

def superblockBytes : List UInt8 :=
  [magicSuperblock, 0, 0, 0, 0, 0xad, 0xde, 0xef, 0xbe, sfsVersion]

def isFormatted (page : Memory) : Bool :=
  pageMagic page == magicSuperblock && readWord page 5 == 0xdead && readWord page 7 == 0xbeef &&
    page 9 == sfsVersion

def clearPages (geometry : Geometry) (chip : Chip) (count : Nat) : Chip :=
  (List.range' 1 (count - 1)).foldl (fun chip page => writeSlice geometry chip page 0 [0]) chip

def vfsEepromInit (geometry : Geometry) (chip : Chip) : Chip :=
  if isFormatted (readPage geometry chip 0) then
    chip
  else
    clearPages geometry (writeSlice geometry chip 0 0 superblockBytes) geometry.pageCount

def isFreeMagic (magic : UInt8) : Bool :=
  magic != magicSuperblock && magic != magicFile && magic != magicData

def Geometry.following (geometry : Geometry) (page : Nat) : Nat :=
  if geometry.pageCount ≤ page + 1 then 0 else page + 1

def findFreeFrom (geometry : Geometry) (chip : Chip) (suggested : Nat) : Nat → Nat → Option Nat
  | 0, _ => none
  | fuel + 1, page =>
      if isFreeMagic (pageMagic (readPage geometry chip page)) then
        some page
      else if geometry.following page = suggested then
        some 0
      else
        findFreeFrom geometry chip suggested fuel (geometry.following page)

/-- The search comes back to the suggested page after one round, unless that is
behind the last page: then it does not end when no page is free. -/
def vfsEepromFindFreePage (geometry : Geometry) (chip : Chip) (suggested : Nat) : Option Nat :=
  findFreeFrom geometry chip suggested (geometry.pageCount + 1) suggested

/-- Is the search over at this file? -/
def isSought (page : Memory) : Option (List UInt8) → Bool
  | some filename => storedName page == cString filename
  | none => nextFile page == 0

def findFileFrom (geometry : Geometry) (chip : Chip) (filename : Option (List UInt8)) :
    Nat → Nat → Nat → Option (Nat × Nat)
  | 0, _, _ => none
  | fuel + 1, inode, previous =>
      if inode = 0 then
        some (0, previous)
      else
        let page := readPage geometry chip inode
        if pageMagic page ≠ magicFile then some (0, previous)
        else if isSought page filename then some (inode, previous)
        else findFileFrom geometry chip filename fuel (nextFile page) inode

/-- The page of a file, or of the last file without a name, and the page before
it on the list.  A walk of more steps than there are pages never ends. -/
def vfsEepromFindFile (geometry : Geometry) (chip : Chip) (filename : Option (List UInt8)) :
    Option (Nat × Nat) :=
  findFileFrom geometry chip filename (geometry.pageCount + 1)
    (nextFile (readPage geometry chip 0)) 0

structure Handle where
  filePage : Nat
  offset : UInt16
deriving DecidableEq, Repr

/-- Free the data pages of a chain. -/
def clearChain (geometry : Geometry) : Nat → Chip → Nat → Option Chip
  | 0, _, _ => none
  | fuel + 1, chip, page =>
      if page = 0 then
        some chip
      else
        clearChain geometry fuel (writeSlice geometry chip page 0 [0, 0, 0, 0])
          (nextPage (readPage geometry chip page))

/-- A file page without data: `strncpy` pads the name with zeros. -/
def filePageBytes (filename : List UInt8) (next : Nat) : List UInt8 :=
  [magicFile, 0, 0] ++ wordBytes next ++
    ((cString filename).take filenameSize ++ List.replicate (filenameSize + 1) 0).take
      (filenameSize + 1)

def createNew (geometry : Geometry) (chip : Chip) (filename : List UInt8) :
    Option (Chip × Nat) :=
  (vfsEepromFindFreePage geometry chip 0).bind fun inode =>
    if inode = 0 then
      some (chip, 0)
    else
      (vfsEepromFindFile geometry chip none).map fun (lastFile, _) =>
        let chip := writeSlice geometry chip lastFile 3 (wordBytes inode)
        (writeSlice geometry chip inode 0 (filePageBytes filename 0), inode)

def createAgain (geometry : Geometry) (chip : Chip) (inode : Nat) (filename : List UInt8) :
    Option (Chip × Nat) :=
  let page := readPage geometry chip inode
  (clearChain geometry (geometry.pageCount + 1) chip (nextPage page)).map fun chip =>
    (writeSlice geometry chip inode 0 (filePageBytes filename (nextFile page)), inode)

/-- The chip and the inode, which is zero when no page is left. -/
def createFile (geometry : Geometry) (chip : Chip) (filename : List UInt8) :
    Option (Chip × Nat) :=
  (vfsEepromFindFile geometry chip (some filename)).bind fun (inode, _) =>
    if inode = 0 then createNew geometry chip filename
    else createAgain geometry chip inode filename

/-- A new handle for an inode, or `NULL` when there is none or `malloc` fails. -/
def newHandle (inode : Nat) (allocated : Bool) : Option Handle :=
  if inode ≠ 0 ∧ allocated then some ⟨inode, 0⟩ else none

def vfsEepromCreate (geometry : Geometry) (chip : Chip) (filename : List UInt8)
    (allocated : Bool) : Option (Chip × Option Handle) :=
  (createFile geometry chip filename).map fun (chip, inode) =>
    (chip, newHandle inode allocated)

def vfsEepromOpen (geometry : Geometry) (chip : Chip) (filename : List UInt8)
    (allocated : Bool) : Option (Option Handle) :=
  (vfsEepromFindFile geometry chip (some filename)).map fun (inode, _) =>
    newHandle inode allocated

/-- Add up the lengths of the pages, up to the first page that is not full. -/
def fileSizeFrom (geometry : Geometry) (chip : Chip) : Nat → Nat → Nat → Option Nat
  | 0, _, _ => none
  | fuel + 1, page, size =>
      if page = 0 then
        some size
      else
        let content := readPage geometry chip page
        let size := size + pageLen content
        if pageLen content < dataSize then some size
        else fileSizeFrom geometry chip fuel (nextPage content) size

def vfsEepromFilesize (geometry : Geometry) (chip : Chip) (handle : Handle) : Option Nat :=
  fileSizeFrom geometry chip (geometry.pageCount + 1)
    (nextPage (readPage geometry chip handle.filePage)) 0

def skipPages (geometry : Geometry) (chip : Chip) : Nat → Nat → Nat
  | 0, page => page
  | count + 1, page => skipPages geometry chip count (nextPage (readPage geometry chip page))

/-- The bytes to be copied from a page, as an 8-bit number, and whether the end
of the file is reached. -/
def copyFromPage (page : Memory) (pageOffset wanted : Nat) : Nat × Bool :=
  let toBeCopied := if wanted < dataSize then wanted else dataSize
  if pageLen page < pageOffset + toBeCopied then
    ((pageLen page + 256 - pageOffset) % 256, pageOffset == 0)
  else
    (toBeCopied, false)

def readData (geometry : Geometry) (chip : Chip) :
    Nat → Nat → Nat → Nat → List UInt8 → Option (List UInt8 × Nat)
  | 0, _, _, _, _ => none
  | fuel + 1, page, offset, size, copied =>
      if copied.length < size then
        let content := readPage geometry chip page
        if pageMagic content ≠ magicData then
          some ([], offset)
        else
          let pageOffset := offset % dataSize
          let (count, eof) := copyFromPage content pageOffset (size - copied.length)
          let copied := copied ++ readBlock content (4 + pageOffset) count
          let offset := (offset + count) % 65536
          if eof then some (copied, offset)
          else readData geometry chip fuel (nextPage content) offset size copied
      else
        some (copied, offset)

/-- The bytes returned, and the handle with its new offset. -/
def vfsEepromRead (geometry : Geometry) (chip : Chip) (handle : Handle) (size : Nat) :
    Option (List UInt8 × Handle) :=
  let first := nextPage (readPage geometry chip handle.filePage)
  let start := skipPages geometry chip (handle.offset.toNat / dataSize) first
  (readData geometry chip (geometry.pageCount + size + 1) start handle.offset.toNat size []).map
    fun (copied, offset) => (copied, { handle with offset := UInt16.ofNat offset })

/-- Walk to the end of the chain: the number of pages, the last page, and the
first page to write to (zero when there is none yet). -/
def scanPages (geometry : Geometry) (chip : Chip) :
    Nat → Nat → Nat → Nat → Nat → Nat → Option (Nat × Nat × Nat)
  | 0, _, _, _, _, _ => none
  | fuel + 1, page, skip, allocated, lastPage, writePage =>
      if page = 0 then
        some (allocated, lastPage, writePage)
      else
        let content := readPage geometry chip page
        let found := writePage = 0 ∧ (skip = 0 ∨ pageLen content < dataSize)
        scanPages geometry chip fuel (nextPage content)
          (if writePage = 0 then skip - 1 else skip) (allocated + 1) page
          (if found then page else writePage)

/-- Append pages to the chain.  The flag is cleared when there is no free page
left; the pages appended so far stay. -/
def appendPages (geometry : Geometry) : Nat → Chip → Nat → Nat → Option (Bool × Chip × Nat)
  | 0, chip, _, writePage => some (true, chip, writePage)
  | needed + 1, chip, lastPage, writePage =>
      (vfsEepromFindFreePage geometry chip (lastPage + 1)).bind fun newNode =>
        if newNode = 0 then
          some (false, chip, writePage)
        else
          let chip := writeSlice geometry chip newNode 0 [magicData, 0, 0, 0]
          let chip := writeSlice geometry chip lastPage 1 (wordBytes newNode)
          appendPages geometry needed chip newNode (if writePage = 0 then newNode else writePage)

/-- The last loop of `vfs_eeprom_write`; every round takes at least one byte. -/
def writeData (geometry : Geometry) : Nat → Chip → Nat → Nat → List UInt8 → Chip
  | 0, chip, _, _, _ => chip
  | fuel + 1, chip, page, writeOffset, data =>
      if data = [] then
        chip
      else
        let copyLen := if dataSize < data.length + writeOffset then dataSize - writeOffset
          else data.length
        let next := nextPage (readPage geometry chip page)
        let chip := writeSlice geometry chip page (4 + writeOffset) (data.take copyLen)
        let chip := writeSlice geometry chip page 3 [UInt8.ofNat (writeOffset + copyLen)]
        writeData geometry fuel chip next 0 (data.drop copyLen)

/-- The number of pages that an offset and a length ask for. -/
def pagesNeeded (offset length : Nat) : Nat :=
  ((offset + length) / dataSize + 1) % 65536

/-- Write a buffer; the result is the number of bytes written, the chip and the
handle. -/
def vfsEepromWrite (geometry : Geometry) (chip : Chip) (handle : Handle) (data : List UInt8) :
    Option (Nat × Chip × Handle) :=
  (scanPages geometry chip (geometry.pageCount + 1)
      (nextPage (readPage geometry chip handle.filePage)) (handle.offset.toNat / dataSize) 0
      handle.filePage 0).bind fun (allocated, lastPage, writePage) =>
    let writePage := if lastPage = handle.filePage then 0 else writePage
    (appendPages geometry (pagesNeeded handle.offset.toNat data.length - allocated) chip
        lastPage writePage).map fun (complete, chip, writePage) =>
      if complete then
        (data.length,
          writeData geometry data.length chip writePage (handle.offset.toNat % dataSize) data,
          { handle with offset := handle.offset + UInt16.ofNat data.length })
      else
        (0, chip, handle)

/-- The loop that should free the data pages clears the file page instead. -/
def clearForUnlink (geometry : Geometry) (inode : Nat) : Nat → Chip → Nat → Option Chip
  | 0, _, _ => none
  | fuel + 1, chip, page =>
      if page = 0 then
        some chip
      else
        clearForUnlink geometry inode fuel
          (writeSlice geometry chip inode 0 (List.replicate pageSize 0))
          (nextPage (readPage geometry chip page))

/-- The chip and the result, which is one for a file that does not exist. -/
def vfsEepromUnlink (geometry : Geometry) (chip : Chip) (filename : List UInt8) :
    Option (Nat × Chip) :=
  (vfsEepromFindFile geometry chip (some filename)).bind fun (inode, previous) =>
    if inode = 0 then
      some (1, chip)
    else
      let page := readPage geometry chip inode
      let before := writeBlock (readPage geometry chip previous) 3 (wordBytes (nextFile page))
      let chip := writeSlice geometry chip previous 0 (readBlock before 0 pageSize)
      let chip := writeSlice geometry chip inode 0 (List.replicate pageSize 0)
      (clearForUnlink geometry inode (geometry.pageCount + 1) chip (nextPage page)).map
        fun chip => (0, chip)

/-- A buffer in the 16-bit address space. -/
structure Buffer where
  bytes : List UInt8
  short : bytes.length < 65536

structure SfsState where
  chip : Chip
  handles : Nat → Option Handle

inductive SfsStep where
  | create (filename : List UInt8) (slot : Nat) (allocated : Bool)
  | openFile (filename : List UInt8) (slot : Nat) (allocated : Bool)
  | close (slot : Nat)
  | read (slot : Nat) (size : Nat)
  | write (slot : Nat) (data : Buffer)
  | unlink (filename : List UInt8)

def SfsState.setHandle (state : SfsState) (slot : Nat) (handle : Option Handle) : SfsState :=
  { state with handles := Function.update state.handles slot handle }

/-- One call of the file system.  Reading and writing through `NULL` does
nothing. -/
def sfsStep (geometry : Geometry) (state : SfsState) : SfsStep → Option SfsState
  | .create filename slot allocated =>
      (vfsEepromCreate geometry state.chip filename allocated).map fun (chip, handle) =>
        { state with chip := chip }.setHandle slot handle
  | .openFile filename slot allocated =>
      (vfsEepromOpen geometry state.chip filename allocated).map fun handle =>
        state.setHandle slot handle
  | .close slot => some (state.setHandle slot none)
  | .read slot size =>
      match state.handles slot with
      | none => some state
      | some handle =>
          (vfsEepromRead geometry state.chip handle size).map fun (_, handle) =>
            state.setHandle slot (some handle)
  | .write slot data =>
      match state.handles slot with
      | none => some state
      | some handle =>
          (vfsEepromWrite geometry state.chip handle data.bytes).map fun (_, chip, handle) =>
            { state with chip := chip }.setHandle slot (some handle)
  | .unlink filename =>
      (vfsEepromUnlink geometry state.chip filename).map fun (_, chip) =>
        { state with chip := chip }

end Ethersex.Sfs

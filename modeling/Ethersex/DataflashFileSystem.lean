import Ethersex.DataflashChip

/-!
# The file system on the dataflash

`hardware/storage/dataflash/fs.c` keeps its data in whole pages and never
rewrites a page in place.  The root page holds a version, the pages of the
sixteen inode tables and the directory.  A table maps 256 inodes to data pages,
and a data page names the inode its file goes on with.  Buffer 2 of the chip
holds a bitmap of the pages that were free when the file system was mounted.

Memory allocation succeeds.  A function that would not return has no result.
-/

namespace Ethersex.Dataflash

open ByteMemory

inductive Status
  | ok
  | noSuchFile
  | eof
  | badPage
  | badInode
  | duplicate
  | mem
  | badSeek
  | minusOne
deriving DecidableEq, Repr

/-- The structure at the beginning of a page. -/
def Volume.header (volume : Volume) (page : Nat) : PageHeader :=
  PageHeader.decode (dfFlashRead volume page 0 4)

/-- An entry of the directory; the node table starts at byte 40 of the root. -/
def Volume.node (volume : Volume) (index : Nat) : DirectoryNode :=
  DirectoryNode.decode (dfFlashRead volume volume.root (40 + 8 * index) 8)

/-- The page of an inode table; the pointers start at byte 8 of the root. -/
def fsInodetable (volume : Volume) (tableId : Nat) : Nat :=
  wordAt (dfFlashRead volume volume.root (8 + 2 * tableId) 2) 0

/-- An entry of an inode table; the entries start at byte 15 of the table. -/
def tableNode (volume : Volume) (table entry : Nat) : TableNode :=
  TableNode.decode (dfFlashRead volume table (15 + 2 * entry) 2)

/-- The page an inode points to, or `0xffff`. -/
def fsPage (volume : Volume) (inode : Nat) : Nat :=
  let node := tableNode volume (fsInodetable volume (inode / 256)) (inode % 256)
  if node.unused then 0xffff else node.page

/-- The lowest unused inode, or `0xffff`. -/
def fsNewInode (volume : Volume) : Nat :=
  ((List.range 16).findSome? fun tableId =>
    let table := fsInodetable volume tableId
    (List.range 256).findSome? fun entry =>
      if (tableNode volume table entry).unused then some (tableId * 256 + entry) else none).getD
    0xffff

def sizeFrom (volume : Volume) : Nat → Nat → Nat → Option Nat
  | 0, _, _ => none
  | fuel + 1, inode, size =>
      let page := fsPage volume inode
      if page = 0xffff then
        some 0
      else
        let header := volume.header page
        if header.eof then some (size + header.size)
        else sizeFrom volume fuel header.nextInode (size + header.size)

/-- A walk of more steps than there are inodes never ends. -/
def fsSize (volume : Volume) (inode : Nat) : Option Nat :=
  sizeFrom volume 4097 inode 0

def bitmapByte (fs : Fs) (page : Nat) : UInt8 :=
  (dfBufRead fs .buf2 (page / 8) 1).getD 0 0

def fsMark (fs : Fs) (page : Nat) (isFree : Bool) : Fs :=
  let byte := bitmapByte fs page
  let bit : UInt8 := 1 <<< UInt8.ofNat (page % 8)
  dfBufWrite fs .buf2 [if isFree then byte ||| bit else byte &&& ~~~bit] (page / 8)

def fsMarkUsed (fs : Fs) (page : Nat) : Fs := fsMark fs page false

def fsUsed (fs : Fs) (page : Nat) : Bool :=
  bitmapByte fs page &&& (1 <<< UInt8.ofNat (page % 8)) == 0

def searchPage (fs : Fs) : Nat → Nat → Nat
  | 0, page => page
  | fuel + 1, page =>
      if fsUsed fs page ∧ page ≠ fs.lastFree then
        searchPage fs fuel ((page + 1) % 4096)
      else
        page

def handOut (fs : Fs) (page : Nat) : Fs :=
  { fs with
    lastFree := page
    handouts := fs.handouts ++ [⟨page, fs.toVolume⟩] }

/-- The search comes back to the page it started behind after one round.  It
reads the bitmap but does not change it. -/
def fsNewPage (fs : Fs) : Nat × Fs :=
  let page := searchPage fs 4096 ((fs.lastFree + 1) % 4096)
  if page = fs.lastFree then (0xffff, fs) else (page, handOut fs page)

def fsCrc (fs : Fs) (buffer : Buffer) (offset length : Nat) : UInt8 :=
  (dfBufRead fs buffer offset length).foldl crcIbuttonUpdate 0

/-- The checksum is the last byte of the page. -/
def writeCrc (fs : Fs) : Fs :=
  dfBufWrite fs .buf1 [fsCrc fs .buf1 0 527] 527

/-- `root->version = version` in the bytes of a root structure. -/
def setVersion (root : List UInt8) (version : Nat) : List UInt8 :=
  root.take 4 ++ versionBytes version ++ root.drop 8

def countVersion (fs : Fs) : Fs :=
  { fs with version := (fs.version + 1) % 4294967296 }

def stampRoot (fs : Fs) : Fs :=
  writeCrc (dfBufWrite (countVersion fs) .buf1
    (setVersion (dfBufRead fs .buf1 0 40) (countVersion fs).version) 0)

def saveRoot (fs : Fs) (page : Nat) : Fs :=
  { dfBufSave fs .buf1 page with root := page }

def fsIncrement (fs : Fs) : Status × Fs :=
  let (page, fs) := fsNewPage (stampRoot fs)
  if page = 0xffff then (.badPage, fs) else (.ok, saveRoot fs page)

/-- The new entry; allocated memory supplies the fields that are not assigned. -/
def newTableNode (garbage : List UInt8) (page : Nat) : TableNode :=
  if page = 0xffff then
    { TableNode.decode garbage with unused := true }
  else
    { TableNode.decode garbage with unused := false, page := page % 4096 }

def saveInodetable (fs : Fs) (inode page newPage : Nat) : Fs :=
  let (garbage, fs) := fs.uninitialised 2
  let fs := dfBufLoad fs .buf1 (fsInodetable fs.toVolume (inode / 256))
  let fs := dfBufWrite fs .buf1 (newTableNode garbage page).encode (15 + inode % 256 * 2)
  dfBufSave fs .buf1 newPage

/-- The current root with another page for one of its tables. -/
def loadRootWithTable (fs : Fs) (tableId newPage : Nat) : Fs :=
  dfBufWrite (dfBufLoad fs .buf1 fs.root) .buf1 (wordBytes newPage) (8 + tableId * 2)

def fsUpdateInodetable (fs : Fs) (inode page : Nat) : Status × Fs :=
  let (newPage, fs) := fsNewPage fs
  if newPage = 0xffff then
    (.badPage, fs)
  else
    fsIncrement (loadRootWithTable (saveInodetable fs inode page newPage) (inode / 256) newPage)

/-- Follow the chain to the page the offset is in.  An offset behind the last
page has no result. -/
def writeSeek (volume : Volume) : Nat → Nat → Nat → Nat → Option (Nat × Nat × Nat)
  | 0, inode, page, offset => some (inode, page, offset)
  | fuel + 1, inode, page, offset =>
      if 512 < offset then
        let header := volume.header page
        if header.eof then none
        else writeSeek volume fuel header.nextInode (fsPage volume header.nextInode) (offset - 512)
      else
        some (inode, page, offset)

def bufferHeader (fs : Fs) : PageHeader :=
  PageHeader.decode (dfBufRead fs .buf1 0 4)

/-- Write the structure and data into buffer 1 and program a page with it. -/
def savePage (fs : Fs) (header : PageHeader) (data : List UInt8) (offset pagenum : Nat) : Fs :=
  dfBufSave (dfBufWrite (dfBufWrite fs .buf1 header.encode 0) .buf1 data (15 + offset))
    .buf1 pagenum

def continuedHeader (header : PageHeader) (nextInode : Nat) : PageHeader :=
  { header with
    unused := false
    eof := false
    root := false
    size := 512
    nextInode := nextInode }

def lastHeader (header : PageHeader) (eof : Bool) (fill : Nat) : PageHeader :=
  { header with
    unused := false
    eof := header.eof || eof
    root := false
    size := if eof ∨ header.size < fill then fill else header.size }

/-- A free page, and the inode table updated to point to it. -/
def claimPage (fs : Fs) (inode : Nat) : Status × Nat × Fs :=
  let (pagenum, fs) := fsNewPage fs
  if pagenum = 0xffff then
    (.badPage, pagenum, fs)
  else
    let (status, fs) := fsUpdateInodetable fs inode pagenum
    (status, pagenum, fs)

/-- The loop over the pages of an existing file.  `buf` is the caller's pointer
in every round. -/
def writeExisting (buf : List UInt8) : Nat → Fs → Nat → Nat → Bool → Nat → Nat → Status × Fs
  | 0, fs, _, _, _, _, _ => (.ok, fs)
  | fuel + 1, fs, inode, oldPage, eof, offset, length =>
      let (status, pagenum, fs) := claimPage fs inode
      if status ≠ .ok then
        (status, fs)
      else
        let fs := dfBufLoad fs .buf1 oldPage
        let header := bufferHeader fs
        if 512 < length + offset then
          let nextInode := fsNewInode fs.toVolume % 4096
          let nextPage := if header.eof then oldPage else fsPage fs.toVolume header.nextInode
          if nextInode = 0xffff then
            (.badInode, fs)
          else
            let fs := savePage fs (continuedHeader header nextInode) (buf.take (512 - offset))
              offset pagenum
            writeExisting buf fuel fs nextInode nextPage (eof || header.eof) 0
              (length - (512 - offset))
        else
          (.ok, savePage fs (lastHeader header eof (length + offset)) (buf.take length) offset
            pagenum)

/-- The loop over the pages of a file without content.  The variable `page` of
the source keeps its fields from one round to the next. -/
def writeFresh (buf : List UInt8) : Nat → Fs → Nat → PageHeader → Nat → Status × Fs
  | 0, fs, _, _, _ => (.ok, fs)
  | fuel + 1, fs, inode, page, length =>
      let (status, pagenum, fs) := claimPage fs inode
      if status ≠ .ok then
        (status, fs)
      else if 512 < length then
        let nextInode := fsNewInode fs.toVolume % 4096
        if nextInode = 0xffff then
          (.badInode, fs)
        else
          let page := continuedHeader page nextInode
          writeFresh buf fuel (savePage fs page (buf.take 512) 0 pagenum) nextInode page
            (length - 512)
      else
        (.ok, savePage fs { page with eof := true, size := length, root := false }
          (buf.take length) 0 pagenum)

def fsWrite (fs : Fs) (inode : Nat) (buf : List UInt8) (offset : Nat) : Status × Fs :=
  let pagenum := fsPage fs.toVolume inode
  if pagenum ≠ 0xffff then
    match writeSeek fs.toVolume (offset + 1) inode pagenum offset with
    | none => (.badSeek, fs)
    | some (inode, oldPage, offset) =>
        writeExisting buf (buf.length + 2) fs inode oldPage false offset buf.length
  else if offset ≠ 0 then
    (.badSeek, fs)
  else
    let (garbage, fs) := fs.uninitialised 4
    writeFresh buf (buf.length + 1) fs inode
      { PageHeader.decode garbage with unused := false, root := false } buf.length

def truncateSeek (volume : Volume) : Nat → Nat → Nat → Nat → Except Status (Nat × Nat × Nat)
  | 0, inode, page, length => .ok (inode, page, length)
  | fuel + 1, inode, page, length =>
      if 512 < length then
        let header := volume.header page
        if header.eof then .error .badSeek
        else
          let next := fsPage volume header.nextInode
          if next = 0xffff then .error .minusOne
          else truncateSeek volume fuel header.nextInode next (length - 512)
      else
        .ok (inode, page, length)

/-- Only the page the new end is in is rewritten. -/
def truncatePage (fs : Fs) (inode pagenum length : Nat) : Status × Fs :=
  let (status, newPage, fs) := claimPage fs inode
  if status ≠ .ok then
    (status, fs)
  else
    let fs := dfBufLoad fs .buf1 pagenum
    let header := fs.header pagenum
    (.ok, savePage fs { header with size := length, eof := true } [] 0 newPage)

def fsTruncate (fs : Fs) (inode length : Nat) : Status × Fs :=
  let pagenum := fsPage fs.toVolume inode
  if pagenum = 0xffff then
    (.ok, fs)
  else
    match truncateSeek fs.toVolume (length + 1) inode pagenum length with
    | .error status => (status, fs)
    | .ok (inode, pagenum, length) =>
        if (fs.header pagenum).size < length then (.badSeek, fs)
        else if length = (fs.header pagenum).size then (.ok, fs)
        else truncatePage fs inode pagenum length

/-- `strncmp` of two strings that end at their first zero byte. -/
def strncmp : Nat → List UInt8 → List UInt8 → Ordering
  | 0, _, _ => .eq
  | count + 1, first, second =>
      if first.headD 0 < second.headD 0 then .lt
      else if second.headD 0 < first.headD 0 then .gt
      else if first.headD 0 = 0 then .eq
      else strncmp count first.tail second.tail

def strncpyBytes : Nat → List UInt8 → List UInt8
  | 0, _ => []
  | count + 1, [] => 0 :: strncpyBytes count []
  | count + 1, byte :: bytes =>
      byte :: strncpyBytes count (if byte = 0 then [] else bytes)

theorem length_strncpyBytes (count : Nat) (name : List UInt8) :
    (strncpyBytes count name).length = count := by
  induction count generalizing name with
  | zero => rfl
  | succ count ih => cases name <;> simp [strncpyBytes, ih]

/-- `strncpy` into the name of a node. -/
def strncpy (name : List UInt8) : FileName :=
  ⟨strncpyBytes 6 name, length_strncpyBytes 6 name⟩

inductive Place
  | duplicate
  | at (index max : Nat)
deriving DecidableEq, Repr

/-- The place of a new name.  Nodes repeat after 66 steps, at the end of the
page. -/
def findPlace (volume : Volume) (name : List UInt8) : Nat → Nat → Nat → Option Place
  | 0, _, _ => none
  | fuel + 1, index, i =>
      let node := volume.node i
      if node.unused then some (.at index i)
      else
        match strncmp 6 node.name.val name with
        | .eq => some .duplicate
        | .lt => findPlace volume name fuel (index + 1) (i + 1)
        | .gt => findPlace volume name fuel index (i + 1)

def writeNode (fs : Fs) (node : DirectoryNode) (index : Nat) : Fs :=
  dfBufWrite fs .buf1 node.encode (40 + index * 8)

/-- Copy the nodes from `index` up to `max` one place up. -/
def shiftUp (fs : Fs) (index max : Nat) : Fs :=
  (List.range' index (max - index)).foldl
    (fun fs index => writeNode fs (fs.node index) (index + 1)) fs

def insertNode (fs : Fs) (node : DirectoryNode) (index max : Nat) : Fs :=
  shiftUp (writeNode (dfBufLoad fs .buf1 fs.root) node index) index max

def fsCreate (fs : Fs) (name : List UInt8) : Option (Status × Fs) :=
  (findPlace fs.toVolume name 66 0 0).map fun place =>
    match place with
    | .duplicate => (.duplicate, fs)
    | .at index max =>
        let node : DirectoryNode :=
          { fs.node max with
            name := strncpy name
            unused := false
            file := true
            inode := fsNewInode fs.toVolume % 4096 }
        if node.inode = 0xffff then (.badInode, fs)
        else fsIncrement (insertNode fs node index max)

structure Found where
  index : Nat
  inode : Nat
  max : Nat
deriving DecidableEq, Repr

/-- The last node with this name, and the end of the directory. -/
def findName (volume : Volume) (name : List UInt8) : Nat → Nat → Nat → Nat → Option Found
  | 0, _, _, _ => none
  | fuel + 1, index, inode, i =>
      let node := volume.node i
      if node.unused then some ⟨index, inode, i⟩
      else if strncmp 6 node.name.val name = .eq then
        findName volume name fuel i node.inode (i + 1)
      else
        findName volume name fuel index inode (i + 1)

/-- Copy the nodes behind `index` one place down. -/
def shiftDown (fs : Fs) (index max : Nat) : Fs :=
  (List.range' index (max - 1 - index)).foldl
    (fun fs index => writeNode fs (fs.node (index + 1)) index) fs

/-- The node read last: by the copy, or by the search when nothing is copied. -/
def leftoverNode (volume : Volume) (index max : Nat) : DirectoryNode :=
  if index < max - 1 then volume.node (max - 1) else volume.node max

def deleteNode (fs : Fs) (index max : Nat) : Fs :=
  writeNode (shiftDown (dfBufLoad fs .buf1 fs.root) index max)
    { leftoverNode fs.toVolume index max with unused := true } (max - 1)

def removeFound (fs : Fs) (found : Found) : Status × Fs :=
  if found.max = 0 ∨ found.max < found.index then
    (.noSuchFile, fs)
  else
    let (status, fs) := fsIncrement (deleteNode fs found.index found.max)
    if status ≠ .ok then (status, fs) else fsUpdateInodetable fs found.inode 0xffff

def fsRemove (fs : Fs) (name : List UInt8) : Option (Status × Fs) :=
  (findName fs.toVolume name 66 0xffff 0xffff 0).map (removeFound fs)

/-- The name of an entry as a string, and whether the entry is in use. -/
def fsList (volume : Volume) (index : Nat) : Status × List UInt8 :=
  let node := DirectoryNode.decode (dfFlashRead volume volume.root ((40 + index * 8) % 65536) 8)
  (if node.unused then .eof else .ok, strncpyBytes 6 node.name.val ++ [0])

/-- The name of an entry is compared before the entry is known to be in use. -/
def findInode (volume : Volume) (name : List UInt8) : Nat → Nat → Option Nat
  | 0, _ => none
  | fuel + 1, index =>
      let node := volume.node index
      if strncmp 6 node.name.val name = .eq then some node.inode
      else if node.unused then some 0xffff
      else findInode volume name fuel (index + 1)

def fsGetInode (volume : Volume) (name : List UInt8) : Option Nat :=
  findInode volume name 66 0

/-- The bytes that a call has stored in its caller's buffer. -/
abbrev Stored := Nat → Option UInt8

def store (stored : Stored) (position : Nat) (bytes : List UInt8) : Stored :=
  fun index => if position ≤ index ∧ index < position + bytes.length then bytes[index - position]?
    else stored index

/-- The sum of two numbers of type `fs_size_t`, which has 32 bits and a sign. -/
def sizeSum (first second : Nat) : Int :=
  if first + second < 2147483648 then first + second else first + second - 4294967296

/-- Follow the chain to the page the offset is in; a call that ends here returns a number. -/
def readSeek (volume : Volume) : Nat → Nat → Nat → Except Int (Nat × Nat)
  | 0, page, offset => .ok (page, offset)
  | fuel + 1, page, offset =>
      if 512 ≤ offset then
        let header := volume.header page
        if header.eof then .error 0
        else
          let next := fsPage volume header.nextInode
          if next = 0xffff then .error (-1)
          else readSeek volume fuel next (offset - 512)
      else
        .ok (page, offset)

/-- The loop over the pages.  `position` is the distance of `b` from the start of the buffer. -/
def readPages (volume : Volume) :
    Nat → Nat → Stored → Nat → Nat → Nat → Nat → Option (Int × Stored)
  | 0, _, _, _, _, _, _ => none
  | fuel + 1, page, stored, position, offset, length, read =>
      let header := volume.header page
      if sizeSum length offset ≤ header.size then
        some (read + length, store stored position
          (dfFlashRead volume page (15 + offset) (sizeSum length offset % 65536).toNat))
      else if header.eof then
        some (read + (header.size - offset : Nat), store stored position
          (dfFlashRead volume page (15 + offset) (header.size - offset)))
      else
        let stored := store stored position (dfFlashRead volume page (15 + offset) (512 - offset))
        let next := fsPage volume header.nextInode
        if next = 0xffff then
          some (-1, stored)
        else
          readPages volume fuel next stored (position + (header.size - offset)) 0
            (length - (header.size - offset)) (read + (header.size - offset))

/-- Pages without data can follow each other at most 4096 times before the loop goes round. -/
def fsRead (volume : Volume) (inode offset length : Nat) : Option (Int × Stored) :=
  let page := fsPage volume inode
  if page = 0xffff then
    some (0, fun _ => none)
  else
    match readSeek volume (offset + 1) page offset with
    | .error result => some (result, fun _ => none)
    | .ok (page, offset) =>
        if (volume.header page).size ≤ offset then some (0, fun _ => none)
        else readPages volume (4097 * (length + 1)) page (fun _ => none) 0 offset length 0

def rootVersion (volume : Volume) (page : Nat) : Nat :=
  versionAt (dfFlashRead volume page 4 4) 0

def scanPage (fs : Fs) (page : Nat) : Fs :=
  if (fs.header page).unused = false ∧ (fs.header page).root = true then
    let fs := dfBufLoad fs .buf1 page
    if fsCrc fs .buf1 0 527 = (dfFlashRead fs.toVolume page 527 1).getD 0 0 ∧
        fs.version < rootVersion fs.toVolume page then
      { fs with version := rootVersion fs.toVolume page, root := page }
    else
      fs
  else
    fs

/-- The structure that `fs_format` writes into all tables. -/
def emptyTableHeader (garbage : List UInt8) : PageHeader :=
  { PageHeader.decode garbage with
    root := false
    eof := true
    unused := false
    nextInode := 0xfff }

/-- The root structure of `fs_format`: the tables are in the pages behind it. -/
def emptyRoot (garbage : List UInt8) (version : Nat) : List UInt8 :=
  { PageHeader.decode garbage with root := true, eof := true, unused := false }.encode ++
    versionBytes version ++ (List.range 16).flatMap fun tableId => wordBytes (tableId + 1)

/-- Only the first byte of the name is cleared. -/
def emptyNode (garbage : List UInt8) : DirectoryNode :=
  { unused := true
    file := false
    reserved := 0
    inode := 0
    name := ⟨0 :: ((nameAt garbage 2).val.drop 1), by
      rw [List.length_cons, List.length_drop, (nameAt garbage 2).property]⟩ }

def writeEmptyTables (fs : Fs) (garbage : List UInt8) : Fs :=
  let fs := dfBufWrite fs .buf1 (emptyTableHeader garbage).encode 0
  let fs := (List.range 509).foldl (fun fs index => dfBufWrite fs .buf1 [0xff] (15 + index)) fs
  (List.range 16).foldl (fun fs tableId => dfBufSave fs .buf1 (tableId + 1)) fs

def writeEmptyRoot (fs : Fs) (rootGarbage nodeGarbage : List UInt8) : Fs :=
  let fs := dfBufWrite fs .buf1 (emptyRoot rootGarbage fs.version) 0
  let fs := (List.range 60).foldl (fun fs index => writeNode fs (emptyNode nodeGarbage) index) fs
  saveRoot (writeCrc fs) 0

def fsFormat (fs : Fs) : Status × Fs :=
  let fs := { fs with version := if 0 < fs.version then (fs.version + 1) % 4294967296 else 1 }
  let (rootGarbage, fs) := fs.uninitialised 40
  let (tableGarbage, fs) := fs.uninitialised 4
  let fs := writeEmptyTables fs tableGarbage
  let (nodeGarbage, fs) := fs.uninitialised 8
  (.ok, writeEmptyRoot fs rootGarbage nodeGarbage)

def fsScan (fs : Fs) : Status × Fs :=
  let fs := (List.range 4096).foldl scanPage { fs with version := 0 }
  if 1 ≤ fs.version then (.ok, fs) else fsFormat fs

def markChain (volume : Volume) : Nat → Fs → Nat → Option Fs
  | 0, _, _ => none
  | fuel + 1, fs, page =>
      if page = 0xffff then
        some fs
      else
        let fs := fsMarkUsed fs page
        let header := volume.header page
        if header.eof then some fs
        else markChain volume fuel fs (fsPage volume header.nextInode)

/-- Mark the pages of the file in a directory entry. -/
def markFile (fs : Fs) (index : Nat) : Option Fs :=
  let node := fs.node index
  if node.unused then some fs
  else markChain fs.toVolume 4097 fs (fsPage fs.toVolume node.inode)

/-- Mark the root and the inode tables. -/
def markSystemPages (fs : Fs) : Fs :=
  (List.range 16).foldl (fun fs tableId => fsMarkUsed fs (fsInodetable fs.toVolume tableId))
    (fsMarkUsed fs fs.root)

def markUsedPages (fs : Fs) : Option Fs :=
  (List.range 60).foldlM markFile (markSystemPages fs)

def clearBitmap (fs : Fs) : Fs :=
  (List.range 528).foldl (fun fs index => dfBufWrite fs .buf2 [0xff] index) fs

/-- Marking does not end when a chain of pages comes back to itself. -/
def fsInit (fs : Fs) : Option (Status × Fs) :=
  let (status, fs) := fsScan (clearBitmap { fs with lastFree := 0 })
  if status ≠ .ok then some (status, fs)
  else (markUsedPages fs).map fun fs => (.ok, fs)

end Ethersex.Dataflash

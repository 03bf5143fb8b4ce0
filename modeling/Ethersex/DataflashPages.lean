import Ethersex.DataflashFileSystem

/-!
# What a page shows

The fields of a page are read from fixed places.  A write inside the page
changes the fields it covers and leaves the others; the lemmas here say so for
the writes that `fs.c` makes in buffer 1 before it programs a page.
-/

namespace Ethersex.Dataflash

open ByteMemory

def pageHeader (page : Memory) : PageHeader := PageHeader.decode (readPage page 0 4)

def pageNode (page : Memory) (index : Nat) : DirectoryNode :=
  DirectoryNode.decode (readPage page (40 + 8 * index) 8)

def tablePointer (page : Memory) (tableId : Nat) : Nat :=
  wordAt (readPage page (8 + 2 * tableId) 2) 0

def pageEntry (page : Memory) (entry : Nat) : TableNode :=
  TableNode.decode (readPage page (15 + 2 * entry) 2)

def pageVersion (page : Memory) : Nat := versionAt (readPage page 4 4) 0

def pageCrc (page : Memory) : UInt8 := (readPage page 0 527).foldl crcIbuttonUpdate 0

/-- The data of a page. -/
def pageData (page : Memory) : List UInt8 := readPage page 15 (pageHeader page).size

/-- A page that `fs_scan` takes for a root node. -/
structure IsRootPage (page : Memory) : Prop where
  used : (pageHeader page).unused = false
  root : (pageHeader page).root = true
  crc : pageCrc page = page 527

instance (page : Memory) : Decidable (IsRootPage page) :=
  decidable_of_iff
    ((pageHeader page).unused = false ∧ (pageHeader page).root = true ∧ pageCrc page = page 527)
    ⟨fun fields => ⟨fields.1, fields.2.1, fields.2.2⟩,
      fun valid => ⟨valid.used, valid.root, valid.crc⟩⟩

section Writes

variable {page : Memory} {offset start length : Nat} {bytes : List UInt8}

theorem readPage_writePage_disjoint (writeBound : offset + bytes.length ≤ 528)
    (readBound : start + length ≤ 528)
    (disjoint : start + length ≤ offset ∨ offset + bytes.length ≤ start) :
    readPage (writePage page offset bytes) start length = readPage page start length := by
  rw [writePage_eq page writeBound, readPage_eq _ readBound, readPage_eq _ readBound,
    readBlock_writeBlock_disjoint disjoint]

theorem readPage_writePage_same (page : Memory) (offset : Nat) (bytes : List UInt8)
    (writeBound : offset + bytes.length ≤ 528) :
    readPage (writePage page offset bytes) offset bytes.length = bytes := by
  rw [writePage_eq page writeBound, readPage_eq _ writeBound, readBlock_writeBlock_same]

theorem pageHeader_writePage_behind (bound : offset + bytes.length ≤ 528) (behind : 4 ≤ offset) :
    pageHeader (writePage page offset bytes) = pageHeader page := by
  rw [pageHeader, readPage_writePage_disjoint bound (by omega) (by omega), pageHeader]

theorem pageHeader_writePage_encode (page : Memory) (header : PageHeader) :
    pageHeader (writePage page 0 header.encode) =
      { header with
        nextInode := header.nextInode % 4096
        size := header.size % 65536 } := by
  have same := readPage_writePage_same page 0 header.encode (by simp)
  rw [PageHeader.length_encode] at same
  rw [pageHeader, same, PageHeader.decode_encode]

theorem pageEntry_writePage_encode (page : Memory) (node : TableNode) {entry other : Nat}
    (entryBound : entry < 256) (otherBound : other < 256) :
    pageEntry (writePage page (15 + entry * 2) node.encode) other =
      if other = entry then
        { node with reserved := node.reserved % 8, page := node.page % 4096 }
      else
        pageEntry page other := by
  by_cases same : other = entry
  · subst same
    have written := readPage_writePage_same page (15 + other * 2) node.encode
      (by rw [TableNode.length_encode]; omega)
    rw [TableNode.length_encode, Nat.mul_comm] at written
    rw [if_pos rfl, pageEntry, Nat.mul_comm other, written, TableNode.decode_encode]
  · rw [if_neg same, pageEntry, readPage_writePage_disjoint
      (by rw [TableNode.length_encode]; omega) (by omega)
      (by rw [TableNode.length_encode]; omega), pageEntry]

theorem tablePointer_writePage_word (page : Memory) (value : Nat) {tableId other : Nat}
    (tableBound : tableId < 16) (otherBound : other < 16) :
    tablePointer (writePage page (8 + tableId * 2) (wordBytes value)) other =
      if other = tableId then value % 65536 else tablePointer page other := by
  by_cases same : other = tableId
  · subst same
    have written := readPage_writePage_same page (8 + other * 2) (wordBytes value)
      (by rw [length_wordBytes]; omega)
    rw [length_wordBytes, Nat.mul_comm] at written
    rw [if_pos rfl, tablePointer, Nat.mul_comm other, written, wordAt_wordBytes]
  · rw [if_neg same, tablePointer, readPage_writePage_disjoint
      (by rw [length_wordBytes]; omega) (by omega) (by rw [length_wordBytes]; omega), tablePointer]

theorem pageNode_writePage_before (bound : offset + bytes.length ≤ 40) {index : Nat}
    (inside : index ≤ 60) :
    pageNode (writePage page offset bytes) index = pageNode page index := by
  rw [pageNode, readPage_writePage_disjoint (by omega) (by omega) (by omega), pageNode]

theorem pageNode_writePage_encode (page : Memory) (node : DirectoryNode) {place index : Nat}
    (placeInside : place ≤ 60) (inside : index ≤ 60) :
    pageNode (writePage page (40 + place * 8) node.encode) index =
      if index = place then
        { node with reserved := node.reserved % 4, inode := node.inode % 4096 }
      else
        pageNode page index := by
  by_cases same : index = place
  · subst same
    have written := readPage_writePage_same page (40 + index * 8) node.encode
      (by rw [DirectoryNode.length_encode]; omega)
    rw [DirectoryNode.length_encode, Nat.mul_comm] at written
    rw [if_pos rfl, pageNode, Nat.mul_comm index, written, DirectoryNode.decode_encode]
  · rw [if_neg same, pageNode, readPage_writePage_disjoint
      (by rw [DirectoryNode.length_encode]; omega) (by omega)
      (by rw [DirectoryNode.length_encode]; omega), pageNode]

end Writes

/-- The page with its checksum. -/
def sealedPage (page : Memory) : Memory := writePage page 527 [pageCrc page]

theorem readPage_sealedPage (page : Memory) {start length : Nat} (bound : start + length ≤ 527) :
    readPage (sealedPage page) start length = readPage page start length :=
  readPage_writePage_disjoint (by simp) (by omega) (by omega)

theorem pageCrc_sealedPage (page : Memory) : pageCrc (sealedPage page) = sealedPage page 527 := by
  have last (byte : UInt8) : writePage page 527 [byte] 527 = byte := by
    rw [writePage_eq _ (by simp), writeBlock_inside (by omega) (by simp)]
    rfl
  rw [pageCrc, readPage_sealedPage page (by omega), sealedPage, last, pageCrc]

/-- The page that `fs_increment` programs, from the content of buffer 1. -/
def stampedPage (page : Memory) (version : Nat) : Memory :=
  sealedPage (writePage page 0 (setVersion (readPage page 0 40) version))

theorem length_readPage (page : Memory) (offset length : Nat) :
    (readPage page offset length).length = length := by
  simp [readPage]

theorem setVersion_readPage (page : Memory) (version : Nat) :
    writePage page 0 (setVersion (readPage page 0 40) version) =
      writePage page 4 (versionBytes version) := by
  have read :
      readPage page 0 40 = readPage page 0 4 ++ readPage page 4 4 ++ readPage page 8 32 := by
    rw [readPage_eq _ (by omega), readPage_eq _ (by omega), readPage_eq _ (by omega),
      readPage_eq _ (by omega), ← readBlock_append, ← readBlock_append]
  have root : setVersion (readPage page 0 40) version =
      readPage page 0 4 ++ versionBytes version ++ readPage page 8 32 := by
    have head : (readPage page 0 40).take 4 = readPage page 0 4 := by
      rw [read, List.append_assoc]
      exact List.take_left' (length_readPage ..)
    have tail : (readPage page 0 40).drop 8 = readPage page 8 32 := by
      rw [read]
      exact List.drop_left' (by simp [length_readPage])
    rw [setVersion, head, tail]
  rw [root, readPage_eq _ (by omega), readPage_eq _ (by omega),
    writePage_eq _ (by simp), writePage_eq _ (by simp)]
  funext index
  by_cases inside : index < 40
  · rw [writeBlock_inside (by omega) (by simp; omega), Nat.sub_zero]
    rcases Nat.lt_or_ge index 4 with first | first
    · rw [List.append_assoc, List.getD_append _ _ _ _ (by simpa using first),
        getD_readBlock first, writeBlock_outside (by simp; omega), Nat.zero_add]
    · rcases Nat.lt_or_ge index 8 with second | second
      · rw [List.getD_append _ _ _ _ (by simp; omega),
          List.getD_append_right _ _ _ _ (by simpa using first), length_readBlock,
          writeBlock_inside first (by simp; omega)]
      · rw [List.getD_append_right _ _ _ _ (by simp; omega), List.length_append, length_readBlock,
          length_versionBytes, getD_readBlock (by omega), writeBlock_outside (by simp; omega)]
        congr 1
        omega
  · rw [writeBlock_outside (by simp; omega), writeBlock_outside (by simp; omega)]

section Stamp

variable (page : Memory) (version : Nat)

theorem readPage_stampedPage {start length : Nat} (bound : start + length ≤ 527)
    (outside : start + length ≤ 4 ∨ 8 ≤ start) :
    readPage (stampedPage page version) start length = readPage page start length := by
  rw [stampedPage, setVersion_readPage, readPage_sealedPage _ bound,
    readPage_writePage_disjoint (by simp) (by omega) (by simp; omega)]

@[simp]
theorem pageHeader_stampedPage : pageHeader (stampedPage page version) = pageHeader page := by
  rw [pageHeader, readPage_stampedPage _ _ (by omega) (by omega), pageHeader]

theorem tablePointer_stampedPage {tableId : Nat} (bound : tableId < 16) :
    tablePointer (stampedPage page version) tableId = tablePointer page tableId := by
  rw [tablePointer, readPage_stampedPage _ _ (by omega) (by omega), tablePointer]

theorem pageNode_stampedPage {index : Nat} (bound : index < 60) :
    pageNode (stampedPage page version) index = pageNode page index := by
  rw [pageNode, readPage_stampedPage _ _ (by omega) (by omega), pageNode]

theorem getD_readPage {page : Memory} {offset length index : Nat} (inside : index < length)
    (bound : offset + length ≤ 528) :
    (readPage page offset length).getD index 0 = page (offset + index) := by
  rw [readPage_eq _ bound, getD_readBlock inside]

/-- The entry behind the last one reaches into the checksum, but its flags do not. -/
theorem pageNode_unused_congr {page page' : Memory} {index : Nat} (bound : index ≤ 60)
    (same : readPage page (40 + 8 * index) 2 = readPage page' (40 + 8 * index) 2) :
    (pageNode page index).unused = (pageNode page' index).unused := by
  have word (page : Memory) : wordAt (readPage page (40 + 8 * index) 8) 0 =
      wordAt (readPage page (40 + 8 * index) 2) 0 := by
    rw [wordAt, wordAt, getD_readPage (by omega) (by omega), getD_readPage (by omega) (by omega),
      getD_readPage (by omega) (by omega), getD_readPage (by omega) (by omega)]
  simp only [pageNode, DirectoryNode.decode, word, same]

theorem pageNode_unused_stampedPage {index : Nat} (bound : index ≤ 60) :
    (pageNode (stampedPage page version) index).unused = (pageNode page index).unused :=
  pageNode_unused_congr bound (readPage_stampedPage _ _ (by omega) (by omega))

theorem pageVersion_stampedPage :
    pageVersion (stampedPage page version) = version % 4294967296 := by
  have written := readPage_writePage_same page 4 (versionBytes version) (by simp)
  rw [length_versionBytes] at written
  rw [pageVersion, stampedPage, setVersion_readPage, readPage_sealedPage _ (by omega), written,
    versionAt_versionBytes]

theorem isRootPage_stampedPage (used : (pageHeader page).unused = false)
    (root : (pageHeader page).root = true) : IsRootPage (stampedPage page version) where
  used := by rw [pageHeader_stampedPage, used]
  root := by rw [pageHeader_stampedPage, root]
  crc := pageCrc_sealedPage _

end Stamp

end Ethersex.Dataflash

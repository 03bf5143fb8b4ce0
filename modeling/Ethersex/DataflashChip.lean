import Mathlib.Algebra.Group.Nat.Defs
import Ethersex.ByteMemory

/-!
# The dataflash chip and the structures stored on it

`hardware/storage/dataflash/df.c` drives a chip of 4096 pages of 528 bytes with
two RAM buffers.  A page number has twelve bits, and a transfer that reaches the
end of a page goes on at its beginning.  `fs.c` stores three packed structures
on the pages: each starts with a 16-bit word of four flag bits below a 12-bit
number.
-/

namespace Ethersex.Dataflash

open ByteMemory

def readPage (page : Memory) (offset length : Nat) : List UInt8 :=
  (List.range length).map fun index => page ((offset + index) % 528)

def writePage (page : Memory) (offset : Nat) : List UInt8 → Memory
  | [] => page
  | byte :: bytes => writePage (Function.update page (offset % 528) byte) (offset + 1) bytes

theorem readPage_eq (page : Memory) {offset length : Nat} (bound : offset + length ≤ 528) :
    readPage page offset length = readBlock page offset length := by
  apply List.map_congr_left
  intro index member
  rw [List.mem_range] at member
  rw [Nat.mod_eq_of_lt (by omega)]

theorem writePage_eq (page : Memory) {offset : Nat} {bytes : List UInt8}
    (bound : offset + bytes.length ≤ 528) :
    writePage page offset bytes = writeBlock page offset bytes := by
  induction bytes generalizing page offset with
  | nil => rw [writeBlock_nil, writePage]
  | cons byte bytes ih =>
      simp only [List.length_cons] at bound
      rw [writePage, Nat.mod_eq_of_lt (by omega), ih _ (by omega), writeBlock_cons]

def wordBytes (value : Nat) : List UInt8 :=
  [UInt8.ofNat value, UInt8.ofNat (value / 256)]

def wordAt (bytes : List UInt8) (index : Nat) : Nat :=
  (bytes.getD index 0).toNat + 256 * (bytes.getD (index + 1) 0).toNat

@[simp]
theorem length_wordBytes (value : Nat) : (wordBytes value).length = 2 :=
  rfl

theorem wordAt_lt (bytes : List UInt8) (index : Nat) : wordAt bytes index < 65536 := by
  have low := (bytes.getD index 0).toNat_lt
  have high := (bytes.getD (index + 1) 0).toNat_lt
  unfold wordAt
  omega

theorem wordAt_wordBytes_append (value : Nat) (rest : List UInt8) :
    wordAt (wordBytes value ++ rest) 0 = value % 65536 := by
  simp only [wordAt, wordBytes, List.cons_append, List.getD_cons_zero, List.getD_cons_succ,
    UInt8.toNat_ofNat']
  omega

@[simp]
theorem wordAt_wordBytes (value : Nat) : wordAt (wordBytes value) 0 = value % 65536 := by
  simpa using wordAt_wordBytes_append value []

theorem wordAt_append_right (first rest : List UInt8) :
    wordAt (first ++ rest) first.length = wordAt rest 0 := by
  rw [wordAt, List.getD_append_right _ _ _ _ (Nat.le_refl _),
    List.getD_append_right _ _ _ _ (Nat.le_add_right _ 1), Nat.sub_self,
    Nat.add_sub_cancel_left]
  rfl

/-- A version number has 32 bits. -/
def versionBytes (version : Nat) : List UInt8 :=
  wordBytes version ++ wordBytes (version / 65536)

def versionAt (bytes : List UInt8) (index : Nat) : Nat :=
  wordAt bytes index + 65536 * wordAt bytes (index + 2)

@[simp]
theorem length_versionBytes (version : Nat) : (versionBytes version).length = 4 :=
  rfl

@[simp]
theorem versionAt_versionBytes (version : Nat) :
    versionAt (versionBytes version) 0 = version % 4294967296 := by
  have low := wordAt_wordBytes_append version (wordBytes (version / 65536))
  have high := wordAt_append_right (wordBytes version) (wordBytes (version / 65536))
  rw [length_wordBytes] at high
  rw [versionAt, versionBytes, low, high, wordAt_wordBytes]
  omega

def flag (word bit : Nat) : Bool := word / 2 ^ bit % 2 == 1

/-- `fs_page_t`, at the beginning of each page. -/
structure PageHeader where
  unused : Bool
  root : Bool
  eof : Bool
  reserved : Bool
  nextInode : Nat
  size : Nat
deriving DecidableEq, Repr

def PageHeader.encode (header : PageHeader) : List UInt8 :=
  wordBytes (header.unused.toNat + 2 * header.root.toNat + 4 * header.eof.toNat +
      8 * header.reserved.toNat + 16 * (header.nextInode % 4096)) ++
    wordBytes (header.size % 65536)

def PageHeader.decode (bytes : List UInt8) : PageHeader :=
  { unused := flag (wordAt bytes 0) 0
    root := flag (wordAt bytes 0) 1
    eof := flag (wordAt bytes 0) 2
    reserved := flag (wordAt bytes 0) 3
    nextInode := wordAt bytes 0 / 16
    size := wordAt bytes 2 }

@[simp]
theorem PageHeader.length_encode (header : PageHeader) : header.encode.length = 4 :=
  rfl

theorem flag_eq {word bit : Nat} {value : Bool} (same : word / 2 ^ bit % 2 = value.toNat) :
    flag word bit = value := by
  rw [flag, same]
  cases value <;> rfl

theorem PageHeader.decode_encode (header : PageHeader) :
    decode header.encode =
      { header with
        nextInode := header.nextInode % 4096
        size := header.size % 65536 } := by
  obtain ⟨unused, root, eof, reserved, nextInode, size⟩ := header
  have first := wordAt_wordBytes_append
    (unused.toNat + 2 * root.toNat + 4 * eof.toNat + 8 * reserved.toNat +
      16 * (nextInode % 4096)) (wordBytes (size % 65536))
  have second := wordAt_append_right
    (wordBytes (unused.toNat + 2 * root.toNat + 4 * eof.toNat + 8 * reserved.toNat +
      16 * (nextInode % 4096))) (wordBytes (size % 65536))
  rw [length_wordBytes, wordAt_wordBytes] at second
  have unusedBit := unused.toNat_lt
  have rootBit := root.toNat_lt
  have eofBit := eof.toNat_lt
  have reservedBit := reserved.toNat_lt
  simp only [decode, encode, first, second, PageHeader.mk.injEq]
  generalize word_eq : (unused.toNat + 2 * root.toNat + 4 * eof.toNat + 8 * reserved.toNat +
    16 * (nextInode % 4096)) % 65536 = word
  exact ⟨flag_eq (by omega), flag_eq (by omega), flag_eq (by omega), flag_eq (by omega),
    by omega, by omega⟩

theorem PageHeader.decode_nextInode_lt (bytes : List UInt8) :
    (decode bytes).nextInode < 4096 := by
  have bound := wordAt_lt bytes 0
  simp only [decode]
  omega

/-- A file name of at most six bytes, filled up with zeros. -/
abbrev FileName := { bytes : List UInt8 // bytes.length = 6 }

/-- `fs_node_t`, an entry of the directory. -/
structure DirectoryNode where
  unused : Bool
  file : Bool
  reserved : Nat
  inode : Nat
  name : FileName
deriving DecidableEq, Repr

def DirectoryNode.encode (node : DirectoryNode) : List UInt8 :=
  wordBytes (node.unused.toNat + 2 * node.file.toNat + 4 * (node.reserved % 4) +
      16 * (node.inode % 4096)) ++ node.name.val

/-- The six bytes from `index` on. -/
def nameAt (bytes : List UInt8) (index : Nat) : FileName :=
  ⟨(List.range 6).map fun place => bytes.getD (index + place) 0, by simp⟩

def DirectoryNode.decode (bytes : List UInt8) : DirectoryNode :=
  { unused := flag (wordAt bytes 0) 0
    file := flag (wordAt bytes 0) 1
    reserved := wordAt bytes 0 / 4 % 4
    inode := wordAt bytes 0 / 16
    name := nameAt bytes 2 }

@[simp]
theorem DirectoryNode.length_encode (node : DirectoryNode) : node.encode.length = 8 := by
  simp [encode, node.name.property]

theorem DirectoryNode.decode_inode_lt (bytes : List UInt8) : (decode bytes).inode < 4096 := by
  have bound := wordAt_lt bytes 0
  simp only [decode]
  omega

theorem nameAt_append (first : List UInt8) (name : FileName) :
    nameAt (first ++ name.val) first.length = name := by
  apply Subtype.ext
  apply List.ext_getElem
  · simp [nameAt, name.property]
  · intro index _ bound
    simp only [nameAt, List.getElem_map, List.getElem_range]
    rw [List.getD_append_right _ _ _ _ (by omega), Nat.add_sub_cancel_left,
      List.getD_eq_getElem _ _ bound]

theorem DirectoryNode.decode_encode (node : DirectoryNode) :
    decode node.encode =
      { node with
        reserved := node.reserved % 4
        inode := node.inode % 4096 } := by
  obtain ⟨unused, file, reserved, inode, name⟩ := node
  have first := wordAt_wordBytes_append
    (unused.toNat + 2 * file.toNat + 4 * (reserved % 4) + 16 * (inode % 4096)) name.val
  have second := nameAt_append
    (wordBytes (unused.toNat + 2 * file.toNat + 4 * (reserved % 4) + 16 * (inode % 4096))) name
  rw [length_wordBytes] at second
  have unusedBit := unused.toNat_lt
  have fileBit := file.toNat_lt
  simp only [decode, encode, first, second, DirectoryNode.mk.injEq, and_true]
  generalize word_eq : (unused.toNat + 2 * file.toNat + 4 * (reserved % 4) +
    16 * (inode % 4096)) % 65536 = word
  exact ⟨flag_eq (by omega), flag_eq (by omega), by omega, by omega⟩

/-- `fs_inodetable_node_t`, an entry of an inode table. -/
structure TableNode where
  unused : Bool
  reserved : Nat
  page : Nat
deriving DecidableEq, Repr

def TableNode.encode (node : TableNode) : List UInt8 :=
  wordBytes (node.unused.toNat + 2 * (node.reserved % 8) + 16 * (node.page % 4096))

def TableNode.decode (bytes : List UInt8) : TableNode :=
  { unused := flag (wordAt bytes 0) 0
    reserved := wordAt bytes 0 / 2 % 8
    page := wordAt bytes 0 / 16 }

@[simp]
theorem TableNode.length_encode (node : TableNode) : node.encode.length = 2 :=
  rfl

theorem TableNode.decode_encode (node : TableNode) :
    decode node.encode =
      { node with
        reserved := node.reserved % 8
        page := node.page % 4096 } := by
  obtain ⟨unused, reserved, page⟩ := node
  have unusedBit := unused.toNat_lt
  simp only [decode, encode, wordAt_wordBytes, TableNode.mk.injEq]
  generalize word_eq : (unused.toNat + 2 * (reserved % 8) + 16 * (page % 4096)) % 65536 = word
  exact ⟨flag_eq (by omega), by omega, by omega⟩

theorem TableNode.decode_page_lt (bytes : List UInt8) : (decode bytes).page < 4096 := by
  have bound := wordAt_lt bytes 0
  simp only [decode]
  omega

def crcIbuttonUpdate (crc data : UInt8) : UInt8 :=
  (List.range 8).foldl
    (fun crc _ => if crc &&& 1 = 1 then (crc >>> 1) ^^^ 0x8C else crc >>> 1) (crc ^^^ data)

inductive Buffer
  | buf1
  | buf2
deriving DecidableEq, Repr

/-- The flash, and the page its current root node is in. -/
@[ext]
structure Volume where
  flash : Nat → Memory
  root : Nat

/-- A page that `fs_new_page` handed out, with the volume at that moment. -/
structure Handout where
  page : Nat
  volume : Volume

/-- The chip and `fs_t`.  `uninit` is what the program finds in variables and
allocated memory it has not written yet.  `programs` and `handouts` record the
pages programmed and the pages allocated so far. -/
structure Fs extends Volume where
  buf1 : Memory
  buf2 : Memory
  version : Nat
  lastFree : Nat
  uninit : Memory
  programs : List (Nat × Memory)
  handouts : List Handout

def Fs.buffer (fs : Fs) : Buffer → Memory
  | .buf1 => fs.buf1
  | .buf2 => fs.buf2

def Fs.setBuffer (fs : Fs) : Buffer → Memory → Fs
  | .buf1, page => { fs with buf1 := page }
  | .buf2, page => { fs with buf2 := page }

def dfBufLoad (fs : Fs) (buffer : Buffer) (page : Nat) : Fs :=
  fs.setBuffer buffer (fs.flash (page % 4096))

def dfBufRead (fs : Fs) (buffer : Buffer) (offset length : Nat) : List UInt8 :=
  readPage (fs.buffer buffer) offset length

def dfBufWrite (fs : Fs) (buffer : Buffer) (bytes : List UInt8) (offset : Nat) : Fs :=
  fs.setBuffer buffer (writePage (fs.buffer buffer) offset bytes)

def dfBufSave (fs : Fs) (buffer : Buffer) (page : Nat) : Fs :=
  { fs with
    flash := Function.update fs.flash (page % 4096) (fs.buffer buffer)
    programs := fs.programs ++ [(page % 4096, fs.buffer buffer)] }

def dfFlashRead (volume : Volume) (page offset length : Nat) : List UInt8 :=
  readPage (volume.flash (page % 4096)) offset length

/-- Memory that is not initialised. -/
def Fs.uninitialised (fs : Fs) (length : Nat) : List UInt8 × Fs :=
  (readBlock fs.uninit 0 length, { fs with uninit := fun index => fs.uninit (index + length) })

end Ethersex.Dataflash

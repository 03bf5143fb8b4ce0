import Ethersex.EepromSurvival
import Mathlib.Data.List.TakeWhile

/-!
# Writes that leave the other files alone

Creating a file again and writing to it touch only its own pages and free ones,
and keep its name and its place on the file list after every single write.
-/

namespace Ethersex.Sfs

open ByteMemory LinkedSegments

variable {geometry : Geometry} {old chip : Chip} {files front back : List FileEntry}
  {file : FileEntry}

/-- What the other files rely on in a listed page. -/
structure SameHead (old new : Memory) : Prop where
  magic : pageMagic new = pageMagic old
  next : nextFile new = nextFile old
  name : storedName new = storedName old

/-- A write that stays away from the pages of the other files and keeps the head
of its own. -/
structure Quiet (geometry : Geometry) (others : List Nat) (inode : Nat) (head : Memory)
    (write : SliceWrite) : Prop where
  inRange : write.page < geometry.pageCount
  apart : write.page ∉ others
  keepsHead : write.page = inode → ∀ memory, SameHead head memory →
    SameHead head (writeBlock memory write.offset write.bytes)

theorem applyWrites_quiet {others : List Nat} {inode : Nat} {head : Memory}
    {writes : List SliceWrite} (quiet : ∀ write ∈ writes, Quiet geometry others inode head write)
    (same : ∀ page ∈ others, chip page = old page) (sameHead : SameHead head (chip inode)) :
    (∀ page ∈ others, applyWrites geometry chip writes page = old page) ∧
      SameHead head (applyWrites geometry chip writes inode) := by
  induction writes generalizing chip with
  | nil => exact ⟨same, sameHead⟩
  | cons write writes ih =>
      have isQuiet := quiet write List.mem_cons_self
      rw [applyWrites_cons]
      apply ih (fun other member => quiet other (List.mem_cons_of_mem _ member))
      · intro page member
        rw [applyWrite, writeSlice_other isQuiet.inRange]
        · exact same page member
        · rintro rfl
          exact isQuiet.apart member
      · by_cases isHead : write.page = inode
        · rw [applyWrite, isHead, writeSlice_same (isHead ▸ isQuiet.inRange)]
          exact isQuiet.keepsHead isHead _ sameHead
        · rw [applyWrite, writeSlice_other isQuiet.inRange (Ne.symm isHead)]
          exact sameHead

/-- The pages of the other files, and the superblock. -/
def otherPages (front back : List FileEntry) : List Nat := 0 :: (pagesOf front ++ pagesOf back)

theorem WellFormed.disjoint (wellFormed : WellFormed geometry old (front ++ file :: back)) :
    file.pages.Nodup ∧ ∀ page ∈ file.pages, page ∉ otherPages front back := by
  have nodup := wellFormed.nodup
  rw [pagesOf_split] at nodup
  have rotated : (file.pages ++ (pagesOf front ++ pagesOf back)).Nodup := by
    refine (List.Perm.nodup_iff ?_).mp nodup
    rw [← List.append_assoc, ← List.append_assoc]
    exact List.perm_append_comm.append_right _
  rw [List.nodup_append] at rotated
  refine ⟨rotated.1, ?_⟩
  intro page inFile inOthers
  rcases List.mem_cons.mp inOthers with rfl | inOthers
  · exact Nat.lt_irrefl 0 (wellFormed.inRange 0 (mem_pagesOf_split.mpr (Or.inl inFile))).1
  · exact rotated.2.2 page inFile page inOthers rfl

/-- Quiet writes are all harmless. -/
theorem WellFormed.survives_quiet (wellFormed : WellFormed geometry old (front ++ file :: back))
    {writes : List SliceWrite}
    (quiet : ∀ write ∈ writes,
      Quiet geometry (otherPages front back) file.page (old file.page) write) :
    Survives geometry old (front ++ file :: back) file.page (applyWrites geometry old writes)
      ((front ++ file :: back).map FileEntry.page) := by
  obtain ⟨same, sameHead⟩ := applyWrites_quiet quiet (fun page _ => rfl) ⟨rfl, rfl, rfl⟩
  generalize applyWrites geometry old writes = chip at same sameHead ⊢
  have otherFile : ∀ other ∈ front ++ file :: back, other.page ≠ file.page →
      ∀ page ∈ other.pages, chip page = old page := by
    intro other member notFile page inOther
    rw [List.mem_append, List.mem_cons, or_left_comm, ← List.mem_append] at member
    rcases member with rfl | isOther
    · exact absurd rfl notFile
    · exact same page (List.mem_cons_of_mem _ (page_mem_others isOther inOther))
  have listedHead : ∀ page ∈ 0 :: (front ++ file :: back).map FileEntry.page,
      SameHead (old page) (chip page) := by
    intro page member
    rcases List.mem_cons.mp member with rfl | member
    · rw [same 0 List.mem_cons_self]
      exact ⟨rfl, rfl, rfl⟩
    · obtain ⟨other, inFiles, rfl⟩ := List.mem_map.mp member
      by_cases isFile : other.page = file.page
      · rw [isFile]
        exact sameHead
      · rw [otherFile other inFiles isFile _ List.mem_cons_self]
        exact ⟨rfl, rfl, rfl⟩
  constructor
  · rw [same 0 List.mem_cons_self]
    exact SameButLink.refl _
  · exact wellFormed.lists.congr fun page member =>
      ⟨(listedHead page member).next, (listedHead page member).magic⟩
  · intro other member notFile
    rw [otherFile other member notFile _ List.mem_cons_self]
    exact SameButLink.refl _
  · intro other member notFile page inChain
    exact otherFile other member notFile page (List.mem_cons_of_mem _ inChain)
  · intro front' other back' filesEq notFile
    refine ⟨front'.map FileEntry.page, back'.map FileEntry.page, ?_, ?_⟩
    · rw [filesEq, List.map_append, List.map_cons]
    · intro page member
      refine ⟨member, (listedHead page (List.mem_cons_of_mem _ ?_)).name⟩
      rw [filesEq, List.map_append]
      exact List.mem_append_left _ member

theorem mem_clearChainWrites {pages : List Nat} {fuel page : Nat} {write : SliceWrite}
    (chain : Segment (fun page => nextPage (chip page)) page pages 0) (nodup : pages.Nodup)
    (usable : ∀ page ∈ pages, 0 < page ∧ page < geometry.pageCount)
    (member : write ∈ clearChainWrites geometry fuel chip page) : write.page ∈ pages := by
  induction fuel generalizing chip page pages with
  | zero => cases member
  | succ fuel ih =>
      rw [clearChainWrites] at member
      cases pages with
      | nil =>
          cases chain
          rw [if_pos rfl] at member
          cases member
      | cons head pages =>
          obtain ⟨rfl, rest⟩ := chain
          obtain ⟨positive, bound⟩ := usable page List.mem_cons_self
          rw [List.nodup_cons] at nodup
          rw [if_neg (by omega), readPage_of_lt bound] at member
          rcases List.mem_cons.mp member with rfl | later
          · exact List.mem_cons_self
          · apply List.mem_cons_of_mem
            refine ih (rest.congr fun other inRest => ?_) nodup.2
              (fun other inRest => usable other (List.mem_cons_of_mem _ inRest)) later
            rw [applyWrite, writeSlice_other bound]
            rintro rfl
            exact nodup.1 inRest

theorem length_filePageName (filename : List UInt8) :
    (((cString filename).take filenameSize ++ List.replicate (filenameSize + 1) 0).take
      (filenameSize + 1)).length = filenameSize + 1 := by
  rw [List.length_take, List.length_append, List.length_replicate]
  omega

theorem cString_padded {name : List UInt8} (nonzero : ∀ byte ∈ name, byte ≠ 0) (count : Nat) :
    cString (name ++ List.replicate count 0) = name := by
  have allNonzero : ∀ byte ∈ name, (byte != 0) = true :=
    fun byte member => bne_iff_ne.mpr (nonzero byte member)
  rw [cString, List.takeWhile_append_of_pos allNonzero]
  cases count with
  | zero => rw [List.replicate_zero, List.takeWhile_nil, List.append_nil]
  | succ count =>
      rw [List.replicate_succ, List.takeWhile_cons_of_neg (by decide), List.append_nil]

theorem ne_zero_of_mem_cString {bytes : List UInt8} {byte : UInt8}
    (member : byte ∈ cString bytes) : byte ≠ 0 :=
  bne_iff_ne.mp (List.mem_takeWhile_imp (p := fun byte => byte != 0) member)

/-- A file page holds the first 58 bytes of the name. -/
theorem storedName_filePageBytes (memory : Memory) (filename : List UInt8) (next : Nat) :
    storedName (writeBlock memory 0 (filePageBytes filename next)) =
      (cString filename).take filenameSize := by
  have nameOffset : 0 + ([magicFile, 0, 0] ++ wordBytes next).length = 5 := rfl
  have nonzero : ∀ byte ∈ (cString filename).take filenameSize, byte ≠ 0 :=
    fun byte member => ne_zero_of_mem_cString (List.mem_of_mem_take member)
  have short : ((cString filename).take filenameSize).length ≤ filenameSize + 1 := by
    rw [List.length_take]
    omega
  have stored := readBlock_writeBlock_same
    (writeBlock memory 0 ([magicFile, 0, 0] ++ wordBytes next)) 5
    (((cString filename).take filenameSize ++ List.replicate (filenameSize + 1) 0).take
      (filenameSize + 1))
  rw [length_filePageName] at stored
  rw [storedName, filePageBytes, writeBlock_append, nameOffset, stored, List.take_append,
    List.take_of_length_le short, List.take_replicate]
  exact cString_padded nonzero _

theorem length_storedName_le {page : Memory} (terminated : page (pageSize - 1) = 0) :
    (storedName page).length ≤ filenameSize := by
  have bytes : readBlock page 5 (filenameSize + 1) =
      readBlock page 5 filenameSize ++ [0] := by
    rw [readBlock_append, ← terminated]
    rfl
  rw [storedName, cString, bytes, List.takeWhile_append]
  split
  · rw [List.takeWhile_cons_of_neg (by decide), List.append_nil, length_readBlock]
  · have length := (List.takeWhile_sublist (l := readBlock page 5 filenameSize)
      fun byte => byte != 0).length_le
    rw [length_readBlock] at length
    exact length

/-- A file that is created again keeps its name and its place on the list. -/
theorem sameHead_filePageBytes {head memory : Memory} {filename : List UInt8}
    (magic : pageMagic head = magicFile) (terminated : head (pageSize - 1) = 0)
    (sought : storedName head = cString filename) :
    SameHead head (writeBlock memory 0 (filePageBytes filename (nextFile head))) := by
  obtain ⟨newMagic, _, newNext⟩ := filePageBytes_links memory filename (readWord_lt head 3)
  have short := length_storedName_le terminated
  constructor
  · rw [magic]
    exact newMagic
  · exact newNext
  · rw [storedName_filePageBytes, ← sought, List.take_of_length_le short]

theorem WellFormed.quiet_createAgain
    (wellFormed : WellFormed geometry old (front ++ file :: back)) {filename : List UInt8}
    (sought : storedName (old file.page) = cString filename) {write : SliceWrite}
    (member : write ∈ createAgainWrites geometry old file.page filename) :
    Quiet geometry (otherPages front back) file.page (old file.page) write := by
  have fileMember : file ∈ front ++ file :: back := List.mem_append_right _ List.mem_cons_self
  have usable : ∀ page ∈ file.pages, 0 < page ∧ page < geometry.pageCount :=
    fun page inFile => wellFormed.inRange page (mem_pagesOf_split.mpr (Or.inl inFile))
  obtain ⟨nodup, apart⟩ := wellFormed.disjoint
  have bound := (usable _ List.mem_cons_self).2
  rw [createAgainWrites, readPage_of_lt bound] at member
  rcases List.mem_append.mp member with clearing | last
  · have inChain := mem_clearChainWrites (wellFormed.chains file fileMember).2
      (List.nodup_cons.mp nodup).2
      (fun page inChain => usable page (List.mem_cons_of_mem _ inChain)) clearing
    have inFile : write.page ∈ file.pages := List.mem_cons_of_mem _ inChain
    constructor
    · exact (usable _ inFile).2
    · exact apart _ inFile
    · intro isFile
      rw [isFile] at inChain
      exact absurd inChain (List.nodup_cons.mp nodup).1
  · rw [List.mem_singleton.mp last]
    constructor
    · exact bound
    · exact apart _ List.mem_cons_self
    · intro _ memory _
      exact sameHead_filePageBytes (wellFormed.fileMagic file fileMember)
        (wellFormed.terminated file fileMember) sought

theorem WellFormed.occupied (wellFormed : WellFormed geometry old files) {page : Nat}
    (member : page ∈ 0 :: pagesOf files) : isFreeMagic (pageMagic (old page)) = false := by
  rcases List.mem_cons.mp member with rfl | inFiles
  · rw [pageMagic_of_isFormatted wellFormed.formatted]
    rfl
  · obtain ⟨file, fileMember, inFile⟩ := List.mem_flatMap.mp inFiles
    rcases List.mem_cons.mp inFile with rfl | inChain
    · rw [wellFormed.fileMagic file fileMember]
      rfl
    · rw [wellFormed.dataMagic file fileMember page inChain]
      rfl

theorem WellFormed.ownChain (wellFormed : WellFormed geometry old (front ++ file :: back)) :
    OwnChain geometry (otherPages front back) old file := by
  obtain ⟨nodup, apart⟩ := wellFormed.disjoint
  constructor
  · exact pageMagic_of_isFormatted wellFormed.formatted
  · intro page member
    apply wellFormed.occupied
    rcases List.mem_cons.mp member with rfl | inOthers
    · exact List.mem_cons_self
    · exact List.mem_cons_of_mem _ (mem_pagesOf_split.mpr (Or.inr inOthers))
  · exact wellFormed.chains file (List.mem_append_right _ List.mem_cons_self)
  · exact nodup
  · exact fun page inFile => wellFormed.inRange page (mem_pagesOf_split.mpr (Or.inl inFile))
  · intro page inFile
    exact wellFormed.occupied (List.mem_cons_of_mem _ (mem_pagesOf_split.mpr (Or.inl inFile)))
  · exact apart

/-- The link to the first data page is not part of the head. -/
theorem SameHead.linkPage {head memory : Memory} (same : SameHead head memory) (new : Nat) :
    SameHead head (writeBlock memory 1 (wordBytes new)) := by
  constructor
  · rw [← same.magic]
    exact writeBlock_outside (Or.inl Nat.one_pos)
  · rw [← same.next]
    exact readWord_outside (Or.inr (Nat.le_refl _))
  · have length : (wordBytes new).length = 2 := rfl
    rw [← same.name, storedName, storedName, readBlock_writeBlock_disjoint (by omega)]

theorem OwnChain.quiet_appendWrites {others : List Nat} (head : Memory)
    (own : OwnChain geometry others chip file) {needed : Nat} {write : SliceWrite}
    (member : write ∈ appendWrites geometry needed chip file.last) :
    Quiet geometry others file.page head write := by
  induction needed generalizing chip file with
  | zero => cases member
  | succ needed ih =>
      rw [appendWrites] at member
      split at member
      next => cases member
      next new search =>
        split at member
        next => cases member
        next notZero =>
          obtain ⟨positive, bound, notOther, notOwn⟩ := own.findFreePage search notZero
          simp only [List.cons_append, List.nil_append, List.mem_cons] at member
          rcases member with rfl | rfl | later
          · constructor
            · exact bound
            · exact notOther
            · intro isHead
              rw [show new = file.page from isHead] at notOwn
              exact absurd List.mem_cons_self notOwn
          · constructor
            · exact (own.inRange _ file.last_mem).2
            · exact own.apart _ file.last_mem
            · intro _ memory same
              exact same.linkPage new
          · have later' : write ∈ appendWrites geometry needed
                (writeSlice geometry (writeSlice geometry chip new 0 [magicData, 0, 0, 0])
                  file.last 1 (wordBytes new)) (file.append [new]).last := by
              rw [FileEntry.last_append]
              exact later
            have quiet := ih (own.appendPage search notZero) later'
            exact quiet

theorem OwnChain.quiet_writeWrites {others : List Nat} (head : Memory)
    (own : OwnChain geometry others chip file) {handle : Handle}
    (isFile : handle.filePage = file.page) {data : List UInt8} (short : data.length < 65536)
    {write : SliceWrite} (member : write ∈ writeWrites geometry chip handle data) :
    Quiet geometry others file.page head write := by
  rw [writeWrites] at member
  split at member
  next => cases member
  next allocated lastPage writePage scan =>
    obtain ⟨allocatedEq, lastEq, writeEq, found⟩ :=
      scanPages_file own.chain own.nodup own.inRange isFile scan
    dsimp only at member
    rw [writeEq, lastEq] at member
    split at member
    next chip' writePage' appended =>
      rcases List.mem_append.mp member with appending | writing
      · exact own.quiet_appendWrites head appending
      · obtain ⟨added, extended, lengthEq, writeEq'⟩ := appendPages_keeps
          (fun chip file => OwnChain geometry others chip file)
          (fun chip file new kept search notZero => kept.appendPage search notZero) own appended
        have total := lengthEq rfl
        rw [allocatedEq] at total
        have room := room_of_appended own.inRange found short total
        rw [← writeEq'] at room
        have inChain := (dataWrites_spec
          (fun chip => OwnChain geometry others chip (file.append added))
          (fun chip before page next after kept split => kept.nextPage_eq split)
          (fun chip page offset bytes kept inChain above => kept.writeContent inChain above bytes)
          extended (Nat.mod_lt _ (by decide)) room).2 write writing
        have inPages : write.page ∈ (file.append added).pages := List.mem_cons_of_mem _ inChain
        constructor
        · exact (extended.inRange _ inPages).2
        · exact extended.apart _ inPages
        · intro isHead
          rw [isHead] at inChain
          exact absurd inChain (List.nodup_cons.mp extended.nodup).1
    next => exact own.quiet_appendWrites head member

end Ethersex.Sfs

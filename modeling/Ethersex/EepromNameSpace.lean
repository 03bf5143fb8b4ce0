import Ethersex.EepromCrashSafety
import Ethersex.EepromFreePageSearch
import Ethersex.EepromWriting

/-!
# The names on the EEPROM

Seen through its calls, the file list is a list of names, each with the page of
its file and the content.  Creating a new name adds it at the end, creating a
name that exists empties its file, unlinking takes the name away, and nothing
else changes.
-/

namespace Ethersex.Sfs

open ByteMemory GuardedRuns LinkedSegments

structure NamedFile where
  name : List UInt8
  page : Nat
  content : List UInt8
deriving DecidableEq, Repr

def namedFile (geometry : Geometry) (chip : Chip) (file : FileEntry) : NamedFile :=
  ⟨storedName (chip file.page), file.page, fileContent geometry chip file.page⟩

/-- The chip holds these files in this order, and no name twice. -/
structure Holds (geometry : Geometry) (chip : Chip) (files : List FileEntry)
    (entries : List NamedFile) : Prop where
  wellFormed : WellFormed geometry chip files
  entries_eq : entries = files.map (namedFile geometry chip)
  distinct : (entries.map NamedFile.name).Nodup

/-- The file of this name has no content any more. -/
def NamedFile.emptied (name : List UInt8) (entry : NamedFile) : NamedFile :=
  if entry.name = name then { entry with content := [] } else entry

theorem NamedFile.emptied_name (name : List UInt8) (entry : NamedFile) :
    (entry.emptied name).name = entry.name := by
  rw [NamedFile.emptied]
  split <;> rfl

/-- What a call does to the names.  A new file gets some page that no file has. -/
inductive NameStep : List NamedFile → SfsStep → List NamedFile → Prop
  | createNew {entries : List NamedFile} {filename : List UInt8} {slot page : Nat}
      {allocated : Bool} (new : cString filename ∉ entries.map NamedFile.name)
      (unused : page ∉ entries.map NamedFile.page) :
      NameStep entries (.create filename slot allocated)
        (entries ++ [⟨cString filename, page, []⟩])
  | createAgain {entries : List NamedFile} {filename : List UInt8} {slot : Nat}
      {allocated : Bool} (listed : cString filename ∈ entries.map NamedFile.name) :
      NameStep entries (.create filename slot allocated)
        (entries.map (NamedFile.emptied (cString filename)))
  | openFile {entries : List NamedFile} {filename : List UInt8} {slot : Nat}
      {allocated : Bool} : NameStep entries (.openFile filename slot allocated) entries
  | unlink {entries : List NamedFile} {filename : List UInt8} :
      NameStep entries (.unlink filename)
        (entries.filter fun entry => decide (entry.name ≠ cString filename))

/-- A call with a name that fits into a file page; there is a free page for a new name. -/
def SfsStep.Named (geometry : Geometry) (state : SfsState) : SfsStep → Prop
  | .create filename _ _ => (cString filename).length ≤ filenameSize ∧
      (vfsEepromOpen geometry state.chip filename true = some none →
        ∃ page < geometry.pageCount, 0 < page ∧
          isFreeMagic (pageMagic (state.chip page)) = true)
  | .openFile filename _ _ => (cString filename).length ≤ filenameSize
  | .unlink filename => (cString filename).length ≤ filenameSize
  | _ => False

instance (geometry : Geometry) (state : SfsState) :
    ∀ step : SfsStep, Decidable (step.Named geometry state)
  | .create _ _ _ => inferInstanceAs (Decidable (_ ∧ (_ → _)))
  | .openFile _ _ _ => inferInstanceAs (Decidable (_ ≤ _))
  | .unlink _ => inferInstanceAs (Decidable (_ ≤ _))
  | .close _ => inferInstanceAs (Decidable False)
  | .read _ _ => inferInstanceAs (Decidable False)
  | .write _ _ => inferInstanceAs (Decidable False)

section Surviving

variable {geometry : Geometry} {old chip : Chip} {files files' : List FileEntry}
  {file : FileEntry} {involved : Nat} {listed : List Nat}

/-- The content of a file on a well-formed chip. -/
theorem WellFormed.fileContent_eq (wellFormed : WellFormed geometry old files)
    (member : file ∈ files) :
    fileContent geometry old file.page = countedContent old file.chain := by
  obtain ⟨front, back, rfl⟩ := List.append_of_mem member
  exact wellFormed.ownChain.fileContent_eq.1

/-- The surviving files, possibly with new empty ones between them, are the files of the
new chip. -/
theorem Survives.wellFormed (survives : Survives geometry old files involved chip listed)
    (wellFormed : WellFormed geometry old files)
    (origin : ∀ file ∈ files', (file ∈ files ∧ file.page ≠ involved) ∨
      (file.chain = [] ∧ nextPage (chip file.page) = 0 ∧ chip file.page (pageSize - 1) = 0))
    (listedEq : listed = files'.map FileEntry.page) (nodup : (pagesOf files').Nodup) :
    WellFormed geometry chip files' := by
  have lists := survives.lists
  rw [listedEq] at lists
  constructor
  · rw [survives.superblock.isFormatted_eq]
    exact wellFormed.formatted
  · rw [survives.superblock.nextPage_eq]
    exact wellFormed.noPages
  · exact lists.segment
  · intro file member
    rcases origin file member with ⟨isOld, notInvolved⟩ | ⟨noChain, noPage, _⟩
    · refine (wellFormed.chains file isOld).congr fun page inFile => ?_
      rcases List.mem_cons.mp inFile with rfl | inChain
      · exact (survives.heads file isOld notInvolved).nextPage_eq
      · rw [survives.chains file isOld notInvolved page inChain]
    · rw [FileEntry.pages, noChain]
      exact ⟨rfl, noPage⟩
  · exact nodup
  · intro page member
    obtain ⟨file, inFiles, inFile⟩ := List.mem_flatMap.mp member
    rcases List.mem_cons.mp inFile with rfl | inChain
    · have usable := lists.usable file.page (List.mem_map_of_mem inFiles)
      exact ⟨usable.1, usable.2.1⟩
    · rcases origin file inFiles with ⟨isOld, _⟩ | ⟨noChain, _⟩
      · exact wellFormed.inRange page
          (page_mem_pagesOf isOld (List.mem_cons_of_mem _ inChain))
      · rw [noChain] at inChain
        cases inChain
  · exact fun file member => (lists.usable file.page (List.mem_map_of_mem member)).2.2
  · intro file member page inChain
    rcases origin file member with ⟨isOld, notInvolved⟩ | ⟨noChain, _⟩
    · rw [survives.chains file isOld notInvolved page inChain]
      exact wellFormed.dataMagic file isOld page inChain
    · rw [noChain] at inChain
      cases inChain
  · intro file member
    rcases origin file member with ⟨isOld, notInvolved⟩ | ⟨_, _, terminated⟩
    · rw [survives.heads file isOld notInvolved (pageSize - 1) (Or.inr (by decide))]
      exact wellFormed.terminated file isOld
    · exact terminated

/-- A surviving file has its name, its page and its content. -/
theorem Survives.namedFile_eq (survives : Survives geometry old files involved chip listed)
    (wellFormed : WellFormed geometry old files) (wellFormed' : WellFormed geometry chip files')
    (member : file ∈ files) (member' : file ∈ files') (notInvolved : file.page ≠ involved) :
    namedFile geometry chip file = namedFile geometry old file := by
  rw [namedFile, namedFile, (survives.heads file member notInvolved).storedName_eq,
    wellFormed.fileContent_eq member, wellFormed'.fileContent_eq member',
    countedContent_congr (survives.chains file member notInvolved)]

end Surviving

section Searching

variable {geometry : Geometry} {chip : Chip} {files : List FileEntry} {entries : List NamedFile}

theorem Holds.names_eq (holds : Holds geometry chip files entries) :
    entries.map NamedFile.name = files.map fun file => storedName (chip file.page) := by
  rw [holds.entries_eq, List.map_map]
  rfl

theorem Holds.pages_eq (holds : Holds geometry chip files entries) :
    entries.map NamedFile.page = files.map FileEntry.page := by
  rw [holds.entries_eq, List.map_map]
  rfl

/-- A name is on no file, or its file is found. -/
theorem Holds.findName (holds : Holds geometry chip files entries) (filename : List UInt8) :
    (cString filename ∉ entries.map NamedFile.name ∧
        ∃ previous, vfsEepromFindFile geometry chip (some filename) = some (0, previous)) ∨
      ∃ front file back, files = front ++ file :: back ∧ file.page ≠ 0 ∧
        vfsEepromFindFile geometry chip (some filename) =
          some (file.page, (front.map FileEntry.page).getLastD 0) ∧
        storedName (chip file.page) = cString filename := by
  rcases holds.wellFormed.findName filename with ⟨previous, search⟩ | found
  · refine Or.inl ⟨?_, previous, search⟩
    rw [holds.names_eq, List.mem_map]
    rintro ⟨file, member, nameEq⟩
    have walked := holds.wellFormed.lists.findFile (some filename)
    rw [search] at walked
    cases found : (files.map FileEntry.page).find? fun page =>
        isSought (chip page) (some filename) with
    | none =>
        have notSought := List.find?_eq_none.mp found file.page (List.mem_map_of_mem member)
        exact notSought (beq_iff_eq.mpr nameEq)
    | some page =>
        have positive := (holds.wellFormed.lists.usable page (List.mem_of_find?_eq_some found)).1
        rw [found] at walked
        have zero : 0 = page := Option.some.inj walked
        omega
  · exact Or.inr found

/-- Exactly the names on the list can be opened, and each opens its own file. -/
theorem Holds.open (holds : Holds geometry chip files entries) (filename : List UInt8) :
    vfsEepromOpen geometry chip filename true =
      some ((entries.find? fun entry => entry.name == cString filename).map
        fun entry => ⟨entry.page, 0⟩) := by
  rw [holds.wellFormed.lists.open, holds.entries_eq, List.find?_map, List.find?_map,
    Option.map_map, Option.map_map]
  rfl

end Searching

section Operations

variable {geometry : Geometry} {chip : Chip} {files front back : List FileEntry}
  {file : FileEntry} {entries : List NamedFile} {filename : List UInt8}

theorem terminated_filePageBytes (memory : Memory) (filename : List UInt8) (next : Nat) :
    writeBlock memory 0 (filePageBytes filename next) (pageSize - 1) = 0 := by
  have headLength : ([magicFile, 0, 0] ++ wordBytes next).length = 5 := rfl
  have nameLength : ((cString filename).take filenameSize).length ≤ filenameSize :=
    List.length_take_le _ _
  have bytesLength : (filePageBytes filename next).length = pageSize := by
    rw [filePageBytes, List.length_append, headLength, length_filePageName]
    rfl
  rw [writeBlock_inside (Nat.zero_le _) (by rw [bytesLength]; decide), filePageBytes,
    List.getD_append_right _ _ _ _ (by rw [headLength]; decide), headLength]
  rw [filenameSize] at *
  rw [List.getD_eq_getElem?_getD, List.getElem?_take_of_lt (by decide),
    List.getElem?_append_right (by rw [pageSize]; omega), List.getElem?_replicate]
  split <;> rfl

theorem fileContent_of_nextPage_zero {page : Nat} (bound : page < geometry.pageCount)
    (noPage : nextPage (chip page) = 0) : fileContent geometry chip page = [] := by
  rw [fileContent, readPage_of_lt bound, noPage, contentFrom, if_pos rfl]

theorem exists_freePage (superblock : pageMagic (chip 0) = magicSuperblock)
    (free : ∃ page < geometry.pageCount, 0 < page ∧
      isFreeMagic (pageMagic (chip page)) = true) :
    ∃ inode, vfsEepromFindFreePage geometry chip 0 = some inode ∧ inode ≠ 0 := by
  have enough : geometry.pagesAhead 0 0 ≤ geometry.pageCount + 1 := by
    rw [Geometry.pagesAhead, if_neg (Nat.lt_irrefl _)]
    omega
  obtain ⟨inode, search, _, result⟩ :=
    findFreeFrom_ends chip geometry.pageCount_pos geometry.pageCount_pos enough
  refine ⟨inode, search, ?_⟩
  rcases result with ⟨_, isFree⟩ | ⟨_, full⟩
  · rintro rfl
    rw [superblock] at isFree
    exact absurd isFree (by decide)
  · obtain ⟨page, bound, _, isFree⟩ := free
    have occupied := full page bound (by rw [StillAhead, if_neg (Nat.lt_irrefl _)]; omega)
    rw [isFree] at occupied
    cases occupied

/-- A new name goes to the end of the list. -/
theorem Holds.createNew (holds : Holds geometry chip files entries)
    (short : (cString filename).length ≤ filenameSize)
    (new : cString filename ∉ entries.map NamedFile.name)
    (free : ∃ page < geometry.pageCount, 0 < page ∧
      isFreeMagic (pageMagic (chip page)) = true) :
    ∃ chip' inode, Sfs.createNew geometry chip filename = some (chip', inode) ∧
      inode ∉ entries.map NamedFile.page ∧
      Holds geometry chip' (files ++ [⟨inode, []⟩])
        (entries ++ [⟨cString filename, inode, []⟩]) := by
  have wellFormed := holds.wellFormed
  have superblock := pageMagic_of_isFormatted wellFormed.formatted
  obtain ⟨inode, found, notZero⟩ := exists_freePage superblock free
  obtain ⟨⟨lastFile, previous⟩, findLast, _⟩ :=
    Option.map_eq_some_iff.mp (wellFormed.lists.findFile none)
  have survives := (wellFormed.survives 0).linkNew wellFormed found notZero findLast filename
  obtain ⟨positive, bound, isFree⟩ :=
    (findFreeFrom_spec superblock (Nat.zero_le _) found).resolve_left notZero
  have unused : inode ∉ pagesOf files := by
    intro member
    rw [wellFormed.occupied (List.mem_cons_of_mem _ member)] at isFree
    cases isFree
  have created : Sfs.createNew geometry chip filename = some
      (writeSlice geometry (writeSlice geometry chip lastFile 3 (wordBytes inode)) inode 0
        (filePageBytes filename 0), inode) := by
    rw [Sfs.createNew, found, Option.bind_some, if_neg notZero, findLast]
    rfl
  refine ⟨_, inode, created, ?_, ?_⟩
  · rw [holds.pages_eq]
    exact fun member => unused ((sublist_pagesOf_page files).subset member)
  · have newPage : writeSlice geometry (writeSlice geometry chip lastFile 3 (wordBytes inode)) inode
        0 (filePageBytes filename 0) inode =
          writeBlock (writeSlice geometry chip lastFile 3 (wordBytes inode) inode) 0
            (filePageBytes filename 0) := writeSlice_same bound _ _
    generalize writeSlice geometry (writeSlice geometry chip lastFile 3 (wordBytes inode)) inode 0
      (filePageBytes filename 0) = chip' at survives newPage
    have links := filePageBytes_links (writeSlice geometry chip lastFile 3 (wordBytes inode) inode)
      filename (show 0 < 65536 by decide)
    rw [← newPage] at links
    have nonzero : ∀ file ∈ files, file.page ≠ 0 := fun file member =>
      Nat.ne_of_gt (wellFormed.inRange _ (page_mem_pagesOf member List.mem_cons_self)).1
    have origin : ∀ file ∈ files ++ [⟨inode, []⟩], (file ∈ files ∧ file.page ≠ 0) ∨
        (file.chain = [] ∧ nextPage (chip' file.page) = 0 ∧
          chip' file.page (pageSize - 1) = 0) := by
      intro file member
      rcases List.mem_append.mp member with isOld | isNew
      · exact Or.inl ⟨isOld, nonzero file isOld⟩
      · rw [List.mem_singleton.mp isNew]
        refine Or.inr ⟨rfl, links.2.1, ?_⟩
        rw [newPage]
        exact terminated_filePageBytes _ _ _
    have nodup : (pagesOf (files ++ [⟨inode, []⟩])).Nodup := by
      rw [pagesOf, List.flatMap_append, List.nodup_append]
      refine ⟨wellFormed.nodup, List.nodup_singleton _, ?_⟩
      rintro page member other isNew rfl
      rw [List.mem_singleton.mp isNew] at member
      exact unused member
    have listedEq : files.map FileEntry.page ++ [inode] =
        (files ++ [(⟨inode, []⟩ : FileEntry)]).map FileEntry.page := by
      rw [List.map_append, List.map_singleton]
    have wellFormed' := survives.wellFormed wellFormed origin listedEq nodup
    have newEntry : namedFile geometry chip' ⟨inode, []⟩ = ⟨cString filename, inode, []⟩ := by
      rw [namedFile, fileContent_of_nextPage_zero bound links.2.1, newPage,
        storedName_filePageBytes, List.take_of_length_le short]
    constructor
    · exact wellFormed'
    · rw [List.map_append, List.map_singleton, newEntry, holds.entries_eq,
        List.append_cancel_right_eq]
      apply List.map_congr_left
      intro file member
      exact (survives.namedFile_eq wellFormed wellFormed' member (List.mem_append_left _ member)
        (nonzero file member)).symm
    · rw [List.map_append, List.nodup_append]
      refine ⟨holds.distinct, List.nodup_singleton _, ?_⟩
      rintro name member other isNew rfl
      rw [List.mem_singleton.mp isNew] at member
      exact new member

theorem mem_append_cons {other : FileEntry} :
    other ∈ front ++ file :: back ↔ other = file ∨ other ∈ front ++ back := by
  rw [List.mem_append, List.mem_cons, List.mem_append]
  exact or_left_comm

/-- The other files have other names and other pages. -/
theorem Holds.other (holds : Holds geometry chip (front ++ file :: back) entries)
    {other : FileEntry} (member : other ∈ front ++ back) :
    storedName (chip other.page) ≠ storedName (chip file.page) ∧ other.page ≠ file.page := by
  have names := holds.distinct
  rw [holds.names_eq, List.map_append, List.map_cons] at names
  have pages := holds.wellFormed.lists.nodup
  rw [List.map_append, List.map_cons] at pages
  have apart : ∀ {Value : Type} (value : FileEntry → Value),
      (front.map value ++ value file :: back.map value).Nodup → value other ≠ value file := by
    intro Value value nodup same
    have notOther := (List.nodup_cons.mp (List.nodup_middle.mp nodup)).1
    rw [← List.map_append] at notOther
    exact notOther (same ▸ List.mem_map_of_mem member)
  exact ⟨apart _ names, apart _ pages⟩

theorem clearChain_ends {pages : List Nat} {fuel page : Nat}
    (chain : Segment (fun page => nextPage (chip page)) page pages 0) (nodup : pages.Nodup)
    (usable : ∀ page ∈ pages, 0 < page ∧ page < geometry.pageCount)
    (enough : pages.length < fuel) : ∃ chip', clearChain geometry fuel chip page = some chip' := by
  induction pages generalizing chip page fuel with
  | nil =>
      cases chain
      obtain ⟨fuel, rfl⟩ := Nat.exists_eq_succ_of_ne_zero (Nat.ne_of_gt enough)
      exact ⟨chip, by rw [clearChain, if_pos rfl]⟩
  | cons head pages ih =>
      obtain ⟨rfl, rest⟩ := chain
      obtain ⟨fuel, rfl⟩ := Nat.exists_eq_succ_of_ne_zero (Nat.ne_zero_of_lt enough)
      obtain ⟨positive, bound⟩ := usable page List.mem_cons_self
      rw [List.nodup_cons] at nodup
      rw [clearChain, if_neg (by omega), readPage_of_lt bound]
      refine ih (rest.congr fun other member => ?_) nodup.2
        (fun other member => usable other (List.mem_cons_of_mem _ member))
        (Nat.lt_of_succ_lt_succ enough)
      rw [writeSlice_other bound]
      rintro rfl
      exact nodup.1 member

/-- A name that exists keeps its place and loses its content. -/
theorem Holds.createAgain (holds : Holds geometry chip (front ++ file :: back) entries)
    (sought : storedName (chip file.page) = cString filename) :
    ∃ chip', Sfs.createAgain geometry chip file.page filename = some (chip', file.page) ∧
      Holds geometry chip' (front ++ ⟨file.page, []⟩ :: back)
        (entries.map (NamedFile.emptied (cString filename))) := by
  have wellFormed := holds.wellFormed
  have own := wellFormed.ownChain
  have fileMember : file ∈ front ++ file :: back := List.mem_append_right _ List.mem_cons_self
  have bound := (own.inRange _ List.mem_cons_self).2
  obtain ⟨cleared, clearing⟩ := clearChain_ends own.chain.2 (List.nodup_cons.mp own.nodup).2
    (fun page member => own.inRange page (List.mem_cons_of_mem _ member)) own.length_lt
  have created : Sfs.createAgain geometry chip file.page filename = some
      (writeSlice geometry cleared file.page 0
        (filePageBytes filename (nextFile (chip file.page))), file.page) := by
    rw [Sfs.createAgain, readPage_of_lt bound, clearing]
    rfl
  have survives := wellFormed.survives_quiet fun write member =>
    wellFormed.quiet_createAgain sought member
  rw [applyWrites_createAgain created] at survives
  refine ⟨_, created, ?_⟩
  have newPage : writeSlice geometry cleared file.page 0
      (filePageBytes filename (nextFile (chip file.page))) file.page =
        writeBlock (cleared file.page) 0 (filePageBytes filename (nextFile (chip file.page))) :=
    writeSlice_same bound _ _
  generalize writeSlice geometry cleared file.page 0
    (filePageBytes filename (nextFile (chip file.page))) = chip' at survives newPage ⊢
  have links := filePageBytes_links (cleared file.page) filename (readWord_lt (chip file.page) 3)
  have storedEq := storedName_filePageBytes (cleared file.page) filename (nextFile (chip file.page))
  rw [← newPage] at storedEq
  have nameShort := length_storedName_le (wellFormed.terminated file fileMember)
  rw [sought] at nameShort
  rw [List.take_of_length_le nameShort] at storedEq
  have noPage : nextPage (chip' file.page) = 0 := by
    rw [newPage]
    exact links.2.1
  have origin : ∀ other ∈ front ++ (⟨file.page, []⟩ : FileEntry) :: back,
      (other ∈ front ++ file :: back ∧ other.page ≠ file.page) ∨
        (other.chain = [] ∧ nextPage (chip' other.page) = 0 ∧
          chip' other.page (pageSize - 1) = 0) := by
    intro other member
    rcases mem_append_cons.mp member with rfl | isOld
    · refine Or.inr ⟨rfl, noPage, ?_⟩
      rw [newPage]
      exact terminated_filePageBytes _ _ _
    · exact Or.inl ⟨mem_append_cons.mpr (Or.inr isOld), (holds.other isOld).2⟩
  have listedEq : (front ++ file :: back).map FileEntry.page =
      (front ++ (⟨file.page, []⟩ : FileEntry) :: back).map FileEntry.page := by
    rw [List.map_append, List.map_append, List.map_cons, List.map_cons]
  have nodup : (pagesOf (front ++ (⟨file.page, []⟩ : FileEntry) :: back)).Nodup := by
    refine wellFormed.nodup.sublist ?_
    rw [pagesOf_split, pagesOf_split]
    have onePage : [file.page].Sublist file.pages := (List.nil_sublist _).cons_cons _
    exact (onePage.append_right _).append_left _
  have wellFormed' := survives.wellFormed wellFormed origin listedEq nodup
  have newEntry : (namedFile geometry chip file).emptied (cString filename) =
      namedFile geometry chip' ⟨file.page, []⟩ := by
    have nameEq : (namedFile geometry chip file).name = cString filename := sought
    rw [NamedFile.emptied, if_pos nameEq, nameEq, namedFile, namedFile,
      fileContent_of_nextPage_zero bound noPage, storedEq]
  have sameEntry : ∀ other ∈ front ++ back,
      (namedFile geometry chip other).emptied (cString filename) =
        namedFile geometry chip' other := by
    intro other member
    have otherName : (namedFile geometry chip other).name ≠ cString filename :=
      fun same => (holds.other member).1 (same.trans sought.symm)
    rw [NamedFile.emptied, if_neg otherName, survives.namedFile_eq wellFormed wellFormed'
      (mem_append_cons.mpr (Or.inr member)) (mem_append_cons.mpr (Or.inr member))
      (holds.other member).2]
  constructor
  · exact wellFormed'
  · rw [holds.entries_eq, List.map_map, List.map_append, List.map_append, List.map_cons,
      List.map_cons]
    congr 1
    · exact List.map_congr_left fun other member => sameEntry other (List.mem_append_left _ member)
    · congr 1
      exact List.map_congr_left fun other member =>
        sameEntry other (List.mem_append_right _ member)
  · have namesEq : (entries.map (NamedFile.emptied (cString filename))).map NamedFile.name =
        entries.map NamedFile.name := by
      rw [List.map_map]
      exact List.map_congr_left fun entry _ => entry.emptied_name _
    rw [namesEq]
    exact holds.distinct

theorem clearForUnlink_ends {pages : List Nat} {inode fuel page : Nat}
    (chain : Segment (fun page => nextPage (chip page)) page pages 0)
    (bound : inode < geometry.pageCount) (notInode : inode ∉ pages)
    (usable : ∀ page ∈ pages, 0 < page ∧ page < geometry.pageCount)
    (enough : pages.length < fuel) :
    ∃ chip', clearForUnlink geometry inode fuel chip page = some chip' := by
  induction pages generalizing chip page fuel with
  | nil =>
      cases chain
      obtain ⟨fuel, rfl⟩ := Nat.exists_eq_succ_of_ne_zero (Nat.ne_of_gt enough)
      exact ⟨chip, by rw [clearForUnlink, if_pos rfl]⟩
  | cons head pages ih =>
      obtain ⟨rfl, rest⟩ := chain
      obtain ⟨fuel, rfl⟩ := Nat.exists_eq_succ_of_ne_zero (Nat.ne_zero_of_lt enough)
      obtain ⟨positive, pageBound⟩ := usable page List.mem_cons_self
      rw [List.mem_cons, not_or] at notInode
      rw [clearForUnlink, if_neg (by omega), readPage_of_lt pageBound]
      refine ih (rest.congr fun other member => ?_) notInode.2
        (fun other member => usable other (List.mem_cons_of_mem _ member))
        (Nat.lt_of_succ_lt_succ enough)
      rw [writeSlice_other bound]
      rintro rfl
      exact notInode.2 member

/-- The writes of an unlink end. -/
theorem WellFormed.unlink_ends (wellFormed : WellFormed geometry chip (front ++ file :: back))
    (notZero : file.page ≠ 0)
    (search : vfsEepromFindFile geometry chip (some filename) =
      some (file.page, (front.map FileEntry.page).getLastD 0)) :
    ∃ chip', vfsEepromUnlink geometry chip filename = some (0, chip') := by
  have own := wellFormed.ownChain
  have bound := (own.inRange _ List.mem_cons_self).2
  have previousBound := wellFormed.previous_lt
  have usable : ∀ page ∈ file.chain, 0 < page ∧ page < geometry.pageCount :=
    fun page member => own.inRange page (List.mem_cons_of_mem _ member)
  have notInode := (List.nodup_cons.mp own.nodup).1
  rw [vfsEepromUnlink, search, Option.bind_some]
  dsimp only
  rw [if_neg notZero, readPage_of_lt bound, readPage_of_lt previousBound]
  -- the chain still leads to its end: only the link of a file page has changed
  have chain : Segment (fun page => nextPage (writeSlice geometry (writeSlice geometry chip
      ((front.map FileEntry.page).getLastD 0) 0 (readBlock (writeBlock
        (chip ((front.map FileEntry.page).getLastD 0)) 3
        (wordBytes (nextFile (chip file.page)))) 0 pageSize)) file.page 0
      (List.replicate pageSize 0) page)) (nextPage (chip file.page)) file.chain 0 := by
    refine Segment.congr own.chain.2 fun page member => ?_
    have notFile : page ≠ file.page := by
      rintro rfl
      exact notInode member
    rw [writeSlice_other bound notFile]
    by_cases isPrevious : page = (front.map FileEntry.page).getLastD 0
    · rw [isPrevious, writeSlice_same previousBound, writeBlock_wholePage_link]
      exact ((SameButLink.refl _).link _).nextPage_eq
    · rw [writeSlice_other previousBound isPrevious]
  obtain ⟨chip', cleared⟩ := clearForUnlink_ends chain bound notInode usable own.length_lt
  rw [cleared]
  exact ⟨chip', rfl⟩

/-- An unlinked name leaves the list, the others close ranks. -/
theorem Holds.unlink (holds : Holds geometry chip (front ++ file :: back) entries)
    (notZero : file.page ≠ 0)
    (search : vfsEepromFindFile geometry chip (some filename) =
      some (file.page, (front.map FileEntry.page).getLastD 0))
    (sought : storedName (chip file.page) = cString filename) :
    ∃ chip', vfsEepromUnlink geometry chip filename = some (0, chip') ∧
      Holds geometry chip' (front ++ back)
        (entries.filter fun entry => decide (entry.name ≠ cString filename)) := by
  have wellFormed := holds.wellFormed
  obtain ⟨chip', unlinked⟩ := wellFormed.unlink_ends notZero search
  refine ⟨chip', unlinked, ?_⟩
  have survives := wellFormed.survives_unlinkWrites notZero search
    (unlinkWrites geometry chip filename).length
  rw [List.take_of_length_le (Nat.le_succ _), applyWrites_unlink unlinked] at survives
  have origin : ∀ other ∈ front ++ back,
      (other ∈ front ++ file :: back ∧ other.page ≠ file.page) ∨
        (other.chain = [] ∧ nextPage (chip' other.page) = 0 ∧
          chip' other.page (pageSize - 1) = 0) :=
    fun other member => Or.inl ⟨mem_append_cons.mpr (Or.inr member), (holds.other member).2⟩
  have nodup : (pagesOf (front ++ back)).Nodup := by
    refine wellFormed.nodup.sublist ?_
    rw [pagesOf_split, pagesOf, List.flatMap_append]
    exact (List.sublist_append_right _ _).append_left _
  have wellFormed' := survives.wellFormed wellFormed origin List.map_append.symm nodup
  have sameEntry : ∀ other ∈ front ++ back,
      namedFile geometry chip' other = namedFile geometry chip other := fun other member =>
    survives.namedFile_eq wellFormed wellFormed' (mem_append_cons.mpr (Or.inr member)) member
      (holds.other member).2
  have keptEntry : ∀ other ∈ front ++ back,
      decide ((namedFile geometry chip other).name ≠ cString filename) = true :=
    fun other member => decide_eq_true fun same => (holds.other member).1 (same.trans sought.symm)
  have gone : ¬decide ((namedFile geometry chip file).name ≠ cString filename) = true := by
    rw [decide_eq_true_eq]
    exact not_not_intro sought
  constructor
  · exact wellFormed'
  · rw [holds.entries_eq, List.map_append, List.map_cons, List.filter_append,
      List.filter_cons, if_neg gone, ← List.filter_append, ← List.map_append,
      List.map_congr_left sameEntry]
    apply List.filter_eq_self.mpr
    intro entry member
    obtain ⟨other, inRest, rfl⟩ := List.mem_map.mp member
    exact keptEntry other inRest
  · exact holds.distinct.sublist (List.filter_sublist.map _)

end Operations

section Runs

variable {geometry : Geometry} {entries : List NamedFile}

theorem Holds.create {state : SfsState} {files : List FileEntry} {filename : List UInt8}
    {slot : Nat} {allocated : Bool} (holds : Holds geometry state.chip files entries)
    (named : (SfsStep.create filename slot allocated).Named geometry state) :
    ∃ next entries', sfsStep geometry state (.create filename slot allocated) = some next ∧
      NameStep entries (.create filename slot allocated) entries' ∧
      ∃ files', Holds geometry next.chip files' entries' := by
  rcases holds.findName filename with
    ⟨new, previous, search⟩ | ⟨front, file, back, rfl, notZero, search, sought⟩
  · have unopened : vfsEepromOpen geometry state.chip filename true = some none := by
      rw [vfsEepromOpen, search]
      rfl
    obtain ⟨chip', inode, created, unused, holds'⟩ :=
      holds.createNew named.1 new (named.2 unopened)
    refine ⟨{ state with chip := chip' }.setHandle slot (newHandle inode allocated), _, ?_,
      .createNew new unused, _, holds'⟩
    rw [sfsStep, vfsEepromCreate, createFile, search, Option.bind_some]
    dsimp only
    rw [if_pos rfl, created]
    rfl
  · obtain ⟨chip', created, holds'⟩ := holds.createAgain sought
    have listed : cString filename ∈ entries.map NamedFile.name := by
      rw [holds.names_eq, ← sought]
      exact List.mem_map_of_mem (List.mem_append_right _ List.mem_cons_self)
    refine ⟨{ state with chip := chip' }.setHandle slot (newHandle file.page allocated), _, ?_,
      .createAgain listed, _, holds'⟩
    rw [sfsStep, vfsEepromCreate, createFile, search, Option.bind_some]
    dsimp only
    rw [if_neg notZero, created]
    rfl

theorem Holds.unlinkName {state : SfsState} {files : List FileEntry} {filename : List UInt8}
    (holds : Holds geometry state.chip files entries) :
    ∃ next entries', sfsStep geometry state (.unlink filename) = some next ∧
      NameStep entries (.unlink filename) entries' ∧
      ∃ files', Holds geometry next.chip files' entries' := by
  rcases holds.findName filename with
    ⟨new, previous, search⟩ | ⟨front, file, back, rfl, notZero, search, sought⟩
  · have unchanged : (entries.filter fun entry => decide (entry.name ≠ cString filename)) =
        entries := by
      apply List.filter_eq_self.mpr
      intro entry member
      exact decide_eq_true fun same => new (same ▸ List.mem_map_of_mem member)
    refine ⟨state, _, ?_, .unlink, files, ?_⟩
    · rw [sfsStep, vfsEepromUnlink, search, Option.bind_some]
      rfl
    · rw [unchanged]
      exact holds
  · obtain ⟨chip', unlinked, holds'⟩ := holds.unlink notZero search sought
    refine ⟨{ state with chip := chip' }, _, ?_, .unlink, _, holds'⟩
    rw [sfsStep, unlinked]
    rfl

theorem Holds.step (state : SfsState) (step : SfsStep) (entries : List NamedFile)
    (holds : ∃ files, Holds geometry state.chip files entries) (named : step.Named geometry state) :
    ∃ next entries', sfsStep geometry state step = some next ∧ NameStep entries step entries' ∧
      ∃ files', Holds geometry next.chip files' entries' := by
  obtain ⟨files, holds⟩ := holds
  cases step with
  | create filename slot allocated => exact holds.create named
  | openFile filename slot allocated =>
      obtain ⟨⟨inode, previous⟩, search, _⟩ :=
        Option.map_eq_some_iff.mp (holds.wellFormed.lists.findFile (some filename))
      refine ⟨state.setHandle slot (newHandle inode allocated), entries, ?_, .openFile, files,
        holds⟩
      rw [sfsStep, vfsEepromOpen, search]
      rfl
  | unlink filename => exact holds.unlinkName
  | close slot => exact named.elim
  | read slot size => exact named.elim
  | write slot data => exact named.elim

end Runs

/-- Every run of create, open and unlink calls ends and does to the list of names what it
should, and afterwards exactly the names on the list can be opened. -/
theorem nameSpace_follows (geometry : Geometry) (state : SfsState) (files : List FileEntry)
    (entries : List NamedFile) (holds : Holds geometry state.chip files entries)
    (steps : List SfsStep)
    (named : Guarded (sfsStep geometry) (fun state step => step.Named geometry state) state
      steps) :
    ∃ last files' entries', run (sfsStep geometry) state steps = some last ∧
      Follows NameStep entries steps entries' ∧ Holds geometry last.chip files' entries' ∧
      ∀ filename, vfsEepromOpen geometry last.chip filename true =
        some ((entries'.find? fun entry => entry.name == cString filename).map
          fun entry => ⟨entry.page, 0⟩) := by
  obtain ⟨last, entries', reached, follows, files', holds'⟩ :=
    named.exists_follows Holds.step ⟨files, holds⟩
  exact ⟨last, files', entries', reached, follows, holds', holds'.open⟩

theorem holds_formattedState : Holds fourPages (formattedState fourPages).chip [] [] := by
  have link : nextFile ((formattedState fourPages).chip 0) = 0 := by
    decide +kernel
  refine ⟨?_, rfl, List.nodup_nil⟩
  constructor
  · decide +kernel
  · decide +kernel
  · exact ⟨rfl, link⟩
  · nofun
  · exact List.nodup_nil
  · nofun
  · nofun
  · nofun
  · nofun

/-- The files `"a"` and `"b"` are created, `"a"` once more, `"b"` is opened and `"a"`
unlinked. -/
def namingRun : List SfsStep :=
  [.create [97] 0 true, .create [98] 1 true, .create [97] 2 true, .openFile [98] 3 true,
    .unlink [97]]

theorem nameSpace_follows_namingRun :
    ∃ last files' entries',
      run (sfsStep fourPages) (formattedState fourPages) namingRun = some last ∧
      Follows NameStep [] namingRun entries' ∧ Holds fourPages last.chip files' entries' ∧
      ∀ filename, vfsEepromOpen fourPages last.chip filename true =
        some ((entries'.find? fun entry => entry.name == cString filename).map
          fun entry => ⟨entry.page, 0⟩) :=
  nameSpace_follows fourPages (formattedState fourPages) [] [] holds_formattedState namingRun
    (by decide +kernel)

end Ethersex.Sfs

import Ethersex.EepromPageAccountingRuns
import Ethersex.EepromWriteLog

/-!
# Files that survive on the EEPROM

A chip is compared with an earlier one.  As long as the file list leads to the
file page of every file but one, with the same names ahead of it as before, and
the data pages of these files are untouched, they can be opened and read as
before.  Creating further files keeps this.
-/

namespace Ethersex.Sfs

open ByteMemory LinkedSegments

section FileList

variable {geometry : Geometry} {chip : Chip} {listed : List Nat}

/-- The walk ends at the first file sought.  A page that is no file ends the list
like a null link. -/
theorem findFileFrom_eq {filename : Option (List UInt8)} {pages : List Nat}
    {fuel inode previous target : Nat}
    (list : Segment (fun page => nextFile (chip page)) inode pages target)
    (usable : ∀ page ∈ pages, 0 < page ∧ page < geometry.pageCount ∧
      pageMagic (chip page) = magicFile)
    (ended : target = 0 ∨ pageMagic (readPage geometry chip target) ≠ magicFile)
    (enough : pages.length < fuel) :
    (findFileFrom geometry chip filename fuel inode previous).map Prod.fst =
      some ((pages.find? fun page => isSought (chip page) filename).getD 0) := by
  induction pages generalizing fuel inode previous with
  | nil =>
      obtain ⟨fuel, rfl⟩ := Nat.exists_eq_succ_of_ne_zero (Nat.ne_of_gt enough)
      have targetEq : inode = target := list
      subst targetEq
      rw [findFileFrom]
      by_cases zero : inode = 0
      · rw [if_pos zero]
        rfl
      · rw [if_neg zero]
        dsimp only
        rw [if_pos (ended.resolve_left zero)]
        rfl
  | cons page pages ih =>
      obtain ⟨fuel, rfl⟩ := Nat.exists_eq_succ_of_ne_zero (Nat.ne_zero_of_lt enough)
      obtain ⟨rfl, rest⟩ := list
      obtain ⟨positive, inRange, magic⟩ := usable inode List.mem_cons_self
      rw [findFileFrom, if_neg (by omega), readPage_of_lt inRange]
      dsimp only
      rw [if_neg (not_not_intro magic)]
      cases sought : isSought (chip inode) filename with
      | true =>
          simp only [List.find?_cons, sought]
          rfl
      | false =>
          simp only [List.find?_cons, sought]
          apply ih rest (fun other member => usable other (List.mem_cons_of_mem _ member))
          rw [List.length_cons] at enough
          omega

theorem length_le_of_usable (nodup : listed.Nodup)
    (usable : ∀ page ∈ listed, page < geometry.pageCount) :
    listed.length ≤ geometry.pageCount := by
  have subset : listed ⊆ List.range geometry.pageCount :=
    fun page member => List.mem_range.mpr (usable page member)
  have length := List.Nodup.length_le_of_subset nodup subset
  rw [List.length_range] at length
  exact length

theorem Lists.length_le (lists : Lists geometry chip listed) :
    listed.length ≤ geometry.pageCount :=
  length_le_of_usable lists.nodup fun page member => (lists.usable page member).2.1

theorem Lists.findFile (lists : Lists geometry chip listed) (filename : Option (List UInt8)) :
    (vfsEepromFindFile geometry chip filename).map Prod.fst =
      some ((listed.find? fun page => isSought (chip page) filename).getD 0) := by
  rw [vfsEepromFindFile, readPage_of_lt geometry.pageCount_pos]
  exact findFileFrom_eq lists.segment.2 lists.usable (Or.inl rfl)
    (Nat.lt_succ_of_le lists.length_le)

theorem vfsEepromOpen_eq (geometry : Geometry) (chip : Chip) (filename : List UInt8)
    (allocated : Bool) :
    vfsEepromOpen geometry chip filename allocated =
      ((vfsEepromFindFile geometry chip (some filename)).map Prod.fst).map
        fun inode => newHandle inode allocated := by
  rw [vfsEepromOpen, Option.map_map]
  rfl

theorem Lists.open (lists : Lists geometry chip listed) (filename : List UInt8) :
    vfsEepromOpen geometry chip filename true =
      some ((listed.find? fun page => storedName (chip page) == cString filename).map
        fun page => ⟨page, 0⟩) := by
  rw [vfsEepromOpen_eq, lists.findFile]
  cases found : listed.find? fun page => isSought (chip page) (some filename) with
  | none =>
      have foundName : (listed.find? fun page => storedName (chip page) == cString filename) =
        none := found
      rw [foundName]
      rfl
  | some page =>
      have foundName : (listed.find? fun page => storedName (chip page) == cString filename) =
        some page := found
      have positive := (lists.usable page (List.mem_of_find?_eq_some found)).1
      rw [foundName]
      change some (newHandle page true) = some (some ⟨page, 0⟩)
      rw [newHandle, if_pos ⟨by omega, rfl⟩]

end FileList

def SameButLink (old new : Memory) : Prop :=
  ∀ index, index < 3 ∨ 5 ≤ index → new index = old index

namespace SameButLink

variable {old new : Memory}

theorem refl (old : Memory) : SameButLink old old :=
  fun _ _ => rfl

theorem trans {third : Memory} (same : SameButLink old new) (same' : SameButLink new third) :
    SameButLink old third :=
  fun index apart => (same' index apart).trans (same index apart)

theorem link (same : SameButLink old new) (value : Nat) :
    SameButLink old (writeBlock new 3 (wordBytes value)) := by
  intro index apart
  have length : (wordBytes value).length = 2 := rfl
  rw [writeBlock_outside (by omega)]
  exact same index apart

theorem pageMagic_eq (same : SameButLink old new) : pageMagic new = pageMagic old :=
  same 0 (by decide)

theorem nextPage_eq (same : SameButLink old new) : nextPage new = nextPage old := by
  rw [nextPage, nextPage, readWord, readWord, same 1 (by decide), same 2 (by decide)]

theorem storedName_eq (same : SameButLink old new) : storedName new = storedName old := by
  rw [storedName, storedName]
  congr 1
  apply readBlock_congr
  intro index above _
  exact same index (Or.inr above)

theorem isFormatted_eq (same : SameButLink old new) : isFormatted new = isFormatted old := by
  rw [isFormatted, isFormatted, same.pageMagic_eq, readWord, readWord, readWord, readWord,
    same 5 (by decide), same 6 (by decide), same 7 (by decide), same 8 (by decide),
    same 9 (by decide)]

end SameButLink

/-- A formatted chip with a file list and a chain of data pages for each file.
Pages that belong to no file may hold anything. -/
structure WellFormed (geometry : Geometry) (chip : Chip) (files : List FileEntry) : Prop where
  formatted : isFormatted (chip 0) = true
  noPages : nextPage (chip 0) = 0
  fileList : Segment (fun page => nextFile (chip page)) 0 (0 :: files.map FileEntry.page) 0
  chains : ∀ file ∈ files, Segment (fun page => nextPage (chip page)) file.page file.pages 0
  nodup : (pagesOf files).Nodup
  inRange : ∀ page ∈ pagesOf files, 0 < page ∧ page < geometry.pageCount
  fileMagic : ∀ file ∈ files, pageMagic (chip file.page) = magicFile
  dataMagic : ∀ file ∈ files, ∀ page ∈ file.chain, pageMagic (chip page) = magicData
  terminated : ∀ file ∈ files, chip file.page (pageSize - 1) = 0

section WellFormed

variable {geometry : Geometry} {chip : Chip} {files : List FileEntry}

theorem pageMagic_of_isFormatted {page : Memory} (formatted : isFormatted page = true) :
    pageMagic page = magicSuperblock := by
  rw [isFormatted, Bool.and_eq_true, Bool.and_eq_true, Bool.and_eq_true] at formatted
  exact beq_iff_eq.mp formatted.1.1.1

theorem WellFormed.lists (wellFormed : WellFormed geometry chip files) :
    Lists geometry chip (files.map FileEntry.page) := by
  constructor
  · exact wellFormed.fileList
  · exact wellFormed.nodup.sublist (sublist_pagesOf_page files)
  · intro page member
    obtain ⟨positive, bound⟩ := wellFormed.inRange page ((sublist_pagesOf_page files).subset member)
    obtain ⟨file, inFiles, rfl⟩ := List.mem_map.mp member
    exact ⟨positive, bound, wellFormed.fileMagic file inFiles⟩

end WellFormed

/-- The pages of a chain are the same on two chips.  Behind the chain both read
the superblock. -/
structure ReadsAlike (geometry : Geometry) (old chip : Chip) (pages : List Nat) : Prop where
  inRange : ∀ page ∈ 0 :: pages, page < geometry.pageCount
  closed : ∀ page ∈ 0 :: pages, nextPage (old page) ∈ 0 :: pages
  same : ∀ page ∈ pages, chip page = old page
  superblock : pageMagic (old 0) = magicSuperblock ∧ SameButLink (old 0) (chip 0)

section Reading

variable {geometry : Geometry} {old chip : Chip} {pages : List Nat}

theorem ReadsAlike.nextPage_eq (alike : ReadsAlike geometry old chip pages) {page : Nat}
    (member : page ∈ 0 :: pages) : nextPage (chip page) = nextPage (old page) := by
  rcases List.mem_cons.mp member with rfl | inPages
  · exact alike.superblock.2.nextPage_eq
  · rw [alike.same page inPages]

theorem ReadsAlike.skipPages (alike : ReadsAlike geometry old chip pages) (count : Nat) {page : Nat}
    (member : page ∈ 0 :: pages) :
    skipPages geometry chip count page = skipPages geometry old count page ∧
      skipPages geometry old count page ∈ 0 :: pages := by
  induction count generalizing page with
  | zero => exact ⟨rfl, member⟩
  | succ count ih =>
      rw [Sfs.skipPages, Sfs.skipPages, readPage_of_lt (alike.inRange page member),
        readPage_of_lt (alike.inRange page member), alike.nextPage_eq member]
      exact ih (alike.closed page member)

theorem ReadsAlike.readData (alike : ReadsAlike geometry old chip pages)
    (fuel : Nat) {page : Nat} (offset size : Nat) (copied : List UInt8)
    (member : page ∈ 0 :: pages) :
    readData geometry chip fuel page offset size copied =
      readData geometry old fuel page offset size copied := by
  induction fuel generalizing page offset copied with
  | zero => rfl
  | succ fuel ih =>
      rw [Sfs.readData, Sfs.readData, readPage_of_lt (alike.inRange page member),
        readPage_of_lt (alike.inRange page member)]
      dsimp only
      rcases List.mem_cons.mp member with rfl | inPages
      · -- the superblock is not a data page
        have notData : magicSuperblock ≠ magicData := by decide
        rw [alike.superblock.2.pageMagic_eq, alike.superblock.1, if_pos notData, if_pos notData]
      · have next := alike.closed page member
        rw [alike.same page inPages]
        simp only [ih _ _ next]

/-- A file is read as before if its first page and the pages of its chain are
the same. -/
theorem ReadsAlike.read (alike : ReadsAlike geometry old chip pages) {handle : Handle}
    (inRange : handle.filePage < geometry.pageCount)
    (first : nextPage (chip handle.filePage) = nextPage (old handle.filePage))
    (member : nextPage (old handle.filePage) ∈ 0 :: pages) (size : Nat) :
    vfsEepromRead geometry chip handle size = vfsEepromRead geometry old handle size := by
  obtain ⟨skipEq, skipMember⟩ := alike.skipPages (handle.offset.toNat / dataSize) member
  rw [vfsEepromRead, vfsEepromRead, readPage_of_lt inRange, readPage_of_lt inRange]
  dsimp only
  rw [first, skipEq, alike.readData _ _ _ _ skipMember]

end Reading

/-- The files of an old chip, but for the one at the involved page, are on the
new chip. -/
structure Survives (geometry : Geometry) (old : Chip) (files : List FileEntry) (involved : Nat)
    (chip : Chip) (listed : List Nat) : Prop where
  superblock : SameButLink (old 0) (chip 0)
  lists : Lists geometry chip listed
  heads : ∀ file ∈ files, file.page ≠ involved → SameButLink (old file.page) (chip file.page)
  chains : ∀ file ∈ files, file.page ≠ involved → ∀ page ∈ file.chain, chip page = old page
  ahead : ∀ front file back, files = front ++ file :: back → file.page ≠ involved →
    ∃ before after, listed = before ++ file.page :: after ∧
      ∀ page ∈ before, page ∈ front.map FileEntry.page ∧
        storedName (chip page) = storedName (old page)

/-- Every name that opened a file at another page than the involved one opens
this file, and all of it reads as before. -/
def Intact (geometry : Geometry) (old : Chip) (involved : Nat) (chip : Chip) : Prop :=
  ∀ filename handle, vfsEepromOpen geometry old filename true = some (some handle) →
    handle.filePage ≠ involved →
      vfsEepromOpen geometry chip filename true = some (some handle) ∧
      ∀ offset size, vfsEepromRead geometry chip { handle with offset := offset } size =
        vfsEepromRead geometry old { handle with offset := offset } size

section Survival

variable {geometry : Geometry} {old chip : Chip} {files : List FileEntry} {involved : Nat}
  {listed : List Nat}

theorem Survives.openFile (survives : Survives geometry old files involved chip listed)
    (wellFormed : WellFormed geometry old files) {filename : List UInt8} {handle : Handle}
    (opened : vfsEepromOpen geometry old filename true = some (some handle))
    (notInvolved : handle.filePage ≠ involved) :
    vfsEepromOpen geometry chip filename true = some (some handle) ∧
      ∃ file ∈ files, handle.filePage = file.page := by
  rw [wellFormed.lists.open, Option.some_inj] at opened
  obtain ⟨page, found, rfl⟩ := Option.map_eq_some_iff.mp opened
  obtain ⟨sought, before, after, split, notBefore⟩ := List.find?_eq_some_iff_append.mp found
  obtain ⟨front, rest, rfl, rfl, restEq⟩ := List.map_eq_append_iff.mp split
  obtain ⟨file, back, rfl, rfl, rfl⟩ := List.map_eq_cons_iff.mp restEq
  have member : file ∈ front ++ file :: back := List.mem_append_right _ List.mem_cons_self
  obtain ⟨ahead, behind, listedEq, sameNames⟩ :=
    survives.ahead front file back rfl notInvolved
  have foundNow : (listed.find? fun page => storedName (chip page) == cString filename) =
      some file.page := by
    rw [List.find?_eq_some_iff_append]
    refine ⟨?_, ahead, behind, listedEq, ?_⟩
    · rw [(survives.heads file member notInvolved).storedName_eq]
      exact sought
    · intro page inAhead
      obtain ⟨inFront, nameEq⟩ := sameNames page inAhead
      rw [nameEq]
      exact notBefore page inFront
  rw [survives.lists.open, foundNow]
  exact ⟨rfl, file, member, rfl⟩

theorem Survives.intact (survives : Survives geometry old files involved chip listed)
    (wellFormed : WellFormed geometry old files) : Intact geometry old involved chip := by
  intro filename handle opened notInvolved
  obtain ⟨openedNow, file, member, isFile⟩ := survives.openFile wellFormed opened notInvolved
  refine ⟨openedNow, fun offset size => ?_⟩
  rw [isFile] at notInvolved
  have inPages : ∀ page ∈ file.pages, page < geometry.pageCount :=
    fun page inFile => (wellFormed.inRange page (page_mem_pagesOf member inFile)).2
  have chain := wellFormed.chains file member
  have alike : ReadsAlike geometry old chip file.chain := by
    constructor
    · intro page inChain
      rcases List.mem_cons.mp inChain with rfl | inChain
      · exact geometry.pageCount_pos
      · exact inPages page (List.mem_cons_of_mem _ inChain)
    · intro page inChain
      rcases List.mem_cons.mp inChain with rfl | inChain
      · rw [wellFormed.noPages]
        exact List.mem_cons_self
      · have next := chain.2.next_mem inChain
        exact next
    · exact survives.chains file member notInvolved
    · exact ⟨pageMagic_of_isFormatted wellFormed.formatted, survives.superblock⟩
  have first : nextPage (old file.page) ∈ 0 :: file.chain := by
    cases chainEq : file.chain with
    | nil =>
        have ended := chain.2
        rw [chainEq] at ended
        rw [show nextPage (old file.page) = 0 from ended]
        exact List.mem_cons_self
    | cons page rest =>
        have next := chain.2
        rw [chainEq] at next
        rw [show nextPage (old file.page) = page from next.1]
        exact List.mem_cons_of_mem _ List.mem_cons_self
  have sameFirst := (survives.heads file member notInvolved).nextPage_eq
  apply alike.read
  · change handle.filePage < geometry.pageCount
    rw [isFile]
    exact inPages file.page List.mem_cons_self
  · change nextPage (chip handle.filePage) = nextPage (old handle.filePage)
    rw [isFile]
    exact sameFirst
  · change nextPage (old handle.filePage) ∈ 0 :: file.chain
    rw [isFile]
    exact first

/-- The reboot finds a formatted chip and changes nothing. -/
theorem Survives.init (survives : Survives geometry old files involved chip listed)
    (wellFormed : WellFormed geometry old files) : vfsEepromInit geometry chip = chip := by
  have formatted : isFormatted (readPage geometry chip 0) = true := by
    rw [readPage_of_lt geometry.pageCount_pos, survives.superblock.isFormatted_eq]
    exact wellFormed.formatted
  rw [vfsEepromInit, if_pos formatted]

end Survival

section NewFiles

variable {geometry : Geometry} {old chip chip' : Chip} {files : List FileEntry}
  {file : FileEntry} {involved : Nat} {listed : List Nat}

theorem WellFormed.survives (wellFormed : WellFormed geometry old files) (involved : Nat) :
    Survives geometry old files involved old (files.map FileEntry.page) := by
  constructor
  · exact SameButLink.refl _
  · exact wellFormed.lists
  · exact fun _ _ _ => SameButLink.refl _
  · exact fun _ _ _ _ _ => rfl
  · rintro front file back rfl _
    refine ⟨front.map FileEntry.page, back.map FileEntry.page, ?_, fun page member => ?_⟩
    · rw [List.map_append, List.map_cons]
    · exact ⟨member, rfl⟩

/-- Pages of surviving files are not free. -/
theorem Survives.not_free (survives : Survives geometry old files involved chip listed)
    (wellFormed : WellFormed geometry old files) {inode : Nat}
    (free : isFreeMagic (pageMagic (chip inode)) = true) :
    inode ∉ listed ∧
      ∀ file ∈ files, file.page ≠ involved → ∀ page ∈ file.chain, page ≠ inode := by
  constructor
  · intro member
    rw [(survives.lists.usable inode member).2.2] at free
    exact absurd free (by decide)
  · rintro file member notInvolved page inChain rfl
    rw [survives.chains file member notInvolved page inChain,
      wellFormed.dataMagic file member page inChain] at free
    exact absurd free (by decide)

/-- No data page of a surviving file is on the list. -/
theorem Survives.not_listed (survives : Survives geometry old files involved chip listed)
    (wellFormed : WellFormed geometry old files) (member : file ∈ files)
    (notInvolved : file.page ≠ involved) {page : Nat} (inChain : page ∈ file.chain) :
    page ∉ 0 :: listed := by
  intro inList
  rcases List.mem_cons.mp inList with rfl | inList
  · have inPages := page_mem_pagesOf member (List.mem_cons_of_mem file.page inChain)
    exact Nat.lt_irrefl 0 (wellFormed.inRange 0 inPages).1
  · have magic := (survives.lists.usable page inList).2.2
    rw [survives.chains file member notInvolved page inChain,
      wellFormed.dataMagic file member page inChain] at magic
    exact absurd magic (by decide)

theorem Survives.head_mem (survives : Survives geometry old files involved chip listed)
    (member : file ∈ files) (notInvolved : file.page ≠ involved) : file.page ∈ listed := by
  obtain ⟨front, back, filesEq⟩ := List.append_of_mem member
  obtain ⟨before, after, rfl, _⟩ := survives.ahead front file back filesEq notInvolved
  exact List.mem_append_right _ List.mem_cons_self

/-- A new file behind the last one. -/
theorem Survives.addFile (survives : Survives geometry old files involved chip listed)
    (wellFormed : WellFormed geometry old files) {inode : Nat} (positive : 0 < inode)
    (bound : inode < geometry.pageCount) (free : isFreeMagic (pageMagic (chip inode)) = true)
    (filename : List UInt8) :
    Survives geometry old files involved (writeSlice geometry (writeSlice geometry chip
      (listed.getLastD 0) 3 (wordBytes inode)) inode 0 (filePageBytes filename 0))
      (listed ++ [inode]) := by
  obtain ⟨unlisted, unused⟩ := survives.not_free wellFormed free
  have lists := survives.lists.addFile positive bound unlisted filename
  have lastMember : listed.getLastD 0 ∈ 0 :: listed := List.getLastD_mem_cons
  have last := anchored_of_notMem positive
    (fun page member => (survives.lists.usable page member).2.1) unlisted _ lastMember
  generalize listed.getLastD 0 = lastFile at lists lastMember last ⊢
  have linked := fileLinked chip bound last filename
  generalize writeSlice geometry (writeSlice geometry chip lastFile 3 (wordBytes inode)) inode 0
    (filePageBytes filename 0) = chip' at lists linked ⊢
  have same : ∀ page, page ≠ inode → SameButLink (chip page) (chip' page) := by
    intro page notNew
    by_cases isLast : page = lastFile
    · rw [isLast, linked.link]
      exact (SameButLink.refl _).link inode
    · rw [linked.other page isLast notNew]
      exact SameButLink.refl _
  have listedNe : ∀ page ∈ listed, page ≠ inode := by
    rintro page member rfl
    exact unlisted member
  constructor
  · exact survives.superblock.trans (same 0 (by omega))
  · exact lists
  · intro file member notInvolved
    have notNew := listedNe _ (survives.head_mem member notInvolved)
    exact (survives.heads file member notInvolved).trans (same file.page notNew)
  · intro file member notInvolved page inChain
    have notLast : page ≠ lastFile := by
      rintro rfl
      exact survives.not_listed wellFormed member notInvolved inChain lastMember
    rw [linked.other page notLast (unused file member notInvolved page inChain)]
    exact survives.chains file member notInvolved page inChain
  · intro front file back filesEq notInvolved
    obtain ⟨before, after, listedEq, sameNames⟩ :=
      survives.ahead front file back filesEq notInvolved
    refine ⟨before, after ++ [inode], by rw [listedEq, List.append_assoc]; rfl, ?_⟩
    intro page member
    obtain ⟨inFront, nameEq⟩ := sameNames page member
    have notNew : page ≠ inode := by
      apply listedNe
      rw [listedEq]
      exact List.mem_append_left _ member
    rw [(same page notNew).storedName_eq]
    exact ⟨inFront, nameEq⟩

/-- A name that cannot be opened is not found. -/
theorem findFile_of_open_none {filename : List UInt8}
    (new : vfsEepromOpen geometry chip filename true = some none) :
    ∃ previous, vfsEepromFindFile geometry chip (some filename) = some (0, previous) := by
  obtain ⟨⟨found, previous⟩, search, noHandle⟩ := Option.map_eq_some_iff.mp new
  have notFound : found = 0 := by
    by_contra isFound
    dsimp only at noHandle
    rw [newHandle, if_pos ⟨isFound, rfl⟩] at noHandle
    cases noHandle
  rw [notFound] at search
  exact ⟨previous, search⟩

/-- What the creation of a file does that cannot be opened. -/
theorem vfsEepromCreate_new {filename : List UInt8} {allocated : Bool} {handle : Option Handle}
    (new : vfsEepromOpen geometry chip filename true = some none)
    (created : vfsEepromCreate geometry chip filename allocated = some (chip', handle)) :
    chip' = chip ∨ ∃ inode lastFile previous,
      vfsEepromFindFreePage geometry chip 0 = some inode ∧ inode ≠ 0 ∧
      vfsEepromFindFile geometry chip none = some (lastFile, previous) ∧
      chip' = writeSlice geometry (writeSlice geometry chip lastFile 3 (wordBytes inode)) inode 0
        (filePageBytes filename 0) := by
  obtain ⟨⟨_, inode⟩, fileCreated, resultEq⟩ := Option.map_eq_some_iff.mp created
  obtain ⟨rfl, _⟩ := Prod.mk.inj resultEq
  obtain ⟨previous, search⟩ := findFile_of_open_none new
  rw [createFile, search, Option.bind_some] at fileCreated
  dsimp only at fileCreated
  rw [if_pos rfl] at fileCreated
  obtain ⟨page, free, fileCreated⟩ := Option.bind_eq_some_iff.mp fileCreated
  split at fileCreated
  next =>
    cases Option.some.inj fileCreated
    exact Or.inl rfl
  next notZero =>
    obtain ⟨⟨lastFile, before⟩, findLast, resultEq⟩ := Option.map_eq_some_iff.mp fileCreated
    obtain ⟨rfl, _⟩ := Prod.mk.inj resultEq
    exact Or.inr ⟨page, lastFile, before, free, notZero, findLast, rfl⟩

theorem Survives.superblockMagic (survives : Survives geometry old files involved chip listed)
    (wellFormed : WellFormed geometry old files) : pageMagic (chip 0) = magicSuperblock := by
  rw [survives.superblock.pageMagic_eq]
  exact pageMagic_of_isFormatted wellFormed.formatted

/-- The two writes of a new file. -/
theorem Survives.linkNew (survives : Survives geometry old files involved chip listed)
    (wellFormed : WellFormed geometry old files) {inode lastFile previous : Nat}
    (free : vfsEepromFindFreePage geometry chip 0 = some inode) (notZero : inode ≠ 0)
    (findLast : vfsEepromFindFile geometry chip none = some (lastFile, previous))
    (filename : List UInt8) :
    Survives geometry old files involved (writeSlice geometry (writeSlice geometry chip lastFile 3
      (wordBytes inode)) inode 0 (filePageBytes filename 0)) (listed ++ [inode]) := by
  rcases findFreeFrom_spec (survives.superblockMagic wellFormed) (Nat.zero_le _) free with
    zero | ⟨positive, bound, isFree⟩
  · exact absurd zero notZero
  · rw [survives.lists.findLast findLast]
    exact survives.addFile wellFormed positive bound isFree filename

theorem Survives.createsNew {first : Chip}
    (survives : Survives geometry old files involved first listed)
    (wellFormed : WellFormed geometry old files) (creates : CreatesNew geometry first chip) :
    ∃ listed', Survives geometry old files involved chip listed' := by
  induction creates with
  | refl => exact ⟨listed, survives⟩
  | step earlier new created ih =>
      obtain ⟨listed', survives'⟩ := ih
      rcases vfsEepromCreate_new new created with
        rfl | ⟨inode, lastFile, previous, free, notZero, findLast, rfl⟩
      · exact ⟨listed', survives'⟩
      · exact ⟨_, survives'.linkNew wellFormed free notZero findLast _⟩

end NewFiles

end Ethersex.Sfs

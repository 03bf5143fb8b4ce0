import Ethersex.EepromQuietWrites

/-!
# Power loss in the EEPROM file system

Power is lost between two writes of a call.  The other files survive, also later
creations, with one exception: a new file is linked to the list before its page
is written, and the page behind a link that is no file page yet ends the list
like a null link.  The search of the last file then finds none, and the next new
file is linked to the superblock, in the place of all others.
-/

namespace Ethersex.Sfs

open ByteMemory LinkedSegments

variable {geometry : Geometry} {old chip chip' : Chip} {files front back : List FileEntry}
  {file : FileEntry} {involved : Nat} {listed : List Nat}

theorem writeBlock_wholePage_link (memory : Memory) (value : Nat) :
    writeBlock memory 0 (readBlock (writeBlock memory 3 (wordBytes value)) 0 pageSize) =
      writeBlock memory 3 (wordBytes value) := by
  funext index
  by_cases inside : index < pageSize
  · exact writeBlock_wholePage inside
  · rw [pageSize] at inside
    have length : (wordBytes value).length = 2 := rfl
    rw [writeBlock_outside (by rw [length_readBlock, pageSize]; omega),
      writeBlock_outside (by omega)]

theorem mem_clearForUnlinkWrites {inode fuel page : Nat} {write : SliceWrite}
    (member : write ∈ clearForUnlinkWrites geometry inode fuel chip page) :
    write.page = inode := by
  induction fuel generalizing chip page with
  | zero => cases member
  | succ fuel ih =>
      rw [clearForUnlinkWrites] at member
      split at member
      next => cases member
      next =>
        rcases List.mem_cons.mp member with rfl | later
        · rfl
        · exact ih later

/-- Writes to one page keep all the others. -/
theorem applyWrites_other {page other : Nat} {writes : List SliceWrite}
    (bound : page < geometry.pageCount) (atPage : ∀ write ∈ writes, write.page = page)
    (different : other ≠ page) : applyWrites geometry chip writes other = chip other := by
  induction writes generalizing chip with
  | nil => rfl
  | cons write writes ih =>
      have here := atPage write List.mem_cons_self
      rw [applyWrites_cons, ih fun later member => atPage later (List.mem_cons_of_mem _ member),
        applyWrite, here, writeSlice_other bound different]

/-- The file is taken off the list, and its page may hold anything. -/
theorem WellFormed.survives_unlink (wellFormed : WellFormed geometry old (front ++ file :: back))
    {previous : Nat} (previousEq : previous = (front.map FileEntry.page).getLastD 0)
    (others : ∀ page, page ≠ file.page → chip page = writeSlice geometry old previous 0
      (readBlock (writeBlock (old previous) 3 (wordBytes (nextFile (old file.page)))) 0 pageSize)
      page) :
    Survives geometry old (front ++ file :: back) file.page chip
      (front.map FileEntry.page ++ back.map FileEntry.page) := by
  have lists := wellFormed.lists
  rw [List.map_append, List.map_cons] at lists
  have unlinked := lists.unlinkFile previousEq
  obtain ⟨nodup, apart⟩ := wellFormed.disjoint
  have listedNe : ∀ page ∈ 0 :: (front.map FileEntry.page ++ back.map FileEntry.page),
      page ≠ file.page := by
    rintro page member rfl
    apply apart file.page List.mem_cons_self
    rcases List.mem_cons.mp member with zero | inList
    · rw [zero]
      exact List.mem_cons_self
    · apply List.mem_cons_of_mem
      rcases List.mem_append.mp inList with inFront | inBack
      · exact List.mem_append_left _ ((sublist_pagesOf_page front).subset inFront)
      · exact List.mem_append_right _ ((sublist_pagesOf_page back).subset inBack)
  have previousMember : previous ∈ 0 :: front.map FileEntry.page := by
    rw [previousEq]
    exact List.getLastD_mem_cons
  have previousBound : previous < geometry.pageCount := by
    rcases List.mem_cons.mp previousMember with rfl | inFront
    · exact geometry.pageCount_pos
    · exact (lists.usable previous (List.mem_append_left _ inFront)).2.1
  have same : ∀ page, page ≠ file.page → SameButLink (old page) (chip page) := by
    intro page notFile
    rw [others page notFile]
    by_cases isPrevious : page = previous
    · rw [isPrevious, writeSlice_same previousBound, writeBlock_wholePage_link]
      exact (SameButLink.refl _).link _
    · rw [writeSlice_other previousBound isPrevious]
      exact SameButLink.refl _
  constructor
  · exact same 0 (listedNe 0 List.mem_cons_self)
  · apply unlinked.congr
    intro page member
    rw [others page (listedNe page member)]
    exact ⟨rfl, rfl⟩
  · exact fun other _ notFile => same other.page notFile
  · intro other member notFile page inChain
    have magic := wellFormed.dataMagic other member page inChain
    have notOwn : page ≠ file.page := by
      rintro rfl
      rw [wellFormed.fileMagic file (List.mem_append_right _ List.mem_cons_self)] at magic
      exact absurd magic (by decide)
    have notPrevious : page ≠ previous := by
      rintro rfl
      rcases List.mem_cons.mp previousMember with rfl | inFront
      · have inPages := page_mem_pagesOf member (List.mem_cons_of_mem other.page inChain)
        exact Nat.lt_irrefl 0 (wellFormed.inRange 0 inPages).1
      · rw [(lists.usable page (List.mem_append_left _ inFront)).2.2] at magic
        exact absurd magic (by decide)
    rw [others page notOwn, writeSlice_other previousBound notPrevious]
  · intro front' other back' filesEq notFile
    -- the list without the file, split at the other file
    have keptNe : ∀ page ∈ front.map FileEntry.page ++ back.map FileEntry.page,
        decide (page ≠ file.page) = true :=
      fun page member => decide_eq_true (listedNe page (List.mem_cons_of_mem _ member))
    have filtered : ((front ++ file :: back).map FileEntry.page).filter
        (fun page => decide (page ≠ file.page)) =
          front.map FileEntry.page ++ back.map FileEntry.page := by
      rw [List.map_append, List.map_cons, List.filter_append,
        List.filter_cons_of_neg (by simp), ← List.filter_append]
      exact List.filter_eq_self.mpr keptNe
    refine ⟨(front'.map FileEntry.page).filter (fun page => decide (page ≠ file.page)),
      (back'.map FileEntry.page).filter (fun page => decide (page ≠ file.page)), ?_, ?_⟩
    · rw [← filtered, filesEq, List.map_append, List.map_cons, List.filter_append,
        List.filter_cons_of_pos (by simpa using notFile)]
    · intro page member
      obtain ⟨inFront, notOwn⟩ := List.mem_filter.mp member
      exact ⟨inFront, (same page (of_decide_eq_true notOwn)).storedName_eq⟩

/-- The file page a call works on, zero for a new name. -/
def FileOperation.involvedPage (geometry : Geometry) (chip : Chip) : FileOperation → Nat
  | .create filename =>
      ((vfsEepromFindFile geometry chip (some filename)).map Prod.fst).getD 0
  | .write handle _ => handle.filePage
  | .unlink filename =>
      ((vfsEepromFindFile geometry chip (some filename)).map Prod.fst).getD 0

/-- A handle that is written through belongs to one of the files. -/
def FileOperation.OnFile (files : List FileEntry) : FileOperation → Prop
  | .write handle _ => ∃ file ∈ files, handle.filePage = file.page
  | _ => True

/-- Power is lost when a new file is linked to a list of files, but its page is
not yet written. -/
def CutBehindLink (geometry : Geometry) (chip : Chip) : FileOperation → Nat → Prop
  | .create filename, count =>
      count = 1 ∧ vfsEepromOpen geometry chip filename true = some none ∧
        (∃ inode, inode ≠ 0 ∧ vfsEepromFindFreePage geometry chip 0 = some inode) ∧
        nextFile (chip 0) ≠ 0
  | _, _ => False

/-- A name on a well-formed chip: no file has it, or the first one that has it is
found. -/
theorem WellFormed.findName (wellFormed : WellFormed geometry old files)
    (filename : List UInt8) :
    (∃ previous, vfsEepromFindFile geometry old (some filename) = some (0, previous)) ∨
      ∃ front file back, files = front ++ file :: back ∧ file.page ≠ 0 ∧
        vfsEepromFindFile geometry old (some filename) =
          some (file.page, (front.map FileEntry.page).getLastD 0) ∧
        storedName (old file.page) = cString filename := by
  have ends := wellFormed.lists.findFile (some filename)
  obtain ⟨⟨inode, previous⟩, search, _⟩ := Option.map_eq_some_iff.mp ends
  have walk := search
  rw [vfsEepromFindFile, readPage_of_lt geometry.pageCount_pos] at walk
  rcases findFileFrom_spec wellFormed.fileList.2 wellFormed.lists.usable walk with
    ⟨zero, _⟩ | ⟨before, after, split, previousEq, sought⟩
  · rw [show inode = 0 from zero] at search
    exact Or.inl ⟨previous, search⟩
  · obtain ⟨front, rest, rfl, rfl, restEq⟩ := List.map_eq_append_iff.mp split
    obtain ⟨file, back, rfl, pageEq, rfl⟩ := List.map_eq_cons_iff.mp restEq
    dsimp only at pageEq previousEq sought
    subst pageEq previousEq
    have inFile : file.page ∈ pagesOf (front ++ file :: back) :=
      mem_pagesOf_split.mpr (Or.inl List.mem_cons_self)
    have positive := (wellFormed.inRange file.page inFile).1
    exact Or.inr ⟨front, file, back, rfl, by omega, search, beq_iff_eq.mp sought⟩

theorem WellFormed.survives_createNew (wellFormed : WellFormed geometry old files)
    (filename : List UInt8) {count : Nat}
    (notCut : count = 1 → ∀ inode, vfsEepromFindFreePage geometry old 0 = some inode → inode = 0) :
    ∃ listed, Survives geometry old files 0
      (applyWrites geometry old ((createNewWrites geometry old filename).take count)) listed := by
  have start := wellFormed.survives 0
  have unchanged : ∃ listed, Survives geometry old files 0
      (applyWrites geometry old (([] : List SliceWrite).take count)) listed := by
    rw [List.take_nil]
    exact ⟨_, start⟩
  rw [createNewWrites]
  split
  next inode lastFile previous free findLast =>
    split
    · exact unchanged
    next notZero =>
      rcases count with _ | _ | count
      · exact ⟨_, start⟩
      · exact absurd (notCut rfl inode free) notZero
      · rw [List.take_of_length_le (by simp)]
        exact ⟨_, start.linkNew wellFormed free notZero findLast filename⟩
  next => exact unchanged

/-- The page before a file on the list. -/
theorem WellFormed.previous_lt (wellFormed : WellFormed geometry old (front ++ file :: back)) :
    (front.map FileEntry.page).getLastD 0 < geometry.pageCount := by
  have member : (front.map FileEntry.page).getLastD 0 ∈ 0 :: front.map FileEntry.page :=
    List.getLastD_mem_cons
  rcases List.mem_cons.mp member with zero | inFront
  · rw [zero]
    exact geometry.pageCount_pos
  · have inPages := List.mem_append_left (pagesOf back)
      ((sublist_pagesOf_page front).subset inFront)
    exact (wellFormed.inRange _ (mem_pagesOf_split.mpr (Or.inr inPages))).2

/-- From the first write of an unlink on, the file is off the list. -/
theorem WellFormed.survives_unlinkWrites
    (wellFormed : WellFormed geometry old (front ++ file :: back)) {filename : List UInt8}
    (notZero : file.page ≠ 0)
    (search : vfsEepromFindFile geometry old (some filename) =
      some (file.page, (front.map FileEntry.page).getLastD 0)) (count : Nat) :
    Survives geometry old (front ++ file :: back) file.page
      (applyWrites geometry old ((unlinkWrites geometry old filename).take (count + 1)))
      (front.map FileEntry.page ++ back.map FileEntry.page) := by
  have inFile : file.page ∈ pagesOf (front ++ file :: back) :=
    mem_pagesOf_split.mpr (Or.inl List.mem_cons_self)
  have bound := (wellFormed.inRange file.page inFile).2
  have previousBound := wellFormed.previous_lt
  rw [unlinkWrites, search]
  dsimp only
  rw [if_neg notZero, readPage_of_lt bound, readPage_of_lt previousBound]
  refine wellFormed.survives_unlink rfl fun page notFile => ?_
  rw [List.cons_append, List.take_succ_cons, applyWrites_cons]
  apply applyWrites_other bound _ notFile
  -- all later writes clear the file page
  intro write member
  rcases List.mem_cons.mp (List.mem_of_mem_take member) with rfl | clearing
  · rfl
  · exact mem_clearForUnlinkWrites clearing

theorem WellFormed.survives_unlinkFile
    (wellFormed : WellFormed geometry old (front ++ file :: back)) {filename : List UInt8}
    (notZero : file.page ≠ 0)
    (search : vfsEepromFindFile geometry old (some filename) =
      some (file.page, (front.map FileEntry.page).getLastD 0)) (count : Nat) :
    ∃ listed, Survives geometry old (front ++ file :: back) file.page
      (applyWrites geometry old ((unlinkWrites geometry old filename).take count)) listed := by
  cases count with
  | zero => exact ⟨_, wellFormed.survives file.page⟩
  | succ count => exact ⟨_, wellFormed.survives_unlinkWrites notZero search count⟩

theorem WellFormed.survives_operation (wellFormed : WellFormed geometry old files)
    {operation : FileOperation} (onFile : operation.OnFile files) {count : Nat}
    (someFile : nextFile (old 0) ≠ 0) (notCut : ¬CutBehindLink geometry old operation count) :
    ∃ listed, Survives geometry old files (operation.involvedPage geometry old)
      (applyWrites geometry old ((operation.writes geometry old).take count)) listed := by
  cases operation with
  | create filename =>
      rw [FileOperation.writes, FileOperation.involvedPage, createWrites]
      rcases wellFormed.findName filename with
        ⟨previous, search⟩ | ⟨front, file, back, rfl, notZero, search, sought⟩
      · have new : vfsEepromOpen geometry old filename true = some none := by
          rw [vfsEepromOpen, search]
          rfl
        rw [search]
        dsimp only
        rw [if_pos rfl]
        apply wellFormed.survives_createNew
        intro isOne inode free
        by_contra notZero
        exact notCut ⟨isOne, new, ⟨inode, notZero, free⟩, someFile⟩
      · rw [search]
        dsimp only
        rw [if_neg notZero]
        exact ⟨_, wellFormed.survives_quiet fun write member =>
          wellFormed.quiet_createAgain sought (List.mem_of_mem_take member)⟩
  | write handle data =>
      obtain ⟨file, member, isFile⟩ := onFile
      obtain ⟨front, back, rfl⟩ := List.append_of_mem member
      rw [FileOperation.involvedPage, isFile]
      exact ⟨_, wellFormed.survives_quiet fun write member =>
        wellFormed.ownChain.quiet_writeWrites _ isFile data.short (List.mem_of_mem_take member)⟩
  | unlink filename =>
      rw [FileOperation.writes, FileOperation.involvedPage]
      rcases wellFormed.findName filename with
        ⟨previous, search⟩ | ⟨front, file, back, rfl, notZero, search, _⟩
      · rw [unlinkWrites, search]
        dsimp only
        rw [if_pos rfl, List.take_nil]
        exact ⟨_, wellFormed.survives _⟩
      · have survives := wellFormed.survives_unlinkFile notZero search count
        rw [search]
        exact survives

theorem findFreeFrom_congr
    (same : ∀ page, pageMagic (readPage geometry chip' page) =
      pageMagic (readPage geometry chip page)) (suggested fuel page : Nat) :
    findFreeFrom geometry chip' suggested fuel page =
      findFreeFrom geometry chip suggested fuel page := by
  induction fuel generalizing page with
  | zero => rfl
  | succ fuel ih => rw [findFreeFrom, findFreeFrom, same page, ih]

/-- A list whose last file is linked to a page that is no file. -/
structure Dangling (geometry : Geometry) (chip : Chip) (listed : List Nat) (inode : Nat) :
    Prop where
  segment : Segment (fun page => nextFile (chip page)) 0 (0 :: listed) inode
  nodup : listed.Nodup
  usable : ∀ page ∈ listed, 0 < page ∧ page < geometry.pageCount ∧
    pageMagic (chip page) = magicFile
  target : inode ≠ 0 ∧ inode < geometry.pageCount ∧ pageMagic (chip inode) ≠ magicFile

theorem Dangling.findFile {inode : Nat} (dangling : Dangling geometry chip listed inode)
    (filename : Option (List UInt8)) :
    (vfsEepromFindFile geometry chip filename).map Prod.fst =
      some ((listed.find? fun page => isSought (chip page) filename).getD 0) := by
  have length := length_le_of_usable dangling.nodup
    fun page member => (dangling.usable page member).2.1
  rw [vfsEepromFindFile, readPage_of_lt geometry.pageCount_pos]
  apply findFileFrom_eq dangling.segment.2 dangling.usable _ (Nat.lt_succ_of_le length)
  rw [readPage_of_lt dangling.target.2.1]
  exact Or.inr dangling.target.2.2

/-- No file has a null link, so the search of the last file finds none. -/
theorem Dangling.findLast {inode : Nat} (dangling : Dangling geometry chip listed inode) :
    (vfsEepromFindFile geometry chip none).map Prod.fst = some 0 := by
  rw [dangling.findFile]
  have noneSought : (listed.find? fun page => isSought (chip page) none) = none := by
    rw [List.find?_eq_none]
    intro page member sought
    have zero : nextFile (chip page) = 0 := beq_iff_eq.mp sought
    have next : nextFile (chip page) ∈ inode :: listed := dangling.segment.2.next_mem member
    rw [zero] at next
    rcases List.mem_cons.mp next with isTarget | inList
    · exact dangling.target.1 isTarget.symm
    · exact Nat.lt_irrefl 0 (dangling.usable 0 inList).1
  rw [noneSought]
  rfl

/-- The link to the new page, and nothing more. -/
theorem WellFormed.dangling (wellFormed : WellFormed geometry old files)
    (someFile : files ≠ []) {inode : Nat} (positive : 0 < inode)
    (bound : inode < geometry.pageCount) (free : isFreeMagic (pageMagic (old inode)) = true)
    (linked : chip = writeSlice geometry old ((files.map FileEntry.page).getLastD 0) 3
      (wordBytes inode)) :
    Dangling geometry chip (files.map FileEntry.page) inode ∧
      ∀ page, SameButLink (old page) (chip page) := by
  have lists := wellFormed.lists
  obtain ⟨unlisted, _⟩ := (wellFormed.survives 0).not_free wellFormed free
  have notEmpty : files.map FileEntry.page ≠ [] := by
    intro empty
    exact someFile (List.map_eq_nil_iff.mp empty)
  generalize files.map FileEntry.page = listed at lists linked unlisted notEmpty ⊢
  have splitList := cons_eq_dropLast_append 0 listed
  have lastMember : listed.getLastD 0 ∈ listed := by
    rw [List.getLastD_eq_getLast?, List.getLast?_eq_getLast_of_ne_nil notEmpty]
    exact List.getLast_mem notEmpty
  generalize listed.getLastD 0 = lastFile at splitList lastMember linked
  have lastBound := (lists.usable lastFile lastMember).2.1
  have small : inode < 65536 := by
    have limit := geometry.pageCount_le
    omega
  have same : ∀ page, SameButLink (old page) (chip page) := by
    intro page
    by_cases isLast : page = lastFile
    · rw [isLast, linked, writeSlice_same lastBound]
      exact (SameButLink.refl _).link inode
    · rw [linked, writeSlice_other lastBound isLast]
      exact SameButLink.refl _
  refine ⟨?_, same⟩
  constructor
  · have list := lists.segment
    have nodup : (0 :: listed).Nodup := by
      rw [List.nodup_cons]
      exact ⟨fun zero => Nat.lt_irrefl 0 (lists.usable 0 zero).1, lists.nodup⟩
    rw [splitList] at list nodup ⊢
    apply list.retarget
    · intro page member
      rw [linked, writeSlice_other lastBound]
      rintro rfl
      exact (List.nodup_append.mp nodup).2.2 _ member _ List.mem_cons_self rfl
    · rw [linked, writeSlice_same lastBound]
      exact readWord_writeBlock _ 3 inode small
  · exact lists.nodup
  · intro page member
    rw [(same page).pageMagic_eq]
    exact lists.usable page member
  · refine ⟨by omega, bound, ?_⟩
    rw [(same inode).pageMagic_eq]
    intro isFile
    rw [isFile] at free
    exact absurd free (by decide)

/-- The new name cannot be opened behind the dangling link, either. -/
theorem WellFormed.open_dangling (wellFormed : WellFormed geometry old files) {inode : Nat}
    (dangling : Dangling geometry chip (files.map FileEntry.page) inode)
    (same : ∀ page, SameButLink (old page) (chip page)) {filename : List UInt8}
    (new : vfsEepromOpen geometry old filename true = some none) :
    vfsEepromOpen geometry chip filename true = some none := by
  rw [wellFormed.lists.open, Option.some_inj, Option.map_eq_none_iff] at new
  have notFound : ((files.map FileEntry.page).find? fun page =>
      isSought (chip page) (some filename)) = none := by
    rw [← new]
    congr 1
    funext page
    rw [isSought, (same page).storedName_eq]
  rw [vfsEepromOpen_eq, dangling.findFile, notFound]
  rfl

/-- Creating the file once more replaces the whole list. -/
theorem Dangling.create {inode : Nat} (dangling : Dangling geometry chip listed inode)
    {filename : List UInt8} (new : vfsEepromOpen geometry chip filename true = some none)
    (free : vfsEepromFindFreePage geometry chip 0 = some inode) :
    ∃ chip' handle, vfsEepromCreate geometry chip filename true = some (chip', handle) ∧
      Lists geometry chip' [inode] := by
  obtain ⟨notZero, bound, _⟩ := dangling.target
  obtain ⟨⟨lastFile, before⟩, findLast, lastEq⟩ := Option.map_eq_some_iff.mp dangling.findLast
  dsimp only at lastEq
  subst lastEq
  obtain ⟨previous, search⟩ := findFile_of_open_none new
  refine ⟨writeSlice geometry (writeSlice geometry chip 0 3 (wordBytes inode)) inode 0
    (filePageBytes filename 0), newHandle inode true, ?_, ?_⟩
  · rw [vfsEepromCreate, createFile, search]
    dsimp only [Option.bind_some]
    rw [if_pos rfl, createNew, free, Option.bind_some, if_neg notZero, findLast]
    rfl
  · have small : inode < 65536 := by
      have limit := geometry.pageCount_le
      omega
    have linked := fileLinked chip bound
      ⟨Ne.symm notZero, geometry.pageCount_pos⟩ filename
    generalize writeSlice geometry (writeSlice geometry chip 0 3 (wordBytes inode)) inode 0
      (filePageBytes filename 0) = chip' at linked ⊢
    have atSuperblock : nextFile (chip' 0) = inode := by
      rw [linked.link]
      exact readWord_writeBlock _ 3 inode small
    constructor
    · exact ⟨rfl, atSuperblock, linked.nextFile⟩
    · exact List.nodup_singleton _
    · intro page member
      rw [List.mem_singleton.mp member]
      exact ⟨Nat.pos_of_ne_zero notZero, bound, linked.magic⟩

theorem WellFormed.open_first (wellFormed : WellFormed geometry old (file :: back)) :
    vfsEepromOpen geometry old (storedName (old file.page)) true =
      some (some ⟨file.page, 0⟩) := by
  have sought : (storedName (old file.page) == cString (storedName (old file.page))) = true := by
    rw [storedName, cString, cString, List.takeWhile_idem, beq_self_eq_true]
  rw [wellFormed.lists.open, List.map_cons]
  simp only [List.find?_cons, sought]
  rfl

theorem WellFormed.nextFile_ne_zero_iff (wellFormed : WellFormed geometry old files) :
    nextFile (old 0) ≠ 0 ↔ files ≠ [] := by
  have list := wellFormed.fileList.2
  cases files with
  | nil =>
      have zero : nextFile (old 0) = 0 := list
      exact iff_of_false (not_not_intro zero) (not_not_intro rfl)
  | cons file files =>
      have first : nextFile (old 0) = file.page := list.1
      have positive := (wellFormed.inRange file.page
        (page_mem_pagesOf List.mem_cons_self List.mem_cons_self)).1
      rw [first]
      exact iff_of_true (by omega) (List.cons_ne_nil _ _)

/-- Behind a dangling link another file can be created, and then the first of the
old files cannot be opened any more. -/
theorem WellFormed.not_intact_of_cut (wellFormed : WellFormed geometry old files)
    {operation : FileOperation} {count : Nat}
    (cut : CutBehindLink geometry old operation count) :
    ∃ later, CreatesNew geometry (afterPowerLoss geometry old operation count) later ∧
      ¬Intact geometry old (operation.involvedPage geometry old) later := by
  cases operation with
  | write handle data => cases cut
  | unlink filename => cases cut
  | create filename =>
      obtain ⟨rfl, new, ⟨inode, notZero, free⟩, someFile⟩ := cut
      have someFile := wellFormed.nextFile_ne_zero_iff.mp someFile
      obtain ⟨positive, bound, isFree⟩ := (findFreeFrom_spec
        (pageMagic_of_isFormatted wellFormed.formatted) (Nat.zero_le _) free).resolve_left notZero
      obtain ⟨previous, search⟩ := findFile_of_open_none new
      obtain ⟨⟨lastFile, before⟩, findLast, _⟩ :=
        Option.map_eq_some_iff.mp (wellFormed.lists.findFile none)
      have lastEq := wellFormed.lists.findLast findLast
      have writesEq : (createWrites geometry old filename).take 1 =
          [⟨(files.map FileEntry.page).getLastD 0, 3, wordBytes inode⟩] := by
        rw [createWrites, search]
        dsimp only
        rw [if_pos rfl, createNewWrites, free, findLast]
        dsimp only
        rw [if_neg notZero, lastEq]
        rfl
      generalize linked : writeSlice geometry old ((files.map FileEntry.page).getLastD 0) 3
        (wordBytes inode) = chip
      obtain ⟨dangling, same⟩ :=
        wellFormed.dangling someFile positive bound isFree linked.symm
      have rebooted : afterPowerLoss geometry old (.create filename) 1 = chip := by
        have formatted : isFormatted (readPage geometry chip 0) = true := by
          rw [readPage_of_lt geometry.pageCount_pos, (same 0).isFormatted_eq]
          exact wellFormed.formatted
        rw [afterPowerLoss, FileOperation.writes, writesEq, applyWrites_cons, applyWrite, linked]
        exact if_pos formatted
      have freeNow : vfsEepromFindFreePage geometry chip 0 = some inode := by
        rw [← free]
        exact findFreeFrom_congr (fun page => (same _).pageMagic_eq) _ _ _
      have newNow := wellFormed.open_dangling dangling same new
      obtain ⟨later, handle, created, lists⟩ := dangling.create newNow freeNow
      rw [rebooted]
      refine ⟨later, .step .refl newNow created, fun intact => ?_⟩
      cases files with
      | nil => exact someFile rfl
      | cons file back =>
          obtain ⟨filePositive, _, magic⟩ := wellFormed.lists.usable file.page List.mem_cons_self
          have notInvolved : file.page ≠
              (FileOperation.create filename).involvedPage geometry old := by
            rw [FileOperation.involvedPage, search]
            exact Nat.ne_of_gt filePositive
          have opened := (intact _ _ wellFormed.open_first notInvolved).1
          rw [lists.open, Option.some_inj] at opened
          obtain ⟨page, foundPage, handleEq⟩ := Option.map_eq_some_iff.mp opened
          have isNew := List.mem_singleton.mp (List.mem_of_find?_eq_some foundPage)
          have isFile : page = file.page := congrArg Handle.filePage handleEq
          rw [← isNew, isFile, magic] at isFree
          exact absurd isFree (by decide)

/-- Whatever call is interrupted after whatever number of its writes: the other
files stay intact, also through later creations of new names, unless a new file
was linked to a list of files and its page not yet written. -/
theorem intact_iff_not_cutBehindLink (geometry : Geometry) (chip : Chip)
    (files : List FileEntry) (operation : FileOperation) (count : Nat)
    (wellFormed : WellFormed geometry chip files) (onFile : operation.OnFile files) :
    (∀ later, CreatesNew geometry (afterPowerLoss geometry chip operation count) later →
      Intact geometry chip (operation.involvedPage geometry chip) later) ↔
    ¬CutBehindLink geometry chip operation count := by
  constructor
  · intro intact cut
    obtain ⟨later, creates, notIntact⟩ := wellFormed.not_intact_of_cut cut
    exact notIntact (intact later creates)
  · intro notCut later creates
    by_cases someFile : nextFile (chip 0) = 0
    · -- without a file there is nothing to open
      intro filename handle opened _
      have noFiles : files = [] := by
        by_contra nonempty
        exact wellFormed.nextFile_ne_zero_iff.mpr nonempty someFile
      subst noFiles
      rw [wellFormed.lists.open] at opened
      cases opened
    · obtain ⟨listed, survives⟩ := wellFormed.survives_operation onFile someFile notCut
      rw [afterPowerLoss, survives.init wellFormed] at creates
      obtain ⟨listed', survives'⟩ := survives.createsNew wellFormed creates
      exact survives'.intact wellFormed

def withFile (filename : List UInt8) (chip : Chip) : Chip :=
  applyWrites fourPages chip (createWrites fourPages chip filename)

def twoFiles : Chip := withFile [98] (withFile [97] (vfsEepromInit fourPages erasedChip))

theorem wellFormed_twoFiles : WellFormed fourPages twoFiles [⟨1, []⟩, ⟨2, []⟩] := by
  have links : nextFile (twoFiles 0) = 1 ∧ nextFile (twoFiles 1) = 2 ∧
      nextFile (twoFiles 2) = 0 ∧ nextPage (twoFiles 1) = 0 ∧ nextPage (twoFiles 2) = 0 := by
    decide +kernel
  obtain ⟨superblockLink, firstLink, secondLink, firstData, secondData⟩ := links
  constructor
  · decide +kernel
  · decide +kernel
  · exact ⟨rfl, superblockLink, firstLink, secondLink⟩
  · intro file member
    rcases List.mem_pair.mp member with rfl | rfl
    · exact ⟨rfl, firstData⟩
    · exact ⟨rfl, secondData⟩
  · decide
  · decide
  · decide +kernel
  · intro file member page inChain
    rcases List.mem_pair.mp member with rfl | rfl <;> cases inChain
  · decide +kernel

/-- Writing the first byte of `"b"` is interrupted behind the first write. -/
theorem intact_twoFiles_write :
    WellFormed fourPages twoFiles [⟨1, []⟩, ⟨2, []⟩] ∧
      vfsEepromOpen fourPages twoFiles [97] true = some (some ⟨1, 0⟩) ∧
      ∀ later, CreatesNew fourPages
        (afterPowerLoss fourPages twoFiles (.write ⟨2, 0⟩ oneByte) 1) later →
        Intact fourPages twoFiles 2 later :=
  ⟨wellFormed_twoFiles, by decide +kernel,
    (intact_iff_not_cutBehindLink fourPages twoFiles [⟨1, []⟩, ⟨2, []⟩] (.write ⟨2, 0⟩ oneByte) 1
      wellFormed_twoFiles ⟨⟨2, []⟩, by simp, rfl⟩).mpr nofun⟩

/-- The creation of `"c"` is interrupted behind the link and then repeated: the
file `"a"` is gone. -/
theorem file_lost_behind_link :
    WellFormed fourPages twoFiles [⟨1, []⟩, ⟨2, []⟩] ∧
      vfsEepromOpen fourPages twoFiles [97] true = some (some ⟨1, 0⟩) ∧
      (FileOperation.create [99]).involvedPage fourPages twoFiles = 0 ∧
      ∃ later, CreatesNew fourPages (afterPowerLoss fourPages twoFiles (.create [99]) 1) later ∧
        vfsEepromOpen fourPages later [97] true = some none ∧
        ¬Intact fourPages twoFiles 0 later := by
  have opened : vfsEepromOpen fourPages twoFiles [97] true = some (some ⟨1, 0⟩) := by
    decide +kernel
  have new : vfsEepromOpen fourPages (afterPowerLoss fourPages twoFiles (.create [99]) 1) [99]
      true = some none := by
    decide +kernel
  have repeated : (vfsEepromCreate fourPages
      (afterPowerLoss fourPages twoFiles (.create [99]) 1) [99] true).map
        (fun result => vfsEepromOpen fourPages result.1 [97] true) = some (some none) := by
    decide +kernel
  obtain ⟨⟨later, handle⟩, created, lost⟩ := Option.map_eq_some_iff.mp repeated
  refine ⟨wellFormed_twoFiles, opened, by decide +kernel, later, .step .refl new created, lost, ?_⟩
  intro intact
  have stillOpened := (intact [97] ⟨1, 0⟩ opened (by decide)).1
  rw [show vfsEepromOpen fourPages later [97] true = some none from lost] at stillOpened
  cases stillOpened

end Ethersex.Sfs

import Ethersex.EepromPageAccounting
import Ethersex.EepromWriteLog

/-!
# Operations of the EEPROM file system

Each call of the file system is traced on the layout of the chip: which entry of
the file list it changes, and how.
-/

namespace Ethersex.Sfs

open ByteMemory GuardedRuns LinkedSegments

section Searching

variable {geometry : Geometry} {chip : Chip} {files : List FileEntry}

/-- A page found by the search is free; a search from behind the last page looks
at the superblock first. -/
theorem findFreeFrom_spec {suggested fuel page found : Nat}
    (superblock : pageMagic (chip 0) = magicSuperblock) (bound : page ≤ geometry.pageCount)
    (search : findFreeFrom geometry chip suggested fuel page = some found) :
    found = 0 ∨ (0 < found ∧ found < geometry.pageCount ∧
      isFreeMagic (pageMagic (chip found)) = true) := by
  have notFreeZero : isFreeMagic (pageMagic (chip 0)) = false := by
    rw [superblock]
    decide
  induction fuel generalizing page with
  | zero => cases search
  | succ fuel ih =>
      rw [findFreeFrom] at search
      split at search
      next free =>
        cases Option.some.inj search
        by_cases inRange : found < geometry.pageCount
        · rw [readPage_of_lt inRange] at free
          right
          refine ⟨Nat.pos_of_ne_zero ?_, inRange, free⟩
          rintro rfl
          rw [notFreeZero] at free
          cases free
        · have atEnd : found = geometry.pageCount := by omega
          rw [atEnd, readPage, Geometry.pageIndex_pageCount, notFreeZero] at free
          cases free
      next =>
        split at search
        · exact Or.inl (Option.some.inj search).symm
        · apply ih _ search
          rw [Geometry.following]
          split <;> omega

theorem Layout.findFreePage (layout : Layout geometry chip files) {suggested found : Nat}
    (bound : suggested ≤ geometry.pageCount)
    (search : vfsEepromFindFreePage geometry chip suggested = some found) :
    found = 0 ∨ (0 < found ∧ found < geometry.pageCount ∧ found ∉ pagesOf files) := by
  rcases findFreeFrom_spec layout.superblock bound search with zero | ⟨positive, inRange, free⟩
  · exact Or.inl zero
  · refine Or.inr ⟨positive, inRange, fun used => ?_⟩
    obtain ⟨file, member, inFile⟩ := List.mem_flatMap.mp used
    rcases List.mem_cons.mp inFile with rfl | inChain
    · rw [layout.fileMagic file member] at free
      exact absurd free (by decide)
    · rw [layout.dataMagic file member found inChain] at free
      exact absurd free (by decide)

/-- The walk along the file list: nothing is found, which for the search of the
last file means that the list is empty, or one of the files. -/
theorem findFileFrom_spec {filename : Option (List UInt8)} {fuel inode previous : Nat}
    {pages : List Nat} {result : Nat × Nat}
    (list : Segment (fun page => nextFile (chip page)) inode pages 0)
    (usable : ∀ page ∈ pages, 0 < page ∧ page < geometry.pageCount ∧
      pageMagic (chip page) = magicFile)
    (search : findFileFrom geometry chip filename fuel inode previous = some result) :
    (result.1 = 0 ∧ (filename = none → pages = [])) ∨
      ∃ before after, pages = before ++ result.1 :: after ∧
        result.2 = before.getLastD previous ∧ isSought (chip result.1) filename = true := by
  induction fuel generalizing inode previous pages with
  | zero => cases search
  | succ fuel ih =>
      rw [findFileFrom] at search
      cases pages with
      | nil =>
          cases list
          rw [if_pos rfl] at search
          cases Option.some.inj search
          exact Or.inl ⟨rfl, fun _ => rfl⟩
      | cons page pages =>
          obtain ⟨rfl, rest⟩ := list
          obtain ⟨positive, inRange, magic⟩ := usable inode List.mem_cons_self
          rw [if_neg (by omega), readPage_of_lt inRange] at search
          dsimp only at search
          rw [if_neg (by rw [magic]; decide)] at search
          split at search
          next sought =>
            cases Option.some.inj search
            exact Or.inr ⟨[], pages, rfl, rfl, sought⟩
          next notSought =>
            have later := ih rest
              (fun other member => usable other (List.mem_cons_of_mem _ member)) search
            rcases later with ⟨zero, empty⟩ | ⟨before, after, split, previousEq, sought⟩
            · refine Or.inl ⟨zero, fun isNone => ?_⟩
              -- the walk goes on only where the link of the last file is not zero
              have noPages := empty isNone
              subst noPages isNone
              exact absurd (beq_iff_eq.mpr rest) notSought
            · refine Or.inr ⟨inode :: before, after, by rw [split]; rfl, ?_, sought⟩
              rw [previousEq]
              cases before <;> rfl

/-- The file list of a chip. -/
structure Lists (geometry : Geometry) (chip : Chip) (listed : List Nat) : Prop where
  segment : Segment (fun page => nextFile (chip page)) 0 (0 :: listed) 0
  nodup : listed.Nodup
  usable : ∀ page ∈ listed, 0 < page ∧ page < geometry.pageCount ∧
    pageMagic (chip page) = magicFile

theorem Layout.lists (layout : Layout geometry chip files) :
    Lists geometry chip (files.map FileEntry.page) := by
  constructor
  · exact layout.fileList
  · exact layout.nodup.sublist (sublist_pagesOf_page files)
  · intro page member
    obtain ⟨positive, bound⟩ := layout.inRange page ((sublist_pagesOf_page files).subset member)
    obtain ⟨file, inFiles, rfl⟩ := List.mem_map.mp member
    exact ⟨positive, bound, layout.fileMagic file inFiles⟩

theorem Layout.findFile (layout : Layout geometry chip files) {filename : Option (List UInt8)}
    {inode previous : Nat}
    (search : vfsEepromFindFile geometry chip filename = some (inode, previous)) :
    (inode = 0 ∧ (filename = none → files = [])) ∨
      ∃ front file back, files = front ++ file :: back ∧ inode = file.page ∧
        previous = (front.map FileEntry.page).getLastD 0 ∧
        isSought (chip inode) filename = true := by
  rw [vfsEepromFindFile, readPage_of_lt geometry.pageCount_pos] at search
  rcases findFileFrom_spec layout.fileList.2 layout.lists.usable search with
    ⟨zero, empty⟩ | ⟨before, after, split, previousEq, sought⟩
  · exact Or.inl ⟨zero, fun isNone => List.map_eq_nil_iff.mp (empty isNone)⟩
  · obtain ⟨front, rest, rfl, rfl, restEq⟩ := List.map_eq_append_iff.mp split
    obtain ⟨file, back, rfl, fileEq, rfl⟩ := List.map_eq_cons_iff.mp restEq
    exact Or.inr ⟨front, file, back, rfl, fileEq.symm, previousEq, sought⟩

/-- Without a name the search ends at the last file, or at the superblock. -/
theorem Lists.findLast {listed : List Nat} (lists : Lists geometry chip listed)
    {inode previous : Nat}
    (search : vfsEepromFindFile geometry chip none = some (inode, previous)) :
    inode = listed.getLastD 0 := by
  rw [vfsEepromFindFile, readPage_of_lt geometry.pageCount_pos] at search
  rcases findFileFrom_spec lists.segment.2 lists.usable search with
    ⟨zero, empty⟩ | ⟨before, after, split, _, sought⟩
  · rw [empty rfl]
    exact zero
  · -- the last file is the one whose link is zero
    have list := lists.segment
    dsimp only at split sought
    rw [split, ← List.cons_append, segment_append] at list
    obtain ⟨_, _, _, rest⟩ := list
    rw [isSought, beq_iff_eq] at sought
    dsimp only at rest
    rw [sought] at rest
    cases after with
    | nil => rw [split, List.getLastD_concat]
    | cons other after =>
        have member : other ∈ listed := by
          rw [split]
          exact List.mem_append_right _ (List.mem_cons_of_mem _ List.mem_cons_self)
        have positive := (lists.usable other member).1
        have zero : 0 = other := rest.1
        omega

end Searching

section Append

variable {geometry : Geometry} {chip : Chip} {front back : List FileEntry} {file : FileEntry}

def FileEntry.last (file : FileEntry) : Nat := file.chain.getLastD file.page

def FileEntry.append (file : FileEntry) (pages : List Nat) : FileEntry :=
  ⟨file.page, file.chain ++ pages⟩

theorem FileEntry.pages_append (file : FileEntry) (pages : List Nat) :
    (file.append pages).pages = file.pages ++ pages :=
  rfl

theorem FileEntry.last_mem (file : FileEntry) : file.last ∈ file.pages :=
  List.getLastD_mem_cons

/-- A file whose pages are none of the others', on a chip where none of these
pages is free. -/
structure OwnChain (geometry : Geometry) (others : List Nat) (chip : Chip) (file : FileEntry) :
    Prop where
  superblock : pageMagic (chip 0) = magicSuperblock
  occupied : ∀ page ∈ others, isFreeMagic (pageMagic (chip page)) = false
  chain : Segment (fun page => nextPage (chip page)) file.page file.pages 0
  nodup : file.pages.Nodup
  inRange : ∀ page ∈ file.pages, 0 < page ∧ page < geometry.pageCount
  used : ∀ page ∈ file.pages, isFreeMagic (pageMagic (chip page)) = false
  apart : ∀ page ∈ file.pages, page ∉ others

theorem FileEntry.last_append (file : FileEntry) (new : Nat) :
    (file.append [new]).last = new :=
  List.getLastD_concat

theorem FileEntry.append_append (file : FileEntry) (first second : List Nat) :
    (file.append first).append second = file.append (first ++ second) := by
  rw [FileEntry.append, FileEntry.append, FileEntry.append, List.append_assoc]

theorem OwnChain.findFreePage {others : List Nat} (own : OwnChain geometry others chip file)
    {new : Nat} (search : vfsEepromFindFreePage geometry chip (file.last + 1) = some new)
    (notZero : new ≠ 0) :
    0 < new ∧ new < geometry.pageCount ∧ new ∉ others ∧ new ∉ file.pages := by
  have lastBound := (own.inRange _ file.last_mem).2
  rcases findFreeFrom_spec own.superblock (by omega) search with zero | ⟨positive, bound, free⟩
  · exact absurd zero notZero
  · refine ⟨positive, bound, fun inOthers => ?_, fun inFile => ?_⟩
    · rw [own.occupied new inOthers] at free
      cases free
    · rw [own.used new inFile] at free
      cases free

theorem OwnChain.appendPage {others : List Nat} (own : OwnChain geometry others chip file)
    {new : Nat} (search : vfsEepromFindFreePage geometry chip (file.last + 1) = some new)
    (notZero : new ≠ 0) :
    OwnChain geometry others (writeSlice geometry (writeSlice geometry chip new 0
      [magicData, 0, 0, 0]) file.last 1 (wordBytes new)) (file.append [new]) := by
  obtain ⟨positive, bound, notOther, notOwn⟩ := own.findFreePage search notZero
  have lastBound := (own.inRange _ file.last_mem).2
  have small : new < 65536 := by
    have limit := geometry.pageCount_le
    omega
  have lastNe : file.last ≠ new := by
    intro same
    exact notOwn (same ▸ file.last_mem)
  generalize written : writeSlice geometry (writeSlice geometry chip new 0
    [magicData, 0, 0, 0]) file.last 1 (wordBytes new) = chip'
  have atOther : ∀ page, page ≠ file.last → page ≠ new → chip' page = chip page := by
    intro page notLast notNew
    rw [← written, writeSlice_other lastBound notLast, writeSlice_other bound notNew]
  have atLast : chip' file.last = writeBlock (chip file.last) 1 (wordBytes new) := by
    rw [← written, writeSlice_same lastBound, writeSlice_other bound lastNe]
  have atNew : chip' new = writeBlock (chip new) 0 [magicData, 0, 0, 0] := by
    rw [← written, writeSlice_other lastBound lastNe.symm, writeSlice_same bound]
  have magicKept : ∀ page, page ≠ new → pageMagic (chip' page) = pageMagic (chip page) := by
    intro page notNew
    by_cases isLast : page = file.last
    · rw [isLast, atLast]
      exact writeBlock_outside (Or.inl Nat.one_pos)
    · rw [atOther page isLast notNew]
  have ownNe : ∀ page ∈ file.pages, page ≠ new := by
    rintro page member rfl
    exact notOwn member
  have pageCases : ∀ page ∈ (file.append [new]).pages, page ∈ file.pages ∨ page = new := by
    intro page member
    rw [FileEntry.pages_append, List.mem_append, List.mem_singleton] at member
    exact member
  constructor
  · rw [magicKept 0 (by omega)]
    exact own.superblock
  · intro page member
    rw [magicKept page]
    · exact own.occupied page member
    · rintro rfl
      exact notOther member
  · have chain := own.chain
    have nodup := own.nodup
    have splitPages : file.pages = file.pages.dropLast ++ [file.last] :=
      cons_eq_dropLast_append file.page file.chain
    rw [splitPages] at chain nodup
    rw [FileEntry.pages_append, splitPages, List.append_assoc]
    apply chain.snoc
    · intro page member
      have notLast : page ≠ file.last := by
        rintro rfl
        exact (List.nodup_append.mp nodup).2.2 _ member _ List.mem_cons_self rfl
      rw [atOther page notLast (ownNe page ((List.dropLast_sublist _).subset member))]
    · rw [atLast]
      exact readWord_writeBlock _ 1 new small
    · rw [atNew]
      rfl
  · rw [FileEntry.pages_append, List.nodup_append]
    refine ⟨own.nodup, List.nodup_singleton _, ?_⟩
    intro page member other isNew
    rw [List.mem_singleton.mp isNew]
    exact ownNe page member
  · intro page member
    rcases pageCases page member with inFile | rfl
    · exact own.inRange page inFile
    · exact ⟨positive, bound⟩
  · intro page member
    rcases pageCases page member with inFile | rfl
    · rw [magicKept page (ownNe page inFile)]
      exact own.used page inFile
    · rw [atNew]
      rfl
  · intro page member
    rcases pageCases page member with inFile | rfl
    · exact own.apart page inFile
    · exact notOther


theorem Layout.ownChain (layout : Layout geometry chip (front ++ file :: back)) :
    OwnChain geometry (pagesOf front ++ pagesOf back) chip file := by
  obtain ⟨nodup, apart, _⟩ := layout.disjoint
  have occupied : ∀ page ∈ pagesOf (front ++ file :: back),
      isFreeMagic (pageMagic (chip page)) = false := by
    intro page member
    obtain ⟨other, otherMember, inOther⟩ := List.mem_flatMap.mp member
    rcases List.mem_cons.mp inOther with rfl | inChain
    · rw [layout.fileMagic other otherMember]
      rfl
    · rw [layout.dataMagic other otherMember page inChain]
      rfl
  constructor
  · exact layout.superblock
  · exact fun page member => occupied page (mem_pagesOf_split.mpr (Or.inr member))
  · exact layout.chains file (List.mem_append_right _ List.mem_cons_self)
  · exact nodup
  · exact fun page inFile => layout.inRange page (mem_pagesOf_split.mpr (Or.inl inFile))
  · exact fun page inFile => occupied page (mem_pagesOf_split.mpr (Or.inl inFile))
  · exact fun page inFile inOthers => apart page inOthers inFile

theorem Layout.appendPage (layout : Layout geometry chip (front ++ file :: back)) {new : Nat}
    (search : vfsEepromFindFreePage geometry chip (file.last + 1) = some new)
    (notZero : new ≠ 0) :
    Layout geometry (writeSlice geometry (writeSlice geometry chip new 0 [magicData, 0, 0, 0])
      file.last 1 (wordBytes new)) (front ++ file.append [new] :: back) := by
  obtain ⟨positive, bound, notOther, notOwn⟩ := layout.ownChain.findFreePage search notZero
  have extended := layout.ownChain.appendPage search notZero
  have lastBound := (layout.ownChain.inRange _ file.last_mem).2
  have newNe : ∀ page ∈ file.pages, page ≠ new := by
    rintro page member rfl
    exact notOwn member
  generalize written : writeSlice geometry (writeSlice geometry chip new 0
    [magicData, 0, 0, 0]) file.last 1 (wordBytes new) = chip' at extended ⊢
  have atOther : ∀ page, page ≠ file.last → page ≠ new → chip' page = chip page := by
    intro page notLast notNew
    rw [← written, writeSlice_other lastBound notLast, writeSlice_other bound notNew]
  have atLast : chip' file.last = writeBlock (chip file.last) 1 (wordBytes new) := by
    rw [← written, writeSlice_same lastBound, writeSlice_other bound (newNe _ file.last_mem)]
  have atNew : chip' new = writeBlock (chip new) 0 [magicData, 0, 0, 0] := by
    rw [← written, writeSlice_other lastBound (newNe _ file.last_mem).symm, writeSlice_same bound]
  have magicKept : ∀ page ∈ file.pages, pageMagic (chip' page) = pageMagic (chip page) := by
    intro page member
    by_cases isLast : page = file.last
    · rw [isLast, atLast]
      exact writeBlock_outside (Or.inl Nat.one_pos)
    · rw [atOther page isLast (newNe page member)]
  have fileMember : file ∈ front ++ file :: back := List.mem_append_right _ List.mem_cons_self
  apply layout.replace
  constructor
  · rfl
  · intro page notOld notNew
    rw [FileEntry.pages_append, List.mem_append, not_or, List.mem_singleton] at notNew
    apply atOther page _ notNew.2
    rintro rfl
    exact notOld file.last_mem
  · by_cases isLast : file.page = file.last
    · rw [isLast, atLast]
      exact readWord_outside (Or.inr (Nat.le_refl _))
    · rw [atOther _ isLast (newNe _ List.mem_cons_self)]
  · rw [magicKept _ List.mem_cons_self]
    exact layout.fileMagic file fileMember
  · intro page member
    rcases List.mem_append.mp member with old | isNew
    · rw [magicKept page (List.mem_cons_of_mem _ old)]
      exact layout.dataMagic file fileMember page old
    · rw [List.mem_singleton.mp isNew, atNew]
      rfl
  · exact extended.chain
  · exact extended.nodup
  · intro page member
    rcases List.mem_append.mp member with old | isNew
    · exact Or.inl old
    · rw [List.mem_singleton.mp isNew, mem_pagesOf_split]
      exact Or.inr ⟨not_or.mpr ⟨notOwn, notOther⟩, positive, bound⟩
  · intro page member gone
    exact absurd (List.mem_append_left _ member) gone

/-- Appending pages extends the chain; when it is complete, by as many pages as
were needed.  It keeps whatever appending one page keeps. -/
theorem appendPages_keeps (Keeps : Chip → FileEntry → Prop)
    (step : ∀ chip file new, Keeps chip file →
      vfsEepromFindFreePage geometry chip (file.last + 1) = some new → new ≠ 0 →
      Keeps (writeSlice geometry (writeSlice geometry chip new 0 [magicData, 0, 0, 0])
        file.last 1 (wordBytes new)) (file.append [new]))
    (kept : Keeps chip file) {needed writePage : Nat} {complete : Bool} {chip' : Chip}
    {writePage' : Nat}
    (appended : appendPages geometry needed chip file.last writePage =
      some (complete, chip', writePage')) :
    ∃ added, Keeps chip' (file.append added) ∧ (complete = true → added.length = needed) ∧
      writePage' = if writePage = 0 then added.headD 0 else writePage := by
  have unchanged : ∀ page : Nat, page = if page = 0 then ([] : List Nat).headD 0 else page := by
    intro page
    split
    next zero => exact zero
    next => rfl
  induction needed generalizing chip file writePage with
  | zero =>
      cases Option.some.inj appended
      refine ⟨[], ?_, fun _ => rfl, unchanged _⟩
      rw [FileEntry.append, List.append_nil]
      exact kept
  | succ needed ih =>
      obtain ⟨new, search, appended⟩ := Option.bind_eq_some_iff.mp appended
      by_cases zero : new = 0
      · rw [if_pos zero] at appended
        cases Option.some.inj appended
        refine ⟨[], ?_, nofun, unchanged _⟩
        rw [FileEntry.append, List.append_nil]
        exact kept
      · rw [if_neg zero] at appended
        have extended := step chip file new kept search zero
        dsimp only at appended
        have appended' : appendPages geometry needed
            (writeSlice geometry (writeSlice geometry chip new 0 [magicData, 0, 0, 0]) file.last 1
              (wordBytes new)) (file.append [new]).last
            (if writePage = 0 then new else writePage) = some (complete, chip', writePage') := by
          rw [FileEntry.last_append]
          exact appended
        obtain ⟨added, kept', lengthEq, writeEq⟩ := ih extended appended'
        refine ⟨new :: added, ?_, ?_, ?_⟩
        · rw [FileEntry.append_append] at kept'
          exact kept'
        · intro isComplete
          rw [List.length_cons, lengthEq isComplete]
        · rw [writeEq]
          by_cases notFound : writePage = 0
          · rw [if_pos notFound, if_pos notFound, if_neg zero]
            rfl
          · rw [if_neg notFound, if_neg notFound, if_neg notFound]

end Append

section Write

variable {geometry : Geometry} {chip : Chip} {front back : List FileEntry} {file : FileEntry}

/-- Bytes from the length field on can be written to any data page. -/
theorem OwnChain.writeContent {others : List Nat} (own : OwnChain geometry others chip file)
    {page : Nat} (inChain : page ∈ file.chain) {offset : Nat} (above : 3 ≤ offset)
    (bytes : List UInt8) :
    OwnChain geometry others (writeSlice geometry chip page offset bytes) file := by
  have bound := (own.inRange page (List.mem_cons_of_mem _ inChain)).2
  have magicKept : ∀ other, pageMagic (writeSlice geometry chip page offset bytes other) =
      pageMagic (chip other) := by
    intro other
    by_cases same : other = page
    · rw [same, writeSlice_same bound]
      exact writeBlock_outside (Or.inl (by omega))
    · rw [writeSlice_other bound same]
  constructor
  · rw [magicKept]
    exact own.superblock
  · intro other member
    rw [magicKept]
    exact own.occupied other member
  · refine own.chain.congr fun other _ => ?_
    by_cases same : other = page
    · rw [same, writeSlice_same bound]
      exact readWord_outside (Or.inl above)
    · rw [writeSlice_other bound same]
  · exact own.nodup
  · exact own.inRange
  · intro other member
    rw [magicKept]
    exact own.used other member
  · exact own.apart

theorem Layout.writeContent (layout : Layout geometry chip (front ++ file :: back)) {page : Nat}
    (inChain : page ∈ file.chain) {offset : Nat} (above : 3 ≤ offset) (bytes : List UInt8) :
    Layout geometry (writeSlice geometry chip page offset bytes) (front ++ file :: back) := by
  have fileMember : file ∈ front ++ file :: back := List.mem_append_right _ List.mem_cons_self
  have inPages : page ∈ file.pages := List.mem_cons_of_mem _ inChain
  have written := layout.ownChain.writeContent inChain above bytes
  have bound := (layout.ownChain.inRange page inPages).2
  have pageNe : file.page ≠ page := by
    rintro rfl
    exact (List.nodup_cons.mp layout.disjoint.1).1 inChain
  apply layout.replace
  constructor
  · rfl
  · intro other notFile _
    apply writeSlice_other bound
    rintro rfl
    exact notFile inPages
  · rw [writeSlice_other bound pageNe]
  · rw [writeSlice_other bound pageNe]
    exact layout.fileMagic file fileMember
  · intro other member
    rw [← layout.dataMagic file fileMember other member]
    by_cases same : other = page
    · rw [same, writeSlice_same bound]
      exact writeBlock_outside (Or.inl (by omega))
    · rw [writeSlice_other bound same]
  · exact written.chain
  · exact written.nodup
  · intro other member
    exact Or.inl member
  · intro other member gone
    exact absurd member gone

/-- The page behind a page of the chain. -/
theorem OwnChain.nextPage_eq {others : List Nat} (own : OwnChain geometry others chip file)
    {before after : List Nat} {page next : Nat}
    (split : file.chain = before ++ page :: next :: after) :
    nextPage (readPage geometry chip page) = next := by
  have inChain : page ∈ file.chain := by
    rw [split]
    exact List.mem_append_right _ List.mem_cons_self
  have chain := own.chain.2
  rw [split, segment_append] at chain
  obtain ⟨_, _, _, nextEq, _⟩ := chain
  rw [readPage_of_lt (own.inRange page (List.mem_cons_of_mem _ inChain)).2]
  exact nextEq

/-- As long as the rest of the chain has room for the data, only pages of the
chain are written, and of these nothing before the length. -/
theorem dataWrites_spec (Keeps : Chip → Prop) {chain : List Nat}
    (next_eq : ∀ chip before page next after, Keeps chip →
      chain = before ++ page :: next :: after → nextPage (readPage geometry chip page) = next)
    (content : ∀ chip page offset bytes, Keeps chip → page ∈ chain → 3 ≤ offset →
      Keeps (writeSlice geometry chip page offset bytes))
    (kept : Keeps chip) {fuel page writeOffset : Nat} {data : List UInt8}
    (offsetLt : writeOffset < dataSize)
    (room : data ≠ [] → ∃ before after, chain = before ++ page :: after ∧
      writeOffset + data.length ≤ (after.length + 1) * dataSize) :
    Keeps (writeData geometry fuel chip page writeOffset data) ∧
      ∀ write ∈ dataWrites geometry fuel chip page writeOffset data, write.page ∈ chain := by
  induction fuel generalizing chip page writeOffset data with
  | zero => exact ⟨kept, List.forall_mem_nil _⟩
  | succ fuel ih =>
      rw [writeData, dataWrites]
      split
      · exact ⟨kept, List.forall_mem_nil _⟩
      next nonempty =>
        obtain ⟨before, after, split, enough⟩ := room nonempty
        have inChain : page ∈ chain := by
          rw [split]
          exact List.mem_append_right _ List.mem_cons_self
        dsimp only
        generalize copied : (if dataSize < data.length + writeOffset then dataSize - writeOffset
          else data.length) = copyLen
        have room' : data.drop copyLen ≠ [] → ∃ before after,
            chain = before ++ nextPage (readPage geometry chip page) :: after ∧
              0 + (data.drop copyLen).length ≤ (after.length + 1) * dataSize := by
          intro remaining
          rw [dataSize] at *
          -- something remains only if this page was filled to its end
          by_cases crosses : 60 < data.length + writeOffset
          · rw [if_pos crosses] at copied
            cases after with
            | nil =>
                exfalso
                simp only [List.length_nil] at enough
                omega
            | cons next after =>
                refine ⟨before ++ [page], after, ?_, ?_⟩
                · rw [next_eq chip before page next after kept split, split, List.append_assoc]
                  rfl
                · rw [List.length_drop]
                  rw [List.length_cons] at enough
                  omega
          · rw [if_neg crosses] at copied
            rw [← copied, List.drop_length] at remaining
            exact absurd rfl remaining
        have contentKept := content chip page (4 + writeOffset) (data.take copyLen) kept inChain
          (by omega)
        have lengthKept := content _ page 3 [UInt8.ofNat (writeOffset + copyLen)] contentKept
          inChain (Nat.le_refl _)
        obtain ⟨keptLater, inChainLater⟩ := ih lengthKept (by decide) room'
        refine ⟨keptLater, ?_⟩
        intro write member
        simp only [List.cons_append, List.nil_append, List.mem_cons] at member
        rcases member with rfl | rfl | later
        · exact inChain
        · exact inChain
        · exact inChainLater write later

/-- Walking along the chain: its length, its last page, and the page to write
to, which is none of those behind the offset. -/
theorem scanPages_spec {pages : List Nat} {fuel page skip allocated lastPage writePage : Nat}
    {result : Nat × Nat × Nat}
    (chain : Segment (fun page => nextPage (chip page)) page pages 0)
    (usable : ∀ page ∈ pages, 0 < page ∧ page < geometry.pageCount)
    (scan : scanPages geometry chip fuel page skip allocated lastPage writePage = some result) :
    result.1 = allocated + pages.length ∧ result.2.1 = pages.getLastD lastPage ∧
      (writePage ≠ 0 → result.2.2 = writePage) ∧
      (writePage = 0 → (result.2.2 = 0 ∧ pages.length ≤ skip) ∨
        ∃ before after, pages = before ++ result.2.2 :: after ∧ before.length ≤ skip) := by
  induction fuel generalizing page skip allocated lastPage writePage pages with
  | zero => cases scan
  | succ fuel ih =>
      rw [scanPages] at scan
      cases pages with
      | nil =>
          cases chain
          rw [if_pos rfl] at scan
          cases Option.some.inj scan
          exact ⟨rfl, rfl, fun _ => rfl, fun zero => Or.inl ⟨zero, Nat.zero_le _⟩⟩
      | cons head pages =>
          obtain ⟨rfl, rest⟩ := chain
          obtain ⟨positive, bound⟩ := usable page List.mem_cons_self
          rw [if_neg (by omega)] at scan
          simp only [readPage_of_lt bound] at scan
          obtain ⟨allocatedEq, lastEq, kept, found⟩ := ih rest
            (fun other member => usable other (List.mem_cons_of_mem _ member)) scan
          refine ⟨?_, ?_, ?_, ?_⟩
          · rw [allocatedEq, List.length_cons]
            omega
          · rw [lastEq, List.getLastD_cons]
          · intro notZero
            rw [if_neg (fun both => notZero both.1)] at kept
            exact kept notZero
          · intro zero
            by_cases here : writePage = 0 ∧ (skip = 0 ∨ pageLen (chip page) < dataSize)
            · rw [if_pos here] at kept
              right
              refine ⟨[], pages, ?_, Nat.zero_le _⟩
              rw [kept (by omega)]
              rfl
            · rw [if_neg here] at found
              rw [if_pos zero] at found
              have skipPos : skip ≠ 0 := fun skipZero => here ⟨zero, Or.inl skipZero⟩
              rcases found zero with ⟨none, short⟩ | ⟨before, after, split, beforeLe⟩
              · left
                rw [List.length_cons]
                exact ⟨none, by omega⟩
              · right
                refine ⟨page :: before, after, ?_, ?_⟩
                · rw [split]
                  rfl
                · rw [List.length_cons]
                  omega

/-- The scan of a file.  The test for an empty chain changes nothing, the scan
found no page then. -/
theorem scanPages_file {handle : Handle} {allocated lastPage writePage : Nat}
    (chain : Segment (fun page => nextPage (chip page)) file.page file.pages 0)
    (nodup : file.pages.Nodup)
    (usable : ∀ page ∈ file.pages, 0 < page ∧ page < geometry.pageCount)
    (isFile : handle.filePage = file.page)
    (scan : scanPages geometry chip (geometry.pageCount + 1)
      (nextPage (readPage geometry chip handle.filePage)) (handle.offset.toNat / dataSize) 0
      handle.filePage 0 = some (allocated, lastPage, writePage)) :
    allocated = file.chain.length ∧ lastPage = file.last ∧
      (if lastPage = handle.filePage then 0 else writePage) = writePage ∧
      ((writePage = 0 ∧ file.chain.length ≤ handle.offset.toNat / dataSize) ∨
        ∃ before after, file.chain = before ++ writePage :: after ∧
          before.length ≤ handle.offset.toNat / dataSize) := by
  rw [isFile, readPage_of_lt (usable _ List.mem_cons_self).2] at scan
  obtain ⟨allocatedEq, lastEq, _, found⟩ := scanPages_spec chain.2
    (fun page member => usable page (List.mem_cons_of_mem _ member)) scan
  have found := found rfl
  dsimp only at allocatedEq lastEq found
  rw [Nat.zero_add] at allocatedEq
  refine ⟨allocatedEq, lastEq, ?_, found⟩
  split
  next atFile =>
    cases chainEq : file.chain with
    | nil =>
        rw [chainEq] at found
        rcases found with ⟨zero, _⟩ | ⟨before, after, split, _⟩
        · exact zero.symm
        · cases before <;> cases split
    | cons first rest =>
        have lastMember : lastPage ∈ file.chain := by
          rw [lastEq, chainEq, List.getLastD_cons]
          exact List.getLastD_mem_cons
        rw [atFile, isFile] at lastMember
        exact absurd lastMember (List.nodup_cons.mp nodup).1
  next => rfl

/-- With all needed pages appended, the chain has room for the data from the page
found on. -/
theorem room_of_appended {handle : Handle} {writePage : Nat} {added : List Nat}
    {data : List UInt8}
    (usable : ∀ page ∈ file.pages, 0 < page ∧ page < geometry.pageCount)
    (found : (writePage = 0 ∧ file.chain.length ≤ handle.offset.toNat / dataSize) ∨
      ∃ before after, file.chain = before ++ writePage :: after ∧
        before.length ≤ handle.offset.toNat / dataSize)
    (short : data.length < 65536)
    (total : added.length = pagesNeeded handle.offset.toNat data.length - file.chain.length)
    (nonempty : data ≠ []) :
    ∃ before after, (file.append added).chain =
        before ++ (if writePage = 0 then added.headD 0 else writePage) :: after ∧
      handle.offset.toNat % dataSize + data.length ≤ (after.length + 1) * dataSize := by
  have offsetLt := handle.offset.toNat_lt
  have dataPos : 0 < data.length := List.length_pos_iff.mpr nonempty
  rw [pagesNeeded] at total
  rw [dataSize] at *
  have neededLt : (handle.offset.toNat + data.length) / 60 + 1 < 65536 := by omega
  rw [Nat.mod_eq_of_lt neededLt] at total
  have chainEq : (file.append added).chain = file.chain ++ added := rfl
  rw [chainEq]
  rcases found with ⟨zero, chainLe⟩ | ⟨before, after, split, beforeLe⟩
  · -- the first appended page is written to
    rw [if_pos zero]
    cases added with
    | nil =>
        rw [List.length_nil] at total
        omega
    | cons first rest =>
        refine ⟨file.chain, rest, rfl, ?_⟩
        rw [List.length_cons] at total
        omega
  · have writeNe : writePage ≠ 0 := by
      have member : writePage ∈ file.chain := by
        rw [split]
        exact List.mem_append_right _ List.mem_cons_self
      have positive := (usable writePage (List.mem_cons_of_mem _ member)).1
      omega
    rw [if_neg writeNe]
    refine ⟨before, after ++ added, by rw [split, List.append_assoc]; rfl, ?_⟩
    have chainLength := congrArg List.length split
    rw [List.length_append, List.length_cons] at chainLength
    rw [List.length_append]
    omega

theorem Layout.write (layout : Layout geometry chip (front ++ file :: back)) {handle : Handle}
    (isFile : handle.filePage = file.page) {data : List UInt8} (short : data.length < 65536)
    {result : Nat × Chip × Handle}
    (written : vfsEepromWrite geometry chip handle data = some result) :
    ∃ added, Layout geometry result.2.1 (front ++ file.append added :: back) := by
  have fileMember : file ∈ front ++ file :: back := List.mem_append_right _ List.mem_cons_self
  have usable : ∀ page ∈ file.pages, 0 < page ∧ page < geometry.pageCount :=
    fun page member => layout.inRange page (mem_pagesOf_split.mpr (Or.inl member))
  obtain ⟨⟨allocated, lastPage, writePage⟩, scan, written⟩ := Option.bind_eq_some_iff.mp written
  obtain ⟨allocatedEq, lastEq, writeEq, found⟩ :=
    scanPages_file (layout.chains file fileMember) layout.disjoint.1 usable isFile scan
  dsimp only at written
  rw [writeEq, Option.map_eq_some_iff] at written
  obtain ⟨⟨complete, chip', writePage'⟩, appended, resultEq⟩ := written
  rw [lastEq] at appended
  obtain ⟨added, extended, lengthEq, writeEq'⟩ := appendPages_keeps
    (fun chip file => Layout geometry chip (front ++ file :: back))
    (fun chip file new kept search notZero => kept.appendPage search notZero) layout appended
  refine ⟨added, ?_⟩
  cases complete with
  | false =>
      rw [← resultEq]
      exact extended
  | true =>
      rw [← resultEq]
      have total := lengthEq rfl
      rw [allocatedEq] at total
      have room := room_of_appended usable found short total
      rw [← writeEq'] at room
      exact (dataWrites_spec (fun chip => Layout geometry chip (front ++ file.append added :: back))
        (fun chip before page next after kept split => kept.ownChain.nextPage_eq split)
        (fun chip page offset bytes kept inChain above => kept.writeContent inChain above bytes)
        extended (Nat.mod_lt _ (by decide)) room).1

end Write

section Create

variable {geometry : Geometry} {chip : Chip} {files front back : List FileEntry}
  {file : FileEntry}

theorem filePageBytes_links (memory : Memory) (filename : List UInt8) {next : Nat}
    (small : next < 65536) :
    pageMagic (writeBlock memory 0 (filePageBytes filename next)) = magicFile ∧
      nextPage (writeBlock memory 0 (filePageBytes filename next)) = 0 ∧
      nextFile (writeBlock memory 0 (filePageBytes filename next)) = next := by
  have header : filePageBytes filename next =
      [magicFile, 0, 0] ++ (wordBytes next ++
        ((cString filename).take filenameSize ++ List.replicate (filenameSize + 1) 0).take
          (filenameSize + 1)) := by
    rw [filePageBytes, List.append_assoc]
  have nameOffset : 0 + [magicFile, 0, 0].length + (wordBytes next).length = 5 := rfl
  have linkOffset : 0 + [magicFile, 0, 0].length = 3 := rfl
  rw [header, writeBlock_append, writeBlock_append, nameOffset, linkOffset]
  refine ⟨?_, ?_, ?_⟩
  · rw [pageMagic, writeBlock_outside (Or.inl (by decide)),
      writeBlock_outside (Or.inl (by decide))]
    rfl
  · rw [nextPage, readWord_outside (Or.inl (by decide)), readWord_outside (Or.inl (by decide))]
    rfl
  · rw [nextFile, readWord_outside (Or.inl (by decide))]
    exact readWord_writeBlock _ 3 next small

/-- A new file page has been linked behind the last one. -/
structure FileLinked (chip chip' : Chip) (lastFile inode : Nat) : Prop where
  other : ∀ page, page ≠ lastFile → page ≠ inode → chip' page = chip page
  link : chip' lastFile = writeBlock (chip lastFile) 3 (wordBytes inode)
  magic : pageMagic (chip' inode) = magicFile
  nextPage : nextPage (chip' inode) = 0
  nextFile : nextFile (chip' inode) = 0

theorem fileLinked (chip : Chip) {lastFile inode : Nat} (bound : inode < geometry.pageCount)
    (last : lastFile ≠ inode ∧ lastFile < geometry.pageCount) (filename : List UInt8) :
    FileLinked chip (writeSlice geometry (writeSlice geometry chip lastFile 3 (wordBytes inode))
      inode 0 (filePageBytes filename 0)) lastFile inode := by
  have links := filePageBytes_links (writeSlice geometry chip lastFile 3 (wordBytes inode) inode)
    filename (by omega : 0 < 65536)
  rw [← writeSlice_same bound] at links
  refine ⟨fun page notLast notNew => ?_, ?_, links.1, links.2.1, links.2.2⟩
  · rw [writeSlice_other bound notNew, writeSlice_other last.2 notLast]
  · rw [writeSlice_other bound last.1, writeSlice_same last.2]

theorem FileLinked.magic_eq {chip' : Chip} {lastFile inode page : Nat}
    (linked : FileLinked chip chip' lastFile inode) (notNew : page ≠ inode) :
    pageMagic (chip' page) = pageMagic (chip page) := by
  by_cases isLast : page = lastFile
  · rw [isLast, linked.link]
    exact writeBlock_outside (Or.inl (by decide))
  · rw [linked.other page isLast notNew]

/-- The superblock and the listed pages differ from a new one. -/
theorem anchored_of_notMem {listed : List Nat} {inode : Nat} (positive : 0 < inode)
    (inRange : ∀ page ∈ listed, page < geometry.pageCount) (unlisted : inode ∉ listed) :
    ∀ page ∈ 0 :: listed, page ≠ inode ∧ page < geometry.pageCount := by
  intro page member
  rcases List.mem_cons.mp member with rfl | inList
  · exact ⟨by omega, geometry.pageCount_pos⟩
  · refine ⟨?_, inRange page inList⟩
    rintro rfl
    exact unlisted inList

/-- A new file page is linked behind the last one. -/
theorem Lists.addFile {listed : List Nat} (lists : Lists geometry chip listed) {inode : Nat}
    (positive : 0 < inode) (bound : inode < geometry.pageCount) (unlisted : inode ∉ listed)
    (filename : List UInt8) :
    Lists geometry (writeSlice geometry (writeSlice geometry chip (listed.getLastD 0) 3
      (wordBytes inode)) inode 0 (filePageBytes filename 0)) (listed ++ [inode]) := by
  have small : inode < 65536 := by
    have limit := geometry.pageCount_le
    omega
  have anchored := anchored_of_notMem positive (fun page member => (lists.usable page member).2.1)
    unlisted
  have nodup : (0 :: listed).Nodup := by
    rw [List.nodup_cons]
    refine ⟨fun zero => ?_, lists.nodup⟩
    exact Nat.lt_irrefl 0 (lists.usable 0 zero).1
  have splitList := cons_eq_dropLast_append 0 listed
  generalize lastDef : listed.getLastD 0 = lastFile at splitList ⊢
  have lastMember : lastFile ∈ 0 :: listed := by
    rw [splitList]
    exact List.mem_append_right _ List.mem_cons_self
  have linked := fileLinked chip bound (anchored lastFile lastMember) filename
  generalize writeSlice geometry (writeSlice geometry chip lastFile 3 (wordBytes inode)) inode 0
    (filePageBytes filename 0) = chip' at linked ⊢
  constructor
  · have list := lists.segment
    rw [splitList] at list nodup
    rw [← List.cons_append, splitList, List.append_assoc]
    apply list.snoc
    · intro page member
      have notLast : page ≠ lastFile := by
        rintro rfl
        exact (List.nodup_append.mp nodup).2.2 _ member _ List.mem_cons_self rfl
      have inList := (List.dropLast_sublist _).subset member
      rw [linked.other page notLast (anchored page inList).1]
    · rw [linked.link]
      exact readWord_writeBlock _ 3 inode small
    · exact linked.nextFile
  · rw [List.nodup_append]
    refine ⟨lists.nodup, List.nodup_singleton _, ?_⟩
    intro page member other isNew
    rw [List.mem_singleton.mp isNew]
    exact (anchored page (List.mem_cons_of_mem _ member)).1
  · intro page member
    rcases List.mem_append.mp member with old | isNew
    · obtain ⟨pagePositive, pageBound, magic⟩ := lists.usable page old
      refine ⟨pagePositive, pageBound, ?_⟩
      rw [linked.magic_eq (anchored page (List.mem_cons_of_mem _ old)).1]
      exact magic
    · rw [List.mem_singleton.mp isNew]
      exact ⟨positive, bound, linked.magic⟩

/-- A new file is linked behind the last one. -/
theorem Layout.addFile (layout : Layout geometry chip files) {inode : Nat} (positive : 0 < inode)
    (bound : inode < geometry.pageCount) (unused : inode ∉ pagesOf files)
    (filename : List UInt8) :
    Layout geometry (writeSlice geometry (writeSlice geometry chip
      ((files.map FileEntry.page).getLastD 0) 3 (wordBytes inode)) inode 0
        (filePageBytes filename 0)) (files ++ [⟨inode, []⟩]) := by
  have listed := (layout.lists.addFile positive bound
    (fun member => unused ((sublist_pagesOf_page files).subset member)) filename).segment
  have anchored := anchored_of_notMem positive
    (fun page member => (layout.inRange page ((sublist_pagesOf_page files).subset member)).2)
    (fun member => unused ((sublist_pagesOf_page files).subset member))
  generalize lastDef : (files.map FileEntry.page).getLastD 0 = lastFile at listed ⊢
  have lastMember : lastFile ∈ 0 :: files.map FileEntry.page := by
    rw [← lastDef]
    exact List.getLastD_mem_cons
  have linked := fileLinked chip bound (anchored lastFile lastMember) filename
  generalize writeSlice geometry (writeSlice geometry chip lastFile 3 (wordBytes inode)) inode 0
    (filePageBytes filename 0) = chip' at listed linked ⊢
  have nextKept : ∀ page, page ≠ inode → nextPage (chip' page) = nextPage (chip page) := by
    intro page notNew
    by_cases isLast : page = lastFile
    · rw [isLast, linked.link]
      exact readWord_outside (Or.inl (Nat.le_refl _))
    · rw [linked.other page isLast notNew]
  have usedNe : ∀ page ∈ pagesOf files, page ≠ inode := by
    rintro page member rfl
    exact unused member
  have pagesEq : pagesOf (files ++ [⟨inode, []⟩]) = pagesOf files ++ [inode] := by
    rw [pagesOf, List.flatMap_append]
    rfl
  constructor
  · rw [linked.magic_eq (by omega)]
    exact layout.superblock
  · rw [List.map_append]
    exact listed
  · intro file member
    rcases List.mem_append.mp member with old | isNew
    · refine (layout.chains file old).congr fun page inFile => ?_
      exact nextKept page (usedNe page (page_mem_pagesOf old inFile))
    · rw [List.mem_singleton.mp isNew]
      exact ⟨rfl, linked.nextPage⟩
  · rw [pagesEq, List.nodup_append]
    refine ⟨layout.nodup, List.nodup_singleton _, ?_⟩
    intro page member other isNew
    rw [List.mem_singleton.mp isNew]
    exact usedNe page member
  · intro page member
    rw [pagesEq, List.mem_append, List.mem_singleton] at member
    rcases member with old | rfl
    · exact layout.inRange page old
    · exact ⟨positive, bound⟩
  · intro file member
    rcases List.mem_append.mp member with old | isNew
    · rw [linked.magic_eq (usedNe _ (page_mem_pagesOf old List.mem_cons_self))]
      exact layout.fileMagic file old
    · rw [List.mem_singleton.mp isNew]
      exact linked.magic
  · intro file member page inChain
    rcases List.mem_append.mp member with old | isNew
    · rw [linked.magic_eq (usedNe _ (page_mem_pagesOf old (List.mem_cons_of_mem _ inChain)))]
      exact layout.dataMagic file old page inChain
    · rw [List.mem_singleton.mp isNew] at inChain
      cases inChain
  · intro page pagePos pageBound notUsed
    rw [pagesEq, List.mem_append, not_or, List.mem_singleton] at notUsed
    rw [linked.magic_eq notUsed.2]
    exact layout.free page pagePos pageBound notUsed.1

/-- Clearing a chain frees its pages and touches no other. -/
theorem clearChain_spec {pages : List Nat} {fuel page : Nat} {chip' : Chip}
    (chain : Segment (fun page => nextPage (chip page)) page pages 0) (nodup : pages.Nodup)
    (usable : ∀ page ∈ pages, 0 < page ∧ page < geometry.pageCount)
    (cleared : clearChain geometry fuel chip page = some chip') :
    (∀ other, other ∉ pages → chip' other = chip other) ∧
      ∀ other ∈ pages, pageMagic (chip' other) = 0 := by
  induction fuel generalizing chip page pages with
  | zero => cases cleared
  | succ fuel ih =>
      rw [clearChain] at cleared
      cases pages with
      | nil =>
          cases chain
          rw [if_pos rfl] at cleared
          cases Option.some.inj cleared
          exact ⟨fun _ _ => rfl, fun other member => absurd member List.not_mem_nil⟩
      | cons head pages =>
          obtain ⟨rfl, rest⟩ := chain
          obtain ⟨positive, bound⟩ := usable page List.mem_cons_self
          rw [List.nodup_cons] at nodup
          rw [if_neg (by omega), readPage_of_lt bound] at cleared
          have restKept : Segment (fun other => nextPage (writeSlice geometry chip page 0
              [0, 0, 0, 0] other)) (nextPage (chip page)) pages 0 := by
            refine rest.congr fun other member => ?_
            rw [writeSlice_other bound]
            rintro rfl
            exact nodup.1 member
          obtain ⟨kept, freed⟩ := ih restKept nodup.2
            (fun other member => usable other (List.mem_cons_of_mem _ member)) cleared
          constructor
          · intro other notMember
            rw [List.mem_cons, not_or] at notMember
            rw [kept other notMember.2, writeSlice_other bound notMember.1]
          · intro other member
            by_cases inRest : other ∈ pages
            · exact freed other inRest
            · have isPage : other = page := (List.mem_cons.mp member).resolve_right inRest
              rw [isPage, kept page nodup.1, writeSlice_same bound]
              rfl

/-- Creating a file that exists frees its data. -/
theorem Layout.createAgain (layout : Layout geometry chip (front ++ file :: back))
    {filename : List UInt8} {result : Chip × Nat}
    (created : createAgain geometry chip file.page filename = some result) :
    Layout geometry result.1 (front ++ ⟨file.page, []⟩ :: back) := by
  have fileMember : file ∈ front ++ file :: back := List.mem_append_right _ List.mem_cons_self
  have usable : ∀ page ∈ file.pages, 0 < page ∧ page < geometry.pageCount :=
    fun page member => layout.inRange page (mem_pagesOf_split.mpr (Or.inl member))
  have bound := (usable _ List.mem_cons_self).2
  have nodup := layout.disjoint.1
  rw [Sfs.createAgain, Option.map_eq_some_iff] at created
  obtain ⟨cleared, clearing, rfl⟩ := created
  rw [readPage_of_lt bound] at clearing ⊢
  obtain ⟨kept, freed⟩ := clearChain_spec (layout.chains file fileMember).2
    (List.nodup_cons.mp nodup).2
    (fun page member => usable page (List.mem_cons_of_mem _ member)) clearing
  obtain ⟨newMagic, newNextPage, newNextFile⟩ := filePageBytes_links (cleared file.page) filename
    (readWord_lt (chip file.page) 3)
  have atFile : ∀ bytes, writeSlice geometry cleared file.page 0 bytes file.page =
      writeBlock (cleared file.page) 0 bytes := fun bytes => writeSlice_same bound 0 bytes
  dsimp only
  apply layout.replace
  constructor
  · rfl
  · intro page notOld _
    have notFile : page ≠ file.page := by
      rintro rfl
      exact notOld List.mem_cons_self
    rw [writeSlice_other bound notFile, kept page fun inChain =>
      notOld (List.mem_cons_of_mem _ inChain)]
  · rw [atFile]
    exact newNextFile
  · rw [atFile]
    exact newMagic
  · intro page member
    cases member
  · have nextEq := congrArg nextPage (atFile (filePageBytes filename (nextFile (chip file.page))))
    exact ⟨rfl, nextEq.trans newNextPage⟩
  · exact List.nodup_singleton _
  · intro page member
    cases member
  · intro page inChain _
    have notFile : page ≠ file.page := by
      rintro rfl
      exact (List.nodup_cons.mp nodup).1 inChain
    rw [writeSlice_other bound notFile, freed page inChain]
    decide

theorem Layout.create (layout : Layout geometry chip files) {filename : List UInt8}
    {result : Chip × Nat} (created : createFile geometry chip filename = some result) :
    ∃ files', Layout geometry result.1 files' := by
  rw [createFile, Option.bind_eq_some_iff] at created
  obtain ⟨⟨inode, previous⟩, search, created⟩ := created
  rcases layout.findFile search with ⟨zero, _⟩ | ⟨front, file, back, rfl, rfl, _, _⟩
  · dsimp only at zero created
    rw [if_pos zero, createNew, Option.bind_eq_some_iff] at created
    obtain ⟨new, free, created⟩ := created
    rcases layout.findFreePage (Nat.zero_le _) free with rfl | ⟨positive, bound, unused⟩
    · rw [if_pos rfl] at created
      cases Option.some.inj created
      exact ⟨files, layout⟩
    · rw [if_neg (by omega), Option.map_eq_some_iff] at created
      obtain ⟨⟨lastFile, _⟩, findLast, rfl⟩ := created
      have lastEq := layout.lists.findLast findLast
      subst lastEq
      exact ⟨_, layout.addFile positive bound unused filename⟩
  · have positive := (layout.inRange _ (mem_pagesOf_split.mpr (Or.inl List.mem_cons_self))).1
    dsimp only at created
    rw [if_neg (by omega)] at created
    exact ⟨_, layout.createAgain created⟩

end Create

section Unlink

variable {geometry : Geometry} {chip : Chip} {files front back : List FileEntry}
  {file : FileEntry}

/-- Writing back a whole page with changed links. -/
theorem writeBlock_wholePage {memory changed : Memory} {index : Nat} (inside : index < pageSize) :
    writeBlock memory 0 (readBlock changed 0 pageSize) index = changed index := by
  rw [writeBlock_inside (Nat.zero_le _) (by rw [length_readBlock]; omega), Nat.sub_zero,
    getD_readBlock inside, Nat.zero_add]

theorem readWord_wholePage {memory changed : Memory} {offset : Nat}
    (inside : offset + 1 < pageSize) :
    readWord (writeBlock memory 0 (readBlock changed 0 pageSize)) offset =
      readWord changed offset := by
  rw [readWord, readWord, writeBlock_wholePage (by omega), writeBlock_wholePage inside]

theorem Lists.congr {listed : List Nat} {chip' : Chip} (lists : Lists geometry chip listed)
    (agree : ∀ page ∈ 0 :: listed, nextFile (chip' page) = nextFile (chip page) ∧
      pageMagic (chip' page) = pageMagic (chip page)) :
    Lists geometry chip' listed := by
  constructor
  · exact lists.segment.congr fun page member => (agree page member).1
  · exact lists.nodup
  · intro page member
    rw [(agree page (List.mem_cons_of_mem _ member)).2]
    exact lists.usable page member

/-- The page before a file is written back with the link of the file. -/
theorem Lists.unlinkFile {before after : List Nat} {inode previous : Nat}
    (lists : Lists geometry chip (before ++ inode :: after))
    (previousEq : previous = before.getLastD 0) :
    Lists geometry (writeSlice geometry chip previous 0 (readBlock
      (writeBlock (chip previous) 3 (wordBytes (nextFile (chip inode)))) 0 pageSize))
      (before ++ after) := by
  have nodup : (0 :: (before ++ inode :: after)).Nodup := by
    rw [List.nodup_cons]
    refine ⟨fun zero => ?_, lists.nodup⟩
    exact Nat.lt_irrefl 0 (lists.usable 0 zero).1
  have list := lists.segment
  have splitBefore : 0 :: before = (0 :: before).dropLast ++ [previous] := by
    rw [previousEq]
    exact cons_eq_dropLast_append 0 _
  have previousMember : previous ∈ 0 :: before := by
    rw [splitBefore]
    exact List.mem_append_right _ List.mem_cons_self
  have previousBound : previous < geometry.pageCount := by
    rcases List.mem_cons.mp previousMember with rfl | inBefore
    · exact geometry.pageCount_pos
    · exact (lists.usable previous (List.mem_append_left _ inBefore)).2.1
  rw [← List.cons_append, splitBefore, List.append_assoc, List.singleton_append] at list nodup
  have apart := List.nodup_append.mp nodup
  constructor
  · rw [← List.cons_append, splitBefore, List.append_assoc, List.singleton_append]
    apply list.unlink
    · intro page member
      rw [writeSlice_other previousBound]
      rintro rfl
      exact apart.2.2 _ member _ List.mem_cons_self rfl
    · intro page member
      rw [writeSlice_other previousBound]
      rintro rfl
      exact (List.nodup_cons.mp apart.2.1).1 (List.mem_cons_of_mem _ member)
    · rw [writeSlice_same previousBound, nextFile, readWord_wholePage (by decide)]
      exact readWord_writeBlock _ 3 _ (readWord_lt _ _)
  · exact lists.nodup.sublist ((List.Sublist.refl before).append (List.sublist_cons_self _ _))
  · intro page member
    have inList : page ∈ before ++ inode :: after := by
      rcases List.mem_append.mp member with inBefore | inAfter
      · exact List.mem_append_left _ inBefore
      · exact List.mem_append_right _ (List.mem_cons_of_mem _ inAfter)
    obtain ⟨positive, bound, magic⟩ := lists.usable page inList
    refine ⟨positive, bound, ?_⟩
    by_cases isPrevious : page = previous
    · rw [isPrevious] at magic ⊢
      rw [writeSlice_same previousBound, pageMagic, writeBlock_wholePage (by decide),
        writeBlock_outside (Or.inl (by decide))]
      exact magic
    · rw [writeSlice_other previousBound isPrevious]
      exact magic

/-- The page before a file gets its link, and the page of the file is freed. -/
theorem unlinked_pages {previous page : Nat} (bound : page < geometry.pageCount)
    (previousBound : previous < geometry.pageCount) (link : Nat) :
    let chip' := writeSlice geometry (writeSlice geometry chip previous 0
      (readBlock (writeBlock (chip previous) 3 (wordBytes link)) 0 pageSize))
      page 0 (List.replicate pageSize 0)
    pageMagic (chip' page) = 0 ∧ ∀ other, other ≠ page →
      pageMagic (chip' other) = pageMagic (chip other) ∧
        nextPage (chip' other) = nextPage (chip other) := by
  refine ⟨by rw [writeSlice_same bound]; rfl, fun other notFile => ?_⟩
  rw [writeSlice_other bound notFile]
  by_cases isPrevious : other = previous
  · rw [isPrevious, writeSlice_same previousBound, pageMagic, nextPage,
      writeBlock_wholePage (by decide), readWord_wholePage (by decide)]
    exact ⟨writeBlock_outside (Or.inl (by decide)), readWord_outside (Or.inl (by decide))⟩
  · rw [writeSlice_other previousBound isPrevious]
    exact ⟨rfl, rfl⟩

/-- A file without data disappears from the list. -/
theorem Layout.removeFile (layout : Layout geometry chip (front ++ file :: back))
    (noData : file.chain = []) {previous : Nat}
    (previousEq : previous = (front.map FileEntry.page).getLastD 0) :
    Layout geometry (writeSlice geometry (writeSlice geometry chip previous 0
      (readBlock (writeBlock (chip previous) 3 (wordBytes (nextFile (chip file.page)))) 0 pageSize))
      file.page 0 (List.replicate pageSize 0)) (front ++ back) := by
  have nodup := layout.disjoint
  have lists := layout.lists
  rw [List.map_append, List.map_cons] at lists
  have unlinked := lists.unlinkFile previousEq
  have filePages : file.pages = [file.page] := by
    rw [FileEntry.pages, noData]
  have usable : ∀ page ∈ pagesOf (front ++ file :: back),
      0 < page ∧ page < geometry.pageCount := layout.inRange
  have bound := (usable file.page (mem_pagesOf_split.mpr (Or.inl List.mem_cons_self))).2
  have pagesEq : pagesOf (front ++ back) = pagesOf front ++ pagesOf back := by
    rw [pagesOf, List.flatMap_append]
    rfl
  have othersNe : ∀ page ∈ pagesOf front ++ pagesOf back, page ≠ file.page := by
    rintro page member rfl
    exact nodup.2.1 _ member List.mem_cons_self
  have anchored : ∀ page ∈ 0 :: front.map FileEntry.page,
      page ≠ file.page ∧ page < geometry.pageCount := by
    intro page member
    rcases List.mem_cons.mp member with rfl | inList
    · have positive := (usable file.page (mem_pagesOf_split.mpr (Or.inl List.mem_cons_self))).1
      exact ⟨by omega, geometry.pageCount_pos⟩
    · have inFront := List.mem_append_left (pagesOf back)
        ((sublist_pagesOf_page front).subset inList)
      exact ⟨othersNe page inFront, (usable page (mem_pagesOf_split.mpr (Or.inr inFront))).2⟩
  have previousMember : previous ∈ 0 :: front.map FileEntry.page := by
    rw [previousEq]
    exact List.getLastD_mem_cons
  have previousBound := (anchored previous previousMember).2
  obtain ⟨fileFreed, kept⟩ := @unlinked_pages _ chip _ _ bound previousBound
    (nextFile (chip file.page))
  generalize written : writeSlice geometry (writeSlice geometry chip previous 0
      (readBlock (writeBlock (chip previous) 3 (wordBytes (nextFile (chip file.page)))) 0 pageSize))
      file.page 0 (List.replicate pageSize 0) = chip' at fileFreed kept
  have oldFile : ∀ other ∈ front ++ back, ∀ page ∈ other.pages, page ≠ file.page :=
    fun other member page inFile => othersNe page (page_mem_others member inFile)
  constructor
  · rw [(kept 0 (anchored 0 List.mem_cons_self).1).1]
    exact layout.superblock
  · rw [List.map_append]
    refine unlinked.segment.congr fun page member => ?_
    have notFile : page ≠ file.page := by
      rw [← List.cons_append] at member
      rcases List.mem_append.mp member with inFront | inBack
      · exact (anchored page inFront).1
      · exact othersNe page (List.mem_append_right _ ((sublist_pagesOf_page back).subset inBack))
    rw [← written, writeSlice_other bound notFile]
  · intro other member
    refine (layout.chains other (mem_of_mem_others member)).congr fun page inFile => ?_
    exact (kept page (oldFile other member page inFile)).2
  · rw [pagesEq]
    exact nodup.2.2
  · intro page member
    rw [pagesEq] at member
    exact usable page (mem_pagesOf_split.mpr (Or.inr member))
  · intro other member
    rw [(kept _ (oldFile other member _ List.mem_cons_self)).1]
    exact layout.fileMagic other (mem_of_mem_others member)
  · intro other member page inChain
    rw [(kept _ (oldFile other member _ (List.mem_cons_of_mem _ inChain))).1]
    exact layout.dataMagic other (mem_of_mem_others member) page inChain
  · intro page positive pageBound unused
    rw [pagesEq] at unused
    by_cases isFile : page = file.page
    · rw [isFile, fileFreed]
      decide
    · rw [(kept page isFile).1]
      apply layout.free page positive pageBound
      rw [mem_pagesOf_split, filePages, List.mem_singleton, not_or]
      exact ⟨isFile, unused⟩

theorem Layout.unlink (layout : Layout geometry chip files) {filename : List UInt8}
    {result : Nat × Chip}
    (noData : ∀ inode previous,
      vfsEepromFindFile geometry chip (some filename) = some (inode, previous) →
      inode ≠ 0 → nextPage (readPage geometry chip inode) = 0)
    (unlinked : vfsEepromUnlink geometry chip filename = some result) :
    ∃ files', Layout geometry result.2 files' := by
  rw [vfsEepromUnlink, Option.bind_eq_some_iff] at unlinked
  obtain ⟨⟨inode, previous⟩, search, unlinked⟩ := unlinked
  have noPages := noData inode previous search
  rcases layout.findFile search with ⟨zero, _⟩ | ⟨front, file, back, rfl, rfl, previousEq, _⟩
  · dsimp only at unlinked
    rw [if_pos zero] at unlinked
    cases Option.some.inj unlinked
    exact ⟨files, layout⟩
  · have fileMember : file ∈ front ++ file :: back := List.mem_append_right _ List.mem_cons_self
    have inFiles := page_mem_pagesOf fileMember (List.mem_cons_self (a := file.page))
    obtain ⟨positive, bound⟩ := layout.inRange _ inFiles
    have noPages := noPages (by omega)
    have previousBound : previous < geometry.pageCount := by
      rw [previousEq]
      rcases List.mem_cons.mp (List.getLastD_mem_cons (l := front.map FileEntry.page)
        (a := 0)) with zero | member
      · rw [zero]
        exact geometry.pageCount_pos
      · refine (layout.inRange _ (mem_pagesOf_split.mpr (Or.inr (List.mem_append_left _ ?_)))).2
        exact (sublist_pagesOf_page front).subset member
    have noChain : file.chain = [] := by
      have chain := (layout.chains file fileMember).2
      rw [readPage_of_lt bound] at noPages
      cases chainEq : file.chain with
      | nil => rfl
      | cons first rest =>
          rw [chainEq] at chain
          have firstEq : nextPage (chip file.page) = first := chain.1
          have inChain : first ∈ file.pages := by
            rw [FileEntry.pages, chainEq]
            exact List.mem_cons_of_mem _ List.mem_cons_self
          have firstPos := (layout.inRange first (page_mem_pagesOf fileMember inChain)).1
          omega
    dsimp only at unlinked
    rw [if_neg (by omega), noPages, clearForUnlink, if_pos rfl] at unlinked
    cases Option.some.inj unlinked
    rw [readPage_of_lt bound, readPage_of_lt previousBound]
    exact ⟨_, layout.removeFile noChain previousEq⟩

end Unlink

def erasedChip : Chip := fun _ _ => 0xff

theorem foldl_clearPages (geometry : Geometry) (chip : Chip) {start count : Nat}
    (inRange : start + count ≤ geometry.pageCount) :
    (∀ page, page < start → (List.range' start count).foldl (fun chip page =>
        writeSlice geometry chip page 0 [0]) chip page = chip page) ∧
      ∀ page, start ≤ page → page < start + count →
        pageMagic ((List.range' start count).foldl (fun chip page =>
          writeSlice geometry chip page 0 [0]) chip page) = 0 := by
  induction count generalizing start chip with
  | zero => exact ⟨fun _ _ => rfl, fun page above below => by omega⟩
  | succ count ih =>
      obtain ⟨kept, cleared⟩ := ih (writeSlice geometry chip start 0 [0])
        (show start + 1 + count ≤ geometry.pageCount by omega)
      rw [List.range'_succ, List.foldl_cons]
      constructor
      · intro page below
        rw [kept page (by omega), writeSlice_other (by omega) (by omega)]
      · intro page above below
        by_cases isStart : page = start
        · rw [isStart, kept start (by omega), writeSlice_same (by omega)]
          rfl
        · exact cleared page (by omega) (by omega)

theorem layout_vfsEepromInit {geometry : Geometry} {chip : Chip}
    (unformatted : isFormatted (readPage geometry chip 0) = false) :
    Layout geometry (vfsEepromInit geometry chip) [] := by
  have positive := geometry.pageCount_pos
  obtain ⟨kept, cleared⟩ := foldl_clearPages geometry
    (writeSlice geometry chip 0 0 superblockBytes)
    (show 1 + (geometry.pageCount - 1) ≤ geometry.pageCount by omega)
  have superblock : vfsEepromInit geometry chip 0 = writeBlock (chip 0) 0 superblockBytes := by
    rw [vfsEepromInit, unformatted]
    exact (kept 0 Nat.one_pos).trans (writeSlice_same positive 0 _)
  constructor
  · rw [superblock]
    rfl
  · refine ⟨rfl, ?_⟩
    have nextEq := congrArg nextFile superblock
    exact nextEq
  · intro file member
    cases member
  · exact List.nodup_nil
  · intro page member
    cases member
  · intro file member
    cases member
  · intro file member
    cases member
  · intro page pagePos bound _
    have magic : pageMagic (vfsEepromInit geometry chip page) = 0 := by
      rw [vfsEepromInit, unformatted]
      exact cleared page pagePos (by omega)
    rw [magic]
    decide

def listFrom (geometry : Geometry) (chip : Chip) : Nat → Nat → List Nat
  | 0, _ => []
  | fuel + 1, page =>
      if page = 0 then [] else page :: listFrom geometry chip fuel
        (nextFile (readPage geometry chip page))

/-- The pages on the file list. -/
def listedFiles (geometry : Geometry) (chip : Chip) : List Nat :=
  listFrom geometry chip geometry.pageCount (nextFile (readPage geometry chip 0))

/-- The file to be unlinked has no data, and a handle that is written through
belongs to a listed file. -/
def SfsStep.Safe (geometry : Geometry) (state : SfsState) : SfsStep → Prop
  | .write slot _ => ∀ handle ∈ state.handles slot,
      handle.filePage ∈ listedFiles geometry state.chip
  | .unlink filename => ∀ found ∈ vfsEepromFindFile geometry state.chip (some filename),
      found.1 ≠ 0 → nextPage (readPage geometry state.chip found.1) = 0
  | _ => True

instance (geometry : Geometry) (state : SfsState) :
    ∀ step : SfsStep, Decidable (step.Safe geometry state)
  | .create _ _ _ => inferInstanceAs (Decidable True)
  | .openFile _ _ _ => inferInstanceAs (Decidable True)
  | .close _ => inferInstanceAs (Decidable True)
  | .read _ _ => inferInstanceAs (Decidable True)
  | .write slot _ => inferInstanceAs (Decidable (∀ handle ∈ state.handles slot, _))
  | .unlink filename => inferInstanceAs (Decidable (
      ∀ found ∈ vfsEepromFindFile geometry state.chip (some filename), _ → _))

section Runs

variable {geometry : Geometry} {chip : Chip} {files : List FileEntry}

theorem listFrom_subset {pages : List Nat} {fuel page : Nat}
    (list : Segment (fun page => nextFile (chip page)) page pages 0)
    (usable : ∀ page ∈ pages, page < geometry.pageCount) :
    listFrom geometry chip fuel page ⊆ pages := by
  induction fuel generalizing page pages with
  | zero => exact List.nil_subset _
  | succ fuel ih =>
      rw [listFrom]
      split
      · exact List.nil_subset _
      next notZero =>
        cases pages with
        | nil => exact absurd list notZero
        | cons head pages =>
            obtain ⟨rfl, rest⟩ := list
            rw [readPage_of_lt (usable page List.mem_cons_self)]
            exact List.cons_subset_cons _ (ih rest fun other member =>
              usable other (List.mem_cons_of_mem _ member))

theorem Layout.listed (layout : Layout geometry chip files) {page : Nat}
    (listed : page ∈ listedFiles geometry chip) :
    ∃ front file back, files = front ++ file :: back ∧ page = file.page := by
  have usable : ∀ page ∈ files.map FileEntry.page, page < geometry.pageCount :=
    fun page member => (layout.inRange page ((sublist_pagesOf_page files).subset member)).2
  rw [listedFiles, readPage_of_lt geometry.pageCount_pos] at listed
  obtain ⟨file, member, rfl⟩ :=
    List.mem_map.mp (listFrom_subset layout.fileList.2 usable listed)
  obtain ⟨front, back, rfl⟩ := List.append_of_mem member
  exact ⟨front, file, back, rfl, rfl⟩

theorem sfsStep_layout (state : SfsState) (step : SfsStep) (next : SfsState)
    (represented : ∃ files, Layout geometry state.chip files) (safe : step.Safe geometry state)
    (stepped : sfsStep geometry state step = some next) :
    ∃ files, Layout geometry next.chip files := by
  obtain ⟨files, layout⟩ := represented
  cases step with
  | create filename slot allocated =>
      rw [sfsStep, vfsEepromCreate, Option.map_map, Option.map_eq_some_iff] at stepped
      obtain ⟨result, created, rfl⟩ := stepped
      exact layout.create created
  | openFile filename slot allocated =>
      rw [sfsStep, Option.map_eq_some_iff] at stepped
      obtain ⟨handle, _, rfl⟩ := stepped
      exact ⟨files, layout⟩
  | close slot =>
      cases Option.some.inj stepped
      exact ⟨files, layout⟩
  | read slot size =>
      rw [sfsStep] at stepped
      split at stepped
      · cases Option.some.inj stepped
        exact ⟨files, layout⟩
      · rw [Option.map_eq_some_iff] at stepped
        obtain ⟨result, _, rfl⟩ := stepped
        exact ⟨files, layout⟩
  | write slot data =>
      rw [sfsStep] at stepped
      split at stepped
      · cases Option.some.inj stepped
        exact ⟨files, layout⟩
      next handle opened =>
        rw [Option.map_eq_some_iff] at stepped
        obtain ⟨result, written, rfl⟩ := stepped
        obtain ⟨front, file, back, rfl, isFile⟩ := layout.listed (safe handle opened)
        obtain ⟨added, extended⟩ := layout.write isFile data.short written
        exact ⟨_, extended⟩
  | unlink filename =>
      rw [sfsStep, Option.map_eq_some_iff] at stepped
      obtain ⟨result, unlinked, rfl⟩ := stepped
      exact layout.unlink (fun inode previous search => safe (inode, previous) search) unlinked

end Runs

/-- The file system after `vfs_eeprom_init` on an erased chip. -/
def formattedState (geometry : Geometry) : SfsState :=
  ⟨vfsEepromInit geometry erasedChip, fun _ => none⟩

/-- In every state that operations reach without unlinking a file that has data
and without writing through the handle of an unlinked file, the pages of the
chip are accounted for. -/
theorem sfs_pages_accounted_of_safe (geometry : Geometry) (steps : List SfsStep)
    (last : SfsState)
    (safe : Guarded (sfsStep geometry) (fun state step => step.Safe geometry state)
      (formattedState geometry) steps)
    (reached : run (sfsStep geometry) (formattedState geometry) steps = some last) :
    PagesAccounted geometry last.chip := by
  have unformatted : isFormatted (readPage geometry erasedChip 0) = false := rfl
  have formatted : ∃ files, Layout geometry (formattedState geometry).chip files :=
    ⟨[], layout_vfsEepromInit unformatted⟩
  obtain ⟨files, layout⟩ := safe.invariant sfsStep_layout formatted reached
  exact layout.accounted

def fourPages : Geometry := ⟨4, by decide, by decide⟩

def oneByte : Buffer := ⟨[7], by decide⟩

/-- The file `"a"` is written, created again and so emptied, then unlinked. -/
def emptiedRun : List SfsStep :=
  [.create [97] 0 true, .write 0 oneByte, .create [97] 1 true, .unlink [97]]

def leakingRun : List SfsStep :=
  [.create [97] 0 true, .write 0 oneByte, .unlink [97]]

theorem sfs_pages_accounted_emptiedRun :
    ∃ last, run (sfsStep fourPages) (formattedState fourPages) emptiedRun = some last ∧
      PagesAccounted fourPages last.chip := by
  have ends : (run (sfsStep fourPages) (formattedState fourPages) emptiedRun).isSome = true := by
    decide +kernel
  obtain ⟨last, reached⟩ := Option.isSome_iff_exists.mp ends
  exact ⟨last, reached,
    sfs_pages_accounted_of_safe fourPages emptiedRun last (by decide +kernel) reached⟩

/-- Unlinking a file with one data page leaves that page behind. -/
theorem sfs_unlink_leaks_page :
    ∃ last, run (sfsStep fourPages) (formattedState fourPages) leakingRun = some last ∧
      listedFiles fourPages last.chip = [] ∧ pageMagic (last.chip 2) = magicData ∧
      ¬PagesAccounted fourPages last.chip := by
  have ended : (run (sfsStep fourPages) (formattedState fourPages) leakingRun).map
      (fun last => (listedFiles fourPages last.chip, pageMagic (last.chip 2),
        nextFile (last.chip 0))) = some ([], magicData, 0) := by
    decide +kernel
  obtain ⟨last, reached, view⟩ := Option.map_eq_some_iff.mp ended
  simp only [Prod.mk.injEq] at view
  obtain ⟨noFiles, dataPage, noFile⟩ := view
  refine ⟨last, reached, noFiles, dataPage, ?_⟩
  rintro ⟨files, list, _, notZero, pages⟩
  cases files with
  | nil =>
      have counted := (pages 2 (by decide) (by decide)).2.1 dataPage
      cases counted
  | cons file files =>
      have first : nextFile (last.chip 0) = file.page := list.2.1
      rw [noFile] at first
      apply notZero
      rw [first]
      exact page_mem_pagesOf List.mem_cons_self List.mem_cons_self

end Ethersex.Sfs

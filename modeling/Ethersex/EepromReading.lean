import Ethersex.EepromSurvival

/-!
# Reading a file on the EEPROM

The content of a file is the content of its data pages, of which all but the
last are full.  `vfs_eeprom_read` sees the end of the file only in a page that
it reads from its beginning.  When it meets the end elsewhere it goes on to page
0, which is no data page, and reports that nothing was read.
-/

namespace Ethersex.Sfs

open ByteMemory LinkedSegments

def pageData (page : Memory) : List UInt8 := readBlock page 4 (pageLen page)

def contentOf (chip : Chip) (chain : List Nat) : List UInt8 :=
  chain.flatMap fun page => pageData (chip page)

/-- Only the last page of a chain may have room left. -/
def Filled (chip : Chip) : List Nat → Prop
  | [] => True
  | page :: rest =>
      pageLen (chip page) ≤ dataSize ∧ (rest ≠ [] → pageLen (chip page) = dataSize) ∧
        Filled chip rest

/-- A file with its data pages. -/
structure DataFile (geometry : Geometry) (chip : Chip) (file : FileEntry) : Prop where
  superblock : pageMagic (chip 0) = magicSuperblock
  chain : Segment (fun page => nextPage (chip page)) file.page file.pages 0
  inRange : ∀ page ∈ file.pages, 0 < page ∧ page < geometry.pageCount
  nodup : file.pages.Nodup
  dataMagic : ∀ page ∈ file.chain, pageMagic (chip page) = magicData
  filled : Filled chip file.chain

section Content

variable {chip : Chip} {page : Nat} {chain rest : List Nat}

theorem length_pageData (page : Memory) : (pageData page).length = pageLen page :=
  length_readBlock ..

theorem contentOf_cons (chip : Chip) (page : Nat) (rest : List Nat) :
    contentOf chip (page :: rest) = pageData (chip page) ++ contentOf chip rest :=
  List.flatMap_cons

theorem length_contentOf_cons (chip : Chip) (page : Nat) (rest : List Nat) :
    (contentOf chip (page :: rest)).length =
      pageLen (chip page) + (contentOf chip rest).length := by
  rw [contentOf_cons, List.length_append, length_pageData]

theorem Filled.length_le (filled : Filled chip chain) :
    (contentOf chip chain).length ≤ dataSize * chain.length := by
  induction chain with
  | nil => exact Nat.le_refl _
  | cons page rest ih =>
      have later := ih filled.2.2
      have here := filled.1
      rw [length_contentOf_cons, List.length_cons]
      rw [dataSize] at *
      omega

/-- The content behind some full pages. -/
theorem Filled.drop (filled : Filled chip chain) {count : Nat} (bound : count < chain.length) :
    Filled chip (chain.drop count) ∧
      contentOf chip (chain.drop count) = (contentOf chip chain).drop (dataSize * count) := by
  induction chain generalizing count with
  | nil => cases bound
  | cons page rest ih =>
      cases count with
      | zero => exact ⟨filled, rfl⟩
      | succ count =>
          rw [List.length_cons] at bound
          obtain ⟨restFilled, restEq⟩ := ih filled.2.2 (Nat.lt_of_succ_lt_succ bound)
          have nonempty : rest ≠ [] := by
            rintro rfl
            simp only [List.length_nil] at bound
            omega
          have full : (pageData (chip page)).length = dataSize := by
            rw [length_pageData]
            exact filled.2.1 nonempty
          refine ⟨restFilled, ?_⟩
          rw [List.drop_succ_cons, restEq, contentOf_cons, Nat.mul_succ, Nat.add_comm,
            ← List.drop_drop, List.drop_left' full]

end Content

section Loop

variable {geometry : Geometry} {chip : Chip} {page : Nat} {pages : List Nat}

theorem readData_done {fuel offset size : Nat} {copied : List UInt8}
    (done : size ≤ copied.length) :
    readData geometry chip (fuel + 1) page offset size copied = some (copied, offset) := by
  rw [readData, if_neg (by omega)]

/-- Behind the chain there is the superblock. -/
theorem readData_superblock (superblock : pageMagic (chip 0) = magicSuperblock)
    {fuel offset size : Nat} {copied : List UInt8} (wanted : copied.length < size) :
    readData geometry chip (fuel + 1) 0 offset size copied = some ([], offset) := by
  have notData : magicSuperblock ≠ magicData := by decide
  rw [readData, if_pos wanted, readPage_of_lt geometry.pageCount_pos]
  dsimp only
  rw [superblock, if_pos notData]

/-- What is copied from one page. -/
theorem copyFromPage_eq {memory : Memory} {pageOffset wanted : Nat}
    (small : pageLen memory ≤ dataSize) (inside : pageOffset ≤ pageLen memory) :
    copyFromPage memory pageOffset wanted =
      (min wanted (pageLen memory - pageOffset),
        decide (pageOffset = 0 ∧ pageLen memory < min wanted dataSize)) := by
  have minEq : (if wanted < dataSize then wanted else dataSize) = min wanted dataSize := by
    rw [Nat.min_def]
    split <;> split <;> omega
  rw [copyFromPage, minEq]
  rw [dataSize] at *
  split
  next short =>
    rw [Prod.mk.injEq]
    constructor
    · omega
    · by_cases zero : pageOffset = 0
      · simp only [zero, true_and, beq_self_eq_true]
        rw [eq_comm, decide_eq_true_eq]
        omega
      · simp [zero]
  next enough =>
    rw [Prod.mk.injEq]
    constructor
    · omega
    · rw [eq_comm, decide_eq_false_iff_not]
      omega

theorem readBlock_pageData {memory : Memory} {pageOffset count : Nat}
    (inside : pageOffset + count ≤ pageLen memory) :
    readBlock memory (4 + pageOffset) count = ((pageData memory).drop pageOffset).take count := by
  rw [pageData, drop_readBlock (by omega), take_readBlock (by omega)]

/-- One round of the loop. -/
theorem readData_page {fuel offset size : Nat} {copied : List UInt8}
    (bound : page < geometry.pageCount) (magic : pageMagic (chip page) = magicData)
    (fits : pageLen (chip page) ≤ dataSize) (inside : offset % dataSize ≤ pageLen (chip page))
    (small : offset + pageLen (chip page) < 65536) (wanted : copied.length < size) :
    readData geometry chip (fuel + 1) page offset size copied =
      (let available := (pageData (chip page)).drop (offset % dataSize)
      let copied' := copied ++ available.take (size - copied.length)
      let offset' := offset + min (size - copied.length) available.length
      if offset % dataSize = 0 ∧ pageLen (chip page) < min (size - copied.length) dataSize then
        some (copied', offset')
      else
        readData geometry chip fuel (nextPage (chip page)) offset' size copied') := by
  have lengthEq : ((pageData (chip page)).drop (offset % dataSize)).length =
      pageLen (chip page) - offset % dataSize := by
    rw [List.length_drop, length_pageData]
  have takeEq : readBlock (chip page) (4 + offset % dataSize)
      (min (size - copied.length) (pageLen (chip page) - offset % dataSize)) =
        ((pageData (chip page)).drop (offset % dataSize)).take (size - copied.length) := by
    rw [readBlock_pageData (by omega), ← lengthEq, ← List.take_eq_take_min]
  have wraps : (offset + min (size - copied.length) (pageLen (chip page) - offset % dataSize)) %
      65536 = offset + min (size - copied.length) (pageLen (chip page) - offset % dataSize) := by
    apply Nat.mod_eq_of_lt
    omega
  rw [readData, if_pos wanted, readPage_of_lt bound]
  dsimp only
  rw [if_neg (not_not_intro magic), copyFromPage_eq fits inside, lengthEq, takeEq, wraps]
  simp only [decide_eq_true_eq]

/-- The reader comes to the first byte of a page that is not full: there it sees the
end. -/
def EndSeen (offset length pageCount : Nat) : Prop :=
  length < dataSize * pageCount ∧ (offset % dataSize = 0 ∨ 1 < pageCount)

instance (offset length pageCount : Nat) : Decidable (EndSeen offset length pageCount) :=
  inferInstanceAs (Decidable (_ ∧ _))

/-- Going on to the next page does not change whether the end will be seen. -/
theorem endSeen_next_iff {offset length rest pageCount wanted : Nat}
    (start : offset % dataSize ≤ length)
    (full : pageCount ≠ 0 → length = dataSize) (nothing : pageCount = 0 → rest = 0)
    (notEnded : ¬(offset % dataSize = 0 ∧ length < min wanted dataSize))
    (more : length - offset % dataSize < wanted) :
    EndSeen (offset + (length - offset % dataSize)) rest pageCount ↔
      EndSeen offset (length + rest) (pageCount + 1) := by
  rw [EndSeen, EndSeen]
  rw [dataSize] at *
  by_cases isLast : pageCount = 0
  · have restZero := nothing isLast
    omega
  · have isFull := full isLast
    omega

/-- What the loop returns from a page of the chain on: what is wanted or what is there, or nothing
behind the end. -/
def readFrom (chip : Chip) (pages : List Nat) (offset size : Nat) (copied : List UInt8) :
    Option (List UInt8 × Nat) :=
  let available := (contentOf chip pages).drop (offset % dataSize)
  if size - copied.length ≤ available.length ∨
      EndSeen offset (contentOf chip pages).length pages.length then
    some (copied ++ available.take (size - copied.length),
      offset + min (size - copied.length) available.length)
  else
    some ([], offset + available.length)

theorem readFrom_done {offset size : Nat} {copied : List UInt8} (done : size ≤ copied.length) :
    readFrom chip pages offset size copied = some (copied, offset) := by
  have nothing : size - copied.length = 0 := by omega
  rw [readFrom, nothing]
  simp

section Page

variable {offset size : Nat} {copied : List UInt8}

theorem length_behind : ((pageData (chip page)).drop (offset % dataSize)).length =
    pageLen (chip page) - offset % dataSize := by
  rw [List.length_drop, length_pageData]

theorem contentOf_behind (start : offset % dataSize ≤ pageLen (chip page)) :
    (contentOf chip (page :: pages)).drop (offset % dataSize) =
      (pageData (chip page)).drop (offset % dataSize) ++ contentOf chip pages := by
  rw [contentOf_cons, List.drop_append_of_le_length]
  rw [length_pageData]
  exact start

/-- The last page has room left, and the end is seen there. -/
theorem readFrom_last (start : offset % dataSize ≤ pageLen (chip page))
    (ended : offset % dataSize = 0 ∧ pageLen (chip page) < min (size - copied.length) dataSize) :
    readFrom chip [page] offset size copied =
      some (copied ++ ((pageData (chip page)).drop (offset % dataSize)).take (size - copied.length),
        offset + min (size - copied.length) (pageLen (chip page) - offset % dataSize)) := by
  have empty : contentOf chip [] = [] := rfl
  have seen : EndSeen offset (contentOf chip [page]).length [page].length := by
    refine ⟨?_, Or.inl ended.1⟩
    rw [length_contentOf_cons, empty, List.length_singleton, List.length_nil]
    omega
  rw [readFrom]
  rw [if_pos (Or.inr seen), contentOf_behind start, empty, List.append_nil, length_behind]

/-- The page has all that is wanted. -/
theorem readFrom_here (start : offset % dataSize ≤ pageLen (chip page))
    (here : size - copied.length ≤ pageLen (chip page) - offset % dataSize) :
    readFrom chip (page :: pages) offset size copied =
      some (copied ++ ((pageData (chip page)).drop (offset % dataSize)).take (size - copied.length),
        offset + (size - copied.length)) := by
  rw [readFrom, contentOf_behind start]
  rw [List.length_append, length_behind, if_pos (Or.inl (by omega)),
    List.take_append_of_le_length (by rw [length_behind]; exact here), Nat.min_eq_left (by omega)]

/-- The rest of the page is copied, and the loop goes on with the next one. -/
theorem readFrom_next (start : offset % dataSize ≤ pageLen (chip page))
    (full : pages ≠ [] → pageLen (chip page) = dataSize)
    (ended : ¬(offset % dataSize = 0 ∧ pageLen (chip page) < min (size - copied.length) dataSize))
    (more : pageLen (chip page) - offset % dataSize < size - copied.length) :
    readFrom chip (page :: pages) offset size copied =
      readFrom chip pages (offset + (pageLen (chip page) - offset % dataSize)) size
        (copied ++ (pageData (chip page)).drop (offset % dataSize)) := by
  have aligned : pages ≠ [] →
      (offset + (pageLen (chip page) - offset % dataSize)) % dataSize = 0 := by
    intro nonempty
    rw [full nonempty, dataSize]
    omega
  have restAligned : (contentOf chip pages).drop
      ((offset + (pageLen (chip page) - offset % dataSize)) % dataSize) =
        contentOf chip pages := by
    cases pages with
    | nil => rw [contentOf, List.flatMap_nil, List.drop_nil]
    | cons next pages => rw [aligned (List.cons_ne_nil _ _), List.drop_zero]
  have sameEnd : EndSeen (offset + (pageLen (chip page) - offset % dataSize))
      (contentOf chip pages).length pages.length ↔
        EndSeen offset (contentOf chip (page :: pages)).length (page :: pages).length := by
    rw [length_contentOf_cons]
    apply endSeen_next_iff start _ _ ended more
    · exact fun nonempty => full (List.length_pos_iff.mp (Nat.pos_of_ne_zero nonempty))
    · intro isLast
      rw [List.length_eq_zero_iff.mp isLast]
      rfl
  have left : size - (copied ++ (pageData (chip page)).drop (offset % dataSize)).length =
      size - copied.length - (pageLen (chip page) - offset % dataSize) := by
    rw [List.length_append, length_behind]
    omega
  have takeEq : ((pageData (chip page)).drop (offset % dataSize) ++ contentOf chip pages).take
      (size - copied.length) =
        (pageData (chip page)).drop (offset % dataSize) ++ (contentOf chip pages).take
          (size - copied.length - (pageLen (chip page) - offset % dataSize)) := by
    rw [List.take_append, List.take_of_length_le (by rw [length_behind]; omega), length_behind]
  rw [readFrom, readFrom, restAligned, left, contentOf_behind start, takeEq]
  rw [List.length_append, length_behind, List.append_assoc]
  refine if_congr (or_congr (by omega) sameEnd.symm) ?_ ?_
  · congr 2
    omega
  · rw [Nat.add_assoc]

end Page

/-- The loop from a page of the chain on. -/
theorem readData_chain (superblock : pageMagic (chip 0) = magicSuperblock)
    {fuel offset size : Nat} {copied : List UInt8}
    (chain : Segment (fun page => nextPage (chip page)) page pages 0)
    (usable : ∀ page ∈ pages, page < geometry.pageCount ∧ pageMagic (chip page) = magicData)
    (filled : Filled chip pages)
    (inside : ∀ first ∈ pages.head?, offset % dataSize ≤ pageLen (chip first))
    (small : offset + (contentOf chip pages).length < 65536)
    (enough : pages.length < fuel) :
    readData geometry chip fuel page offset size copied =
      readFrom chip pages offset size copied := by
  induction pages generalizing page offset copied fuel with
  | nil =>
      cases chain
      obtain ⟨fuel, rfl⟩ := Nat.exists_eq_succ_of_ne_zero (Nat.ne_of_gt enough)
      by_cases done : size ≤ copied.length
      · rw [readData_done done, readFrom_done done]
      · have empty : (contentOf chip []).length = 0 := rfl
        have notSeen : ¬EndSeen offset 0 0 := fun seen => Nat.lt_irrefl 0 seen.1
        rw [readData_superblock superblock (by omega), readFrom]
        rw [List.length_drop, empty, List.length_nil, Nat.zero_sub,
          if_neg (not_or.mpr ⟨by omega, notSeen⟩), Nat.add_zero]
  | cons head pages ih =>
      obtain ⟨rfl, rest⟩ := chain
      obtain ⟨fuel, rfl⟩ := Nat.exists_eq_succ_of_ne_zero
        (Nat.ne_zero_of_lt enough)
      by_cases done : size ≤ copied.length
      · rw [readData_done done, readFrom_done done]
      obtain ⟨bound, magic⟩ := usable page List.mem_cons_self
      obtain ⟨fits, full, restFilled⟩ := filled
      have start := inside page rfl
      have lengthEq := length_contentOf_cons chip page pages
      rw [readData_page bound magic fits start (by omega) (by omega)]
      dsimp only
      rw [length_behind]
      by_cases ended : offset % dataSize = 0 ∧
          pageLen (chip page) < min (size - copied.length) dataSize
      · -- only the last page has room left
        have isLast : pages = [] := by
          by_contra nonempty
          have isFull := full nonempty
          omega
        rw [if_pos ended, isLast, readFrom_last start ended]
      rw [if_neg ended]
      by_cases here : size - copied.length ≤ pageLen (chip page) - offset % dataSize
      · obtain ⟨fuel, rfl⟩ := Nat.exists_eq_succ_of_ne_zero
          (Nat.ne_zero_of_lt (Nat.lt_of_succ_lt_succ enough))
        rw [readFrom_here start here, Nat.min_eq_left here, readData_done]
        rw [List.length_append, List.length_take, length_behind]
        omega
      · have more := Nat.lt_of_not_le here
        rw [readFrom_next start full ended more, Nat.min_eq_right (Nat.le_of_lt more),
          List.take_of_length_le (by rw [length_behind]; omega)]
        refine @ih _ fuel _ _ rest
          (fun other member => usable other (List.mem_cons_of_mem _ member)) restFilled
          (fun first isFirst => ?_) (by omega) (Nat.lt_of_succ_lt_succ enough)
        have isFull := full (by rintro rfl; cases isFirst)
        rw [isFull, dataSize]
        omega

theorem skipPages_chain {count : Nat}
    (chain : Segment (fun page => nextPage (chip page)) page pages 0)
    (usable : ∀ page ∈ pages, page < geometry.pageCount) (bound : count ≤ pages.length) :
    Segment (fun page => nextPage (chip page)) (skipPages geometry chip count page)
      (pages.drop count) 0 := by
  induction count generalizing page pages with
  | zero => exact chain
  | succ count ih =>
      cases pages with
      | nil => cases bound
      | cons head pages =>
          obtain ⟨rfl, rest⟩ := chain
          rw [skipPages, readPage_of_lt (usable page List.mem_cons_self), List.drop_succ_cons]
          exact ih rest (fun other member => usable other (List.mem_cons_of_mem _ member))
            (Nat.le_of_succ_le_succ bound)

end Loop

section Read

variable {geometry : Geometry} {chip : Chip} {file : FileEntry}

/-- The superblock and the file page are no data pages. -/
theorem DataFile.length_chain (dataFile : DataFile geometry chip file) :
    file.chain.length + 1 < geometry.pageCount := by
  have notZero : 0 ∉ file.pages := fun member =>
    Nat.lt_irrefl 0 (dataFile.inRange 0 member).1
  have usable : ∀ page ∈ 0 :: file.pages, page < geometry.pageCount := by
    intro page member
    rcases List.mem_cons.mp member with rfl | inFile
    · exact geometry.pageCount_pos
    · exact (dataFile.inRange page inFile).2
  exact length_le_of_usable (List.nodup_cons.mpr ⟨notZero, dataFile.nodup⟩) usable

theorem DataFile.usable (dataFile : DataFile geometry chip file) :
    ∀ page ∈ file.chain, page < geometry.pageCount ∧ pageMagic (chip page) = magicData :=
  fun page member => ⟨(dataFile.inRange page (List.mem_cons_of_mem _ member)).2,
    dataFile.dataMagic page member⟩

/-- The offset lies in the first of the pages that are left. -/
theorem Filled.start_le {chain : List Nat} (filled : Filled chip chain) {offset : Nat}
    (inside : offset ≤ (contentOf chip chain).length) (small : offset < dataSize) :
    ∀ first ∈ chain.head?, offset ≤ pageLen (chip first) := by
  cases chain with
  | nil => nofun
  | cons page rest =>
      rintro first ⟨⟩
      cases rest with
      | nil =>
          rw [length_contentOf_cons] at inside
          exact inside
      | cons next rest =>
          rw [filled.2.1 (List.cons_ne_nil _ _)]
          exact Nat.le_of_lt small

/-- The result of a call: what is wanted of the rest of the file, or nothing when the
end comes unseen. -/
theorem DataFile.read_eq (dataFile : DataFile geometry chip file) {handle : Handle}
    (isFile : handle.filePage = file.page)
    (inside : handle.offset.toNat ≤ (contentOf chip file.chain).length) (size : Nat) :
    vfsEepromRead geometry chip handle size =
      (let available := (contentOf chip file.chain).drop handle.offset.toNat
      if handle.offset.toNat + size ≤ (contentOf chip file.chain).length ∨
          (handle.offset.toNat ≤ dataSize * (file.chain.length - 1) ∧
            (contentOf chip file.chain).length < dataSize * file.chain.length) then
        some (available.take size,
          { handle with offset := UInt16.ofNat (handle.offset.toNat + min size available.length) })
      else
        some ([],
          { handle with offset := UInt16.ofNat (handle.offset.toNat + available.length) })) := by
  have count := dataFile.length_chain
  have limit := geometry.pageCount_le
  have upper := dataFile.filled.length_le
  have skipped : handle.offset.toNat / dataSize ≤ file.chain.length := by
    rw [dataSize] at *
    omega
  have chain := skipPages_chain dataFile.chain.2
    (fun page member => (dataFile.usable page member).1)
    skipped
  have fuelEnough : (file.chain.drop (handle.offset.toNat / dataSize)).length <
      geometry.pageCount + size + 1 := by
    rw [List.length_drop]
    exact Nat.lt_of_le_of_lt (Nat.sub_le _ _) (by omega)
  rw [vfsEepromRead, isFile, readPage_of_lt (dataFile.inRange _ List.mem_cons_self).2]
  dsimp only
  by_cases within : handle.offset.toNat / dataSize < file.chain.length
  · obtain ⟨restFilled, restEq⟩ := dataFile.filled.drop within
    have divMod := Nat.div_add_mod handle.offset.toNat dataSize
    have availableEq : (contentOf chip (file.chain.drop (handle.offset.toNat / dataSize))).drop
        (handle.offset.toNat % dataSize) =
          (contentOf chip file.chain).drop handle.offset.toNat := by
      rw [restEq, List.drop_drop, divMod]
    have restLength : (contentOf chip (file.chain.drop (handle.offset.toNat / dataSize))).length =
        (contentOf chip file.chain).length - dataSize * (handle.offset.toNat / dataSize) := by
      rw [restEq, List.length_drop]
    have start := restFilled.start_le (show handle.offset.toNat % dataSize ≤ _ by omega)
      (Nat.mod_lt _ (by decide))
    have sameEnd : EndSeen handle.offset.toNat
        (contentOf chip (file.chain.drop (handle.offset.toNat / dataSize))).length
        (file.chain.drop (handle.offset.toNat / dataSize)).length ↔
          handle.offset.toNat ≤ dataSize * (file.chain.length - 1) ∧
            (contentOf chip file.chain).length < dataSize * file.chain.length := by
      rw [EndSeen, restLength, List.length_drop]
      rw [dataSize] at *
      omega
    rw [readData_chain dataFile.superblock chain
      (fun page member => dataFile.usable page (List.mem_of_mem_drop member)) restFilled start
      (by rw [dataSize] at *; omega) fuelEnough, readFrom, availableEq]
    rw [List.nil_append, List.length_nil, Nat.sub_zero, List.length_drop]
    by_cases answered : handle.offset.toNat + size ≤ (contentOf chip file.chain).length ∨
        (handle.offset.toNat ≤ dataSize * (file.chain.length - 1) ∧
          (contentOf chip file.chain).length < dataSize * file.chain.length)
    · rw [if_pos answered, if_pos (answered.imp (by omega) sameEnd.mpr)]
      rfl
    · rw [if_neg answered, if_neg]
      · rfl
      · rintro (enough | seen)
        · exact answered (Or.inl (by omega))
        · exact answered (Or.inr (sameEnd.mp seen))
  · -- the offset is the end of a file whose last page is full
    have chainEnd : file.chain.drop (handle.offset.toNat / dataSize) = [] :=
      List.drop_eq_nil_of_le (Nat.le_of_not_lt within)
    have atEnd : handle.offset.toNat = (contentOf chip file.chain).length ∧
        ¬(contentOf chip file.chain).length < dataSize * file.chain.length := by
      rw [dataSize] at *
      omega
    rw [chainEnd] at chain
    rw [show skipPages geometry chip (handle.offset.toNat / dataSize) _ = 0 from chain,
      atEnd.1, List.drop_length]
    cases size with
    | zero =>
        rw [readData_done (Nat.zero_le _), if_pos (Or.inl (Nat.le_of_eq (Nat.add_zero _)))]
        rfl
    | succ size =>
        rw [readData_superblock dataFile.superblock (Nat.succ_pos _), if_neg (by omega)]
        rfl

/-- A call returns what is there of the wanted bytes and advances the handle by as many,
unless the end of the file comes unseen: behind the first byte of the last page, or with
that page full. -/
theorem read_eq_iff (geometry : Geometry) (chip : Chip) (file : FileEntry)
    (dataFile : DataFile geometry chip file) (handle : Handle)
    (isFile : handle.filePage = file.page)
    (inside : handle.offset.toNat ≤ (contentOf chip file.chain).length) (size : Nat) :
    vfsEepromRead geometry chip handle size =
        some (((contentOf chip file.chain).drop handle.offset.toNat).take size,
          { handle with offset := handle.offset +
            UInt16.ofNat (min size ((contentOf chip file.chain).length - handle.offset.toNat)) }) ↔
      handle.offset.toNat + size ≤ (contentOf chip file.chain).length ∨
        handle.offset.toNat = (contentOf chip file.chain).length ∨
        (handle.offset.toNat ≤ dataSize * (file.chain.length - 1) ∧
          (contentOf chip file.chain).length < dataSize * file.chain.length) := by
  have advanced : ∀ count, UInt16.ofNat (handle.offset.toNat + count) =
      handle.offset + UInt16.ofNat count := by
    intro count
    rw [UInt16.ofNat_add, UInt16.ofNat_toNat]
  rw [dataFile.read_eq isFile inside size]
  dsimp only
  rw [List.length_drop, advanced, advanced]
  by_cases answered : handle.offset.toNat + size ≤ (contentOf chip file.chain).length ∨
      (handle.offset.toNat ≤ dataSize * (file.chain.length - 1) ∧
        (contentOf chip file.chain).length < dataSize * file.chain.length)
  · rw [if_pos answered]
    simp only [true_iff]
    exact answered.imp_right Or.inr
  · rw [if_neg answered, Option.some.injEq, Prod.mk.injEq]
    constructor
    · rintro ⟨nothing, _⟩
      have lengths := congrArg List.length nothing
      rw [List.length_take, List.length_drop, List.length_nil] at lengths
      omega
    · intro fine
      have atEnd : handle.offset.toNat = (contentOf chip file.chain).length := by
        rcases fine with short | atEnd | seen
        · exact absurd (Or.inl short) answered
        · exact atEnd
        · exact absurd (Or.inr seen) answered
      rw [← atEnd, List.drop_of_length_le (Nat.le_of_eq atEnd.symm), List.take_nil, Nat.sub_self,
        Nat.min_zero]
      exact ⟨rfl, rfl⟩

end Read

def tenBytes : Buffer := ⟨[1, 2, 3, 4, 5, 6, 7, 8, 9, 10], by decide⟩

/-- The file `"a"` has been created and written. -/
def tenByteState : SfsState :=
  (GuardedRuns.run (sfsStep fourPages) (formattedState fourPages)
    [.create [97] 0 true, .write 0 tenBytes]).getD (formattedState fourPages)

theorem dataFile_tenByteState : DataFile fourPages tenByteState.chip ⟨1, [2]⟩ := by
  constructor
  · decide +kernel
  · refine ⟨rfl, ?_, ?_⟩
    · decide +kernel
    · change nextPage (tenByteState.chip 2) = 0
      decide +kernel
  · decide +kernel
  · decide
  · decide +kernel
  · refine ⟨?_, nofun, trivial⟩
    decide +kernel

theorem read_eq_iff_tenBytes :
    vfsEepromRead fourPages tenByteState.chip ⟨1, 0⟩ 20 =
        some (((contentOf tenByteState.chip [2]).drop 0).take 20,
          ⟨1, 0 + UInt16.ofNat (min 20 ((contentOf tenByteState.chip [2]).length - 0))⟩) ↔
      0 + 20 ≤ (contentOf tenByteState.chip [2]).length ∨
        0 = (contentOf tenByteState.chip [2]).length ∨
        (0 ≤ dataSize * (1 - 1) ∧ (contentOf tenByteState.chip [2]).length < dataSize * 1) :=
  read_eq_iff fourPages tenByteState.chip ⟨1, [2]⟩ dataFile_tenByteState ⟨1, 0⟩ rfl
    (Nat.zero_le _) 20

/-- Ten bytes from offset 5 on: the five bytes left are copied, and zero is returned. -/
theorem read_loses_last_bytes :
    DataFile fourPages tenByteState.chip ⟨1, [2]⟩ ∧
      contentOf tenByteState.chip [2] = [1, 2, 3, 4, 5, 6, 7, 8, 9, 10] ∧
      vfsEepromRead fourPages tenByteState.chip ⟨1, 5⟩ 10 = some ([], ⟨1, 10⟩) ∧
      vfsEepromRead fourPages tenByteState.chip ⟨1, 5⟩ 10 ≠
        some (((contentOf tenByteState.chip [2]).drop 5).take 10, ⟨1, 10⟩) := by
  refine ⟨dataFile_tenByteState, ?_, ?_, ?_⟩ <;> decide +kernel

end Ethersex.Sfs

import Ethersex.EepromQuietWrites
import Ethersex.EepromReading

/-!
# Writing a file on the EEPROM

`vfs_eeprom_write` sets the length of every page it touches to the end of what it
wrote there.  The bytes behind a write that ends inside a page are lost, and with
them the rest of the file, because its size is counted up to the first page that
is not full.  A write that reaches the end of the file or of a page does what it
should, and the pages of the other files are never touched.
-/

namespace Ethersex.Sfs

open ByteMemory LinkedSegments

/-- The content of a chain, as far as `vfs_eeprom_filesize` counts it. -/
def countedContent (chip : Chip) : List Nat → List UInt8
  | [] => []
  | page :: rest =>
      pageData (chip page) ++
        (if pageLen (chip page) < dataSize then [] else countedContent chip rest)

def contentFrom (geometry : Geometry) (chip : Chip) : Nat → Nat → List UInt8
  | 0, _ => []
  | fuel + 1, page =>
      if page = 0 then
        []
      else
        let content := readPage geometry chip page
        pageData content ++
          (if pageLen content < dataSize then []
            else contentFrom geometry chip fuel (nextPage content))

/-- The content of the file at a page. -/
def fileContent (geometry : Geometry) (chip : Chip) (inode : Nat) : List UInt8 :=
  contentFrom geometry chip (geometry.pageCount + 1) (nextPage (readPage geometry chip inode))

def overlay (content : List UInt8) (offset : Nat) (data : List UInt8) : List UInt8 :=
  content.take offset ++ (data ++ content.drop (offset + data.length))

section Counted

variable {geometry : Geometry} {chip chip' : Chip} {page : Nat} {pages : List Nat}

theorem countedContent_congr (same : ∀ page ∈ pages, chip' page = chip page) :
    countedContent chip' pages = countedContent chip pages := by
  induction pages with
  | nil => rfl
  | cons page pages ih =>
      rw [countedContent, countedContent, same page List.mem_cons_self,
        ih fun other member => same other (List.mem_cons_of_mem _ member)]

theorem Filled.countedContent_eq (filled : Filled chip pages) :
    countedContent chip pages = contentOf chip pages := by
  induction pages with
  | nil => rfl
  | cons page pages ih =>
      obtain ⟨_, full, restFilled⟩ := filled
      rw [countedContent, contentOf_cons, ih restFilled]
      split
      next short =>
        cases pages with
        | nil => rfl
        | cons next pages =>
            rw [full (List.cons_ne_nil _ _)] at short
            exact absurd short (Nat.lt_irrefl _)
      next => rfl

theorem contentFrom_eq {fuel : Nat}
    (chain : Segment (fun page => nextPage (chip page)) page pages 0)
    (usable : ∀ page ∈ pages, 0 < page ∧ page < geometry.pageCount)
    (enough : pages.length < fuel) :
    contentFrom geometry chip fuel page = countedContent chip pages := by
  induction pages generalizing page fuel with
  | nil =>
      cases chain
      obtain ⟨fuel, rfl⟩ := Nat.exists_eq_succ_of_ne_zero (Nat.ne_of_gt enough)
      rw [contentFrom, if_pos rfl]
      rfl
  | cons head pages ih =>
      obtain ⟨rfl, rest⟩ := chain
      obtain ⟨fuel, rfl⟩ := Nat.exists_eq_succ_of_ne_zero (Nat.ne_zero_of_lt enough)
      obtain ⟨positive, bound⟩ := usable page List.mem_cons_self
      rw [contentFrom, if_neg (by omega), readPage_of_lt bound]
      dsimp only
      rw [countedContent, ih rest (fun other member => usable other (List.mem_cons_of_mem _ member))
        (Nat.lt_of_succ_lt_succ enough)]

theorem fileSizeFrom_eq {fuel size : Nat}
    (chain : Segment (fun page => nextPage (chip page)) page pages 0)
    (usable : ∀ page ∈ pages, 0 < page ∧ page < geometry.pageCount)
    (enough : pages.length < fuel) :
    fileSizeFrom geometry chip fuel page size =
      some (size + (countedContent chip pages).length) := by
  induction pages generalizing page fuel size with
  | nil =>
      cases chain
      obtain ⟨fuel, rfl⟩ := Nat.exists_eq_succ_of_ne_zero (Nat.ne_of_gt enough)
      rw [fileSizeFrom, if_pos rfl]
      rfl
  | cons head pages ih =>
      obtain ⟨rfl, rest⟩ := chain
      obtain ⟨fuel, rfl⟩ := Nat.exists_eq_succ_of_ne_zero (Nat.ne_zero_of_lt enough)
      obtain ⟨positive, bound⟩ := usable page List.mem_cons_self
      rw [fileSizeFrom, if_neg (by omega), readPage_of_lt bound]
      dsimp only
      rw [countedContent, List.length_append, length_pageData]
      split
      · rfl
      · rw [ih rest (fun other member => usable other (List.mem_cons_of_mem _ member))
          (Nat.lt_of_succ_lt_succ enough), Nat.add_assoc]

theorem OwnChain.length_lt {others : List Nat} {file : FileEntry}
    (own : OwnChain geometry others chip file) : file.chain.length < geometry.pageCount + 1 := by
  have bound := length_le_of_usable own.nodup fun page member => (own.inRange page member).2
  rw [FileEntry.pages, List.length_cons] at bound
  omega

/-- The content and the size of a file with a chain of its own. -/
theorem OwnChain.fileContent_eq {others : List Nat} {file : FileEntry}
    (own : OwnChain geometry others chip file) :
    fileContent geometry chip file.page = countedContent chip file.chain ∧
      ∀ offset, vfsEepromFilesize geometry chip ⟨file.page, offset⟩ =
        some (countedContent chip file.chain).length := by
  have usable : ∀ page ∈ file.chain, 0 < page ∧ page < geometry.pageCount :=
    fun page member => own.inRange page (List.mem_cons_of_mem _ member)
  have enough := own.length_lt
  constructor
  · rw [fileContent, readPage_of_lt (own.inRange _ List.mem_cons_self).2]
    exact contentFrom_eq own.chain.2 usable enough
  · intro offset
    rw [vfsEepromFilesize, readPage_of_lt (own.inRange _ List.mem_cons_self).2,
      fileSizeFrom_eq own.chain.2 usable enough, Nat.zero_add]

end Counted

section WriteLoop

variable {geometry : Geometry} {chip : Chip} {page : Nat} {pages : List Nat}

/-- A page with new bytes and a new length. -/
def patched (memory : Memory) (writeOffset : Nat) (bytes : List UInt8) : Memory :=
  writeBlock (writeBlock memory (4 + writeOffset) bytes) 3
    [UInt8.ofNat (writeOffset + bytes.length)]

theorem pageLen_patched {memory : Memory} {writeOffset : Nat} {bytes : List UInt8}
    (fits : writeOffset + bytes.length ≤ dataSize) :
    pageLen (patched memory writeOffset bytes) = writeOffset + bytes.length := by
  rw [dataSize] at fits
  rw [pageLen, patched, writeBlock_singleton, Function.update_self, UInt8.toNat_ofNat']
  omega

theorem pageData_patched {memory : Memory} {writeOffset : Nat} {bytes : List UInt8}
    (fits : writeOffset + bytes.length ≤ dataSize) (inside : writeOffset ≤ pageLen memory) :
    pageData (patched memory writeOffset bytes) =
      (pageData memory).take writeOffset ++ bytes := by
  have oneByte : [UInt8.ofNat (writeOffset + bytes.length)].length = 1 := rfl
  rw [pageData, pageLen_patched fits, patched,
    readBlock_writeBlock_disjoint (Or.inr (Nat.le_of_eq (congrArg (3 + ·) oneByte))),
    readBlock_append, readBlock_writeBlock_disjoint (Or.inl (Nat.le_refl _)),
    readBlock_writeBlock_same, pageData, take_readBlock inside]

/-- One round of the loop changes one page. -/
theorem writeData_round (bound : page < geometry.pageCount) {fuel writeOffset : Nat}
    {data : List UInt8} (nonempty : data ≠ []) (small : writeOffset ≤ dataSize) :
    writeData geometry (fuel + 1) chip page writeOffset data =
      writeData geometry fuel
        (Function.update chip page
          (patched (chip page) writeOffset (data.take (dataSize - writeOffset))))
        (nextPage (chip page)) 0 (data.drop (dataSize - writeOffset)) := by
  have takeEq : data.take (if dataSize < data.length + writeOffset then dataSize - writeOffset
      else data.length) = data.take (dataSize - writeOffset) := by
    split
    · rfl
    · rw [List.take_length, List.take_of_length_le (by omega)]
  have dropEq : data.drop (if dataSize < data.length + writeOffset then dataSize - writeOffset
      else data.length) = data.drop (dataSize - writeOffset) := by
    split
    · rfl
    · rw [List.drop_length, List.drop_of_length_le (by omega)]
  have lengthEq : (if dataSize < data.length + writeOffset then dataSize - writeOffset
      else data.length) = (data.take (dataSize - writeOffset)).length := by
    rw [List.length_take]
    split <;> omega
  have chipEq : writeSlice geometry (writeSlice geometry chip page (4 + writeOffset)
      (data.take (dataSize - writeOffset))) page 3
      [UInt8.ofNat (writeOffset + (data.take (dataSize - writeOffset)).length)] =
        Function.update chip page
          (patched (chip page) writeOffset (data.take (dataSize - writeOffset))) := by
    funext other
    by_cases same : other = page
    · rw [same, writeSlice_same bound, writeSlice_same bound, Function.update_self]
      rfl
    · rw [writeSlice_other bound same, writeSlice_other bound same, Function.update_of_ne same]
  rw [writeData, if_neg nonempty, readPage_of_lt bound]
  dsimp only
  rw [takeEq, dropEq, lengthEq, chipEq]

theorem writeData_nil (fuel writeOffset : Nat) :
    writeData geometry fuel chip page writeOffset [] = chip := by
  cases fuel with
  | zero => rfl
  | succ fuel => rw [writeData, if_pos rfl]

section Page

variable {writeOffset : Nat} {data : List UInt8}

theorem take_countedContent (start : writeOffset ≤ pageLen (chip page)) :
    (countedContent chip (page :: pages)).take writeOffset =
      (pageData (chip page)).take writeOffset := by
  rw [countedContent, List.take_append_of_le_length (by rw [length_pageData]; exact start)]

/-- The data ends in this page. -/
theorem countedContent_last (start : writeOffset ≤ pageLen (chip page)) (notLater : page ∉ pages)
    (positive : 0 < data.length) (fits : writeOffset + data.length ≤ dataSize) :
    countedContent (Function.update chip page (patched (chip page) writeOffset data))
        (page :: pages) =
      (countedContent chip (page :: pages)).take writeOffset ++ (data ++
        (if (writeOffset + data.length) % dataSize = 0 then
          countedContent chip ((page :: pages).drop ((writeOffset + data.length) / dataSize))
        else [])) := by
  have atLater : ∀ other ∈ pages, Function.update chip page
      (patched (chip page) writeOffset data) other = chip other := by
    intro other member
    exact Function.update_of_ne (by rintro rfl; exact notLater member) ..
  rw [take_countedContent start, countedContent, Function.update_self, pageData_patched fits start,
    pageLen_patched fits, List.append_assoc, countedContent_congr atLater]
  congr 2
  by_cases endsHere : writeOffset + data.length < dataSize
  · rw [if_pos endsHere, if_neg]
    rw [Nat.mod_eq_of_lt endsHere]
    omega
  · have full : writeOffset + data.length = dataSize := by omega
    rw [if_neg endsHere, full, Nat.mod_self, if_pos rfl, Nat.div_self (by decide)]
    rfl

/-- The data fills this page. -/
theorem countedContent_filled {written : Chip} (start : writeOffset ≤ pageLen (chip page))
    (full : writeOffset + data.length = dataSize)
    (atPage : written page = patched (chip page) writeOffset data) :
    countedContent written (page :: pages) =
      (countedContent chip (page :: pages)).take writeOffset ++
        (data ++ countedContent written pages) := by
  have fits := Nat.le_of_eq full
  rw [take_countedContent start, countedContent, atPage, pageData_patched fits start,
    pageLen_patched fits, full, if_neg (Nat.lt_irrefl _), List.append_assoc]

/-- What is left of the data behind a page that it fills. -/
theorem length_remaining (small : writeOffset < dataSize)
    (more : ¬data.length ≤ dataSize - writeOffset) :
    (data.drop (dataSize - writeOffset)).length + dataSize = writeOffset + data.length := by
  rw [List.length_drop]
  omega

end Page

/-- The loop from a page on: the data behind what the page held in front of it, and
what follows if the data ends with a page.  Other pages are untouched. -/
theorem writeData_chain {fuel writeOffset : Nat} {data : List UInt8}
    (chain : Segment (fun page => nextPage (chip page)) page pages 0)
    (usable : ∀ page ∈ pages, page < geometry.pageCount) (nodup : pages.Nodup)
    (inside : ∀ first ∈ pages.head?, writeOffset ≤ pageLen (chip first))
    (small : writeOffset < dataSize) (nonempty : data ≠ [])
    (room : writeOffset + data.length ≤ dataSize * pages.length) (enough : data.length ≤ fuel) :
    countedContent (writeData geometry fuel chip page writeOffset data) pages =
        (countedContent chip pages).take writeOffset ++ (data ++
          (if (writeOffset + data.length) % dataSize = 0 then
            countedContent chip (pages.drop ((writeOffset + data.length) / dataSize))
          else [])) ∧
      ∀ other ∉ pages, writeData geometry fuel chip page writeOffset data other = chip other := by
  induction pages generalizing page fuel writeOffset data chip with
  | nil =>
      rw [List.length_nil, Nat.mul_zero] at room
      exact absurd (List.eq_nil_of_length_eq_zero (by omega)) nonempty
  | cons head pages ih =>
      obtain ⟨rfl, rest⟩ := chain
      have positive : 0 < data.length := List.length_pos_iff.mpr nonempty
      obtain ⟨fuel, rfl⟩ := Nat.exists_eq_succ_of_ne_zero (show fuel ≠ 0 by omega)
      have bound := usable page List.mem_cons_self
      have start := inside page rfl
      obtain ⟨notLater, laterNodup⟩ := List.nodup_cons.mp nodup
      rw [writeData_round bound nonempty (Nat.le_of_lt small)]
      by_cases lastPage : data.length ≤ dataSize - writeOffset
      · rw [List.take_of_length_le lastPage, List.drop_of_length_le lastPage, writeData_nil]
        refine ⟨countedContent_last start notLater positive (by omega), fun other notIn => ?_⟩
        exact Function.update_of_ne (by rintro rfl; exact notIn List.mem_cons_self) ..
      · have remaining := length_remaining small lastPage
        have full : writeOffset + (data.take (dataSize - writeOffset)).length = dataSize := by
          rw [List.length_take]
          omega
        generalize chipEq : Function.update chip page
          (patched (chip page) writeOffset (data.take (dataSize - writeOffset))) = chip₁
        have atPage : chip₁ page =
            patched (chip page) writeOffset (data.take (dataSize - writeOffset)) := by
          rw [← chipEq, Function.update_self]
        have atOther : ∀ other ≠ page, chip₁ other = chip other := by
          intro other different
          rw [← chipEq, Function.update_of_ne different]
        have atLater : ∀ other ∈ pages, chip₁ other = chip other := by
          rintro other member
          exact atOther other (by rintro rfl; exact notLater member)
        have laterChain : Segment (fun page => nextPage (chip₁ page)) (nextPage (chip page))
            pages 0 :=
          rest.congr fun other member => by rw [atLater other member]
        have later : data.drop (dataSize - writeOffset) ≠ [] :=
          List.ne_nil_of_length_pos (by omega)
        rw [List.length_cons, Nat.mul_succ] at room
        obtain ⟨content, untouched⟩ := ih laterChain
          (fun other member => usable other (List.mem_cons_of_mem _ member)) laterNodup
          (fun _ _ => Nat.zero_le _) (by decide) later (by omega)
          (by omega : (data.drop (dataSize - writeOffset)).length ≤ fuel)
        have modEq : (0 + (data.drop (dataSize - writeOffset)).length) % dataSize =
            (writeOffset + data.length) % dataSize := by
          rw [← remaining, Nat.zero_add, Nat.add_mod_right]
        have divEq : (writeOffset + data.length) / dataSize =
            (0 + (data.drop (dataSize - writeOffset)).length) / dataSize + 1 := by
          rw [← remaining, Nat.zero_add, Nat.add_div_right _ (by decide)]
        constructor
        · rw [countedContent_filled start full ((untouched page notLater).trans atPage), content,
            List.take_zero, List.nil_append, modEq, divEq, List.drop_succ_cons]
          congr 1
          rw [← List.append_assoc, List.take_append_drop, countedContent_congr fun other member =>
            atLater other (List.mem_of_mem_drop member)]
        · intro other notIn
          rw [List.mem_cons, not_or] at notIn
          rw [untouched other notIn.2, atOther other notIn.1]

end WriteLoop

section Scan

variable {geometry : Geometry} {chip : Chip} {page : Nat} {pages : List Nat}

theorem Filled.full_before (filled : Filled chip pages) {count : Nat}
    (inside : dataSize * count ≤ (contentOf chip pages).length) :
    ∀ page ∈ pages.take count, pageLen (chip page) = dataSize := by
  induction pages generalizing count with
  | nil =>
      rw [List.take_nil]
      nofun
  | cons head rest ih =>
      cases count with
      | zero => nofun
      | succ count =>
          obtain ⟨fits, full, restFilled⟩ := filled
          rw [length_contentOf_cons, Nat.mul_succ] at inside
          intro page member
          rw [List.take_succ_cons, List.mem_cons] at member
          rcases member with rfl | later
          · cases rest with
            | nil =>
                have empty : (contentOf chip []).length = 0 := rfl
                omega
            | cons next rest => exact full (List.cons_ne_nil _ _)
          · exact ih restFilled (by omega) page later

/-- The scan stops at the page of the offset when all the pages before it are full. -/
theorem scanPages_position {fuel skip allocated lastPage : Nat} {result : Nat × Nat × Nat}
    (chain : Segment (fun page => nextPage (chip page)) page pages 0)
    (usable : ∀ page ∈ pages, 0 < page ∧ page < geometry.pageCount)
    (full : ∀ page ∈ pages.take skip, pageLen (chip page) = dataSize)
    (scan : scanPages geometry chip fuel page skip allocated lastPage 0 = some result) :
    result.2.2 = (pages.drop skip).headD 0 := by
  induction pages generalizing page fuel skip allocated lastPage with
  | nil =>
      cases chain
      cases fuel with
      | zero => cases scan
      | succ fuel =>
          rw [scanPages, if_pos rfl] at scan
          cases Option.some.inj scan
          rw [List.drop_nil]
          rfl
  | cons head pages ih =>
      obtain ⟨rfl, rest⟩ := chain
      obtain ⟨positive, bound⟩ := usable page List.mem_cons_self
      have laterUsable : ∀ other ∈ pages, 0 < other ∧ other < geometry.pageCount :=
        fun other member => usable other (List.mem_cons_of_mem _ member)
      cases fuel with
      | zero => cases scan
      | succ fuel =>
          rw [scanPages, if_neg (by omega), readPage_of_lt bound] at scan
          dsimp only at scan
          cases skip with
          | zero =>
              rw [if_pos rfl, if_pos ⟨rfl, Or.inl rfl⟩] at scan
              exact (scanPages_spec rest laterUsable scan).2.2.1 (by omega)
          | succ skip =>
              have isFull := full page List.mem_cons_self
              have notHere : ¬(0 = 0 ∧ (skip + 1 = 0 ∨ pageLen (chip page) < dataSize)) := by
                omega
              rw [if_pos rfl, if_neg notHere] at scan
              exact ih rest laterUsable (fun other member => full other
                (List.mem_cons_of_mem _ member)) scan

end Scan

section Append

variable {geometry : Geometry} {chip chip' : Chip} {others : List Nat} {file : FileEntry}

/-- Between two chips pages have been appended to a chain: the pages it had differ in their
links at most, and the new ones are empty. -/
structure Extension (geometry : Geometry) (others : List Nat) (old : Chip) (chain : List Nat)
    (chip : Chip) (file : FileEntry) : Prop where
  own : OwnChain geometry others chip file
  front : chain <+: file.chain
  kept : ∀ page ∈ chain, ∀ index, 3 ≤ index → chip page index = old page index
  fresh : ∀ page ∈ file.chain.drop chain.length, pageLen (chip page) = 0

theorem Extension.appendPage {old : Chip} {chain : List Nat}
    (extension : Extension geometry others old chain chip file) {new : Nat}
    (search : vfsEepromFindFreePage geometry chip (file.last + 1) = some new)
    (notZero : new ≠ 0) :
    Extension geometry others old chain (writeSlice geometry (writeSlice geometry chip new 0
      [magicData, 0, 0, 0]) file.last 1 (wordBytes new)) (file.append [new]) := by
  obtain ⟨_, bound, _, notOwn⟩ := extension.own.findFreePage search notZero
  have lastBound := (extension.own.inRange _ file.last_mem).2
  have lastNe : new ≠ file.last := by
    rintro rfl
    exact notOwn file.last_mem
  generalize written : writeSlice geometry (writeSlice geometry chip new 0
    [magicData, 0, 0, 0]) file.last 1 (wordBytes new) = chip'
  have contentKept : ∀ page ≠ new, ∀ index, 3 ≤ index → chip' page index = chip page index := by
    intro page notNew index above
    have length : (wordBytes new).length = 2 := rfl
    rw [← written]
    by_cases isLast : page = file.last
    · rw [isLast, writeSlice_same lastBound, writeBlock_outside (by omega),
        writeSlice_other bound lastNe.symm]
    · rw [writeSlice_other lastBound isLast, writeSlice_other bound notNew]
  have newEmpty : pageLen (chip' new) = 0 := by
    rw [← written, writeSlice_other lastBound lastNe, writeSlice_same bound]
    rfl
  have inOld : ∀ page ∈ file.chain, page ≠ new := by
    rintro page member rfl
    exact notOwn (List.mem_cons_of_mem _ member)
  constructor
  · rw [← written]
    exact extension.own.appendPage search notZero
  · exact extension.front.trans (List.prefix_append _ _)
  · intro page member index above
    rw [contentKept page (inOld page (extension.front.subset member)) index above]
    exact extension.kept page member index above
  · intro page member
    have chainEq : (file.append [new]).chain = file.chain ++ [new] := rfl
    rw [chainEq, List.drop_append_of_le_length extension.front.length_le, List.mem_append,
      List.mem_singleton] at member
    rcases member with earlier | rfl
    · rw [pageLen, contentKept page (inOld page (List.mem_of_mem_drop earlier)) 3 (Nat.le_refl _)]
      exact extension.fresh page earlier
    · exact newEmpty

theorem extension_refl (own : OwnChain geometry others chip file) :
    Extension geometry others chip file.chain chip file := by
  refine ⟨own, List.prefix_rfl, fun _ _ _ _ => rfl, ?_⟩
  rw [List.drop_length]
  nofun

theorem pageData_congr {old new : Memory} (same : ∀ index, 3 ≤ index → new index = old index) :
    pageLen new = pageLen old ∧ pageData new = pageData old := by
  have lengthEq : pageLen new = pageLen old := congrArg UInt8.toNat (same 3 (Nat.le_refl _))
  refine ⟨lengthEq, ?_⟩
  rw [pageData, pageData, lengthEq]
  exact readBlock_congr fun index above _ => same index (by omega)

/-- Empty pages behind a filled chain add nothing. -/
theorem countedContent_append_empty {old : Chip} {chain empty : List Nat}
    (filled : Filled old chain)
    (kept : ∀ page ∈ chain, ∀ index, 3 ≤ index → chip page index = old page index)
    (fresh : ∀ page ∈ empty, pageLen (chip page) = 0) :
    countedContent chip (chain ++ empty) = contentOf old chain := by
  induction chain with
  | nil =>
      cases empty with
      | nil => rfl
      | cons page empty =>
          have isEmpty := fresh page List.mem_cons_self
          rw [List.nil_append, countedContent, pageData, isEmpty]
          rfl
  | cons page chain ih =>
      obtain ⟨_, full, restFilled⟩ := filled
      obtain ⟨lengthEq, dataEq⟩ := pageData_congr (kept page List.mem_cons_self)
      rw [List.cons_append, countedContent, contentOf_cons, lengthEq, dataEq,
        ih restFilled fun other member => kept other (List.mem_cons_of_mem _ member)]
      split
      next short =>
        cases chain with
        | nil => rfl
        | cons next chain =>
            rw [full (List.cons_ne_nil _ _)] at short
            exact absurd short (Nat.lt_irrefl _)
      next => rfl

/-- Appending pages leaves the content as it was, from any page on. -/
theorem Extension.content_drop {old : Chip} {chain : List Nat}
    (extension : Extension geometry others old chain chip file) (filled : Filled old chain)
    (count : Nat) :
    countedContent chip (file.chain.drop count) =
      (contentOf old chain).drop (dataSize * count) := by
  obtain ⟨added, chainEq⟩ := extension.front
  have fresh := extension.fresh
  rw [← chainEq, List.drop_left] at fresh
  rw [← chainEq, List.drop_append]
  by_cases inside : count < chain.length
  · obtain ⟨restFilled, restEq⟩ := filled.drop inside
    rw [← restEq]
    exact countedContent_append_empty restFilled
      (fun page member => extension.kept page (List.mem_of_mem_drop member))
      (fun page member => fresh page (List.mem_of_mem_drop member))
  · have upper := filled.length_le
    have noBytes : (contentOf old chain).length ≤ dataSize * count :=
      Nat.le_trans upper (Nat.mul_le_mul_left _ (by omega))
    rw [List.drop_of_length_le (show chain.length ≤ count by omega),
      List.drop_of_length_le noBytes]
    have nothing : Filled chip [] := trivial
    exact countedContent_append_empty nothing nofun
      (fun page member => fresh page (List.mem_of_mem_drop member))

end Append

section Write

variable {geometry : Geometry} {chip chip' : Chip} {others : List Nat} {file : FileEntry}

theorem countedContent_append_full {front back : List Nat}
    (full : ∀ page ∈ front, pageLen (chip page) = dataSize) :
    countedContent chip (front ++ back) = contentOf chip front ++ countedContent chip back := by
  induction front with
  | nil => rfl
  | cons page front ih =>
      rw [List.cons_append, countedContent, contentOf_cons, full page List.mem_cons_self,
        if_neg (Nat.lt_irrefl _), ih fun other member => full other (List.mem_cons_of_mem _ member),
        List.append_assoc]

/-- The part of a chain from one of its pages on. -/
theorem OwnChain.segment_drop (own : OwnChain geometry others chip file) {count : Nat}
    (inside : count < file.chain.length) :
    Segment (fun page => nextPage (chip page)) ((file.chain.drop count).headD 0)
      (file.chain.drop count) 0 := by
  have chain := own.chain.2
  rw [← List.take_append_drop count file.chain, segment_append] at chain
  obtain ⟨middle, _, later⟩ := chain
  cases dropEq : file.chain.drop count with
  | nil =>
      have length := congrArg List.length dropEq
      rw [List.length_drop, List.length_nil] at length
      omega
  | cons page pages =>
      rw [dropEq] at later
      exact ⟨rfl, later.2⟩

theorem Filled.skip_le {chain : List Nat} (filled : Filled chip chain) {count : Nat}
    (inside : dataSize * count ≤ (contentOf chip chain).length) : count ≤ chain.length := by
  have upper := filled.length_le
  rw [dataSize] at *
  omega

/-- The pages in front of an offset inside the file are full, and their content is what
comes before. -/
theorem Extension.front_full {old : Chip} {chain : List Nat}
    (extension : Extension geometry others old chain chip file) (filled : Filled old chain)
    {count : Nat} (inside : dataSize * count ≤ (contentOf old chain).length) :
    (∀ page ∈ file.chain.take count, pageLen (chip page) = dataSize) ∧
      contentOf chip (file.chain.take count) = (contentOf old chain).take (dataSize * count) := by
  have full : ∀ page ∈ file.chain.take count, pageLen (chip page) = dataSize := by
    obtain ⟨added, chainEq⟩ := extension.front
    rw [← chainEq, List.take_append_of_le_length (filled.skip_le inside)]
    intro page member
    have same := extension.kept page (List.mem_of_mem_take member)
    rw [(pageData_congr same).1]
    exact filled.full_before inside page member
  refine ⟨full, ?_⟩
  have whole := extension.content_drop filled 0
  rw [List.drop_zero, Nat.mul_zero, List.drop_zero, ← List.take_append_drop count file.chain,
    countedContent_append_full full, extension.content_drop filled count] at whole
  exact List.append_cancel_right (whole.trans (List.take_append_drop _ _).symm)

/-- The last loop on a chain that has been extended to the needed length. -/
theorem Extension.writeData_content {old : Chip} {chain : List Nat}
    (extension : Extension geometry others old chain chip file) (filled : Filled old chain)
    {offset : Nat} (inside : offset ≤ (contentOf old chain).length) {data : List UInt8}
    (nonempty : data ≠ []) (room : (offset + data.length) / dataSize < file.chain.length) :
    countedContent
        (writeData geometry data.length chip ((file.chain.drop (offset / dataSize)).headD 0)
          (offset % dataSize) data) file.chain =
      (contentOf old chain).take offset ++ (data ++
        (if (offset + data.length) % dataSize = 0 then
          (contentOf old chain).drop (offset + data.length) else [])) := by
  have divMod := Nat.div_add_mod offset dataSize
  have sumDiv : offset / dataSize + (offset % dataSize + data.length) / dataSize =
      (offset + data.length) / dataSize := by
    rw [dataSize]
    omega
  have sumMod : (offset % dataSize + data.length) % dataSize =
      (offset + data.length) % dataSize := Nat.mod_add_mod _ _ _
  have within : offset / dataSize < file.chain.length :=
    Nat.lt_of_le_of_lt (Nat.div_le_div_right (Nat.le_add_right _ _)) room
  have front : dataSize * (offset / dataSize) ≤ (contentOf old chain).length := by omega
  obtain ⟨full, frontEq⟩ := extension.front_full filled front
  have later := extension.content_drop filled (offset / dataSize)
  have start : ∀ first ∈ (file.chain.drop (offset / dataSize)).head?,
      offset % dataSize ≤ pageLen (chip first) := by
    intro first isFirst
    obtain ⟨rest, dropEq⟩ := List.head?_eq_some_iff.mp isFirst
    have lengths := congrArg List.length later
    rw [dropEq, countedContent, List.length_append, length_pageData, List.length_drop] at lengths
    split at lengths
    · rw [List.length_nil] at lengths
      omega
    · have small := Nat.mod_lt offset (show 0 < dataSize by decide)
      omega
  have usable : ∀ page ∈ file.chain.drop (offset / dataSize), page < geometry.pageCount :=
    fun page member =>
      (extension.own.inRange page (List.mem_cons_of_mem _ (List.mem_of_mem_drop member))).2
  have chainNodup : file.chain.Nodup := (List.nodup_cons.mp extension.own.nodup).2
  have laterRoom : offset % dataSize + data.length ≤
      dataSize * (file.chain.drop (offset / dataSize)).length := by
    rw [List.length_drop]
    rw [dataSize] at *
    omega
  obtain ⟨content, untouched⟩ := writeData_chain (extension.own.segment_drop within) usable
    (chainNodup.sublist (List.drop_sublist _ _)) start (Nat.mod_lt _ (by decide)) nonempty
    laterRoom (Nat.le_refl _)
  generalize writeData geometry data.length chip ((file.chain.drop (offset / dataSize)).headD 0)
    (offset % dataSize) data = chip' at content untouched ⊢
  have frontUntouched : ∀ page ∈ file.chain.take (offset / dataSize), chip' page = chip page := by
    intro page member
    apply untouched
    exact (List.disjoint_take_drop chainNodup (Nat.le_refl _)) member
  have frontFull : ∀ page ∈ file.chain.take (offset / dataSize),
      pageLen (chip' page) = dataSize := by
    intro page member
    rw [frontUntouched page member]
    exact full page member
  have frontContent : contentOf chip' (file.chain.take (offset / dataSize)) =
      (contentOf old chain).take (dataSize * (offset / dataSize)) := by
    rw [← frontEq]
    exact List.flatMap_congr fun page member => by rw [frontUntouched page member]
  rw [← List.take_append_drop (offset / dataSize) file.chain, countedContent_append_full frontFull,
    frontContent, content, later, List.drop_drop, sumDiv, sumMod,
    extension.content_drop filled, ← List.append_assoc, ← List.take_add, divMod]
  by_cases border : (offset + data.length) % dataSize = 0
  · rw [if_pos border, if_pos border, Nat.mul_div_cancel' (Nat.dvd_of_mod_eq_zero border)]
  · rw [if_neg border, if_neg border]

/-- The page to write to is a page of the chain or the first one appended. -/
theorem headD_drop_append {chain added : List Nat} {count : Nat} (bound : count ≤ chain.length)
    (positive : ∀ page ∈ chain, 0 < page) :
    (if (chain.drop count).headD 0 = 0 then added.headD 0 else (chain.drop count).headD 0) =
      ((chain ++ added).drop count).headD 0 := by
  rw [List.drop_append_of_le_length bound]
  cases dropEq : chain.drop count with
  | nil => rfl
  | cons page rest =>
      have member : page ∈ chain := List.mem_of_mem_drop (dropEq ▸ List.mem_cons_self)
      have notZero := positive page member
      exact if_neg (Nat.ne_of_gt notZero)

/-- What a call that returns the length of the data leaves behind. -/
theorem OwnChain.write_content (own : OwnChain geometry others chip file)
    (filled : Filled chip file.chain) {handle handle' : Handle}
    (isFile : handle.filePage = file.page)
    (inside : handle.offset.toNat ≤ (contentOf chip file.chain).length) {data : List UInt8}
    (short : data.length < 65536)
    (written : vfsEepromWrite geometry chip handle data = some (data.length, chip', handle')) :
    ∃ added, OwnChain geometry others chip' (file.append added) ∧
      countedContent chip' (file.append added).chain =
        (contentOf chip file.chain).take handle.offset.toNat ++ (data ++
          (if data = [] ∨ (handle.offset.toNat + data.length) % dataSize = 0 then
            (contentOf chip file.chain).drop (handle.offset.toNat + data.length) else [])) := by
  have usable : ∀ page ∈ file.chain, 0 < page ∧ page < geometry.pageCount :=
    fun page member => own.inRange page (List.mem_cons_of_mem _ member)
  obtain ⟨⟨allocated, lastPage, writePage⟩, scan, written⟩ := Option.bind_eq_some_iff.mp written
  obtain ⟨allocatedEq, lastEq, writeEq, found⟩ :=
    scanPages_file own.chain own.nodup own.inRange isFile scan
  have front : dataSize * (handle.offset.toNat / dataSize) ≤ (contentOf chip file.chain).length :=
    Nat.le_trans (Nat.mul_div_le _ _) inside
  rw [isFile, readPage_of_lt (own.inRange _ List.mem_cons_self).2] at scan
  have position := scanPages_position own.chain.2 usable (filled.full_before front) scan
  dsimp only at written position
  rw [writeEq, Option.map_eq_some_iff] at written
  obtain ⟨⟨complete, chip₁, writePage'⟩, appended, resultEq⟩ := written
  rw [lastEq] at appended
  obtain ⟨added, extension, lengthEq, writeEq'⟩ := appendPages_keeps
    (fun chip₁ extended => Extension geometry others chip file.chain chip₁ extended)
    (fun chip file new kept search notZero => kept.appendPage search notZero)
    (extension_refl own) appended
  refine ⟨added, ?_⟩
  by_cases empty : data = []
  · have chipEq : chip₁ = chip' := by
      subst empty
      cases complete with
      | false => exact congrArg (fun result => result.2.1) resultEq
      | true =>
          exact (writeData_nil _ _).symm.trans (congrArg (fun result => result.2.1) resultEq)
    subst chipEq
    refine ⟨extension.own, ?_⟩
    have content := extension.content_drop filled 0
    rw [List.drop_zero, Nat.mul_zero, List.drop_zero] at content
    rw [content, if_pos (Or.inl empty), empty, List.length_nil, Nat.add_zero, List.nil_append,
      List.take_append_drop]
  · have isComplete : complete = true := by
      cases complete with
      | true => rfl
      | false =>
          have lengths : 0 = data.length := congrArg (fun result => result.1) resultEq
          exact absurd (List.eq_nil_of_length_eq_zero lengths.symm) empty
    subst isComplete
    have chipEq : writeData geometry data.length chip₁ writePage'
        (handle.offset.toNat % dataSize) data = chip' :=
      congrArg (fun result => result.2.1) resultEq
    have total := lengthEq rfl
    rw [allocatedEq] at total
    have needed : pagesNeeded handle.offset.toNat data.length =
        (handle.offset.toNat + data.length) / dataSize + 1 := by
      have offsetLt := handle.offset.toNat_lt
      rw [pagesNeeded, dataSize]
      omega
    have chainLength : (file.append added).chain.length = file.chain.length + added.length :=
      List.length_append
    have room := room_of_appended own.inRange found short total
    rw [← writeEq'] at room
    constructor
    · rw [← chipEq]
      exact (dataWrites_spec (fun chip => OwnChain geometry others chip (file.append added))
        (fun chip before page next after kept split => kept.nextPage_eq split)
        (fun chip page offset bytes kept inChain above => kept.writeContent inChain above bytes)
        extension.own (Nat.mod_lt _ (by decide)) room).1
    · have startPage : writePage' =
          ((file.append added).chain.drop (handle.offset.toNat / dataSize)).headD 0 := by
        rw [writeEq', position]
        exact headD_drop_append (filled.skip_le front) fun page member => (usable page member).1
      rw [← chipEq, startPage, extension.writeData_content filled inside empty (by omega)]
      simp only [empty, false_or]

end Write

/-- The data has been put over the content, and the other files are as they were. -/
structure Overlays (geometry : Geometry) (chip : Chip) (front : List FileEntry)
    (file : FileEntry) (back : List FileEntry) (offset : Nat) (data : List UInt8) (chip' : Chip) :
    Prop where
  content : fileContent geometry chip' file.page =
    overlay (fileContent geometry chip file.page) offset data
  size : ∀ position, vfsEepromFilesize geometry chip' ⟨file.page, position⟩ =
    some (max (fileContent geometry chip file.page).length (offset + data.length))
  others : ∀ other ∈ front ++ back, ∀ page ∈ other.pages, chip' page = chip page
  intact : Intact geometry chip file.page chip'

section Overlay

variable {geometry : Geometry} {chip chip' : Chip} {front back : List FileEntry} {file : FileEntry}

/-- A write touches no page of another file. -/
theorem WellFormed.write_others (wellFormed : WellFormed geometry chip (front ++ file :: back))
    {handle handle' : Handle} (isFile : handle.filePage = file.page) (data : Buffer) {count : Nat}
    (written : vfsEepromWrite geometry chip handle data.bytes = some (count, chip', handle')) :
    (∀ other ∈ front ++ back, ∀ page ∈ other.pages, chip' page = chip page) ∧
      Intact geometry chip file.page chip' := by
  have quiet : ∀ write ∈ writeWrites geometry chip handle data.bytes,
      Quiet geometry (otherPages front back) file.page (chip file.page) write :=
    fun write member => wellFormed.ownChain.quiet_writeWrites _ isFile data.short member
  have chipEq := applyWrites_write written
  obtain ⟨same, _⟩ := applyWrites_quiet quiet (fun page _ => rfl) ⟨rfl, rfl, rfl⟩
  rw [chipEq] at same
  constructor
  · intro other member page inOther
    exact same page (List.mem_cons_of_mem _ (page_mem_others member inOther))
  · have survives := wellFormed.survives_quiet quiet
    rw [chipEq] at survives
    exact survives.intact wellFormed

theorem length_overlay (content : List UInt8) {offset : Nat} (inside : offset ≤ content.length)
    (data : List UInt8) :
    (overlay content offset data).length = max content.length (offset + data.length) := by
  rw [overlay, List.length_append, List.length_append, List.length_take, List.length_drop]
  omega

/-- A write that returns the length of the data has put it over the content of the file
exactly when it was empty, or reached the end of the file, or ended with a page. -/
theorem overlays_iff (geometry : Geometry) (chip : Chip) (front : List FileEntry)
    (file : FileEntry) (back : List FileEntry)
    (wellFormed : WellFormed geometry chip (front ++ file :: back))
    (filled : Filled chip file.chain) (handle : Handle) (isFile : handle.filePage = file.page)
    (inside : handle.offset.toNat ≤ (fileContent geometry chip file.page).length)
    (data : Buffer) (chip' : Chip) (handle' : Handle)
    (written : vfsEepromWrite geometry chip handle data.bytes =
      some (data.bytes.length, chip', handle')) :
    Overlays geometry chip front file back handle.offset.toNat data.bytes chip' ↔
      data.bytes = [] ∨
        (fileContent geometry chip file.page).length ≤
          handle.offset.toNat + data.bytes.length ∨
        (handle.offset.toNat + data.bytes.length) % dataSize = 0 := by
  have own := wellFormed.ownChain
  obtain ⟨others, intact⟩ := wellFormed.write_others isFile data written
  have contentEq : fileContent geometry chip file.page = contentOf chip file.chain :=
    own.fileContent_eq.1.trans filled.countedContent_eq
  rw [contentEq] at inside ⊢
  obtain ⟨added, ownAfter, countedEq⟩ :=
    own.write_content filled isFile inside data.short written
  obtain ⟨contentAfter, sizeAfter⟩ := ownAfter.fileContent_eq
  rw [countedEq] at contentAfter sizeAfter
  constructor
  · rintro ⟨content, _, _, _⟩
    by_contra lost
    rw [not_or, not_or] at lost
    obtain ⟨nonempty, notEnd, notBorder⟩ := lost
    have tails := contentAfter.symm.trans content
    rw [contentEq, overlay, if_neg (not_or.mpr ⟨nonempty, notBorder⟩), List.append_cancel_left_eq,
      List.append_cancel_left_eq] at tails
    have lengths := congrArg List.length tails
    rw [List.length_nil, List.length_drop] at lengths
    omega
  · intro fine
    have tailEq : (if data.bytes = [] ∨
        (handle.offset.toNat + data.bytes.length) % dataSize = 0 then
          (contentOf chip file.chain).drop (handle.offset.toNat + data.bytes.length) else []) =
        (contentOf chip file.chain).drop (handle.offset.toNat + data.bytes.length) := by
      split
      · rfl
      next lost =>
        rw [not_or] at lost
        exact (List.drop_of_length_le
          ((fine.resolve_left lost.1).resolve_right lost.2)).symm
    rw [tailEq] at contentAfter sizeAfter
    constructor
    · rw [contentEq]
      exact contentAfter
    · intro position
      rw [contentEq, ← length_overlay _ inside]
      exact sizeAfter position
    · exact others
    · exact intact

end Overlay

theorem wellFormed_tenByteState : WellFormed fourPages tenByteState.chip [⟨1, [2]⟩] := by
  have links : nextFile (tenByteState.chip 0) = 1 ∧ nextFile (tenByteState.chip 1) = 0 := by
    decide +kernel
  constructor
  · decide +kernel
  · decide +kernel
  · exact ⟨rfl, links.1, links.2⟩
  · intro file member
    rw [List.mem_singleton.mp member]
    exact dataFile_tenByteState.chain
  · decide
  · decide
  · decide +kernel
  · decide +kernel
  · decide +kernel

/-- One byte is appended. -/
theorem overlays_appended :
    ∃ chip' handle', vfsEepromWrite fourPages tenByteState.chip ⟨1, 10⟩ oneByte.bytes =
        some (oneByte.bytes.length, chip', handle') ∧
      (Overlays fourPages tenByteState.chip [] ⟨1, [2]⟩ [] 10 oneByte.bytes chip' ↔
        oneByte.bytes = [] ∨
          (fileContent fourPages tenByteState.chip 1).length ≤ 10 + oneByte.bytes.length ∨
          (10 + oneByte.bytes.length) % dataSize = 0) := by
  have returned : (vfsEepromWrite fourPages tenByteState.chip ⟨1, 10⟩ oneByte.bytes).map
      (fun result => result.1) = some oneByte.bytes.length := by
    decide +kernel
  obtain ⟨⟨count, chip', handle'⟩, written, countEq⟩ := Option.map_eq_some_iff.mp returned
  dsimp only at countEq
  rw [countEq] at written
  exact ⟨chip', handle', written, overlays_iff fourPages tenByteState.chip [] ⟨1, [2]⟩ []
    wellFormed_tenByteState dataFile_tenByteState.filled ⟨1, 10⟩ rfl (by decide +kernel) oneByte
    chip' handle' written⟩

/-- The first byte is overwritten, and the other nine are gone. -/
theorem overwrite_shortens_file :
    WellFormed fourPages tenByteState.chip [⟨1, [2]⟩] ∧ Filled tenByteState.chip [2] ∧
      fileContent fourPages tenByteState.chip 1 = [1, 2, 3, 4, 5, 6, 7, 8, 9, 10] ∧
      ∃ chip' handle', vfsEepromWrite fourPages tenByteState.chip ⟨1, 0⟩ oneByte.bytes =
          some (oneByte.bytes.length, chip', handle') ∧
        fileContent fourPages chip' 1 = [7] ∧
        ¬Overlays fourPages tenByteState.chip [] ⟨1, [2]⟩ [] 0 oneByte.bytes chip' := by
  have before : fileContent fourPages tenByteState.chip 1 = [1, 2, 3, 4, 5, 6, 7, 8, 9, 10] := by
    decide +kernel
  have returned : (vfsEepromWrite fourPages tenByteState.chip ⟨1, 0⟩ oneByte.bytes).map
      (fun result => (result.1, fileContent fourPages result.2.1 1)) =
        some (oneByte.bytes.length, [7]) := by
    decide +kernel
  obtain ⟨⟨count, chip', handle'⟩, written, view⟩ := Option.map_eq_some_iff.mp returned
  simp only [Prod.mk.injEq] at view
  obtain ⟨countEq, after⟩ := view
  rw [countEq] at written
  refine ⟨wellFormed_tenByteState, dataFile_tenByteState.filled, before, chip', handle', written,
    after, ?_⟩
  intro overlays
  have content := overlays.content
  rw [show fileContent fourPages chip' 1 = [7] from after, before] at content
  exact absurd content (by decide)

end Ethersex.Sfs

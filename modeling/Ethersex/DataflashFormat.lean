import Ethersex.DataflashMount

/-!
# Scanning for a root, and formatting

`fs_scan` ends with the first page among the valid roots of the highest version.
A flash without a valid root gets an empty root in page 0 and empty tables in
the pages behind it.
-/

namespace Ethersex.Dataflash

open ByteMemory

/-- The state after the first `count` pages have been scanned. -/
structure Scanned (start fs : Fs) (count : Nat) : Prop where
  flash : fs.flash = start.flash
  bitmap : fs.buf2 = start.buf2
  lastFree : fs.lastFree = start.lastFree
  programs : fs.programs = start.programs
  handouts : fs.handouts = start.handouts
  newest : ∀ page < count, IsRootPage (start.flash page) →
    pageVersion (start.flash page) ≤ fs.version
  found : 0 < fs.version → fs.root < count ∧ IsRootPage (start.flash fs.root) ∧
    pageVersion (start.flash fs.root) = fs.version ∧
    ∀ page < fs.root, IsRootPage (start.flash page) → pageVersion (start.flash page) < fs.version

theorem scanPage_of_newer {fs : Fs} {page : Nat} (bound : page < 4096)
    (valid : IsRootPage (fs.flash page)) (newer : fs.version < pageVersion (fs.flash page)) :
    scanPage fs page =
      { withBuffer fs (fs.flash page) with
        version := pageVersion (fs.flash page)
        root := page } := by
  have same : fs.flash (page % 4096) = fs.flash page := by rw [Nat.mod_eq_of_lt bound]
  have header : fs.header page = pageHeader (fs.flash page) := by
    rw [← same]
    rfl
  have version : rootVersion fs.toVolume page = pageVersion (fs.flash page) := by
    rw [← same]
    rfl
  have crc : (dfFlashRead fs.toVolume page 527 1).getD 0 0 = fs.flash page 527 := by
    rw [dfFlashRead, getD_readPage (by omega) (by omega), same]
  rw [scanPage, if_pos ⟨by rw [header, valid.used], by rw [header, valid.root]⟩]
  simp only [dfBufLoad_eq, same]
  rw [if_pos]
  · show _ = _
    rw [← version]
    rfl
  · refine ⟨valid.crc.trans crc.symm, ?_⟩
    rw [← version] at newer
    exact newer

/-- A page with the flags of a root is loaded, whatever its checksum. -/
theorem scanPage_of_not_newer {fs : Fs} {page : Nat} (bound : page < 4096)
    (older : IsRootPage (fs.flash page) → pageVersion (fs.flash page) ≤ fs.version) :
    scanPage fs page =
      if (fs.header page).unused = false ∧ (fs.header page).root = true then
        withBuffer fs (fs.flash page)
      else fs := by
  have same : fs.flash (page % 4096) = fs.flash page := by rw [Nat.mod_eq_of_lt bound]
  rw [scanPage]
  by_cases root : (fs.header page).unused = false ∧ (fs.header page).root = true
  · rw [if_pos root, if_pos root]
    simp only [dfBufLoad_eq, same]
    refine if_neg ?_
    rintro ⟨crc, newer⟩
    have stored : (dfFlashRead fs.toVolume page 527 1).getD 0 0 = fs.flash page 527 := by
      rw [dfFlashRead, getD_readPage (by omega) (by omega), same]
    have header : fs.header page = pageHeader (fs.flash page) := by
      rw [← same]
      rfl
    rw [header] at root
    have bounded := older ⟨root.1, root.2, crc.trans stored⟩
    have version : rootVersion fs.toVolume page = pageVersion (fs.flash page) := by
      rw [← same]
      rfl
    rw [← version] at bounded
    exact absurd newer (Nat.not_lt.2 bounded)
  · rw [if_neg root, if_neg root]

theorem Scanned.next {start fs : Fs} {count : Nat} (scanned : Scanned start fs count)
    (bound : count < 4096) : Scanned start (scanPage fs count) (count + 1) := by
  by_cases newer : IsRootPage (fs.flash count) ∧ fs.version < pageVersion (fs.flash count)
  · rw [scanPage_of_newer bound newer.1 newer.2]
    rw [scanned.flash] at newer ⊢
    refine ⟨scanned.flash, scanned.bitmap, scanned.lastFree, scanned.programs, scanned.handouts,
      ?_, fun _ => ⟨Nat.lt_succ_self count, newer.1, rfl, ?_⟩⟩
    · intro page before valid
      rcases Nat.eq_or_lt_of_le (Nat.le_of_lt_succ before) with same | earlier
      · rw [same]
      · exact Nat.le_trans (scanned.newest page earlier valid) (Nat.le_of_lt newer.2)
    · intro page earlier valid
      exact Nat.lt_of_le_of_lt (scanned.newest page earlier valid) newer.2
  · have older : IsRootPage (fs.flash count) → pageVersion (fs.flash count) ≤ fs.version :=
      fun valid => Nat.not_lt.1 fun higher => newer ⟨valid, higher⟩
    have next : ∀ fs' : Fs, fs'.toVolume = fs.toVolume → fs'.buf2 = fs.buf2 →
        fs'.version = fs.version → fs'.lastFree = fs.lastFree → fs'.programs = fs.programs →
        fs'.handouts = fs.handouts → Scanned start fs' (count + 1) := by
      intro fs' volume bitmap version lastFree programs handouts
      refine ⟨by rw [volume]; exact scanned.flash, bitmap.trans scanned.bitmap,
        lastFree.trans scanned.lastFree, programs.trans scanned.programs,
        handouts.trans scanned.handouts, ?_, ?_⟩
      · intro page before valid
        rw [version]
        rcases Nat.eq_or_lt_of_le (Nat.le_of_lt_succ before) with same | earlier
        · rw [same] at valid ⊢
          rw [scanned.flash] at older
          exact older valid
        · exact scanned.newest page earlier valid
      · rw [version, volume]
        intro positive
        obtain ⟨inside, rest⟩ := scanned.found positive
        exact ⟨Nat.lt_succ_of_lt inside, rest⟩
    rw [scanPage_of_not_newer bound older]
    split
    · exact next _ rfl rfl rfl rfl rfl rfl
    · exact next _ rfl rfl rfl rfl rfl rfl

theorem scanned_foldl (start : Fs) {count : Nat} (bound : count ≤ 4096) :
    Scanned { start with version := 0 }
      ((List.range count).foldl scanPage { start with version := 0 }) count := by
  induction count with
  | zero =>
      refine ⟨rfl, rfl, rfl, rfl, rfl, fun page before => by omega, fun positive => ?_⟩
      exact absurd positive (Nat.lt_irrefl 0)
  | succ count ih =>
      rw [List.range_succ, List.foldl_append]
      exact (ih (by omega)).next (by omega)

/-- A page with `count` bytes filled with ones from byte 15 on. -/
def filledPage (page : Memory) (count : Nat) : Memory :=
  fun index => if 15 ≤ index ∧ index < 15 + count then 0xff else page index

theorem foldl_fill (fs : Fs) {count : Nat} (bound : count ≤ 513) :
    (List.range count).foldl (fun fs index => dfBufWrite fs .buf1 [0xff] (15 + index)) fs =
      withBuffer fs (filledPage fs.buf1 count) := by
  induction count with
  | zero =>
      show fs = withBuffer fs _
      have same : filledPage fs.buf1 0 = fs.buf1 := by
        funext index
        exact if_neg (by omega)
      rw [same]
      rfl
  | succ count ih =>
      have grown : writePage (filledPage fs.buf1 count) (15 + count) [0xff] =
          filledPage fs.buf1 (count + 1) := by
        rw [writePage_eq _ (by simp only [List.length_singleton]; omega), writeBlock_singleton]
        funext index
        by_cases here : index = 15 + count
        · rw [here, Function.update_self, filledPage, if_pos (by omega)]
        · rw [Function.update_of_ne here, filledPage, filledPage]
          by_cases inside : 15 ≤ index ∧ index < 15 + count
          · rw [if_pos inside, if_pos (by omega)]
          · rw [if_neg inside, if_neg (by omega)]
      rw [List.range_succ, List.foldl_append, ih (by omega), ← grown]
      rfl

/-- The pages from 1 up to `count` hold the same content. -/
theorem foldl_save (fs : Fs) {count : Nat} (bound : count ≤ 16) :
    ∃ programs, (List.range count).foldl (fun fs tableId => dfBufSave fs .buf1 (tableId + 1)) fs =
      { fs with
        flash := fun page => if 1 ≤ page ∧ page ≤ count then fs.buf1 else fs.flash page
        programs := programs } := by
  induction count with
  | zero =>
      have same : (fun page => if 1 ≤ page ∧ page ≤ 0 then fs.buf1 else fs.flash page) =
          fs.flash := by
        funext page
        exact if_neg (by omega)
      exact ⟨fs.programs, by rw [same]; rfl⟩
  | succ count ih =>
      obtain ⟨programs, result⟩ := ih (by omega)
      have saved : Function.update
          (fun page => if 1 ≤ page ∧ page ≤ count then fs.buf1 else fs.flash page) (count + 1)
          fs.buf1 =
          fun page => if 1 ≤ page ∧ page ≤ count + 1 then fs.buf1 else fs.flash page := by
        funext page
        by_cases here : page = count + 1
        · rw [here, Function.update_self, if_pos (by omega)]
        · rw [Function.update_of_ne here]
          by_cases inside : 1 ≤ page ∧ page ≤ count
          · rw [if_pos inside, if_pos (by omega)]
          · rw [if_neg inside, if_neg (by omega)]
      refine ⟨programs ++ [(count + 1, fs.buf1)], ?_⟩
      rw [List.range_succ, List.foldl_append, result, ← saved]
      simp only [List.foldl_cons, List.foldl_nil, dfBufSave,
        Nat.mod_eq_of_lt (by omega : count + 1 < 4096)]
      rfl

/-- The bytes of the table pointers in an empty root. -/
def emptyTables : List UInt8 := (List.range 16).flatMap fun tableId => wordBytes (tableId + 1)

theorem emptyTables_word : ∀ tableId < 16,
    (emptyTables.getD (2 * tableId) 0).toNat + 256 * (emptyTables.getD (2 * tableId + 1) 0).toNat =
      tableId + 1 := by
  decide

/-- The lowest flag of a word whose first byte is filled with ones is set. -/
theorem flag_of_filled {page : Memory} {offset length : Nat} (word : 0 < length)
    (bound : offset + length ≤ 528) (filled : page offset = 0xff) :
    flag (wordAt (readPage page offset length) 0) 0 = true := by
  simp only [flag, wordAt]
  rw [getD_readPage word bound, Nat.add_zero, filled]
  simp only [Nat.pow_zero, Nat.div_one, beq_iff_eq]
  have even : (256 * ((readPage page offset length).getD (0 + 1) 0).toNat) % 2 = 0 := by omega
  have odd : (0xff : UInt8).toNat = 255 := rfl
  omega

section EmptyRoot

variable (page : Memory) (header : PageHeader) (version : Nat) (node : DirectoryNode)

/-- Buffer 1 when `fs_format` computes the checksum. -/
def emptyRootPage : Memory :=
  writtenNodes (writePage page 0 (header.encode ++ versionBytes version ++ emptyTables))
    ((List.range 60).map fun index => (index, node))

theorem emptyEntries_lt :
    ∀ entry ∈ (List.range 60).map fun index => (index, node), entry.1 < 60 := by
  intro entry member
  obtain ⟨index, inside, rfl⟩ := List.mem_map.1 member
  exact List.mem_range.1 inside

theorem writePage_emptyRoot :
    writePage page 0 (header.encode ++ versionBytes version ++ emptyTables) =
      writePage (writePage (writePage page 0 header.encode) 4 (versionBytes version)) 8
        emptyTables := by
  have tablesLength : emptyTables.length = 32 := rfl
  have headerLength := header.length_encode
  rw [writePage_eq _ (by simp [tablesLength]), writePage_eq _ (by rw [tablesLength]; omega),
    writePage_eq _ (by simp), writePage_eq _ (by omega), writeBlock_append, writeBlock_append]
  rfl

theorem pageHeader_emptyRootPage :
    pageHeader (emptyRootPage page header version node) =
      { header with
        nextInode := header.nextInode % 4096
        size := header.size % 65536 } := by
  rw [pageHeader, emptyRootPage, readPage_writtenNodes _ (emptyEntries_lt node) (by omega)
    (by omega), writePage_emptyRoot]
  show pageHeader _ = _
  rw [pageHeader_writePage_behind (by decide) (by omega),
    pageHeader_writePage_behind (by simp) (by omega), pageHeader_writePage_encode]

theorem pageVersion_emptyRootPage :
    pageVersion (emptyRootPage page header version node) = version % 4294967296 := by
  have written := readPage_writePage_same (writePage page 0 header.encode) 4
    (versionBytes version) (by simp)
  rw [length_versionBytes] at written
  rw [pageVersion, emptyRootPage, readPage_writtenNodes _ (emptyEntries_lt node) (by omega)
    (by omega), writePage_emptyRoot, readPage_writePage_disjoint (by decide) (by omega) (by omega),
    written, versionAt_versionBytes]

theorem tablePointer_emptyRootPage {tableId : Nat} (inside : tableId < 16) :
    tablePointer (emptyRootPage page header version node) tableId = tableId + 1 := by
  have tablesLength : emptyTables.length = 32 := rfl
  rw [tablePointer, emptyRootPage, readPage_writtenNodes _ (emptyEntries_lt node) (by omega)
    (by omega), writePage_emptyRoot, wordAt, getD_readPage (by omega) (by omega),
    getD_readPage (by omega) (by omega), writePage_eq _ (by rw [tablesLength]; omega),
    writeBlock_inside (by omega) (by omega), writeBlock_inside (by omega) (by omega),
    (by omega : 8 + 2 * tableId + 0 - 8 = 2 * tableId),
    (by omega : 8 + 2 * tableId + (0 + 1) - 8 = 2 * tableId + 1), emptyTables_word tableId inside]

theorem pageNode_emptyRootPage {index : Nat} (inside : index < 60) :
    pageNode (emptyRootPage page header version node) index = node.stored := by
  apply pageNode_writtenNodes_of_mem _ (emptyEntries_lt node)
  · rw [List.map_map]
    exact List.Nodup.map (fun _ _ same => same) List.nodup_range
  · exact List.mem_map.2 ⟨index, List.mem_range.2 inside, rfl⟩

theorem endUnused_emptyRootPage (filled : page 520 = 0xff) :
    (pageNode (emptyRootPage page header version node) 60).unused = true := by
  have tablesLength : emptyTables.length = 32 := rfl
  have same : readPage (emptyRootPage page header version node) (40 + 8 * 60) 2 =
      readPage page (40 + 8 * 60) 2 := by
    rw [emptyRootPage, readPage_writtenNodes _ (emptyEntries_lt node) (by omega) (by omega),
      readPage_writePage_disjoint (by simp [tablesLength]) (by omega) (by simp [tablesLength])]
  rw [pageNode_unused_congr (Nat.le_refl _) same]
  exact flag_of_filled (by omega) (by omega) filled

end EmptyRoot

theorem foldl_writeNode_const (fs : Fs) (buffer : Memory) (node : DirectoryNode)
    (indices : List Nat) :
    indices.foldl (fun fs index => writeNode fs node index) (withBuffer fs buffer) =
      withBuffer fs (writtenNodes buffer (indices.map fun index => (index, node))) := by
  induction indices generalizing buffer with
  | nil => rfl
  | cons index indices ih =>
      rw [List.foldl_cons, List.map_cons]
      exact ih _

theorem writeEmptyTables_spec (fs : Fs) (garbage : List UInt8) :
    ∃ table, (writeEmptyTables fs garbage).buf1 = table ∧
      (∀ index, 15 ≤ index → index < 524 → table index = 0xff) ∧
      (∀ index, 524 ≤ index → table index = fs.buf1 index) ∧
      (pageHeader table).root = false ∧
      (writeEmptyTables fs garbage).flash =
        (fun page => if 1 ≤ page ∧ page ≤ 16 then table else fs.flash page) ∧
      (writeEmptyTables fs garbage).buf2 = fs.buf2 ∧
      (writeEmptyTables fs garbage).version = fs.version ∧
      (writeEmptyTables fs garbage).lastFree = fs.lastFree ∧
      (writeEmptyTables fs garbage).handouts = fs.handouts := by
  have start : readBlock (filledPage (writePage fs.buf1 0 (emptyTableHeader garbage).encode) 509)
      0 4 = readBlock (writePage fs.buf1 0 (emptyTableHeader garbage).encode) 0 4 :=
    readBlock_congr fun index _ below => if_neg (by omega)
  have header :
      pageHeader (filledPage (writePage fs.buf1 0 (emptyTableHeader garbage).encode) 509) =
      pageHeader (writePage fs.buf1 0 (emptyTableHeader garbage).encode) := by
    rw [pageHeader, pageHeader, readPage_eq _ (by omega), readPage_eq _ (by omega), start]
  obtain ⟨programs, saved⟩ := foldl_save
    (withBuffer (dfBufWrite fs .buf1 (emptyTableHeader garbage).encode 0)
      (filledPage (writePage fs.buf1 0 (emptyTableHeader garbage).encode) 509)) (Nat.le_refl 16)
  have unfolded : writeEmptyTables fs garbage =
      (List.range 16).foldl (fun fs tableId => dfBufSave fs .buf1 (tableId + 1))
        (withBuffer (dfBufWrite fs .buf1 (emptyTableHeader garbage).encode 0)
          (filledPage (writePage fs.buf1 0 (emptyTableHeader garbage).encode) 509)) := by
    simp only [writeEmptyTables, foldl_fill _ (by omega : 509 ≤ 513)]
    rfl
  rw [unfolded, saved]
  refine ⟨filledPage (writePage fs.buf1 0 (emptyTableHeader garbage).encode) 509, rfl,
    fun index behind before => if_pos (by omega), ?_, ?_, rfl, rfl, rfl, rfl, rfl⟩
  · intro index behind
    have length := (emptyTableHeader garbage).length_encode
    rw [filledPage, if_neg (by omega), writePage_eq _ (by omega),
      writeBlock_outside (Or.inr (by omega))]
  · rw [header, pageHeader_writePage_encode]
    rfl

theorem writeEmptyRoot_eq (fs : Fs) (rootGarbage nodeGarbage : List UInt8) :
    writeEmptyRoot fs rootGarbage nodeGarbage =
      saveRoot (withBuffer fs (sealedPage (emptyRootPage fs.buf1
        { PageHeader.decode rootGarbage with root := true, eof := true, unused := false }
        fs.version (emptyNode nodeGarbage)))) 0 := by
  have nodes := foldl_writeNode_const fs
    (writePage fs.buf1 0 (emptyRoot rootGarbage fs.version)) (emptyNode nodeGarbage)
    (List.range 60)
  rw [writeEmptyRoot]
  change saveRoot (writeCrc ((List.range 60).foldl
    (fun fs index => writeNode fs (emptyNode nodeGarbage) index)
    (withBuffer fs (writePage fs.buf1 0 (emptyRoot rootGarbage fs.version))))) 0 = _
  rw [nodes]
  rfl

/-- The flash after `fs_format`. -/
structure Formatted (before after : Fs) : Prop where
  root : after.root = 0
  version : after.version = 1
  bitmap : after.buf2 = before.buf2
  lastFree : after.lastFree = before.lastFree
  handouts : after.handouts = before.handouts
  flash : ∀ page, 16 < page → after.flash page = before.flash page
  valid : IsRootPage (after.flash 0)
  pageVersion : pageVersion (after.flash 0) = 1
  tables : ∀ tableId < 16, fsInodetable after.toVolume tableId = tableId + 1
  tableHeader : ∀ tableId < 16, (pageHeader (after.flash (tableId + 1))).root = false
  entries : ∀ tableId < 16, ∀ entry < 255,
    (pageEntry (after.flash (tableId + 1)) entry).unused = true
  lastEntries : ∀ tableId < 16,
    pageEntry (after.flash (tableId + 1)) 255 = pageEntry before.buf1 255
  nodes : ∀ index ≤ 60, (after.node index).unused = true

/-- The root page that `fs_format` programs, with its views. -/
theorem views_sealedPage {page : Memory} {header : PageHeader} {version : Nat}
    {node : DirectoryNode} (used : header.unused = false) (root : header.root = true)
    (unused : node.unused = true) (filled : page 520 = 0xff) :
    IsRootPage (sealedPage (emptyRootPage page header version node)) ∧
      pageVersion (sealedPage (emptyRootPage page header version node)) = version % 4294967296 ∧
      (∀ tableId < 16,
        tablePointer (sealedPage (emptyRootPage page header version node)) tableId =
          tableId + 1) ∧
      ∀ index ≤ 60,
        (pageNode (sealedPage (emptyRootPage page header version node)) index).unused = true := by
  have headerEq : pageHeader (sealedPage (emptyRootPage page header version node)) =
      pageHeader (emptyRootPage page header version node) := by
    rw [pageHeader, readPage_sealedPage _ (by omega), pageHeader]
  refine ⟨⟨?_, ?_, pageCrc_sealedPage _⟩, ?_, ?_, ?_⟩
  · rw [headerEq, pageHeader_emptyRootPage]
    exact used
  · rw [headerEq, pageHeader_emptyRootPage]
    exact root
  · rw [pageVersion, readPage_sealedPage _ (by omega)]
    exact pageVersion_emptyRootPage page header version node
  · intro tableId inside
    rw [tablePointer, readPage_sealedPage _ (by omega)]
    exact tablePointer_emptyRootPage page header version node inside
  · intro index inside
    rw [pageNode_unused_congr inside (readPage_sealedPage _ (by omega))]
    rcases Nat.eq_or_lt_of_le inside with last | before
    · rw [last]
      exact endUnused_emptyRootPage page header version node filled
    · rw [pageNode_emptyRootPage page header version node before]
      exact unused

theorem formatted_writeEmptyRoot {before fs : Fs} {table : Memory}
    (rootGarbage nodeGarbage : List UInt8) (version : fs.version = 1) (buffer : fs.buf1 = table)
    (filled : ∀ index, 15 ≤ index → index < 524 → table index = 0xff)
    (behind : ∀ index, 524 ≤ index → table index = before.buf1 index)
    (tableHeader : (pageHeader table).root = false)
    (flash : fs.flash = fun page => if 1 ≤ page ∧ page ≤ 16 then table else before.flash page)
    (bitmap : fs.buf2 = before.buf2) (lastFree : fs.lastFree = before.lastFree)
    (handouts : fs.handouts = before.handouts) :
    Formatted before (writeEmptyRoot fs rootGarbage nodeGarbage) := by
  rw [writeEmptyRoot_eq, buffer, version]
  obtain ⟨valid, stored, tables, nodes⟩ :
      IsRootPage (sealedPage (emptyRootPage table
        { PageHeader.decode rootGarbage with root := true, eof := true, unused := false } 1
        (emptyNode nodeGarbage))) ∧ _ ∧ _ ∧ _ := views_sealedPage rfl rfl rfl
      (filled 520 (by omega) (by omega))
  generalize sealedPage _ = root at valid stored tables nodes
  have rootPage : (saveRoot (withBuffer fs root) 0).flash 0 = root := by
    show Function.update fs.flash (0 % 4096) root 0 = root
    rw [Nat.zero_mod, Function.update_self]
  have others {page : Nat} (different : page ≠ 0) :
      (saveRoot (withBuffer fs root) 0).flash page = fs.flash page := by
    show Function.update fs.flash (0 % 4096) root page = _
    rw [Nat.zero_mod, Function.update_of_ne different]
  have tablePage {tableId : Nat} (inside : tableId < 16) :
      (saveRoot (withBuffer fs root) 0).flash (tableId + 1) = table := by
    rw [others (by omega), flash]
    exact if_pos (by omega)
  refine ⟨rfl, version, bitmap, lastFree, handouts, ?_, ?_, ?_, ?_, ?_, ?_, ?_, ?_⟩
  · intro page behind
    rw [others (by omega), flash]
    exact if_neg (by omega)
  · rw [rootPage]
    exact valid
  · rw [rootPage]
    exact stored
  · intro tableId inside
    show tablePointer ((saveRoot (withBuffer fs root) 0).flash 0) tableId = _
    rw [rootPage]
    exact tables tableId inside
  · intro tableId inside
    rw [tablePage inside]
    exact tableHeader
  · intro tableId inside entry before
    rw [tablePage inside]
    exact flag_of_filled (by omega) (by omega) (filled _ (by omega) (by omega))
  · intro tableId inside
    rw [tablePage inside, pageEntry, pageEntry, readPage_eq _ (by omega), readPage_eq _ (by omega),
      readBlock_congr fun index inside _ => behind index (by omega)]
  · intro index inside
    show (pageNode ((saveRoot (withBuffer fs root) 0).flash 0) index).unused = _
    rw [rootPage]
    exact nodes index inside

theorem fsFormat_spec {fs : Fs} (unversioned : fs.version = 0) :
    (fsFormat fs).1 = .ok ∧ Formatted fs (fsFormat fs).2 := by
  refine ⟨rfl, ?_⟩
  have version : (if 0 < fs.version then (fs.version + 1) % 4294967296 else 1) = 1 := by
    rw [unversioned]
    rfl
  simp only [fsFormat, version]
  obtain ⟨table, buffer, filled, behind, header, flash, bitmap, stays, lastFree, handouts⟩ :=
    writeEmptyTables_spec ((({ fs with version := 1 } : Fs).uninitialised 40).2.uninitialised 4).2
      ((({ fs with version := 1 } : Fs).uninitialised 40).2.uninitialised 4).1
  generalize writeEmptyTables _ _ = tables at buffer flash bitmap stays lastFree handouts ⊢
  exact formatted_writeEmptyRoot _ _ stays buffer filled behind header flash bitmap
    lastFree handouts

end Ethersex.Dataflash

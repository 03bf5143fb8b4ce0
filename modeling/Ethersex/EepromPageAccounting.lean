import Ethersex.EepromFileSystem
import Ethersex.GuardedRuns
import Ethersex.LinkedSegments
import Mathlib.Data.List.Nodup

/-!
# Page accounting in the EEPROM file system

Every file page is on the file list once, and every data page is on the chain of
one file.  Creating, opening, reading and writing keep this, but unlinking a
file with data clears the file page again instead of its data pages, which are
then lost; and a handle that outlived its file writes into pages that belong to
nobody.  Apart from these two events the accounting holds along every run.
-/

namespace Ethersex.Sfs

open ByteMemory GuardedRuns LinkedSegments

section PageBytes

variable {geometry : Geometry} {chip : Chip} {page : Nat}

theorem readWord_writeBlock (memory : Memory) (offset value : Nat) (small : value < 65536) :
    readWord (writeBlock memory offset (wordBytes value)) offset = value := by
  have length : (wordBytes value).length = 2 := rfl
  rw [readWord, writeBlock_inside (Nat.le_refl _) (by omega),
    writeBlock_inside (by omega) (by omega), Nat.sub_self, Nat.add_sub_cancel_left]
  simp only [wordBytes, List.getD_cons_zero, List.getD_cons_succ, UInt8.toNat_ofNat']
  omega

theorem readWord_lt (memory : Memory) (offset : Nat) : readWord memory offset < 65536 := by
  have low := (memory offset).toNat_lt
  have high := (memory (offset + 1)).toNat_lt
  rw [readWord]
  omega

theorem readWord_outside {memory : Memory} {offset start : Nat} {bytes : List UInt8}
    (outside : start + 2 ≤ offset ∨ offset + bytes.length ≤ start) :
    readWord (writeBlock memory offset bytes) start = readWord memory start := by
  rw [readWord, readWord, writeBlock_outside (by omega), writeBlock_outside (by omega)]

theorem Geometry.pageIndex_of_lt (inRange : page < geometry.pageCount) :
    geometry.pageIndex page = page := by
  have bound := geometry.pageCount_le
  rw [Geometry.pageIndex, Nat.mod_eq_of_lt (show page < 1024 by omega), Nat.mod_eq_of_lt inRange]

theorem Geometry.pageIndex_pageCount : geometry.pageIndex geometry.pageCount = 0 := by
  have bound := geometry.pageCount_le
  rw [Geometry.pageIndex]
  by_cases full : geometry.pageCount = 1024
  · rw [full]
  · rw [Nat.mod_eq_of_lt (show geometry.pageCount < 1024 by omega), Nat.mod_self]

theorem readPage_of_lt (inRange : page < geometry.pageCount) :
    readPage geometry chip page = chip page := by
  rw [readPage, Geometry.pageIndex_of_lt inRange]

theorem writeSlice_same (inRange : page < geometry.pageCount) (offset : Nat)
    (bytes : List UInt8) :
    writeSlice geometry chip page offset bytes page = writeBlock (chip page) offset bytes := by
  rw [writeSlice, readPage, Geometry.pageIndex_of_lt inRange, Function.update_self]

theorem writeSlice_other (inRange : page < geometry.pageCount) {other : Nat}
    (different : other ≠ page) (offset : Nat) (bytes : List UInt8) :
    writeSlice geometry chip page offset bytes other = chip other := by
  rw [writeSlice, Geometry.pageIndex_of_lt inRange, Function.update_of_ne different]

end PageBytes

/-- A file: its page and the pages of its data. -/
structure FileEntry where
  page : Nat
  chain : List Nat

def FileEntry.pages (file : FileEntry) : List Nat := file.page :: file.chain

def pagesOf (files : List FileEntry) : List Nat := files.flatMap FileEntry.pages

/-- The chip holds the given files, and all other pages are free. -/
structure Layout (geometry : Geometry) (chip : Chip) (files : List FileEntry) : Prop where
  superblock : pageMagic (chip 0) = magicSuperblock
  fileList : Segment (fun page => nextFile (chip page)) 0 (0 :: files.map FileEntry.page) 0
  chains : ∀ file ∈ files,
    Segment (fun page => nextPage (chip page)) file.page file.pages 0
  nodup : (pagesOf files).Nodup
  inRange : ∀ page ∈ pagesOf files, 0 < page ∧ page < geometry.pageCount
  fileMagic : ∀ file ∈ files, pageMagic (chip file.page) = magicFile
  dataMagic : ∀ file ∈ files, ∀ page ∈ file.chain, pageMagic (chip page) = magicData
  free : ∀ page, 0 < page → page < geometry.pageCount → page ∉ pagesOf files →
    isFreeMagic (pageMagic (chip page)) = true

/-- Every file page is on the list exactly once, every data page on the chain of
exactly one listed file, and without files all pages but the superblock are
free. -/
def PagesAccounted (geometry : Geometry) (chip : Chip) : Prop :=
  ∃ files : List FileEntry,
    Segment (fun page => nextFile (chip page)) 0 (0 :: files.map FileEntry.page) 0 ∧
    (∀ file ∈ files, Segment (fun page => nextPage (chip page)) file.page file.pages 0) ∧
    0 ∉ pagesOf files ∧
    ∀ page, 0 < page → page < geometry.pageCount →
      (pageMagic (chip page) = magicFile → (files.map FileEntry.page).count page = 1) ∧
      (pageMagic (chip page) = magicData → (files.flatMap FileEntry.chain).count page = 1) ∧
      (files = [] → isFreeMagic (pageMagic (chip page)) = true)

section Layout

variable {geometry : Geometry} {chip chip' : Chip} {files front back : List FileEntry}
  {file : FileEntry} {page : Nat}

theorem page_mem_pagesOf (member : file ∈ files) (inFile : page ∈ file.pages) :
    page ∈ pagesOf files :=
  List.mem_flatMap.mpr ⟨file, member, inFile⟩

theorem page_mem_others (member : file ∈ front ++ back) (inFile : page ∈ file.pages) :
    page ∈ pagesOf front ++ pagesOf back := by
  rw [List.mem_append] at member ⊢
  exact member.imp (fun inFront => page_mem_pagesOf inFront inFile)
    (fun inBack => page_mem_pagesOf inBack inFile)

theorem mem_of_mem_others {other : FileEntry} (member : other ∈ front ++ back) :
    other ∈ front ++ file :: back :=
  List.mem_append.mpr ((List.mem_append.mp member).imp_right (List.mem_cons_of_mem _))

theorem pagesOf_split : pagesOf (front ++ file :: back) =
    pagesOf front ++ (file.pages ++ pagesOf back) := by
  rw [pagesOf, List.flatMap_append, List.flatMap_cons]
  rfl

theorem sublist_pagesOf_page (files : List FileEntry) :
    (files.map FileEntry.page).Sublist (pagesOf files) := by
  induction files with
  | nil => exact List.Sublist.refl _
  | cons file files ih =>
      rw [List.map_cons, pagesOf, List.flatMap_cons, FileEntry.pages, List.cons_append]
      exact (ih.trans (List.sublist_append_right _ _)).cons_cons _

theorem sublist_pagesOf_chain (files : List FileEntry) :
    (files.flatMap FileEntry.chain).Sublist (pagesOf files) := by
  induction files with
  | nil => exact List.Sublist.refl _
  | cons file files ih =>
      rw [pagesOf, List.flatMap_cons, List.flatMap_cons, FileEntry.pages]
      exact (List.sublist_cons_self _ _).append ih

theorem Layout.accounted (layout : Layout geometry chip files) :
    PagesAccounted geometry chip := by
  refine ⟨files, layout.fileList, layout.chains, ?_, ?_⟩
  · intro zero
    exact absurd (layout.inRange 0 zero).1 (Nat.lt_irrefl 0)
  · intro page positive bound
    have used (notFree : ¬isFreeMagic (pageMagic (chip page)) = true) : page ∈ pagesOf files :=
      by_contra fun unused => notFree (layout.free page positive bound unused)
    refine ⟨?_, ?_, ?_⟩
    · intro magic
      obtain ⟨file, member, inFile⟩ := List.mem_flatMap.mp (used (by rw [magic]; decide))
      rcases List.mem_cons.mp inFile with isFile | inChain
      · rw [isFile]
        exact List.count_eq_one_of_mem (layout.nodup.sublist (sublist_pagesOf_page files))
          (List.mem_map_of_mem member)
      · rw [layout.dataMagic file member page inChain] at magic
        exact absurd magic (by decide)
    · intro magic
      obtain ⟨file, member, inFile⟩ := List.mem_flatMap.mp (used (by rw [magic]; decide))
      rcases List.mem_cons.mp inFile with isFile | inChain
      · rw [isFile, layout.fileMagic file member] at magic
        exact absurd magic (by decide)
      · exact List.count_eq_one_of_mem (layout.nodup.sublist (sublist_pagesOf_chain files))
          (List.mem_flatMap.mpr ⟨file, member, inChain⟩)
    · rintro rfl
      exact layout.free page positive bound List.not_mem_nil

/-- What is needed to put another chain in the place of the chain of a file. -/
structure Replaces (geometry : Geometry) (chip chip' : Chip) (used : List Nat)
    (file file' : FileEntry) : Prop where
  page_eq : file'.page = file.page
  others : ∀ page, page ∉ file.pages → page ∉ file'.pages → chip' page = chip page
  nextFile_eq : nextFile (chip' file.page) = nextFile (chip file.page)
  fileMagic : pageMagic (chip' file.page) = magicFile
  dataMagic : ∀ page ∈ file'.chain, pageMagic (chip' page) = magicData
  chain : Segment (fun page => nextPage (chip' page)) file'.page file'.pages 0
  nodup : file'.pages.Nodup
  fresh : ∀ page ∈ file'.chain, page ∈ file.chain ∨
    (page ∉ used ∧ 0 < page ∧ page < geometry.pageCount)
  released : ∀ page ∈ file.chain, page ∉ file'.chain →
    isFreeMagic (pageMagic (chip' page)) = true

/-- The pages of the other files are none of the pages of a file. -/
theorem Layout.disjoint (layout : Layout geometry chip (front ++ file :: back)) :
    file.pages.Nodup ∧ (∀ page ∈ pagesOf front ++ pagesOf back, page ∉ file.pages) ∧
      (pagesOf front ++ pagesOf back).Nodup := by
  have nodup := layout.nodup
  rw [pagesOf_split] at nodup
  have rotated : (file.pages ++ (pagesOf front ++ pagesOf back)).Nodup := by
    refine (List.Perm.nodup_iff ?_).mp nodup
    rw [← List.append_assoc, ← List.append_assoc]
    exact List.perm_append_comm.append_right _
  rw [List.nodup_append] at rotated
  refine ⟨rotated.1, ?_, rotated.2.1⟩
  intro page member inFile
  exact rotated.2.2 page inFile page member rfl

theorem mem_pagesOf_split :
    page ∈ pagesOf (front ++ file :: back) ↔
      page ∈ file.pages ∨ page ∈ pagesOf front ++ pagesOf back := by
  rw [pagesOf_split, List.mem_append, List.mem_append, List.mem_append]
  tauto

section Replacing

variable {file' : FileEntry} (layout : Layout geometry chip (front ++ file :: back))
  (replaces : Replaces geometry chip chip' (pagesOf (front ++ file :: back)) file file')

include replaces

theorem Replaces.pages_cases (member : page ∈ file'.pages) : page ∈ file.pages ∨
    (page ∉ pagesOf (front ++ file :: back) ∧ 0 < page ∧ page < geometry.pageCount) := by
  rcases List.mem_cons.mp member with isFile | inChain
  · rw [isFile, replaces.page_eq]
    exact Or.inl List.mem_cons_self
  · exact (replaces.fresh page inChain).imp_left (List.mem_cons_of_mem _)

include layout

/-- The pages of the other files are not in the new chain and stay as they are. -/
theorem Replaces.apart (member : page ∈ pagesOf front ++ pagesOf back) :
    page ∉ file'.pages ∧ chip' page = chip page := by
  have notOld := layout.disjoint.2.1 page member
  have notNew : page ∉ file'.pages := by
    intro inFile
    rcases replaces.pages_cases inFile with old | new
    · exact notOld old
    · exact new.1 (mem_pagesOf_split.mpr (Or.inr member))
  exact ⟨notNew, replaces.others page notOld notNew⟩

theorem Replaces.superblock : chip' 0 = chip 0 := by
  have notOld : 0 ∉ file.pages := fun member =>
    Nat.lt_irrefl 0 (layout.inRange 0 (mem_pagesOf_split.mpr (Or.inl member))).1
  refine replaces.others 0 notOld fun member => ?_
  rcases replaces.pages_cases member with old | new
  · exact notOld old
  · exact Nat.lt_irrefl 0 new.2.1

theorem Replaces.other_file {other : FileEntry} (member : other ∈ front ++ file' :: back) :
    other = file' ∨
      other ∈ front ++ file :: back ∧ ∀ page ∈ other.pages, chip' page = chip page := by
  rw [List.mem_append, List.mem_cons, or_left_comm, ← List.mem_append] at member
  refine member.imp_right fun isOther => ⟨mem_of_mem_others isOther, fun page inFile => ?_⟩
  exact (replaces.apart layout (page_mem_others isOther inFile)).2

theorem Replaces.nodup_pagesOf : (pagesOf (front ++ file' :: back)).Nodup := by
  rw [pagesOf_split]
  have rotated : (file'.pages ++ (pagesOf front ++ pagesOf back)).Nodup := by
    rw [List.nodup_append]
    refine ⟨replaces.nodup, layout.disjoint.2.2, ?_⟩
    rintro page inFile other member rfl
    exact (replaces.apart layout member).1 inFile
  refine (List.Perm.nodup_iff ?_).mp rotated
  rw [← List.append_assoc, ← List.append_assoc]
  exact List.perm_append_comm.append_right _

theorem Replaces.fileList : Segment (fun page => nextFile (chip' page)) 0
    (0 :: (front ++ file' :: back).map FileEntry.page) 0 := by
  have pagesEq : (front ++ file' :: back).map FileEntry.page =
      (front ++ file :: back).map FileEntry.page := by
    rw [List.map_append, List.map_append, List.map_cons, List.map_cons, replaces.page_eq]
  rw [pagesEq]
  refine layout.fileList.congr fun page member => ?_
  rcases List.mem_cons.mp member with isZero | member
  · rw [isZero, replaces.superblock layout]
  · obtain ⟨other, otherMember, rfl⟩ := List.mem_map.mp member
    rw [List.mem_append, List.mem_cons, or_left_comm, ← List.mem_append] at otherMember
    rcases otherMember with rfl | isOther
    · exact replaces.nextFile_eq
    · rw [(replaces.apart layout (page_mem_others isOther List.mem_cons_self)).2]

theorem Layout.replace : Layout geometry chip' (front ++ file' :: back) := by
  constructor
  · rw [replaces.superblock layout]
    exact layout.superblock
  · exact replaces.fileList layout
  · intro other member
    rcases replaces.other_file layout member with rfl | ⟨old, same⟩
    · exact replaces.chain
    · refine (layout.chains other old).congr fun page inFile => ?_
      rw [same page inFile]
  · exact replaces.nodup_pagesOf layout
  · intro page member
    rcases mem_pagesOf_split.mp member with inFile | inOthers
    · rcases replaces.pages_cases inFile with old | new
      · exact layout.inRange page (mem_pagesOf_split.mpr (Or.inl old))
      · exact new.2
    · exact layout.inRange page (mem_pagesOf_split.mpr (Or.inr inOthers))
  · intro other member
    rcases replaces.other_file layout member with rfl | ⟨old, same⟩
    · rw [replaces.page_eq]
      exact replaces.fileMagic
    · rw [same _ List.mem_cons_self]
      exact layout.fileMagic other old
  · intro other member page inChain
    rcases replaces.other_file layout member with rfl | ⟨old, same⟩
    · exact replaces.dataMagic page inChain
    · rw [same page (List.mem_cons_of_mem _ inChain)]
      exact layout.dataMagic other old page inChain
  · intro page positive bound unused
    rw [mem_pagesOf_split, not_or] at unused
    by_cases inFile : page ∈ file.pages
    · rcases List.mem_cons.mp inFile with isFile | inChain
      · rw [isFile, ← replaces.page_eq] at unused
        exact absurd List.mem_cons_self unused.1
      · exact replaces.released page inChain fun still =>
          unused.1 (List.mem_cons_of_mem _ still)
    · rw [replaces.others page inFile unused.1]
      apply layout.free page positive bound
      rw [mem_pagesOf_split, not_or]
      exact ⟨inFile, unused.2⟩

end Replacing

end Layout

end Ethersex.Sfs

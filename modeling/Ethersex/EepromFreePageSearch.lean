import Ethersex.EepromPageAccountingRuns

/-!
# The search for a free page on the EEPROM

`vfs_eeprom_find_free_page` goes round the chip from the suggested page on and
gives up when it is back there.  A suggestion behind the last page is never met
again: that page is read although the chip has no such page, and without a free
page the search goes round for ever.
-/

namespace Ethersex.Sfs

open ByteMemory GuardedRuns

/-- The pages whose magic byte the search asks for. -/
def pagesReadFrom (geometry : Geometry) (chip : Chip) (suggested : Nat) : Nat → Nat → List Nat
  | 0, _ => []
  | fuel + 1, page =>
      if isFreeMagic (pageMagic (readPage geometry chip page)) then
        [page]
      else if geometry.following page = suggested then
        [page]
      else
        page :: pagesReadFrom geometry chip suggested fuel (geometry.following page)

/-- A free page behind the superblock, or zero because there is none. -/
def FreePageFound (geometry : Geometry) (chip : Chip) (found : Nat) : Prop :=
  (0 < found ∧ found < geometry.pageCount ∧ isFreeMagic (pageMagic (chip found)) = true) ∨
    (found = 0 ∧ ∀ page, 0 < page → page < geometry.pageCount →
      isFreeMagic (pageMagic (chip page)) = false)

/-- The search ends, stays on the chip and finds a free page if there is one. -/
def SearchSound (geometry : Geometry) (chip : Chip) (suggested : Nat) : Prop :=
  ∃ fuel found, findFreeFrom geometry chip suggested fuel suggested = some found ∧
    (∀ page ∈ pagesReadFrom geometry chip suggested fuel suggested, page < geometry.pageCount) ∧
    FreePageFound geometry chip found

/-- The search at `page` will still look at the other page. -/
def StillAhead (suggested page other : Nat) : Prop :=
  if page < suggested then page ≤ other ∧ other < suggested else page ≤ other ∨ other < suggested

/-- The number of pages that the search at `page` will still look at. -/
def Geometry.pagesAhead (geometry : Geometry) (suggested page : Nat) : Nat :=
  if page < suggested then suggested - page else geometry.pageCount - page + suggested

section Search

variable {geometry : Geometry} {chip : Chip} {suggested page : Nat}

theorem Geometry.following_lt (geometry : Geometry) (page : Nat) :
    geometry.following page < geometry.pageCount := by
  have positive := geometry.pageCount_pos
  rw [Geometry.following]
  split <;> omega

theorem StillAhead.following {other : Nat} (ahead : StillAhead suggested page other)
    (inside : suggested < geometry.pageCount) (otherInside : other < geometry.pageCount)
    (different : other ≠ page) :
    geometry.following page ≠ suggested ∧
      StillAhead suggested (geometry.following page) other := by
  simp only [StillAhead, Geometry.following] at *
  split_ifs at * <;> omega

theorem Geometry.pagesAhead_following (inside : suggested < geometry.pageCount)
    (pageInside : page < geometry.pageCount) (goesOn : geometry.following page ≠ suggested) :
    geometry.pagesAhead suggested (geometry.following page) + 1 =
      geometry.pagesAhead suggested page := by
  simp only [Geometry.pagesAhead, Geometry.following] at *
  split_ifs at * <;> omega

/-- From a page of the chip on, the search ends within the pages ahead of it. -/
theorem findFreeFrom_ends (chip : Chip) (inside : suggested < geometry.pageCount) {fuel : Nat}
    (pageInside : page < geometry.pageCount)
    (enough : geometry.pagesAhead suggested page ≤ fuel) :
    ∃ found, findFreeFrom geometry chip suggested fuel page = some found ∧
      (∀ read ∈ pagesReadFrom geometry chip suggested fuel page, read < geometry.pageCount) ∧
      ((found < geometry.pageCount ∧ isFreeMagic (pageMagic (chip found)) = true) ∨
        (found = 0 ∧ ∀ other, other < geometry.pageCount → StillAhead suggested page other →
          isFreeMagic (pageMagic (chip other)) = false)) := by
  induction fuel generalizing page with
  | zero =>
      rw [Geometry.pagesAhead] at enough
      split at enough <;> omega
  | succ fuel ih =>
      rw [findFreeFrom, pagesReadFrom, readPage_of_lt pageInside]
      by_cases free : isFreeMagic (pageMagic (chip page)) = true
      · rw [if_pos free, if_pos free]
        refine ⟨page, rfl, ?_, Or.inl ⟨pageInside, free⟩⟩
        intro read member
        rw [List.mem_singleton.mp member]
        exact pageInside
      · rw [if_neg free, if_neg free]
        have occupied : isFreeMagic (pageMagic (chip page)) = false := by simpa using free
        by_cases around : geometry.following page = suggested
        · rw [if_pos around, if_pos around]
          refine ⟨0, rfl, ?_, Or.inr ⟨rfl, ?_⟩⟩
          · intro read member
            rw [List.mem_singleton.mp member]
            exact pageInside
          · intro other otherInside ahead
            by_cases same : other = page
            · rw [same]
              exact occupied
            · exact absurd around (ahead.following inside otherInside same).1
        · rw [if_neg around, if_neg around]
          have shorter := Geometry.pagesAhead_following inside pageInside around
          obtain ⟨found, search, reads, result⟩ := ih (geometry.following_lt page) (by omega)
          refine ⟨found, search, ?_, ?_⟩
          · intro read member
            rcases List.mem_cons.mp member with rfl | later
            · exact pageInside
            · exact reads read later
          rcases result with free | ⟨zero, full⟩
          · exact Or.inl free
          · refine Or.inr ⟨zero, ?_⟩
            intro other otherInside ahead
            by_cases same : other = page
            · rw [same]
              exact occupied
            · exact full other otherInside (ahead.following inside otherInside same).2

/-- The search is sound for the suggestions that are pages of the chip, and for no others. -/
theorem searchSound_iff (geometry : Geometry) (chip : Chip)
    (superblock : pageMagic (chip 0) = magicSuperblock) (suggested : Nat) :
    SearchSound geometry chip suggested ↔ suggested < geometry.pageCount := by
  constructor
  · rintro ⟨fuel, found, search, reads, _⟩
    cases fuel with
    | zero => cases search
    | succ fuel =>
        apply reads suggested
        rw [pagesReadFrom]
        split_ifs <;> exact List.mem_cons_self
  · intro inside
    obtain ⟨found, search, reads, result⟩ := findFreeFrom_ends chip inside inside (Nat.le_refl _)
    refine ⟨_, found, search, reads, ?_⟩
    rcases result with ⟨foundInside, free⟩ | ⟨zero, full⟩
    · refine Or.inl ⟨Nat.pos_of_ne_zero ?_, foundInside, free⟩
      rintro rfl
      rw [superblock] at free
      exact absurd free (by decide)
    · refine Or.inr ⟨zero, fun page _ pageInside => full page pageInside ?_⟩
      rw [StillAhead, if_neg (Nat.lt_irrefl _)]
      exact Nat.lt_or_ge page suggested |>.symm

/-- No page is free, and the search started behind the last page: it never ends. -/
theorem findFreeFrom_goesRound
    (full : ∀ page, isFreeMagic (pageMagic (readPage geometry chip page)) = false)
    (outside : geometry.pageCount ≤ suggested) (fuel page : Nat) :
    findFreeFrom geometry chip suggested fuel page = none := by
  induction fuel generalizing page with
  | zero => rfl
  | succ fuel ih =>
      have different : geometry.following page ≠ suggested := by
        have inside := geometry.following_lt page
        omega
      rw [findFreeFrom, full page, if_neg Bool.false_ne_true, if_neg different]
      exact ih _

end Search

theorem searchSound_erased :
    pageMagic (vfsEepromInit fourPages erasedChip 0) = magicSuperblock ∧
      (SearchSound fourPages (vfsEepromInit fourPages erasedChip) 3 ↔ 3 < 4) :=
  ⟨rfl, searchSound_iff fourPages (vfsEepromInit fourPages erasedChip) rfl 3⟩

def twoPages : Buffer := ⟨List.replicate 119 7, by decide⟩

/-- The file `"a"` takes all the pages, the last one at the end of the chip. -/
def fillingRun : List SfsStep := [.create [97] 0 true, .write 0 twoPages]

/-- Writing on suggests the page number behind the last page, and does not end. -/
theorem search_behind_last_page :
    ∃ last, run (sfsStep fourPages) (formattedState fourPages) fillingRun = some last ∧
      pageMagic (last.chip 0) = magicSuperblock ∧
      (scanPages fourPages last.chip 5 (nextPage (readPage fourPages last.chip 1)) 1 0 1 0).map
        (fun found => found.2.1 + 1) = some 4 ∧
      sfsStep fourPages last (.write 0 oneByte) = none ∧
      (∀ fuel, findFreeFrom fourPages last.chip 4 fuel 4 = none) ∧
      ¬SearchSound fourPages last.chip 4 := by
  have ended : (run (sfsStep fourPages) (formattedState fourPages) fillingRun).map
      (fun last => (readBlock (fun page => pageMagic (last.chip page)) 0 4,
        (scanPages fourPages last.chip 5 (nextPage (readPage fourPages last.chip 1)) 1 0 1 0).map
          (fun found => found.2.1 + 1),
        (sfsStep fourPages last (.write 0 oneByte)).isNone)) =
      some ([magicSuperblock, magicFile, magicData, magicData], some 4, true) := by
    decide +kernel
  obtain ⟨last, reached, view⟩ := Option.map_eq_some_iff.mp ended
  simp only [Prod.mk.injEq] at view
  obtain ⟨magics, suggestion, stuck⟩ := view
  simp only [readBlock_succ, List.cons.injEq, Nat.zero_add] at magics
  obtain ⟨first, second, third, fourth, _⟩ := magics
  have full : ∀ page, isFreeMagic (pageMagic (readPage fourPages last.chip page)) = false := by
    intro page
    have index : fourPages.pageIndex page = 0 ∨ fourPages.pageIndex page = 1 ∨
        fourPages.pageIndex page = 2 ∨ fourPages.pageIndex page = 3 := by
      have bound : fourPages.pageIndex page < 4 := Nat.mod_lt _ (by decide)
      omega
    rcases index with zero | one | two | three
    · rw [readPage, zero, first]
      rfl
    · rw [readPage, one, second]
      rfl
    · rw [readPage, two, third]
      rfl
    · rw [readPage, three, fourth]
      rfl
  have never := findFreeFrom_goesRound full (Nat.le_refl 4)
  refine ⟨last, reached, first, suggestion, Option.isNone_iff_eq_none.mp stuck,
    fun fuel => never fuel 4, ?_⟩
  rintro ⟨fuel, found, search, _⟩
  rw [never] at search
  cases search

end Ethersex.Sfs

import Ethersex.DataflashFormat

/-!
# `fs_init`

The state after mounting: everything reachable from the root is marked.  A flash
without a valid root is formatted first; a flash whose newest root is known is
mounted with that root.
-/

namespace Ethersex.Dataflash

open ByteMemory

theorem clearBitmap_eq (fs : Fs) :
    ∃ bitmap : Memory, clearBitmap fs = { fs with buf2 := bitmap } ∧
      ∀ index < 528, bitmap index = 0xff := by
  have cleared : ∀ count ≤ 528, ∃ bitmap : Memory,
      (List.range count).foldl (fun fs index => dfBufWrite fs .buf2 [0xff] index) fs =
        { fs with buf2 := bitmap } ∧ ∀ index < count, bitmap index = 0xff := by
    intro count
    induction count with
    | zero => exact fun _ => ⟨fs.buf2, rfl, fun index inside => by omega⟩
    | succ count ih =>
        intro bound
        obtain ⟨bitmap, result, filled⟩ := ih (by omega)
        refine ⟨Function.update bitmap count 0xff, ?_, ?_⟩
        · rw [List.range_succ, List.foldl_append, result, ← writeBlock_singleton,
            ← writePage_eq _ (by simp only [List.length_singleton]; omega)]
          rfl
        · intro index inside
          by_cases here : index = count
          · rw [here, Function.update_self]
          · rw [Function.update_of_ne here, filled index (by omega)]
  exact cleared 528 (Nat.le_refl _)

theorem fsUsed_of_filled {fs : Fs} (filled : ∀ index < 528, fs.buf2 index = 0xff) {page : Nat}
    (bound : page < 4096) : fsUsed fs page = false := by
  have bits : ∀ place : Fin 8, ((0xff : UInt8) &&& (1 <<< UInt8.ofNat place) == 0) = false := by
    decide
  rw [fsUsed, bitmapByte_eq bound, filled _ (by omega)]
  exact bits ⟨page % 8, by omega⟩

/-- The state `fs_init` scans from. -/
def beforeScan (fs : Fs) : Fs := { clearBitmap { fs with lastFree := 0 } with version := 0 }

/-- The state when all pages have been scanned. -/
def afterScan (fs : Fs) : Fs := (List.range 4096).foldl scanPage (beforeScan fs)

theorem scanned_afterScan (fs : Fs) : Scanned (beforeScan fs) (afterScan fs) 4096 :=
  scanned_foldl (clearBitmap { fs with lastFree := 0 }) (Nat.le_refl 4096)

theorem beforeScan_flash (fs : Fs) : (beforeScan fs).flash = fs.flash := by
  obtain ⟨bitmap, cleared, _⟩ := clearBitmap_eq { fs with lastFree := 0 }
  rw [beforeScan, cleared]

theorem beforeScan_handouts (fs : Fs) : (beforeScan fs).handouts = fs.handouts := by
  obtain ⟨bitmap, cleared, _⟩ := clearBitmap_eq { fs with lastFree := 0 }
  rw [beforeScan, cleared]

theorem beforeScan_lastFree (fs : Fs) : (beforeScan fs).lastFree = 0 := by
  obtain ⟨bitmap, cleared, _⟩ := clearBitmap_eq { fs with lastFree := 0 }
  rw [beforeScan, cleared]

theorem beforeScan_buf2 (fs : Fs) : ∀ index < 528, (beforeScan fs).buf2 index = 0xff := by
  obtain ⟨bitmap, cleared, filled⟩ := clearBitmap_eq { fs with lastFree := 0 }
  rw [beforeScan, cleared]
  exact filled

/-- The state in which `fs_init` starts to mark pages. -/
def beforeMark (fs : Fs) : Fs :=
  if 1 ≤ (afterScan fs).version then afterScan fs else (fsFormat (afterScan fs)).2

theorem fsInit_eq (fs : Fs) :
    fsInit fs = (markUsedPages (beforeMark fs)).map fun after => (.ok, after) := by
  have scan : fsScan (clearBitmap { fs with lastFree := 0 }) = (.ok, beforeMark fs) := by
    show (if 1 ≤ (afterScan fs).version then (Status.ok, afterScan fs)
      else fsFormat (afterScan fs)) = _
    rw [beforeMark]
    split
    · rfl
    · rfl
  rw [fsInit, scan]
  rfl

/-- The flash holds no root that `fs_scan` accepts. -/
def Unformatted (flash : Nat → Memory) : Prop :=
  ∀ page < 4096, IsRootPage (flash page) → pageVersion (flash page) = 0

theorem beforeMark_of_unformatted {fs : Fs} (blank : Unformatted fs.flash) :
    Formatted (afterScan fs) (beforeMark fs) := by
  have scanned := scanned_afterScan fs
  have unversioned : (afterScan fs).version = 0 := by
    by_contra positive
    obtain ⟨inside, valid, version, _⟩ := scanned.found (by omega)
    rw [beforeScan_flash] at valid version
    have missing := blank _ inside valid
    omega
  rw [beforeMark, if_neg (by omega)]
  exact (fsFormat_spec unversioned).2

/-- What mounting a flash without a root gives. -/
theorem newest_of_formatted {fs after : Fs} (blank : Unformatted fs.flash)
    (formatted : Formatted fs after) : Newest after := by
  have empty : ∀ page < 4096, IsRootPage (after.flash page) →
      page = 0 ∨ pageVersion (after.flash page) = 0 := by
    intro page bound valid
    rcases Nat.lt_or_ge 16 page with behind | inside
    · rw [formatted.flash page behind] at valid ⊢
      exact Or.inr (blank page bound valid)
    · rcases Nat.eq_zero_or_pos page with zero | positive
      · exact Or.inl zero
      · have header := formatted.tableHeader (page - 1) (by omega)
        rw [Nat.sub_add_cancel positive, valid.root] at header
        cases header
  refine ⟨?_, ?_, ?_, ?_, ?_, ?_⟩
  · rw [formatted.root]
    exact formatted.valid
  · rw [formatted.root, formatted.pageVersion, formatted.version]
  · rw [formatted.version]
  · intro page bound valid
    rw [formatted.version]
    rcases empty page bound valid with zero | unversioned
    · rw [zero, formatted.pageVersion]
    · omega
  · intro page before
    rw [formatted.root] at before
    omega
  · intro tableId inside
    rw [formatted.tables tableId inside]
    exact formatted.tableHeader tableId inside

theorem foldlM_markFile_unused {fs : Fs} {indices : List Nat}
    (unused : ∀ index ∈ indices, (fs.node index).unused = true) :
    indices.foldlM markFile fs = some fs := by
  induction indices with
  | nil => rfl
  | cons index indices ih =>
      have first : markFile fs index = some fs := by
        rw [markFile]
        simp only [unused index List.mem_cons_self, if_true]
      rw [List.foldlM_cons, first]
      exact ih fun other member => unused other (List.mem_cons_of_mem _ member)

/-- The state after `fs_init` has formatted the flash. -/
structure FreshlyFormatted (fs : Fs) : Prop where
  anchored : Anchored fs
  newest : Newest fs
  version : fs.version = 1
  root : fs.root = 0
  lastFree : fs.lastFree = 0
  nodes : ∀ index ≤ 60, (fs.node index).unused = true
  inodes : ∀ inode < 4096, inode % 256 < 255 → fsPage fs.toVolume inode = 0xffff
  used : ∀ page < 4096, fsUsed fs page = true ↔ page ≤ 16

theorem Newest.of_marked {before after : Fs} (newest : Newest before)
    (marked : Marked before after) : Newest after := by
  have volume := marked.volume
  have version := marked.version
  refine ⟨?_, ?_, ?_, ?_, ?_, ?_⟩
  · rw [volume]
    exact newest.valid
  · rw [volume, version]
    exact newest.version
  · rw [version]
    exact newest.positive
  · rw [volume, version]
    exact newest.newest
  · rw [volume, version]
    exact newest.first
  · rw [volume]
    exact newest.tables

theorem fsInit_of_unformatted {fs : Fs} (blank : Unformatted fs.flash) :
    ∃ after, fsInit fs = some (.ok, after) ∧ FreshlyFormatted after ∧
      after.handouts = fs.handouts ∧ ∀ page, 16 < page → after.flash page = fs.flash page := by
  have scanned := scanned_afterScan fs
  have formatted := beforeMark_of_unformatted blank
  have blank' : Unformatted (afterScan fs).flash := by
    rw [scanned.flash, beforeScan_flash]
    exact blank
  have newest := newest_of_formatted blank' formatted
  have tableBound : ∀ tableId < 16, fsInodetable (beforeMark fs).toVolume tableId < 4096 := by
    intro tableId inside
    rw [formatted.tables tableId inside]
    omega
  have rootBound : (beforeMark fs).root < 4096 := by
    rw [formatted.root]
    omega
  have filled : ∀ index < 528, (beforeMark fs).buf2 index = 0xff := by
    intro index inside
    rw [formatted.bitmap, scanned.bitmap]
    exact beforeScan_buf2 fs index inside
  obtain ⟨marked, used⟩ := markSystemPages_spec rootBound tableBound
  have marks : markUsedPages (beforeMark fs) = some (markSystemPages (beforeMark fs)) := by
    apply foldlM_markFile_unused
    intro index member
    rw [marked.volume]
    exact formatted.nodes index (by rw [List.mem_range] at member; omega)
  have mounted := markUsedPages_spec rootBound tableBound marks
  generalize markSystemPages (beforeMark fs) = after at marks mounted marked used
  refine ⟨after, ?_, ⟨mounted.anchored rootBound tableBound, newest.of_marked mounted.marked,
    ?_, ?_, ?_, ?_, ?_, ?_⟩, ?_, ?_⟩
  · rw [fsInit_eq, marks]
    rfl
  · rw [mounted.marked.version, formatted.version]
  · rw [mounted.marked.volume, formatted.root]
  · rw [mounted.marked.lastFree, formatted.lastFree, scanned.lastFree, beforeScan_lastFree]
  · intro index inside
    rw [mounted.marked.volume]
    exact formatted.nodes index inside
  · intro inode bound entry
    rw [mounted.marked.volume, fsPage, formatted.tables _ (by omega)]
    have unused := formatted.entries (inode / 256) (by omega) (inode % 256) entry
    rw [← Nat.mod_eq_of_lt (by omega : inode / 256 + 1 < 4096)] at unused
    exact if_pos unused
  · intro page bound
    rw [used page bound, formatted.root, fsUsed_of_filled filled bound]
    constructor
    · rintro ((root | impossible) | ⟨tableId, inside, same⟩)
      · omega
      · cases impossible
      · rw [formatted.tables tableId inside] at same
        omega
    · intro inside
      rcases Nat.eq_zero_or_pos page with zero | positive
      · exact Or.inl (Or.inl zero)
      · exact Or.inr ⟨page - 1, by omega, by rw [formatted.tables _ (by omega)]; omega⟩
  · rw [mounted.marked.handouts, formatted.handouts, scanned.handouts, beforeScan_handouts]
  · intro page behind
    rw [mounted.marked.volume, formatted.flash page behind, scanned.flash, beforeScan_flash]

/-- `fs_format` fills 509 bytes of the tables, so their last entries are left as buffer 1 had
them. -/
theorem fsInit_lastEntry {power after : Fs} (blank : Unformatted power.flash)
    (mounted : fsInit power = some (.ok, after)) {tableId : Nat} (inside : tableId < 16) :
    tableNode after.toVolume (fsInodetable after.toVolume tableId) 255 =
      pageEntry (afterScan power).buf1 255 := by
  have formatted := beforeMark_of_unformatted blank
  have tableBound : ∀ tableId < 16, fsInodetable (beforeMark power).toVolume tableId < 4096 := by
    intro tableId inside
    rw [formatted.tables tableId inside]
    omega
  have rootBound : (beforeMark power).root < 4096 := by
    rw [formatted.root]
    omega
  rw [fsInit_eq, Option.map_eq_some_iff] at mounted
  obtain ⟨_, marks, same⟩ := mounted
  rw [Prod.mk.injEq] at same
  obtain ⟨-, rfl⟩ := same
  rw [(markUsedPages_spec rootBound tableBound marks).marked.volume, formatted.tables _ inside,
    ← formatted.lastEntries tableId inside]
  show pageEntry ((beforeMark power).flash ((tableId + 1) % 4096)) 255 = _
  rw [Nat.mod_eq_of_lt (by omega)]

theorem fsInit_lastEntries {power after : Fs} (blank : Unformatted power.flash)
    (mounted : fsInit power = some (.ok, after))
    (marked : (pageEntry (afterScan power).buf1 255).unused = true) :
    ∀ inode < 4096, inode % 256 = 255 → fsPage after.toVolume inode = 0xffff := by
  intro inode bound last
  rw [fsPage, last, fsInit_lastEntry blank mounted (by omega)]
  exact if_pos marked

theorem foldl_scanPage_unused {fs : Fs} {pages : List Nat}
    (unused : ∀ page ∈ pages, (fs.header page).unused = true) :
    pages.foldl scanPage fs = fs := by
  induction pages with
  | nil => rfl
  | cons page pages ih =>
      have skipped : scanPage fs page = fs := by
        rw [scanPage, if_neg]
        rintro ⟨used, _⟩
        rw [unused page List.mem_cons_self] at used
        cases used
      rw [List.foldl_cons, skipped]
      exact ih fun other member => unused other (List.mem_cons_of_mem _ member)

/-- Marking the pages of a file comes to an end. -/
def MarkingEnds (volume : Volume) (inode : Nat) : Prop :=
  ∀ fs, ∃ after, markChain volume 4097 fs (fsPage volume inode) = some after

theorem IsFile.markingEnds {volume : Volume} {inode : Nat} {links : List (Nat × Nat)}
    (file : IsFile volume inode links) : MarkingEnds volume inode := by
  intro fs
  cases file with
  | unwritten missing =>
      rw [missing, markChain]
      exact ⟨fs, if_pos rfl⟩
  | chain file =>
      rw [file.entry]
      exact markChain_of_chain _ _ _ _ file.chain (Nat.lt_succ_of_le file.chain.length_le)

theorem exists_foldlM_markFile {volume : Volume} :
    ∀ (indices : List Nat) (fs : Fs), fs.toVolume = volume →
      (∀ index ∈ indices, (volume.node index).unused = false →
        MarkingEnds volume (volume.node index).inode) →
      ∃ after, indices.foldlM markFile fs = some after := by
  intro indices
  induction indices with
  | nil => exact fun fs _ _ => ⟨fs, rfl⟩
  | cons index indices ih =>
      intro fs same ends
      subst same
      obtain ⟨middle, first⟩ : ∃ middle, markFile fs index = some middle := by
        rw [markFile]
        cases unused : (fs.node index).unused with
        | true => exact ⟨fs, if_pos rfl⟩
        | false =>
            simp only [Bool.false_eq_true, if_false]
            exact ends index List.mem_cons_self unused fs
      have volume := (markFile_spec first).1.volume
      obtain ⟨after, rest⟩ := ih middle volume
        fun other member => ends other (List.mem_cons_of_mem _ member)
      refine ⟨after, ?_⟩
      rw [List.foldlM_cons, first]
      exact rest

/-- The scan finds the newest root. -/
theorem afterScan_of_newest {fs power : Fs} (newest : Newest fs) (rootBound : fs.root < 4096)
    (flash : power.flash = fs.flash) :
    (afterScan power).toVolume = fs.toVolume ∧ (afterScan power).version = fs.version := by
  have scanned := scanned_afterScan power
  have same : (beforeScan power).flash = fs.flash := by rw [beforeScan_flash, flash]
  have positive := newest.positive
  have highest := scanned.newest fs.root rootBound (by rw [same]; exact newest.valid)
  rw [same, newest.version] at highest
  obtain ⟨inside, valid, version, first⟩ := scanned.found (by omega)
  rw [same] at valid version first
  have bounded := newest.newest _ inside valid
  have sameVersion : (afterScan power).version = fs.version := by omega
  have sameRoot : (afterScan power).root = fs.root := by
    rcases Nat.lt_trichotomy (afterScan power).root fs.root with before | equal | behind
    · have lower := newest.first _ before valid
      omega
    · exact equal
    · have lower := first _ behind newest.valid
      rw [newest.version] at lower
      omega
  exact ⟨Volume.ext (scanned.flash.trans same) sameRoot, sameVersion⟩

/-- Mounting shows the volume of the newest root. -/
theorem fsInit_of_newest {fs power : Fs} (newest : Newest fs) (anchored : Anchored fs)
    (flash : power.flash = fs.flash)
    (ends : ∀ index < 60, (fs.node index).unused = false →
      MarkingEnds fs.toVolume (fs.node index).inode) :
    ∃ after, fsInit power = some (.ok, after) ∧ after.toVolume = fs.toVolume := by
  obtain ⟨volume, version⟩ := afterScan_of_newest newest anchored.root_lt flash
  have positive := newest.positive
  have start : beforeMark power = afterScan power := by
    rw [beforeMark, if_pos (by omega)]
  have rootBound : (afterScan power).root < 4096 := by
    rw [volume]
    exact anchored.root_lt
  have tableBound : ∀ tableId < 16, fsInodetable (afterScan power).toVolume tableId < 4096 := by
    rw [volume]
    exact anchored.table_lt
  obtain ⟨marked, _⟩ := markSystemPages_spec rootBound tableBound
  obtain ⟨after, marks⟩ := exists_foldlM_markFile (List.range 60)
    (markSystemPages (afterScan power)) (marked.volume.trans volume)
    fun index member => ends index (List.mem_range.1 member)
  have mounted := markUsedPages_spec rootBound tableBound marks
  refine ⟨after, ?_, mounted.marked.volume.trans volume⟩
  rw [fsInit_eq, start, markUsedPages, marks]
  rfl

end Ethersex.Dataflash

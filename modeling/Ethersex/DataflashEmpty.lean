import Ethersex.DataflashReclamation

/-!
# An empty file system

`fs_format` writes 509 ones into the sixteen inode tables, two bytes less than the last entry
needs.  What is left of that entry is what buffer 1 held before: the last page that carried
the flags of a root when the flash was scanned, or the content the buffer had at power-on.
-/

namespace Ethersex.Dataflash

open ByteMemory

/-- Buffer 1 when the first `count` pages have been scanned.  A page is loaded for its
checksum as soon as it carries the flags of a root. -/
def scannedBuffer (fs : Fs) : Nat → Memory
  | 0 => fs.buf1
  | count + 1 =>
      if (fs.header count).unused = false ∧ (fs.header count).root = true then fs.flash count
      else scannedBuffer fs count

theorem scanPage_cases (fs : Fs) {page : Nat} (bound : page < 4096) :
    (scanPage fs page).flash = fs.flash ∧
      (scanPage fs page).buf1 =
        if (fs.header page).unused = false ∧ (fs.header page).root = true then fs.flash page
        else fs.buf1 := by
  by_cases newer : IsRootPage (fs.flash page) ∧ fs.version < pageVersion (fs.flash page)
  · have header : fs.header page = pageHeader (fs.flash page) := by
      show pageHeader (fs.flash (page % 4096)) = _
      rw [Nat.mod_eq_of_lt bound]
    rw [scanPage_of_newer bound newer.1 newer.2, header, if_pos ⟨newer.1.used, newer.1.root⟩]
    exact ⟨rfl, rfl⟩
  · have older : IsRootPage (fs.flash page) → pageVersion (fs.flash page) ≤ fs.version :=
      fun valid => Nat.not_lt.1 fun higher => newer ⟨valid, higher⟩
    rw [scanPage_of_not_newer bound older]
    split
    · exact ⟨rfl, rfl⟩
    · exact ⟨rfl, rfl⟩

theorem foldl_scanPage (fs : Fs) {count : Nat} (bound : count ≤ 4096) :
    ((List.range count).foldl scanPage fs).flash = fs.flash ∧
      ((List.range count).foldl scanPage fs).buf1 = scannedBuffer fs count := by
  induction count with
  | zero => exact ⟨rfl, rfl⟩
  | succ count ih =>
      obtain ⟨flash, buffer⟩ := ih (by omega)
      have header : ((List.range count).foldl scanPage fs).header count = fs.header count :=
        header_congr (by rw [flash])
      obtain ⟨flash', buffer'⟩ :=
        scanPage_cases ((List.range count).foldl scanPage fs) (by omega : count < 4096)
      rw [header, flash, buffer] at buffer'
      rw [List.range_succ, List.foldl_append]
      exact ⟨flash'.trans flash, buffer'⟩

theorem scannedBuffer_congr {fs fs' : Fs} (flash : fs'.flash = fs.flash)
    (buffer : fs'.buf1 = fs.buf1) (count : Nat) :
    scannedBuffer fs' count = scannedBuffer fs count := by
  induction count with
  | zero => exact buffer
  | succ count ih =>
      have header : fs'.header count = fs.header count := header_congr (by rw [flash])
      rw [scannedBuffer, scannedBuffer, header, flash, ih]

theorem afterScan_buf1 (fs : Fs) : (afterScan fs).buf1 = scannedBuffer fs 4096 := by
  have buffer : (beforeScan fs).buf1 = fs.buf1 := by
    obtain ⟨bitmap, cleared, _⟩ := clearBitmap_eq { fs with lastFree := 0 }
    rw [beforeScan, cleared]
  rw [afterScan, (foldl_scanPage (beforeScan fs) (Nat.le_refl 4096)).2,
    scannedBuffer_congr (beforeScan_flash fs) buffer]

/-- `fs_new_inode` returns the inode when all lower ones have been taken. -/
def HandsOut (volume : Volume) (inode : Nat) : Prop :=
  ∀ later : Volume, (∀ lower < inode, fsPage later lower ≠ 0xffff) →
    fsPage later inode = fsPage volume inode → fsNewInode later = inode

/-- The directory lists no name and all inodes are unused. -/
structure EmptyVolume (volume : Volume) : Prop where
  directory : ∀ index < 60, (fsList volume index).1 = .eof
  inodes : ∀ tableId < 16, ∀ entry < 256,
    (tableNode volume (fsInodetable volume tableId) entry).unused = true
  handsOut : ∀ inode < 4096, HandsOut volume inode

theorem fsList_status {volume : Volume} {index : Nat} (inside : index ≤ 60) :
    (fsList volume index).1 = if (volume.node index).unused then .eof else .ok := by
  have place : (40 + index * 8) % 65536 = 40 + 8 * index := by omega
  simp only [fsList, place]
  rfl

theorem handsOut_of_unused {volume : Volume} {inode : Nat} (bound : inode < 4096)
    (unused : fsPage volume inode = 0xffff) : HandsOut volume inode := by
  intro later taken same
  obtain ⟨others, split⟩ := freeInodes_first bound (same.trans unused) taken
  exact fsNewInode_of_free split

theorem FreshlyFormatted.emptyVolume {fs : Fs} (fresh : FreshlyFormatted fs)
    (lastEntries : ∀ inode < 4096, inode % 256 = 255 → fsPage fs.toVolume inode = 0xffff) :
    EmptyVolume fs.toVolume := by
  have unused : ∀ inode < 4096, fsPage fs.toVolume inode = 0xffff := by
    intro inode bound
    by_cases last : inode % 256 = 255
    · exact lastEntries inode bound last
    · exact fresh.inodes inode bound (by omega)
  refine ⟨?_, ?_, fun inode bound => handsOut_of_unused bound (unused inode bound)⟩
  · intro index inside
    rw [fsList_status (by omega), fresh.nodes index (by omega)]
    rfl
  · intro tableId inside entry entryInside
    exact (fsPage_eq_none_iff entryInside).1 (unused _ (by omega))

/-- Mounting a flash without a root leaves an empty file system exactly when the lowest bit
of the last entry is set in what buffer 1 held. -/
theorem fsInit_empty_iff {power : Fs} (blank : Unformatted power.flash) :
    (∃ after, fsInit power = some (.ok, after) ∧ EmptyVolume after.toVolume) ↔
      (pageEntry (scannedBuffer power 4096) 255).unused = true := by
  obtain ⟨formatted, mounted, fresh, _⟩ := fsInit_of_unformatted blank
  constructor
  · rintro ⟨after, mounted', empty⟩
    have last := empty.inodes 0 (by omega) 255 (by omega)
    rwa [fsInit_lastEntry blank mounted' (by omega), afterScan_buf1] at last
  · intro marked
    rw [← afterScan_buf1] at marked
    exact ⟨formatted, mounted, fresh.emptyVolume (fsInit_lastEntries blank mounted marked)⟩

/-- All bits of the chip are set, those of its buffers as well. -/
theorem fsInit_empty_filledChip :
    ∃ after, fsInit filledChip = some (.ok, after) ∧ EmptyVolume after.toVolume := by
  refine (fsInit_empty_iff unformatted_filledChip).2 ?_
  rw [← afterScan_buf1]
  exact filledChip_lastEntries

/-- The buffers of a new chip hold zeros: inode 255 is taken from the beginning. -/
theorem fsInit_blankChip_not_empty :
    Unformatted blankChip.flash ∧
      ∃ after, fsInit blankChip = some (.ok, after) ∧ fsPage after.toVolume 255 = 0 ∧
        ¬EmptyVolume after.toVolume := by
  obtain ⟨after, mounted, _⟩ := fsInit_of_unformatted unformatted_blankChip
  have last := fsInit_lastEntry unformatted_blankChip mounted (by omega : 0 < 16)
  rw [afterScan_buf1_of_blank rfl] at last
  refine ⟨unformatted_blankChip, after, mounted, ?_, fun empty => ?_⟩
  · show fsPage after.toVolume (0 * 256 + 255) = 0
    rw [fsPage, (by omega : (0 * 256 + 255) / 256 = 0), (by omega : (0 * 256 + 255) % 256 = 255),
      last]
    decide
  · have unused := empty.inodes 0 (by omega) 255 (by omega)
    rw [last] at unused
    revert unused
    decide

end Ethersex.Dataflash

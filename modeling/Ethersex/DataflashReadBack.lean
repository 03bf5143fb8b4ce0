import Ethersex.DataflashOperations

/-!
# Reading back what was written

`fs_write` passes the same pointer to every page it fills.  The file reads back
as the caller wrote it exactly when the data repeats itself accordingly; this is
always so as long as the data stays in one page.
-/

namespace Ethersex.Dataflash

open ByteMemory

/-- When the call succeeds, the file has its old content with `buf` laid over it. -/
def ReadsBack (fs : Fs) (inode : Nat) (buf : List UInt8) (offset : Nat) : Prop :=
  ∀ content after, fileBytes fs.toVolume inode = some content → offset ≤ content.length →
    fsWrite fs inode buf offset = (.ok, after) →
    fsSize after.toVolume inode = some (max content.length (offset + buf.length)) ∧
      fileBytes after.toVolume inode = some (overlay content offset buf)

/-- Each byte of the data is the one `fs_write` puts in its place: the bytes
behind the first page repeat the beginning of the data, page by page. -/
def Repeats (buf : List UInt8) (offset : Nat) : Prop :=
  ∀ index < buf.length, buf.getD index 0 = buf.getD (roundIndex (residual offset) index) 0

instance (buf : List UInt8) (offset : Nat) : Decidable (Repeats buf offset) :=
  inferInstanceAs (Decidable (∀ index < buf.length, _))

theorem writtenBytes_eq_iff {buf : List UInt8} {offset : Nat} :
    writtenBytes buf (residual offset) buf.length = buf ↔ Repeats buf offset := by
  have whole := map_getD_range (Nat.le_refl buf.length)
  rw [List.take_length] at whole
  conv_lhs => rhs; rw [← whole]
  rw [writtenBytes, List.map_inj_left]
  exact ⟨fun same index inside => (same index (List.mem_range.2 inside)).symm,
    fun repeats index member => (repeats index (List.mem_range.1 member)).symm⟩

theorem length_overlay {content data : List UInt8} {offset : Nat}
    (inside : offset ≤ content.length) :
    (overlay content offset data).length = max content.length (offset + data.length) := by
  simp only [overlay, List.length_append, List.length_take, List.length_drop]
  omega

theorem overlay_inj {content data data' : List UInt8} {offset : Nat}
    (length : data.length = data'.length)
    (same : overlay content offset data = overlay content offset data') : data = data' := by
  rw [overlay, overlay, length] at same
  exact List.append_cancel_left (List.append_cancel_right same)

/-- A file on which a write finds everything it needs: the root, the tables and
the pages of the file are covered, and there are enough pages in front of the
allocator and enough unused inodes. -/
structure Writable (fs : Fs) (inode offset length : Nat) (links : List (Nat × Nat)) : Prop where
  anchored : Anchored fs
  inode_lt : inode < 4096
  file : IsFile fs.toVolume inode links
  covered : ∀ link ∈ links, Covered fs link.2
  room : 3 * writeRounds fs.toVolume inode offset length ≤ spare fs
  free : writeRounds fs.toVolume inode offset length ≤
    ((freeInodes fs.toVolume).filter fun other => other ≠ inode).length + 1

/-- What a file holds after a successful write. -/
theorem Writable.fsWrite_eq {fs : Fs} {inode offset : Nat} {buf : List UInt8}
    {links : List (Nat × Nat)} (writable : Writable fs inode offset buf.length links)
    (inside : offset ≤ (linkBytes fs.toVolume links).length) :
    ∃ after, fsWrite fs inode buf offset = (.ok, after) ∧
      fsSize after.toVolume inode =
        some (max (linkBytes fs.toVolume links).length (offset + buf.length)) ∧
      fileBytes after.toVolume inode = some (overlay (linkBytes fs.toVolume links) offset
        (writtenBytes buf (residual offset) buf.length)) ∧
      listing after.toVolume = listing fs.toVolume := by
  have room : 0 + 3 * writeRounds fs.toVolume inode offset buf.length ≤ spare fs := by
    have enough := writable.room
    omega
  rcases fsWrite_spec buf writable.anchored writable.inode_lt writable.file writable.covered room
      writable.free with
    ⟨_, behind⟩ | ⟨after, links', target, taken, result, written, _, content, _⟩
  · omega
  · refine ⟨after, result, ?_, ?_, listing_congr written.rewritten.node⟩
    · rw [written.file.fsSize_eq, content inside, length_overlay inside, length_writtenBytes]
    · rw [written.file.fileBytes_eq, content inside]

section Written

variable {fs : Fs} {inode offset : Nat} {buf : List UInt8} {links : List (Nat × Nat)}
  (writable : Writable fs inode offset buf.length links)
  (inside : offset ≤ (linkBytes fs.toVolume links).length)
include writable inside

theorem Writable.repeats (readsBack : ReadsBack fs inode buf offset) : Repeats buf offset := by
  obtain ⟨after, result, _, bytes, _⟩ := writable.fsWrite_eq inside
  have read := (readsBack _ after writable.file.fileBytes_eq inside result).2
  rw [bytes, Option.some.injEq] at read
  exact writtenBytes_eq_iff.1 (overlay_inj (length_writtenBytes _ _ _) read)

theorem Writable.readsBack (repeats : Repeats buf offset) : ReadsBack fs inode buf offset := by
  obtain ⟨after, result, size, bytes, _⟩ := writable.fsWrite_eq inside
  rw [writtenBytes_eq_iff.2 repeats] at bytes
  intro content after' contentEq _ result'
  rw [writable.file.fileBytes_eq, Option.some.injEq] at contentEq
  rw [result, Prod.mk.injEq] at result'
  rw [← result'.2, ← contentEq]
  exact ⟨size, bytes⟩

theorem readsBack_iff_repeats : ReadsBack fs inode buf offset ↔ Repeats buf offset :=
  ⟨writable.repeats inside, writable.readsBack inside⟩

end Written

/-- The first file on a formatted flash. -/
theorem FreshlyFormatted.first_file {formatted fs : Fs} (fresh : FreshlyFormatted formatted)
    {name : List UInt8}
    (changed : DirectoryChanged formatted fs
      (insertedNodes formatted.toVolume (createdNode formatted.toVolume name 0 0) 0 0))
    (lastFree : fs.lastFree = 17) :
    listing fs.toVolume = [(createdNode formatted.toVolume name 0 0).stored] ∧
      ∀ length ≤ 1024, Writable fs 0 0 length [] := by
  have missing : ∀ inode ≤ 1, fsPage fs.toVolume inode = 0xffff := by
    intro inode bound
    rw [changed.fsPage inode (by omega)]
    exact fresh.inodes inode (by omega) (by omega)
  have unwritten : IsFile fs.toVolume 0 [] := .unwritten (missing 0 (by omega))
  have enough : spare fs = 4078 := by
    rw [(OnlySystemMarked.kept fresh.used changed.kept).spare_eq, lastFree]
    rfl
  refine ⟨?_, ?_⟩
  · have empty : listing formatted.toVolume = [] := by
      rw [fresh.directory.listing_eq]
      rfl
    rw [changed.listing_inserted fresh.directory rfl (by omega) (by omega), empty]
    rfl
  · intro length bound
    have roundsEq : writeRounds fs.toVolume 0 0 length = rounds 0 length := by
      rw [writeRounds, if_pos (missing 0 (by omega)), if_pos rfl]
    have two : rounds 0 length ≤ 2 := by
      rw [rounds]
      omega
    refine ⟨changed.anchored, by omega, unwritten, by simp, by omega, ?_⟩
    have another : 1 ∈ (freeInodes fs.toVolume).filter fun other => other ≠ 0 := by
      rw [List.mem_filter, mem_freeInodes]
      exact ⟨⟨by omega, missing 1 (by omega)⟩, rfl⟩
    have positive := List.length_pos_of_mem another
    omega

/-- A file that was just created on a new chip. -/
theorem exists_first_file (name : List UInt8) :
    ∃ formatted fs, fsInit blankChip = some (.ok, formatted) ∧
      fsCreate formatted name = some (.ok, fs) ∧ listedInodes fs.toVolume = [0] ∧
      fileBytes fs.toVolume 0 = some [] ∧
      ∀ length ≤ 1024, Writable fs 0 0 length [] := by
  obtain ⟨formatted, mounted, fresh, _⟩ := fsInit_of_unformatted unformatted_blankChip
  obtain ⟨fs, created, changed, lastFree⟩ := fresh.fsCreate_eq name
  obtain ⟨listed, writable⟩ := fresh.first_file changed lastFree
  refine ⟨formatted, fs, mounted, created, ?_, (writable 0 (by omega)).file.fileBytes_eq, writable⟩
  rw [listedInodes, listed]
  rfl

/-- One byte is read back from a file that was just created. -/
theorem readsBack_first_byte :
    ∃ formatted fs, fsInit blankChip = some (.ok, formatted) ∧
      fsCreate formatted [97] = some (.ok, fs) ∧ ReadsBack fs 0 [7] 0 := by
  obtain ⟨formatted, fs, mounted, created, _, _, writable⟩ := exists_first_file [97]
  exact ⟨formatted, fs, mounted, created,
    (readsBack_iff_repeats (writable 1 (by omega)) (Nat.zero_le _)).2 (by decide)⟩

/-- Behind the first page of a new file comes the beginning of the data again. -/
theorem not_readsBack_second_page :
    ∃ formatted fs, fsInit blankChip = some (.ok, formatted) ∧
      fsCreate formatted [97] = some (.ok, fs) ∧ listedInodes fs.toVolume = [0] ∧
      fileBytes fs.toVolume 0 = some [] ∧
      ¬ReadsBack fs 0 (List.replicate 512 0 ++ [1]) 0 := by
  obtain ⟨formatted, fs, mounted, created, listed, empty, writable⟩ := exists_first_file [97]
  refine ⟨formatted, fs, mounted, created, listed, empty, ?_⟩
  have length : (List.replicate 512 (0 : UInt8) ++ [1]).length = 513 := by
    rw [List.length_append, List.length_replicate]
    rfl
  intro readsBack
  have fits : Writable fs 0 0 (List.replicate 512 (0 : UInt8) ++ [1]).length [] := by
    rw [length]
    exact writable 513 (by omega)
  have last := fits.repeats (Nat.zero_le _) readsBack 512 (by omega)
  have place : roundIndex (residual 0) 512 = 0 := rfl
  rw [List.getD_append_right _ _ _ _ (by rw [List.length_replicate]), place,
    List.getD_append _ _ _ _ (by rw [List.length_replicate]; omega), List.length_replicate] at last
  cases last

end Ethersex.Dataflash

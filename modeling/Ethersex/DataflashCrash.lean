import Ethersex.DataflashIsolation

/-!
# Losing power during a call

A call programs some pages one after the other.  When the power fails in
between, the flash holds a prefix of them and `fs_init` mounts the newest valid
root on it.  `fs_create` and `fs_remove` program the new root last, but
`fs_write` and `fs_truncate` commit the inode table before the data page it
points to is written.
-/

namespace Ethersex.Dataflash

open ByteMemory

/-- What a user of the file system can see: the names with their sizes and bytes. -/
def shown (volume : Volume) : List (FileName × Option Nat × Option (List UInt8)) :=
  (listing volume).map fun node =>
    (node.name, fsSize volume node.inode, fileBytes volume node.inode)

/-- The flash after the first `count` pages have been programmed. -/
def programmed (flash : Nat → Memory) (programs : List (Nat × Memory)) (count : Nat) :
    Nat → Memory :=
  (programs.take count).foldl (fun flash program => Function.update flash program.1 program.2) flash

/-- Whenever the power fails during the call, mounting the flash shows the state
before the call or the state after it. -/
def CrashAtomic (fs : Fs) (operation : Operation) : Prop :=
  ∀ status after programs, execute fs operation = some (status, after) →
    after.programs = fs.programs ++ programs →
    ∀ count power, power.flash = programmed fs.flash programs count →
      ∃ mounted, fsInit power = some (.ok, mounted) ∧
        (shown mounted.toVolume = shown fs.toVolume ∨
          shown mounted.toVolume = shown after.toVolume)

theorem shown_congr {volume volume' : Volume} (listed : listing volume' = listing volume)
    (files : ∀ inode ∈ listedInodes volume, SameFile volume volume' inode) :
    shown volume' = shown volume := by
  rw [shown, listed]
  apply List.map_congr_left
  intro node member
  have same := files node.inode (List.mem_map_of_mem member)
  rw [same.size, same.bytes]

section Mount

variable {fs power : Fs} {chain : Nat → List (Nat × Nat)}

theorem Isolated.markingEnds (isolated : Isolated fs chain) {index : Nat} (bound : index < 60)
    (used : (fs.node index).unused = false) :
    MarkingEnds fs.toVolume (fs.node index).inode := by
  have member := isolated.directory.mem_listing_of_used bound used
  exact (isolated.files _ (List.mem_map_of_mem member)).file.markingEnds

/-- A flash with the pages of `fs` shows the volume of `fs` when it is mounted. -/
theorem Isolated.mount (isolated : Isolated fs chain) (newest : Newest fs)
    (flash : power.flash = fs.flash) :
    ∃ mounted, fsInit power = some (.ok, mounted) ∧ shown mounted.toVolume = shown fs.toVolume := by
  obtain ⟨mounted, result, volume⟩ :=
    fsInit_of_newest newest isolated.anchored flash fun _ bound used =>
      isolated.markingEnds bound used
  exact ⟨mounted, result, by rw [volume]⟩

end Mount

section Overwrite

variable {fs : Fs} {page : Nat} {content : Memory}

/-- The state with one more page programmed. -/
def overwritten (fs : Fs) (page : Nat) (content : Memory) : Fs :=
  { fs with flash := Function.update fs.flash page content }

theorem overwritten_flash_covered (fresh : ¬Covered fs page) {other : Nat}
    (covered : Covered fs other) : (overwritten fs page content).flash other = fs.flash other := by
  have different : other ≠ page := fun same => fresh (same ▸ covered)
  exact Function.update_of_ne different _ _

theorem kept_overwritten (fresh : ¬Covered fs page) : Kept fs (overwritten fs page content) where
  bitmap := rfl
  lastFree := Nat.le_refl _
  flash := fun _ _ covered => overwritten_flash_covered fresh covered

theorem rootPage_overwritten (anchored : Anchored fs) (fresh : ¬Covered fs page) :
    (overwritten fs page content).flash ((overwritten fs page content).root % 4096) =
      fs.flash (fs.root % 4096) := by
  show (overwritten fs page content).flash (fs.root % 4096) = _
  rw [Nat.mod_eq_of_lt anchored.root_lt, overwritten_flash_covered fresh anchored.rootCovered]

theorem node_overwritten (anchored : Anchored fs) (fresh : ¬Covered fs page) (index : Nat) :
    (overwritten fs page content).node index = fs.node index := by
  show pageNode ((overwritten fs page content).flash
    ((overwritten fs page content).root % 4096)) index = _
  rw [rootPage_overwritten anchored fresh]
  rfl

theorem fsInodetable_overwritten (anchored : Anchored fs) (fresh : ¬Covered fs page)
    (tableId : Nat) :
    fsInodetable (overwritten fs page content).toVolume tableId =
      fsInodetable fs.toVolume tableId := by
  show tablePointer ((overwritten fs page content).flash
    ((overwritten fs page content).root % 4096)) tableId = _
  rw [rootPage_overwritten anchored fresh]
  rfl

theorem anchored_overwritten (anchored : Anchored fs) (fresh : ¬Covered fs page) :
    Anchored (overwritten fs page content) := by
  have kept : Kept fs (overwritten fs page content) := kept_overwritten fresh
  refine ⟨anchored.root_lt, kept.covered anchored.rootCovered, ?_, ?_⟩
  · intro tableId inside
    rw [fsInodetable_overwritten anchored fresh]
    exact anchored.table_lt tableId inside
  · intro tableId inside
    rw [fsInodetable_overwritten anchored fresh]
    exact kept.covered (anchored.tableCovered tableId inside)

theorem fsPage_overwritten (anchored : Anchored fs) (fresh : ¬Covered fs page) {inode : Nat}
    (bound : inode < 4096) :
    fsPage (overwritten fs page content).toVolume inode = fsPage fs.toVolume inode := by
  have table : inode / 256 < 16 := by omega
  apply fsPage_eq_of_tables
  rw [fsInodetable_overwritten anchored fresh, Nat.mod_eq_of_lt (anchored.table_lt _ table),
    overwritten_flash_covered fresh (anchored.tableCovered _ table)]

theorem newest_overwritten (anchored : Anchored fs) (fresh : ¬Covered fs page)
    (newest : Newest fs) (notRoot : (pageHeader content).root = false) :
    Newest (overwritten fs page content) := by
  have others : ∀ other, other ≠ page →
      (overwritten fs page content).flash other = fs.flash other :=
    fun other different => Function.update_of_ne different _ _
  refine newest.overwrite rfl rfl others ?_ ?_
    (fun tableId _ => fsInodetable_overwritten anchored fresh tableId) ?_
  · show (pageHeader (Function.update fs.flash page content page)).root = false
    rw [Function.update_self]
    exact notRoot
  · exact fun same => fresh (same ▸ anchored.rootCovered)
  · exact fun tableId inside same => fresh (same ▸ anchored.tableCovered tableId inside)

theorem Isolated.overwrite {chain : Nat → List (Nat × Nat)} (isolated : Isolated fs chain)
    (fresh : ¬Covered fs page) :
    Isolated (overwritten fs page content) chain ∧
      shown (overwritten fs page content).toVolume = shown fs.toVolume := by
  have listingEq : listing (overwritten fs page content).toVolume =
      listing fs.toVolume :=
    listing_congr fun index _ => node_overwritten isolated.anchored fresh index
  have listedEq : listedInodes (overwritten fs page content).toVolume =
      listedInodes fs.toVolume := by
    rw [listedInodes, listingEq, listedInodes]
  have kept {other : Nat} (listed : other ∈ listedInodes fs.toVolume) :
      CoveredFile (overwritten fs page content) other (chain other) ∧ _ :=
    (isolated.files other listed).kept (kept_overwritten fresh) fun entry member =>
      fsPage_overwritten isolated.anchored fresh ((isolated.files other listed).entry_lt
        (listedInodes_lt listed) entry member)
  refine ⟨⟨anchored_overwritten isolated.anchored fresh, ?_, ?_, ?_, ?_⟩,
    shown_congr listingEq fun other listed => (kept listed).2⟩
  · rw [listingEq]
    exact isolated.directory.congr fun index _ => by
      rw [node_overwritten isolated.anchored fresh]
  · rw [listedEq]
    exact isolated.nodup
  · rw [listedEq]
    exact fun other listed => (kept listed).1
  · rw [listedEq]
    exact isolated.apart

end Overwrite

/-- The call programs no data page. -/
def Operation.ProgramsNoData (volume : Volume) : Operation → Prop
  | .create _ => True
  | .write inode buf offset => writeRounds volume inode offset buf.length = 0
  | .truncate inode length => truncateRounds volume inode length = 0
  | .remove _ => True

/-- The call keeps files apart, and the version number does not overflow. -/
def KeepsNewest (fs : Fs) (operation : Operation) : Prop :=
  KeepsApart fs operation ∧ fs.version + commits fs.toVolume operation < 4294967296

section Atomic

variable {fs after : Fs} {chain : Nat → List (Nat × Nat)} {operation : Operation}

theorem Effect.newest (effect : Effect fs operation after) (newest : Newest fs)
    (bound : fs.version + commits fs.toVolume operation < 4294967296) : Newest after := by
  cases effect with
  | unchanged => exact newest
  | written rewrites own written unlisted count =>
      exact (written.rewritten.newest newest (by omega)).1
  | created place room free unlisted changed => exact (changed.newest newest bound).1
  | removed place matched changed freed =>
      have twice : fs.version + 2 < 4294967296 := bound
      obtain ⟨middleNewest, version⟩ := changed.newest newest (by omega)
      exact (freed.newest middleNewest (by omega)).1

/-- `fs_create` programs one page, the new root. -/
theorem Isolated.crash_created (isolated : Isolated fs chain) (newest : Newest fs)
    (newestAfter : Newest after) {nodes : Nat → DirectoryNode}
    (changed : DirectoryChanged fs after nodes) {chain' : Nat → List (Nat × Nat)}
    (isolatedAfter : Isolated after chain') {programs : List (Nat × Memory)}
    (recorded : after.programs = fs.programs ++ programs) (count : Nat) (power : Fs)
    (flash : power.flash = programmed fs.flash programs count) :
    ∃ mounted, fsInit power = some (.ok, mounted) ∧
      (shown mounted.toVolume = shown fs.toVolume ∨
        shown mounted.toVolume = shown after.toVolume) := by
  rw [changed.programs, List.append_cancel_left_eq] at recorded
  subst recorded
  cases count with
  | zero =>
      obtain ⟨mounted, result, same⟩ := isolated.mount newest flash
      exact ⟨mounted, result, Or.inl same⟩
  | succ count =>
      rw [programmed, List.take_of_length_le (by simp)] at flash
      obtain ⟨mounted, result, same⟩ :=
        isolatedAfter.mount newestAfter (flash.trans changed.flash.symm)
      exact ⟨mounted, result, Or.inr same⟩

/-- `fs_remove` programs the root without the file, the table without the inode
and the root with this table; the file is gone with the first of them. -/
theorem Isolated.crash_removed (isolated : Isolated fs chain) (newest : Newest fs)
    (newestAfter : Newest after) {middle : Fs} {index : Nat}
    (place : index < (listing fs.toVolume).length)
    (changed : DirectoryChanged fs middle
      (removedNodes fs.toVolume index (listing fs.toVolume).length))
    (freed : TableUpdated middle after (fs.node index).inode 0xffff) (newestMiddle : Newest middle)
    {programs : List (Nat × Memory)} (recorded : after.programs = fs.programs ++ programs)
    (count : Nat) (power : Fs) (flash : power.flash = programmed fs.flash programs count) :
    ∃ mounted, fsInit power = some (.ok, mounted) ∧
      (shown mounted.toVolume = shown fs.toVolume ∨
        shown mounted.toVolume = shown after.toVolume) := by
  obtain ⟨isolatedMiddle, _, first⟩ := isolated.unlisted place changed
  obtain ⟨isolatedAfter, listed, second⟩ :=
    isolatedMiddle.freed (fun other listed => (first other listed).2) freed
  have shownEq : shown after.toVolume = shown middle.toVolume := shown_congr listed second
  obtain ⟨table, content, written⟩ := freed.programmed
  rw [written.programs, changed.programs, List.append_assoc, List.append_cancel_left_eq]
    at recorded
  subst recorded
  match count with
  | 0 =>
      obtain ⟨mounted, result, same⟩ := isolated.mount newest flash
      exact ⟨mounted, result, Or.inl same⟩
  | 1 =>
      obtain ⟨mounted, result, same⟩ :=
        isolatedMiddle.mount newestMiddle (flash.trans changed.flash.symm)
      exact ⟨mounted, result, Or.inr (same.trans shownEq.symm)⟩
  | 2 =>
      obtain ⟨isolatedTable, shownTable⟩ :
          Isolated (overwritten middle table content) chain ∧ _ :=
        isolatedMiddle.overwrite written.fresh
      have newestTable : Newest (overwritten middle table content) :=
        newest_overwritten isolatedMiddle.anchored written.fresh newestMiddle
          (written.notRoot newestMiddle)
      have same : power.flash = (overwritten middle table content).flash := by
        rw [flash, overwritten, changed.flash, Function.update_self]
        rfl
      obtain ⟨mounted, result, same'⟩ := isolatedTable.mount newestTable same
      exact ⟨mounted, result, Or.inr ((same'.trans shownTable).trans shownEq.symm)⟩
  | count + 3 =>
      have same : power.flash = after.flash := by
        rw [flash, programmed, List.take_of_length_le (by simp), written.flash, changed.flash,
          Function.update_self, Function.update_self]
        rfl
      obtain ⟨mounted, result, same'⟩ := isolatedAfter.mount newestAfter same
      exact ⟨mounted, result, Or.inr same'⟩

theorem Isolated.crashAtomic (isolated : Isolated fs chain) (newest : Newest fs)
    (keeps : KeepsNewest fs operation) (noData : operation.ProgramsNoData fs.toVolume) :
    CrashAtomic fs operation := by
  obtain ⟨status, after, result, effect⟩ := isolated.effect keeps.1
  have newestAfter := effect.newest newest keeps.2
  intro status' after' programs result'
  rw [result, Option.some.injEq, Prod.mk.injEq] at result'
  obtain ⟨-, rfl⟩ := result'
  intro recorded count power flash
  cases effect with
  | unchanged =>
      rw [List.self_eq_append_right] at recorded
      rw [recorded, programmed, List.take_nil] at flash
      obtain ⟨mounted, mount, same⟩ := isolated.mount newest flash
      exact ⟨mounted, mount, Or.inl same⟩
  | written rewrites own written unlisted count =>
      cases operation with
      | create => cases rewrites
      | remove => cases rewrites
      | write => exact absurd (count.trans noData) (by omega)
      | truncate => exact absurd (count.trans noData) (by omega)
  | created place room free unlisted changed =>
      obtain ⟨isolatedAfter, _⟩ := isolated.created place room free unlisted changed
      exact isolated.crash_created newest newestAfter changed isolatedAfter recorded count power
        flash
  | removed place matched changed freed =>
      have twice : fs.version + 2 < 4294967296 := keeps.2
      exact isolated.crash_removed newest newestAfter place changed freed
        (changed.newest newest (by omega)).1 recorded count power flash

end Atomic

/-- In every state reached from a formatted flash by calls that keep files apart,
a call that programs no data page is atomic. -/
theorem crashAtomic_of_guarded_run {power formatted : Fs} {operations : List Operation}
    (blank : Unformatted power.flash) (mounted : fsInit power = some (.ok, formatted))
    (guarded : GuardedRuns.Guarded step KeepsNewest formatted operations) :
    ∃ last, GuardedRuns.run step formatted operations = some last ∧
      ∀ operation, KeepsNewest last operation → operation.ProgramsNoData last.toVolume →
        CrashAtomic last operation := by
  obtain ⟨after, mounted', fresh, _, _⟩ := fsInit_of_unformatted blank
  obtain rfl : after = formatted := by
    rw [mounted', Option.some.injEq, Prod.mk.injEq] at mounted
    exact mounted.2
  have progress : ∀ state operation, ((∃ chain, Isolated state chain) ∧ Newest state) →
      KeepsNewest state operation →
      ∃ next, step state operation = some next ∧ (∃ chain, Isolated next chain) ∧ Newest next := by
    rintro state operation ⟨⟨chain, isolated⟩, newest⟩ keeps
    obtain ⟨status, next, result, effect⟩ := isolated.effect keeps.1
    obtain ⟨chain', isolated', _⟩ := isolated.preserved effect
    exact ⟨next, step_of_execute result, ⟨chain', isolated'⟩, effect.newest newest keeps.2⟩
  obtain ⟨last, reached, ⟨chain, isolated⟩, newest⟩ :=
    guarded.exists_run progress ⟨⟨_, fresh.isolated⟩, fresh.newest⟩
  exact ⟨last, reached, fun operation keeps noData => isolated.crashAtomic newest keeps noData⟩

/-- Creating the first file on a new chip is atomic. -/
theorem crashAtomic_first_create :
    ∃ formatted, fsInit blankChip = some (.ok, formatted) ∧
      CrashAtomic formatted (.create [97]) := by
  obtain ⟨formatted, mounted, fresh, _, _⟩ := fsInit_of_unformatted unformatted_blankChip
  have keeps : KeepsNewest formatted (.create [97]) := by
    refine ⟨fresh.keepsApart_create [97], ?_⟩
    rw [fresh.version, commits]
    omega
  have guarded : GuardedRuns.Guarded step KeepsNewest formatted [] := trivial
  obtain ⟨last, reached, atomic⟩ :=
    crashAtomic_of_guarded_run unformatted_blankChip mounted guarded
  rw [GuardedRuns.run, Option.some.injEq] at reached
  subst reached
  exact ⟨formatted, mounted, atomic _ keeps trivial⟩

/-- A new page has the end mark and the size `0xffff`. -/
theorem header_blank {volume : Volume} {page : Nat} (bound : page < 4096)
    (blank : volume.flash page = fun _ => 0xff) :
    (volume.header page).eof = true ∧ (volume.header page).size = 65535 := by
  have header : volume.header page = pageHeader fun _ => 0xff := by
    show pageHeader (volume.flash (page % 4096)) = _
    rw [Nat.mod_eq_of_lt bound, blank]
  rw [header]
  decide

/-- The first byte of the first file is written by three page programs: the inode
table, the root and the data page. -/
theorem write_first_byte_programs {fs : Fs} (writable : Writable fs 0 0 1 []) :
    ∃ committed after page table content data,
      fsWrite fs 0 [7] 0 = (.ok, after) ∧
      Claimed (fs.uninitialised 4).2 committed 0 page ∧
      TableProgrammed (handOut (fs.uninitialised 4).2 page) committed table content ∧
      after.programs = committed.programs ++ [(page % 4096, data)] := by
  have missing : fsPage fs.toVolume 0 = 0xffff := by
    cases writable.file with
    | unwritten missing => exact missing
  have enough : 0 + 3 ≤ spare (fs.uninitialised 4).2 := by
    have room := writable.room
    rw [writeRounds, if_pos missing, if_pos rfl, rounds_last (by omega)] at room
    exact room
  obtain ⟨page, committed, claim, claimed, _⟩ :=
    claimPage_spec (writable.anchored.uninitialised 4) enough (by omega : 0 < 4096)
  obtain ⟨table, content, written⟩ := claimed.table.programmed
  have result : ∃ header, fsWrite fs 0 [7] 0 =
      (.ok, savePage committed header [7] 0 page) := by
    refine ⟨{ PageHeader.decode (fs.uninitialised 4).1 with
      unused := false, eof := true, size := 1, root := false }, ?_⟩
    simp only [fsWrite, missing, ne_eq, not_true_eq_false, if_false]
    rw [writeFresh]
    simp only [claim]
    rfl
  obtain ⟨header, result⟩ := result
  exact ⟨committed, _, page, table, content, _, result, claimed, written, rfl⟩

section FirstByte

variable {formatted fs committed : Fs} {page table : Nat} {content : Memory}
  (fresh : FreshlyFormatted formatted)
  (blank : ∀ page, 16 < page → formatted.flash page = blankChip.flash page)
  (changed : DirectoryChanged formatted fs
    (insertedNodes formatted.toVolume (createdNode formatted.toVolume [97] 0 0) 0 0))
  (lastFree : fs.lastFree = 17)
  (claimed : Claimed (fs.uninitialised 4).2 committed 0 page)

include fresh changed claimed in
theorem newest_committed : Newest committed := by
  have fsNewest := changed.newest fresh.newest (by rw [fresh.version]; omega)
  refine (claimed.table.newest ?_ ?_).1
  · exact ⟨fsNewest.1.valid, fsNewest.1.version, fsNewest.1.positive, fsNewest.1.newest,
      fsNewest.1.first, fsNewest.1.tables⟩
  · show fs.version + 1 < 4294967296
    rw [fsNewest.2, fresh.version]
    omega

include blank changed lastFree in
/-- The page that the table points to has not been programmed yet. -/
theorem Claimed.page_blank (claimed : Claimed (fs.uninitialised 4).2 committed 0 page)
    (written : TableProgrammed (handOut (fs.uninitialised 4).2 page) committed table content) :
    committed.flash page = fun _ => 0xff := by
  have behind : 17 < page := by
    have above : ¬page ≤ fs.lastFree := fun passed => claimed.fresh (Or.inr passed)
    omega
  have table_ne : page ≠ table := fun same =>
    written.fresh (Or.inr (Nat.le_of_eq same.symm))
  rw [written.flash, Function.update_of_ne claimed.root_ne.symm, Function.update_of_ne table_ne]
  show fs.flash page = _
  rw [changed.flash, Function.update_of_ne (by rw [changed.root, lastFree]; omega),
    blank page (by omega)]
  rfl

include claimed in
theorem fsSize_committed (untouched : committed.flash page = fun _ => 0xff) :
    fsSize committed.toVolume 0 = some 65535 ∧ MarkingEnds committed.toVolume 0 := by
  have entry : fsPage committed.toVolume 0 = page := by
    rw [claimed.table.fsPage 0 (by omega), if_pos rfl]
  obtain ⟨eof, size⟩ := header_blank claimed.page_lt untouched
  have used : page ≠ 0xffff := by
    have bound := claimed.page_lt
    omega
  constructor
  · rw [fsSize, sizeFrom]
    simp only [entry, eof, size, if_true, Nat.zero_add]
    exact if_neg used
  · intro chip
    rw [markChain, entry, if_neg used]
    simp only [eof, if_true]
    exact ⟨_, rfl⟩

end FirstByte

/-- The sizes shown when the only file has inode 0. -/
theorem map_size_shown {volume : Volume} {node : DirectoryNode} (listed : listing volume = [node])
    (inode : node.inode = 0) :
    (shown volume).map (fun entry => entry.2.1) = [fsSize volume 0] := by
  rw [shown, listed, List.map_singleton, List.map_singleton, inode]

/-- When the power fails before the data page is written, the file shows a page
that was never programmed. -/
theorem write_first_byte_not_atomic :
    ∃ formatted fs, fsInit blankChip = some (.ok, formatted) ∧
      fsCreate formatted [97] = some (.ok, fs) ∧ ¬CrashAtomic fs (.write 0 [7] 0) := by
  obtain ⟨formatted, mounted, fresh, _, blank⟩ := fsInit_of_unformatted unformatted_blankChip
  obtain ⟨fs, created, changed, lastFree⟩ := fresh.fsCreate_eq [97]
  obtain ⟨listed, writable⟩ := fresh.first_file changed lastFree
  refine ⟨formatted, fs, mounted, created, ?_⟩
  obtain ⟨committed, after, page, table, content, data, result, claimed, written, recorded⟩ :=
    write_first_byte_programs (writable 1 (by omega))
  obtain ⟨size, marking⟩ :=
    fsSize_committed claimed (claimed.page_blank blank changed lastFree written)
  have listedCommitted : listing committed.toVolume = listing fs.toVolume :=
    listing_congr claimed.table.node
  have ends : ∀ index < 60, (committed.node index).unused = false →
      MarkingEnds committed.toVolume (committed.node index).inode := by
    intro index bound usedEntry
    have directory := (changed.directory_inserted fresh.directory rfl (by omega) (by omega)).congr
      claimed.table.nodeUnused
    have member := directory.mem_listing_of_used bound usedEntry
    rw [listedCommitted, listed, List.mem_singleton] at member
    rw [member]
    exact marking
  have programs : after.programs = fs.programs ++
      ([(table, content), (committed.root, committed.flash committed.root)] ++
        [(page % 4096, data)]) := by
    rw [recorded, written.programs, List.append_assoc]
    rfl
  have mounting : ∃ again, fsInit { blankChip with flash := committed.flash } =
      some (.ok, again) ∧ again.toVolume = committed.toVolume :=
    fsInit_of_newest (newest_committed fresh changed claimed) claimed.table.anchored rfl ends
  intro atomic
  obtain ⟨again, mounts, shows⟩ := atomic .ok after _ (congrArg some result) programs 2
    { blankChip with flash := committed.flash } written.flash
  obtain ⟨again', mounts', volume⟩ := mounting
  rw [mounts, Option.some.injEq, Prod.mk.injEq] at mounts'
  rw [mounts'.2, volume] at shows
  have small : Writable fs 0 0 [(7 : UInt8)].length [] := writable 1 (by omega)
  obtain ⟨after', result', sizeAfter, _, listedAfter⟩ := small.fsWrite_eq (Nat.zero_le _)
  obtain rfl : after' = after := by
    rw [result', Prod.mk.injEq] at result
    exact result.2
  have sizes := shows.imp (congrArg (List.map fun entry => entry.2.1))
    (congrArg (List.map fun entry => entry.2.1))
  rw [map_size_shown (listedCommitted.trans listed) rfl, map_size_shown listed rfl,
    map_size_shown (listedAfter.trans listed) rfl, size, sizeAfter,
    small.file.fsSize_eq] at sizes
  have empty : linkBytes fs.toVolume [] = [] := rfl
  rw [empty] at sizes
  revert sizes
  decide

end Ethersex.Dataflash

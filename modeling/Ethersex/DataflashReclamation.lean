import Ethersex.DataflashIsolation

/-!
# Reclamation of inodes

`fs_remove` frees the first inode of a file only.  `fs_truncate` cuts the chain
behind the page it shortens, and `fs_write` takes an unused inode for every page
behind the first one it writes, also when the old chain goes on there.  As long as
nothing follows on the chains that calls cut, every inode that is marked used
belongs to a listed file.
-/

namespace Ethersex.Dataflash

open ByteMemory

/-- The chain of a listed file goes through the inode. -/
def OnListedChain (volume : Volume) (inode : Nat) : Prop :=
  ∃ other ∈ listedInodes volume, ∃ links, IsFile volume other links ∧ inode ∈ links.map Prod.fst

/-- Every inode that is marked used is on the chain of a listed file. -/
def Reclaimed (volume : Volume) : Prop :=
  ∀ inode < 4096, fsPage volume inode ≠ 0xffff → OnListedChain volume inode

/-- The file has one page at most. -/
def SinglePage (volume : Volume) (inode : Nat) : Prop :=
  fsPage volume inode ≠ 0xffff → (volume.header (fsPage volume inode)).eof = true

/-- The call drops no inode from a chain, and writes the first page of an inode only
when the inode is listed. -/
def KeepsInodes (volume : Volume) : Operation → Prop
  | .create _ => True
  | .write inode buf offset =>
      writeRounds volume inode offset buf.length = 0 ∨
        fsPage volume inode = 0xffff ∧ inode ∈ listedInodes volume ∨
        fsPage volume inode ≠ 0xffff ∧
          (writeRounds volume inode offset buf.length = 1 ∨ EndsThere volume inode offset)
  | .truncate inode length =>
      truncateRounds volume inode length = 0 ∨ EndsThere volume inode length
  | .remove name =>
      ∀ node ∈ listing volume, strncmp 6 node.name.val name = .eq → SinglePage volume node.inode

theorem SinglePage.eq_inode {volume : Volume} {inode : Nat} {links : List (Nat × Nat)}
    (single : SinglePage volume inode) (file : IsFile volume inode links) :
    ∀ other ∈ links.map Prod.fst, other = inode := by
  cases file with
  | unwritten => simp
  | chain file =>
      have used : fsPage volume inode ≠ 0xffff := by
        rw [file.entry]
        exact file.used
      have ends := single used
      rw [file.entry] at ends
      rw [file.suffix_nil ends]
      simp

theorem IsFile.inode_mem {volume : Volume} {inode : Nat} {links : List (Nat × Nat)}
    (file : IsFile volume inode links) (used : fsPage volume inode ≠ 0xffff) :
    inode ∈ links.map Prod.fst := by
  cases file with
  | unwritten missing => exact absurd missing used
  | chain => exact List.mem_cons_self

section Steps

variable {fs after : Fs} {chain : Nat → List (Nat × Nat)}

theorem Isolated.onListedChain (isolated : Isolated fs chain) {inode other : Nat}
    (listed : other ∈ listedInodes fs.toVolume) (member : inode ∈ (chain other).map Prod.fst) :
    OnListedChain fs.toVolume inode :=
  ⟨other, listed, chain other, (isolated.files other listed).file, member⟩

theorem Isolated.exists_listed (isolated : Isolated fs chain) {inode : Nat}
    (onChain : OnListedChain fs.toVolume inode) :
    ∃ other ∈ listedInodes fs.toVolume, inode ∈ (chain other).map Prod.fst := by
  obtain ⟨other, listed, links, file, member⟩ := onChain
  rw [file.unique (isolated.files other listed).file] at member
  exact ⟨other, listed, member⟩

variable (isolated : Isolated fs chain) (reclaimed : Reclaimed fs.toVolume)
include isolated reclaimed

/-- A used inode that shares nothing with the listed files is listed itself. -/
theorem Isolated.listed_of_used {inode : Nat} {links : List (Nat × Nat)} (bound : inode < 4096)
    (own : OwnChain fs inode links) (used : fsPage fs.toVolume inode ≠ 0xffff) :
    inode ∈ listedInodes fs.toVolume := by
  obtain ⟨other, listed, member⟩ := isolated.exists_listed (reclaimed inode bound used)
  by_cases same : other = inode
  · rw [← same]
    exact listed
  · have apart := own.2 other listed same _ (isolated.files other listed).file
    exact absurd (List.mem_cons_of_mem _ member) (apart.inodes List.mem_cons_self)

/-- Rewriting a listed file takes inodes for it and loses none. -/
theorem Isolated.reclaimed_written {inode target : Nat} {links links' : List (Nat × Nat)}
    {taken : List Nat} (listed : inode ∈ listedInodes fs.toVolume) (own : OwnChain fs inode links)
    (written : FileWritten fs after inode links links' target taken)
    (unlisted : ∀ next ∈ taken, next ∉ listedInodes fs.toVolume)
    (kept : ∀ other ∈ links.map Prod.fst, other ∈ links'.map Prod.fst) :
    Reclaimed after.toVolume := by
  obtain ⟨isolated', listingEq, _⟩ := isolated.written own written unlisted
  have listedEq : listedInodes after.toVolume = listedInodes fs.toVolume := by
    rw [listedInodes, listingEq, listedInodes]
  have rewritten {entry : Nat} (member : entry ∈ links'.map Prod.fst) :
      OnListedChain after.toVolume entry :=
    ⟨inode, listedEq ▸ listed, links', written.file, member⟩
  intro entry bound used
  by_cases isTaken : entry ∈ taken
  · exact rewritten (written.takes entry isTaken)
  by_cases isTarget : entry = target
  · apply rewritten
    rcases List.mem_cons.1 written.target_mem with first | behind
    · rw [isTarget, first] at used ⊢
      exact written.file.inode_mem used
    · rw [isTarget]
      exact kept target behind
  · rw [written.rewritten.entries entry bound isTarget isTaken] at used
    obtain ⟨other, listed', member⟩ := isolated.exists_listed (reclaimed entry bound used)
    by_cases same : other = inode
    · apply rewritten
      apply kept
      rw [own.1.file.unique (isolated.files inode listed).file, ← same]
      exact member
    · apply isolated'.onListedChain (listedEq ▸ listed')
      rw [Function.update_of_ne same]
      exact member

theorem Isolated.reclaimed_created {name : List UInt8} {index inode : Nat}
    (place : index ≤ (listing fs.toVolume).length) (room : (listing fs.toVolume).length < 60)
    (free : inode ∈ freeInodes fs.toVolume) (unlisted : inode ∉ listedInodes fs.toVolume)
    (changed : DirectoryChanged fs after (insertedNodes fs.toVolume
      (createdNode fs.toVolume name (listing fs.toVolume).length inode) index
      (listing fs.toVolume).length)) : Reclaimed after.toVolume := by
  obtain ⟨isolated', stays, _⟩ := isolated.created place room free unlisted changed
  intro entry bound used
  rw [changed.fsPage entry bound] at used
  obtain ⟨other, listed, member⟩ := isolated.exists_listed (reclaimed entry bound used)
  obtain ⟨node, inside, rfl⟩ := List.mem_map.1 listed
  apply isolated'.onListedChain (List.mem_map_of_mem (stays node inside))
  have different : node.inode ≠ inode := fun same => unlisted (same ▸ listed)
  rw [Function.update_of_ne different]
  exact member

theorem Isolated.reclaimed_removed {middle : Fs} {index : Nat}
    (place : index < (listing fs.toVolume).length)
    (single : SinglePage fs.toVolume (fs.node index).inode)
    (changed : DirectoryChanged fs middle
      (removedNodes fs.toVolume index (listing fs.toVolume).length))
    (freed : TableUpdated middle after (fs.node index).inode 0xffff) :
    Reclaimed after.toVolume := by
  obtain ⟨isolatedMiddle, _, unused⟩ := isolated.unlisted place changed
  obtain ⟨isolated', listingEq, _⟩ :=
    isolatedMiddle.freed (fun other listed => (unused other listed).2) freed
  have perm := isolated.listed_removed place changed
  intro entry bound used
  rw [freed.fsPage entry bound] at used
  by_cases removed : entry = (fs.node index).inode
  · rw [if_pos removed] at used
    exact absurd rfl used
  · rw [if_neg removed, changed.fsPage entry bound] at used
    obtain ⟨other, listed, member⟩ := isolated.exists_listed (reclaimed entry bound used)
    rcases List.mem_cons.1 (perm.mem_iff.1 listed) with same | stays
    · rw [same] at member listed
      exact absurd (single.eq_inode (isolated.files _ listed).file entry member) removed
    · refine isolated'.onListedChain ?_ member
      rw [listedInodes, listingEq]
      exact stays

theorem Isolated.reclaimed_write {inode offset : Nat} {buf : List UInt8} {status : Status}
    (apart : KeepsApart fs (.write inode buf offset))
    (keeps : KeepsInodes fs.toVolume (.write inode buf offset))
    (result : execute fs (.write inode buf offset) = some (status, after)) :
    Reclaimed after.toVolume := by
  obtain ⟨own, room, free, unlisted⟩ := apart
  obtain ⟨bound, links, own⟩ := isolated.exists_ownChain own
  have enough : 0 + 3 * writeRounds fs.toVolume inode offset buf.length ≤ spare fs := by omega
  have result' : fsWrite fs inode buf offset = (status, after) := Option.some.inj result
  rcases fsWrite_spec buf isolated.anchored bound own.1.file own.1.covered enough free with
    ⟨same, _⟩ | ⟨_, links', target, taken, same, written, count, _, _, kept⟩
  · rw [same, Prod.mk.injEq] at result'
    rw [← result'.2]
    exact reclaimed
  · rw [same, Prod.mk.injEq] at result'
    obtain ⟨-, rfl⟩ := result'
    have fresh : ∀ next ∈ taken, next ∉ listedInodes fs.toVolume := by
      rw [written.taken_eq own.1.file, (by omega : taken.length =
        writeRounds fs.toVolume inode offset buf.length - 1)]
      exact unlisted
    rcases keeps with none | ⟨missing, listed⟩ | ⟨used, whole⟩
    · omega
    · apply isolated.reclaimed_written reclaimed listed own written fresh
      rw [own.1.file.unique (.unwritten missing)]
      simp
    · exact isolated.reclaimed_written reclaimed
        (isolated.listed_of_used reclaimed bound own used) own written fresh (kept whole)

theorem Isolated.reclaimed_truncate {inode length : Nat} {status : Status}
    (apart : KeepsApart fs (.truncate inode length))
    (keeps : KeepsInodes fs.toVolume (.truncate inode length))
    (result : execute fs (.truncate inode length) = some (status, after)) :
    Reclaimed after.toVolume := by
  obtain ⟨own, room⟩ := apart
  obtain ⟨bound, links, own⟩ := isolated.exists_ownChain own
  have enough : 0 + 3 * truncateRounds fs.toVolume inode length ≤ spare fs := by omega
  have result' : fsTruncate fs inode length = (status, after) := Option.some.inj result
  rcases fsTruncate_spec isolated.anchored bound own.1.file own.1.covered enough with
    ⟨_, same, _⟩ | ⟨_, links', target, same, written, count, _, _, kept⟩
  · rw [same, Prod.mk.injEq] at result'
    rw [← result'.2]
    exact reclaimed
  · rw [same, Prod.mk.injEq] at result'
    obtain ⟨-, rfl⟩ := result'
    have used : fsPage fs.toVolume inode ≠ 0xffff := by
      intro missing
      rw [truncateRounds, if_pos missing] at count
      cases count
    rcases keeps with none | ends
    · omega
    · exact isolated.reclaimed_written reclaimed
        (isolated.listed_of_used reclaimed bound own used) own written (by simp) (kept ends)

/-- A call that keeps files apart and drops no inode from a chain loses none. -/
theorem Isolated.reclaimed_step {operation : Operation} (apart : KeepsApart fs operation)
    (keeps : KeepsInodes fs.toVolume operation) :
    ∃ after chain', step fs operation = some after ∧ Isolated after chain' ∧
      Reclaimed after.toVolume := by
  obtain ⟨status, after, result, effect⟩ := isolated.effect apart
  obtain ⟨chain', isolated', _⟩ := isolated.preserved effect
  refine ⟨after, chain', step_of_execute result, isolated', ?_⟩
  cases operation with
  | create name =>
      cases effect with
      | unchanged => exact reclaimed
      | written rewrites => cases rewrites
      | created place room free unlisted changed =>
          exact isolated.reclaimed_created reclaimed place room free unlisted changed
  | write inode buf offset => exact isolated.reclaimed_write reclaimed apart keeps result
  | truncate inode length => exact isolated.reclaimed_truncate reclaimed apart keeps result
  | remove name =>
      cases effect with
      | unchanged => exact reclaimed
      | written rewrites => cases rewrites
      | removed place matched changed freed =>
          have entry := isolated.directory.getElem_listing place
          apply isolated.reclaimed_removed reclaimed place _ changed freed
          rw [← entry] at matched ⊢
          exact keeps _ (List.getElem_mem place) matched

end Steps

/-- In a directory without files no inode is used. -/
theorem Reclaimed.fsPage_of_empty {volume : Volume} (reclaimed : Reclaimed volume)
    (empty : listing volume = []) : ∀ inode < 4096, fsPage volume inode = 0xffff := by
  intro inode bound
  by_contra used
  obtain ⟨other, listed, _⟩ := reclaimed inode bound used
  rw [listedInodes, empty] at listed
  cases listed

/-- After `fs_format` no inode is used, unless it is the last one of a table. -/
theorem FreshlyFormatted.reclaimed {fs : Fs} (fresh : FreshlyFormatted fs)
    (lastEntries : ∀ inode < 4096, inode % 256 = 255 → fsPage fs.toVolume inode = 0xffff) :
    Reclaimed fs.toVolume := by
  intro inode bound used
  rcases Nat.lt_or_ge (inode % 256) 255 with before | last
  · exact absurd (fresh.inodes inode bound before) used
  · exact absurd (lastEntries inode bound (by omega)) used

/-- In every run from a formatted flash whose calls keep files apart and drop no inode
from a chain, every used inode is on the chain of a listed file, and all inodes are
free when no file is listed. -/
theorem reclaimed_of_guarded_run {power formatted : Fs} {operations : List Operation}
    (blank : Unformatted power.flash) (mounted : fsInit power = some (.ok, formatted))
    (lastEntries : (pageEntry (afterScan power).buf1 255).unused = true)
    (guarded : GuardedRuns.Guarded step
      (fun fs operation => KeepsApart fs operation ∧ KeepsInodes fs.toVolume operation)
      formatted operations) :
    ∃ last, GuardedRuns.run step formatted operations = some last ∧ Reclaimed last.toVolume ∧
      (listing last.toVolume = [] → ∀ inode < 4096, fsPage last.toVolume inode = 0xffff) := by
  obtain ⟨after, mounted', fresh, _⟩ := fsInit_of_unformatted blank
  obtain rfl : after = formatted := by
    rw [mounted', Option.some.injEq, Prod.mk.injEq] at mounted
    exact mounted.2
  have initial := fresh.reclaimed (fsInit_lastEntries blank mounted' lastEntries)
  have progress : ∀ state operation,
      (∃ chain, Isolated state chain ∧ Reclaimed state.toVolume) →
      (KeepsApart state operation ∧ KeepsInodes state.toVolume operation) →
      ∃ next, step state operation = some next ∧
        ∃ chain, Isolated next chain ∧ Reclaimed next.toVolume := by
    rintro state operation ⟨chain, isolated, reclaimed⟩ ⟨apart, keeps⟩
    obtain ⟨next, chain', stepped, both⟩ := isolated.reclaimed_step reclaimed apart keeps
    exact ⟨next, stepped, chain', both⟩
  obtain ⟨last, reached, _, _, reclaimed⟩ :=
    guarded.exists_run progress ⟨_, fresh.isolated, initial⟩
  exact ⟨last, reached, reclaimed, reclaimed.fsPage_of_empty⟩

/-- A new chip whose buffer 1 is filled with ones as well. -/
def filledChip : Fs := { blankChip with buf1 := fun _ => 0xff }

theorem unformatted_filledChip : Unformatted filledChip.flash := unformatted_blankChip

/-- On a new chip the scan loads no page. -/
theorem afterScan_buf1_of_blank {power : Fs} (blank : power.flash = fun _ _ => 0xff) :
    (afterScan power).buf1 = power.buf1 := by
  have scanned : afterScan power = beforeScan power := by
    apply foldl_scanPage_unused
    intro page _
    have unused : (pageHeader fun _ => 0xff).unused = true := by decide
    show (pageHeader ((beforeScan power).flash (page % 4096))).unused = true
    rw [beforeScan_flash, blank]
    exact unused
  obtain ⟨bitmap, cleared, _⟩ := clearBitmap_eq { power with lastFree := 0 }
  rw [scanned, beforeScan, cleared]

theorem filledChip_lastEntries : (pageEntry (afterScan filledChip).buf1 255).unused = true := by
  rw [afterScan_buf1_of_blank rfl]
  decide

/-- What the first file of a formatted flash is like before anything is written to it. -/
structure FirstFile (formatted fs : Fs) : Prop where
  created : execute formatted (.create [97]) = some (.ok, fs)
  isolated : ∃ chain, Isolated fs chain
  node : ∃ node, listing fs.toVolume = [node] ∧ node.inode = 0 ∧ strncmp 6 node.name.val [97] = .eq
  inodes : ∀ inode < 4096, fsPage fs.toVolume inode = fsPage formatted.toVolume inode
  writable : ∀ length ≤ 1024, Writable fs 0 0 length []
  left : spare fs = 4078

theorem FreshlyFormatted.exists_firstFile {formatted : Fs} (fresh : FreshlyFormatted formatted) :
    ∃ fs, FirstFile formatted fs := by
  obtain ⟨fs, created, changed, lastFree⟩ := fresh.fsCreate_eq [97]
  obtain ⟨listed, writable⟩ := fresh.first_file changed lastFree
  obtain ⟨_, after, result, effect⟩ := fresh.isolated.effect (fresh.keepsApart_create [97])
  have created' : execute formatted (.create [97]) = some (.ok, fs) := created
  rw [created', Option.some.injEq, Prod.mk.injEq] at result
  obtain ⟨-, rfl⟩ := result
  obtain ⟨chain, isolated, _⟩ := fresh.isolated.preserved effect
  refine ⟨fs, created', ⟨chain, isolated⟩, ⟨_, listed, rfl, ?_⟩, changed.fsPage, writable, ?_⟩
  · show strncmp 6 (strncpy [97]).val [97] = .eq
    decide
  · rw [(OnlySystemMarked.kept fresh.used changed.kept).spare_eq, lastFree]
    rfl

theorem FirstFile.writeRounds_eq {formatted fs : Fs} (first : FirstFile formatted fs)
    (length : Nat) : writeRounds fs.toVolume 0 0 length = rounds 0 length := by
  cases (first.writable 0 (by omega)).file with
  | unwritten missing => rw [writeRounds, if_pos missing, if_pos rfl]

/-- A file with one byte is created on a new chip. -/
theorem reclaimed_first_file :
    ∃ formatted last, fsInit filledChip = some (.ok, formatted) ∧
      GuardedRuns.run step formatted [.create [97], .write 0 [7] 0] = some last ∧
      Reclaimed last.toVolume := by
  obtain ⟨formatted, mounted, fresh, _⟩ := fsInit_of_unformatted unformatted_filledChip
  obtain ⟨fs, first⟩ := fresh.exists_firstFile
  obtain ⟨node, listed, inode, _⟩ := first.node
  have member : 0 ∈ listedInodes fs.toVolume := by
    rw [listedInodes, listed, List.map_singleton, inode]
    exact List.mem_cons_self
  have writable := first.writable 1 (by omega)
  have apart : KeepsApart fs (.write 0 [7] 0) := by
    refine ⟨Or.inl member, writable.room, writable.free, ?_⟩
    rw [takenInodes, first.writeRounds_eq]
    simp [rounds]
  have keeps : KeepsInodes fs.toVolume (.write 0 [7] 0) := by
    cases writable.file with
    | unwritten missing => exact Or.inr (Or.inl ⟨missing, member⟩)
  have guarded : GuardedRuns.Guarded step
      (fun fs operation => KeepsApart fs operation ∧ KeepsInodes fs.toVolume operation)
      formatted [.create [97], .write 0 [7] 0] := by
    refine ⟨⟨fresh.keepsApart_create [97], trivial⟩, fun next reached => ⟨?_, fun _ _ => trivial⟩⟩
    rw [step_of_execute first.created, Option.some.injEq] at reached
    exact reached ▸ ⟨apart, keeps⟩
  obtain ⟨last, reached, reclaimed, _⟩ := reclaimed_of_guarded_run unformatted_filledChip mounted
    filledChip_lastEntries guarded
  exact ⟨formatted, last, mounted, reached, reclaimed⟩

/-- The removal of the first file finds its entry. -/
theorem findName_single {volume : Volume} {node : DirectoryNode} {name : List UInt8}
    (directory : Directory volume 1) (listed : listing volume = [node])
    (matched : strncmp 6 node.name.val name = .eq) :
    findName volume name 66 0xffff 0xffff 0 = some ⟨0, node.inode, 1⟩ := by
  have length : (listing volume).length = 1 := by rw [listed, List.length_singleton]
  have place : 0 < (listing volume).length := by omega
  rw [← length] at directory
  have entry : volume.node 0 = node := by
    rw [← directory.getElem_listing place]
    simp only [listed, List.getElem_cons_zero]
  have used : node.unused = false := by
    rw [← entry]
    exact directory.used 0 place
  rw [findName, entry]
  simp only [used, matched, Bool.false_eq_true, if_false, if_true]
  rw [findName, if_pos (directory.rest 1 (by omega) (by omega))]

/-- The second page of the first file gets an inode of its own. -/
theorem FirstFile.second_page {formatted fs : Fs} (first : FirstFile formatted fs) :
    ∃ after chain next, execute fs (.write 0 (List.replicate 513 0) 0) = some (.ok, after) ∧
      Isolated after chain ∧ listing after.toVolume = listing fs.toVolume ∧
      0 + 3 ≤ spare after ∧ next < 4096 ∧ next ≠ 0 ∧ fsPage after.toVolume next ≠ 0xffff := by
  obtain ⟨node, listed, inode, _⟩ := first.node
  obtain ⟨chain, isolated⟩ := first.isolated
  have member : 0 ∈ listedInodes fs.toVolume := by
    rw [listedInodes, listed, List.map_singleton, inode]
    exact List.mem_cons_self
  have length : (List.replicate 513 (0 : UInt8)).length = 513 := List.length_replicate
  have fits := first.writable (List.replicate 513 (0 : UInt8)).length (by omega)
  have own : OwnChain fs 0 [] := by
    rw [fits.file.unique (isolated.files 0 member).file]
    exact isolated.ownChain member
  have twoRounds : writeRounds fs.toVolume 0 0 (List.replicate 513 (0 : UInt8)).length = 2 := by
    rw [first.writeRounds_eq, length]
    rfl
  have room : 0 + 3 + 3 * writeRounds fs.toVolume 0 0 (List.replicate 513 (0 : UInt8)).length ≤
      spare fs := by
    rw [twoRounds, first.left]
    omega
  rcases fsWrite_spec (List.replicate 513 0) isolated.anchored fits.inode_lt fits.file
      fits.covered room fits.free with
    ⟨_, beyond⟩ | ⟨after, links', target, taken, wrote, written, count, _, left, _⟩
  · omega
  rw [twoRounds] at count
  obtain ⟨next, rfl⟩ := List.length_eq_one_iff.1 (by omega : taken.length = 1)
  obtain rfl : target = 0 := by simpa using written.target_mem
  have nextOther : next ≠ 0 := by
    have inside : next ∈ [next] ++ freeInodes after.toVolume := List.mem_cons_self
    rw [← written.rewritten.free] at inside
    simpa using (List.mem_filter.1 inside).2
  have unlisted : ∀ other ∈ [next], other ∉ listedInodes fs.toVolume := by
    rw [listedInodes, listed, List.map_singleton, inode]
    simpa using nextOther
  obtain ⟨isolated', listingEq, _⟩ := isolated.written own written unlisted
  refine ⟨after, _, next, congrArg some wrote, isolated', listingEq, left,
    (mem_freeInodes.1 (written.taken_free List.mem_cons_self)).1, nextOther, ?_⟩
  obtain ⟨link, linkMember, rfl⟩ := List.mem_map.1 (written.takes next List.mem_cons_self)
  obtain ⟨entry, used⟩ := written.file.fsPage_link link linkMember
  rw [entry]
  exact used

/-- A file of two pages is removed, and the inode of its second page stays in use. -/
theorem leaked_after_remove :
    ∃ formatted last, fsInit filledChip = some (.ok, formatted) ∧
      Reclaimed formatted.toVolume ∧
      GuardedRuns.run step formatted
        [.create [97], .write 0 (List.replicate 513 0) 0, .remove [97]] = some last ∧
      listing last.toVolume = [] ∧ ¬Reclaimed last.toVolume ∧
      ∃ inode < 4096, fsPage last.toVolume inode ≠ 0xffff := by
  obtain ⟨formatted, mounted, fresh, _⟩ := fsInit_of_unformatted unformatted_filledChip
  have initial := fresh.reclaimed
    (fsInit_lastEntries unformatted_filledChip mounted filledChip_lastEntries)
  obtain ⟨fs, first⟩ := fresh.exists_firstFile
  obtain ⟨node, listed, inode, matched⟩ := first.node
  obtain ⟨middle, chain, next, wrote, isolated, listingEq, room, bound, other, used⟩ :=
    first.second_page
  rw [listed] at listingEq
  have directory := isolated.directory
  have length : (listing middle.toVolume).length = 1 := by rw [listingEq, List.length_singleton]
  rw [length] at directory
  have found := findName_single directory listingEq matched
  rcases fsRemove_changed [97] isolated.anchored isolated.directory.ends
      fun _ _ _ => room with
    ⟨_, missing⟩ | ⟨index, unlisted, last, place, _, removed, changed, freed, _⟩
  · exact absurd Nat.zero_lt_one (missing _ found)
  obtain rfl : index = 0 := by omega
  have entry : (middle.node 0).inode = 0 := by
    rw [← isolated.directory.getElem_listing place]
    simp only [listingEq, List.getElem_cons_zero, inode]
  obtain ⟨isolatedMiddle, middleEq, unused⟩ := isolated.unlisted place changed
  obtain ⟨_, lastEq, _⟩ :=
    isolatedMiddle.freed (fun other listed => (unused other listed).2) freed
  have empty : listing last.toVolume = [] := by
    rw [lastEq, middleEq, listingEq]
    rfl
  have leaked : fsPage last.toVolume next ≠ 0xffff := by
    rw [freed.fsPage next bound, entry, if_neg other, changed.fsPage next bound]
    exact used
  refine ⟨formatted, last, mounted, initial, ?_, empty, ?_, next, bound, leaked⟩
  · have removed' : execute middle (.remove [97]) = some (.ok, last) := removed
    rw [GuardedRuns.run, step_of_execute first.created, Option.bind_some, GuardedRuns.run,
      step_of_execute wrote, Option.bind_some, GuardedRuns.run, step_of_execute removed',
      Option.bind_some, GuardedRuns.run]
  · exact fun reclaimed => leaked (reclaimed.fsPage_of_empty empty next bound)

end Ethersex.Dataflash

import Ethersex.DataflashReadBack
import Ethersex.GuardedRuns
import Mathlib.Data.List.Perm.Basic

/-!
# Isolation of files

`fs_create` writes the lowest unused inode into the directory but does not
reserve it, so the next call that looks for an unused inode finds it again.  As
long as no call takes an inode that is listed already, and the allocator does not
come round to pages it has handed out, the files of the directory share neither
inodes nor pages.
-/

namespace Ethersex.Dataflash

open ByteMemory

/-- Two files have no inode and no page in common. -/
structure Apart (inode : Nat) (links : List (Nat × Nat)) (other : Nat)
    (links' : List (Nat × Nat)) : Prop where
  inodes : (inode :: links.map Prod.fst).Disjoint (other :: links'.map Prod.fst)
  pages : (links.map Prod.snd).Disjoint (links'.map Prod.snd)

theorem Apart.symm {inode other : Nat} {links links' : List (Nat × Nat)}
    (apart : Apart inode links other links') : Apart other links' inode links :=
  ⟨apart.inodes.symm, apart.pages.symm⟩

/-- A file whose pages are covered. -/
structure CoveredFile (fs : Fs) (inode : Nat) (links : List (Nat × Nat)) : Prop where
  file : IsFile fs.toVolume inode links
  covered : ∀ link ∈ links, Covered fs link.2

/-- A file shows the same size and the same bytes in two volumes. -/
structure SameFile (volume volume' : Volume) (inode : Nat) : Prop where
  size : fsSize volume' inode = fsSize volume inode
  bytes : fileBytes volume' inode = fileBytes volume inode

theorem SameFile.refl (volume : Volume) (inode : Nat) : SameFile volume volume inode :=
  ⟨rfl, rfl⟩

theorem SameFile.trans {first second third : Volume} {inode : Nat}
    (same : SameFile first second inode) (same' : SameFile second third inode) :
    SameFile first third inode :=
  ⟨same'.size.trans same.size, same'.bytes.trans same.bytes⟩

/-- A file whose table entries stay keeps its pages and its content. -/
theorem CoveredFile.kept {before after : Fs} {inode : Nat} {links : List (Nat × Nat)}
    (file : CoveredFile before inode links) (kept : Kept before after)
    (entries : ∀ other ∈ inode :: links.map Prod.fst,
      fsPage after.toVolume other = fsPage before.toVolume other) :
    CoveredFile after inode links ∧ SameFile before.toVolume after.toVolume inode := by
  have pages : ∀ page ∈ links.map Prod.snd, after.flash page = before.flash page := by
    intro page member
    have bound := file.file.page_lt page member
    obtain ⟨link, inside, rfl⟩ := List.mem_map.1 member
    exact kept.flash link.2 bound (file.covered link inside)
  obtain ⟨file', bytes⟩ := file.file.congr pages entries
  refine ⟨⟨file', fun link member => kept.covered (file.covered link member)⟩, ?_, ?_⟩
  · rw [file'.fsSize_eq, file.file.fsSize_eq, bytes]
  · rw [file'.fileBytes_eq, file.file.fileBytes_eq, bytes]

theorem CoveredFile.entry_lt {fs : Fs} {inode : Nat} {links : List (Nat × Nat)}
    (file : CoveredFile fs inode links) (bound : inode < 4096) :
    ∀ entry ∈ inode :: links.map Prod.fst, entry < 4096 := by
  intro entry member
  rcases List.mem_cons.1 member with first | behind
  · rw [first]
    exact bound
  · exact file.file.inode_lt bound entry behind

/-- The files of the directory have different inodes and share nothing. -/
structure Isolated (fs : Fs) (chain : Nat → List (Nat × Nat)) : Prop where
  anchored : Anchored fs
  directory : Directory fs.toVolume (listing fs.toVolume).length
  nodup : (listedInodes fs.toVolume).Nodup
  files : ∀ inode ∈ listedInodes fs.toVolume, CoveredFile fs inode (chain inode)
  apart : ∀ inode ∈ listedInodes fs.toVolume, ∀ other ∈ listedInodes fs.toVolume,
    inode ≠ other → Apart inode (chain inode) other (chain other)

/-- The chain of `inode` is complete, covered and shares nothing with the files
listed under other inodes. -/
def OwnChain (fs : Fs) (inode : Nat) (links : List (Nat × Nat)) : Prop :=
  CoveredFile fs inode links ∧
    ∀ other ∈ listedInodes fs.toVolume, other ≠ inode → ∀ links', IsFile fs.toVolume other links' →
      Apart inode links other links'

/-- The inodes that `fs_write` takes for the pages behind the first one it writes. -/
def takenInodes (volume : Volume) (inode offset length : Nat) : List Nat :=
  ((freeInodes volume).filter fun other => other ≠ inode).take
    (writeRounds volume inode offset length - 1)

/-- The call finds enough pages in front of the allocator, takes no inode that is
listed and is made for a file that shares nothing with others. -/
def KeepsApart (fs : Fs) : Operation → Prop
  | .create name =>
      findPlace fs.toVolume name 66 0 0 = some .duplicate ∨
        (listing fs.toVolume).length < 60 ∧ 1 ≤ spare fs ∧
          ∃ inode, (freeInodes fs.toVolume).head? = some inode ∧
            inode ∉ listedInodes fs.toVolume
  | .write inode buf offset =>
      (inode ∈ listedInodes fs.toVolume ∨ inode < 4096 ∧ ∃ links, OwnChain fs inode links) ∧
        3 * writeRounds fs.toVolume inode offset buf.length ≤ spare fs ∧
        writeRounds fs.toVolume inode offset buf.length ≤
          ((freeInodes fs.toVolume).filter fun other => other ≠ inode).length + 1 ∧
        ∀ next ∈ takenInodes fs.toVolume inode offset buf.length,
          next ∉ listedInodes fs.toVolume
  | .truncate inode length =>
      (inode ∈ listedInodes fs.toVolume ∨ inode < 4096 ∧ ∃ links, OwnChain fs inode links) ∧
        3 * truncateRounds fs.toVolume inode length ≤ spare fs
  | .remove name =>
      ∀ found, findName fs.toVolume name 66 0xffff 0xffff 0 = some found →
        found.index < found.max → 3 ≤ spare fs

/-- The inode of the file that a call rewrites. -/
def Operation.inode : Operation → Option Nat
  | .create _ => none
  | .write inode _ _ => some inode
  | .truncate inode _ => some inode
  | .remove _ => none

/-- The number of roots that a call programs at most. -/
def commits (volume : Volume) : Operation → Nat
  | .create _ => 1
  | .write inode buf offset => writeRounds volume inode offset buf.length
  | .truncate inode length => truncateRounds volume inode length
  | .remove _ => 2

/-- The state a call leads to when it keeps files apart. -/
inductive Effect (fs : Fs) : Operation → Fs → Prop
  | unchanged (operation : Operation) : Effect fs operation fs
  | written {operation : Operation} {after : Fs} {inode target : Nat}
      {links links' : List (Nat × Nat)} {taken : List Nat}
      (rewrites : operation.inode = some inode) (own : OwnChain fs inode links)
      (written : FileWritten fs after inode links links' target taken)
      (unlisted : ∀ next ∈ taken, next ∉ listedInodes fs.toVolume)
      (count : taken.length + 1 = commits fs.toVolume operation) : Effect fs operation after
  | created {name : List UInt8} {after : Fs} {index inode : Nat}
      (place : index ≤ (listing fs.toVolume).length) (room : (listing fs.toVolume).length < 60)
      (free : inode ∈ freeInodes fs.toVolume) (unlisted : inode ∉ listedInodes fs.toVolume)
      (changed : DirectoryChanged fs after (insertedNodes fs.toVolume
        (createdNode fs.toVolume name (listing fs.toVolume).length inode) index
        (listing fs.toVolume).length)) : Effect fs (.create name) after
  | removed {name : List UInt8} {middle after : Fs} {index : Nat}
      (place : index < (listing fs.toVolume).length)
      (matched : strncmp 6 (fs.node index).name.val name = .eq)
      (changed : DirectoryChanged fs middle
        (removedNodes fs.toVolume index (listing fs.toVolume).length))
      (freed : TableUpdated middle after (fs.node index).inode 0xffff) :
      Effect fs (.remove name) after

theorem IsFile.unique {volume : Volume} {inode : Nat} {links links' : List (Nat × Nat)}
    (file : IsFile volume inode links) (file' : IsFile volume inode links') : links = links' := by
  cases file with
  | unwritten missing =>
      cases file' with
      | unwritten => rfl
      | chain file' => exact absurd (file'.entry.symm.trans missing) file'.used
  | chain file =>
      cases file' with
      | unwritten missing => exact absurd (file.entry.symm.trans missing) file.used
      | chain file' =>
          obtain rfl := file.entry.symm.trans file'.entry
          rw [file.chain.unique file'.chain]

/-- The unused inodes that a call takes are the lowest ones. -/
theorem FileWritten.taken_eq {before after : Fs} {inode target : Nat}
    {links links' : List (Nat × Nat)} {taken : List Nat}
    (written : FileWritten before after inode links links' target taken)
    (file : IsFile before.toVolume inode links) :
    taken = ((freeInodes before.toVolume).filter fun other => other ≠ inode).take taken.length := by
  have same : ((freeInodes before.toVolume).filter fun other => other ≠ inode) =
      (freeInodes before.toVolume).filter fun other => other ≠ target := by
    rcases List.mem_cons.1 written.target_mem with first | behind
    · rw [first]
    · have used := file.notMem_freeInodes target behind
      cases file with
      | unwritten => simp at behind
      | chain file =>
          have entry : fsPage before.toVolume inode ≠ 0xffff := by
            rw [file.entry]
            exact file.used
          rw [filter_freeInodes_used entry, List.filter_eq_self.2]
          intro other member
          simpa using fun equal : other = target => used (equal ▸ member)
  rw [same, written.rewritten.free, List.take_left]

section Execute

variable {fs : Fs} {chain : Nat → List (Nat × Nat)} (isolated : Isolated fs chain)
include isolated

theorem Isolated.ownChain {inode : Nat} (listed : inode ∈ listedInodes fs.toVolume) :
    OwnChain fs inode (chain inode) := by
  refine ⟨isolated.files inode listed, ?_⟩
  intro other listed' different links' file
  rw [file.unique (isolated.files other listed').file]
  exact isolated.apart inode listed other listed' different.symm

theorem Isolated.exists_ownChain {inode : Nat}
    (own : inode ∈ listedInodes fs.toVolume ∨ inode < 4096 ∧ ∃ links, OwnChain fs inode links) :
    inode < 4096 ∧ ∃ links, OwnChain fs inode links := by
  rcases own with listed | own
  · exact ⟨listedInodes_lt listed, chain inode, isolated.ownChain listed⟩
  · exact own

theorem Isolated.effect_write {inode offset : Nat} {buf : List UInt8}
    (keeps : KeepsApart fs (.write inode buf offset)) :
    ∃ status after, execute fs (.write inode buf offset) = some (status, after) ∧
      Effect fs (.write inode buf offset) after := by
  obtain ⟨own, room, free, unlisted⟩ := keeps
  obtain ⟨bound, links, own⟩ := isolated.exists_ownChain own
  have enough : 0 + 3 * writeRounds fs.toVolume inode offset buf.length ≤ spare fs := by omega
  rcases fsWrite_spec buf isolated.anchored bound own.1.file own.1.covered enough free with
    ⟨result, _⟩ | ⟨after, links', target, taken, result, written, count, _, _⟩
  · exact ⟨_, _, congrArg some result, .unchanged _⟩
  · refine ⟨_, _, congrArg some result, .written rfl own written ?_ count⟩
    rw [written.taken_eq own.1.file, (by omega : taken.length =
      writeRounds fs.toVolume inode offset buf.length - 1)]
    exact unlisted

theorem Isolated.effect_truncate {inode length : Nat}
    (keeps : KeepsApart fs (.truncate inode length)) :
    ∃ status after, execute fs (.truncate inode length) = some (status, after) ∧
      Effect fs (.truncate inode length) after := by
  obtain ⟨own, room⟩ := keeps
  obtain ⟨bound, links, own⟩ := isolated.exists_ownChain own
  have enough : 0 + 3 * truncateRounds fs.toVolume inode length ≤ spare fs := by omega
  rcases fsTruncate_spec isolated.anchored bound own.1.file own.1.covered enough with
    ⟨status, result, _⟩ | ⟨after, links', target, result, written, count, _, _⟩
  · exact ⟨_, _, congrArg some result, .unchanged _⟩
  · exact ⟨_, _, congrArg some result, .written rfl own written (by simp) count.symm⟩

theorem Isolated.effect_create {name : List UInt8} (keeps : KeepsApart fs (.create name)) :
    ∃ status after, execute fs (.create name) = some (status, after) ∧
      Effect fs (.create name) after := by
  rcases keeps with duplicate | ⟨place, enough, inode, first, unlisted⟩
  · have result : fsCreate fs name = some (.duplicate, fs) := by
      simp only [fsCreate, duplicate, Option.map_some]
    exact ⟨_, _, result, .unchanged _⟩
  · have available : freeInodes fs.toVolume ≠ [] := fun none => by
      rw [none] at first
      cases first
    rcases fsCreate_changed name isolated.anchored isolated.directory.ends
        fun _ => ⟨place, (by omega : 0 + 1 ≤ spare fs), available⟩ with
      ⟨_, result⟩ | ⟨after, index, inode', others, result, before, count, split, changed, _⟩
    · exact ⟨_, _, result, .unchanged _⟩
    · rw [split, List.head?_cons, Option.some.injEq] at first
      subst first
      exact ⟨_, _, result,
        .created before count (by rw [split]; exact List.mem_cons_self) unlisted changed⟩

theorem Isolated.effect_remove {name : List UInt8} (keeps : KeepsApart fs (.remove name)) :
    ∃ status after, execute fs (.remove name) = some (status, after) ∧
      Effect fs (.remove name) after := by
  have room : ∀ found, findName fs.toVolume name 66 0xffff 0xffff 0 = some found →
      found.index < found.max → 0 + 3 ≤ spare fs := fun found search inside => by
    have enough := keeps found search inside
    omega
  rcases fsRemove_changed name isolated.anchored isolated.directory.ends room with
    ⟨result, _⟩ | ⟨index, middle, after, place, matched, result, changed, freed, _⟩
  · exact ⟨_, _, result, .unchanged _⟩
  · exact ⟨_, _, result, .removed place matched changed freed⟩

/-- Every call that keeps files apart has a result. -/
theorem Isolated.effect {operation : Operation} (keeps : KeepsApart fs operation) :
    ∃ status after, execute fs operation = some (status, after) ∧ Effect fs operation after := by
  cases operation with
  | create name => exact isolated.effect_create keeps
  | write inode buf offset => exact isolated.effect_write keeps
  | truncate inode length => exact isolated.effect_truncate keeps
  | remove name => exact isolated.effect_remove keeps

end Execute

/-- The entry is not the one the call is made for. -/
def Operation.Spares : Operation → DirectoryNode → Prop
  | .create _, _ => True
  | .write inode _ _, node => node.inode ≠ inode
  | .truncate inode _, node => node.inode ≠ inode
  | .remove name, node => strncmp 6 node.name.val name ≠ .eq

section Written

variable {before after : Fs} {inode target other : Nat} {links links' otherLinks : List (Nat × Nat)}
  {taken : List Nat} (written : FileWritten before after inode links links' target taken)
include written

theorem FileWritten.taken_free {next : Nat} (member : next ∈ taken) :
    next ∈ freeInodes before.toVolume := by
  have inside : next ∈ taken ++ freeInodes after.toVolume := List.mem_append_left _ member
  rw [← written.rewritten.free] at inside
  exact List.mem_of_mem_filter inside

/-- The inodes of a file that is listed are not taken for another one. -/
theorem FileWritten.notMem_taken (file : IsFile before.toVolume other otherLinks)
    (unlisted : other ∉ taken) : ∀ place ∈ other :: otherLinks.map Prod.fst, place ∉ taken := by
  intro place member isTaken
  rcases List.mem_cons.1 member with first | behind
  · exact unlisted (first ▸ isTaken)
  · exact file.notMem_freeInodes place behind (written.taken_free isTaken)

theorem FileWritten.other_kept (apart : Apart inode links other otherLinks)
    (file : CoveredFile before other otherLinks) (bound : other < 4096)
    (unlisted : other ∉ taken) :
    CoveredFile after other otherLinks ∧ SameFile before.toVolume after.toVolume other := by
  refine file.kept written.rewritten.kept ?_
  intro place member
  refine written.rewritten.entries place (file.entry_lt bound place member) ?_
    (written.notMem_taken file.file unlisted place member)
  intro same
  exact apart.inodes (same ▸ written.target_mem) member

theorem FileWritten.other_apart (apart : Apart inode links other otherLinks)
    (file : CoveredFile before other otherLinks) (unlisted : other ∉ taken) :
    Apart inode links' other otherLinks := by
  refine ⟨?_, ?_⟩
  · intro place member member'
    rcases List.mem_cons.1 member with first | behind
    · exact apart.inodes (first ▸ List.mem_cons_self) member'
    · rcases written.inodes place behind with first | isTaken | old
      · exact apart.inodes (first ▸ List.mem_cons_self) member'
      · exact written.notMem_taken file.file unlisted place member' isTaken
      · exact apart.inodes (List.mem_cons_of_mem _ old) member'
  · intro page member member'
    rcases written.pages page member with fresh | old
    · obtain ⟨link, inside, rfl⟩ := List.mem_map.1 member'
      exact fresh (file.covered link inside)
    · exact apart.pages old member'

end Written

section Preserved

variable {fs after : Fs} {chain : Nat → List (Nat × Nat)} (isolated : Isolated fs chain)
include isolated

theorem Isolated.written {inode target : Nat} {links links' : List (Nat × Nat)} {taken : List Nat}
    (own : OwnChain fs inode links)
    (written : FileWritten fs after inode links links' target taken)
    (unlisted : ∀ next ∈ taken, next ∉ listedInodes fs.toVolume) :
    Isolated after (Function.update chain inode links') ∧
      listing after.toVolume = listing fs.toVolume ∧
      ∀ other ∈ listedInodes fs.toVolume, other ≠ inode →
        SameFile fs.toVolume after.toVolume other := by
  have listingEq : listing after.toVolume = listing fs.toVolume :=
    listing_congr written.rewritten.node
  have listedEq : listedInodes after.toVolume = listedInodes fs.toVolume := by
    rw [listedInodes, listingEq, listedInodes]
  have notTaken {other : Nat} (listed : other ∈ listedInodes fs.toVolume) : other ∉ taken :=
    fun isTaken => unlisted other isTaken listed
  have apart {other : Nat} (listed : other ∈ listedInodes fs.toVolume) (different : other ≠ inode) :
      Apart inode links other (chain other) :=
    own.2 other listed different _ (isolated.files other listed).file
  have kept {other : Nat} (listed : other ∈ listedInodes fs.toVolume) (different : other ≠ inode) :=
    written.other_kept (apart listed different) (isolated.files other listed)
      (listedInodes_lt listed) (notTaken listed)
  have apart' {other : Nat} (listed : other ∈ listedInodes fs.toVolume)
      (different : other ≠ inode) : Apart inode links' other (chain other) :=
    written.other_apart (apart listed different) (isolated.files other listed) (notTaken listed)
  refine ⟨⟨written.rewritten.anchored, ?_, ?_, ?_, ?_⟩, listingEq,
    fun other listed different => (kept listed different).2⟩
  · rw [listingEq]
    exact isolated.directory.congr written.rewritten.nodeUnused
  · rw [listedEq]
    exact isolated.nodup
  · rw [listedEq]
    intro other listed
    by_cases same : other = inode
    · rw [same, Function.update_self]
      exact ⟨written.file, fun link member =>
        written.covered link.2 (List.mem_map_of_mem member)⟩
    · rw [Function.update_of_ne same]
      exact (kept listed same).1
  · rw [listedEq]
    intro first listed second listed' different
    by_cases same : first = inode
    · have other : second ≠ inode := fun equal => different (same.trans equal.symm)
      rw [same, Function.update_self, Function.update_of_ne other]
      exact apart' listed' other
    · rw [Function.update_of_ne same]
      by_cases same' : second = inode
      · rw [same', Function.update_self]
        exact (apart' listed same).symm
      · rw [Function.update_of_ne same']
        exact isolated.apart first listed second listed' different

theorem Isolated.created {name : List UInt8} {index inode : Nat}
    (place : index ≤ (listing fs.toVolume).length) (room : (listing fs.toVolume).length < 60)
    (free : inode ∈ freeInodes fs.toVolume) (unlisted : inode ∉ listedInodes fs.toVolume)
    (changed : DirectoryChanged fs after (insertedNodes fs.toVolume
      (createdNode fs.toVolume name (listing fs.toVolume).length inode) index
      (listing fs.toVolume).length)) :
    Isolated after (Function.update chain inode []) ∧
      (∀ node ∈ listing fs.toVolume, node ∈ listing after.toVolume) ∧
      ∀ other ∈ listedInodes fs.toVolume, SameFile fs.toVolume after.toVolume other := by
  obtain ⟨inodeBound, missing⟩ := mem_freeInodes.1 free
  have directory := changed.directory_inserted isolated.directory rfl place room
  have listingEq := changed.listing_inserted isolated.directory rfl place room
  have listedEq : (listedInodes after.toVolume).Perm (inode :: listedInodes fs.toVolume) := by
    rw [listedInodes, listingEq]
    refine ((List.perm_insertIdx _ _ place).map _).trans (List.Perm.of_eq ?_)
    rw [List.map_cons, listedInodes]
    show (inode % 4096) :: _ = _
    rw [Nat.mod_eq_of_lt inodeBound]
  have kept {other : Nat} (listed : other ∈ listedInodes fs.toVolume) :=
    (isolated.files other listed).kept changed.kept fun entry member =>
      changed.fsPage entry ((isolated.files other listed).entry_lt (listedInodes_lt listed)
        entry member)
  have different {other : Nat} (listed : other ∈ listedInodes fs.toVolume) : other ≠ inode :=
    fun same => unlisted (same ▸ listed)
  have apart {other : Nat} (listed : other ∈ listedInodes fs.toVolume) :
      Apart inode [] other (chain other) := by
    refine ⟨?_, by simp⟩
    intro entry member member'
    obtain rfl : entry = inode := by simpa using member
    rcases List.mem_cons.1 member' with first | behind
    · exact different listed first.symm
    · exact (isolated.files other listed).file.notMem_freeInodes entry behind free
  have unwritten : IsFile after.toVolume inode [] :=
    .unwritten (by rw [changed.fsPage inode inodeBound, missing])
  refine ⟨⟨changed.anchored, ?_, ?_, ?_, ?_⟩, ?_, fun other listed => (kept listed).2⟩
  · rw [directory.length_listing]
    exact directory
  · rw [listedEq.nodup_iff, List.nodup_cons]
    exact ⟨unlisted, isolated.nodup⟩
  · intro other listed
    rcases List.mem_cons.1 (listedEq.mem_iff.1 listed) with same | listed'
    · rw [same, Function.update_self]
      exact ⟨unwritten, by simp⟩
    · rw [Function.update_of_ne (different listed')]
      exact (kept listed').1
  · intro first listed second listed' distinct
    rcases List.mem_cons.1 (listedEq.mem_iff.1 listed) with same | old
    · rcases List.mem_cons.1 (listedEq.mem_iff.1 listed') with same' | old'
      · exact absurd (same.trans same'.symm) distinct
      · rw [same, Function.update_self, Function.update_of_ne (different old')]
        exact apart old'
    · rw [Function.update_of_ne (different old)]
      rcases List.mem_cons.1 (listedEq.mem_iff.1 listed') with same' | old'
      · rw [same', Function.update_self]
        exact (apart old).symm
      · rw [Function.update_of_ne (different old')]
        exact isolated.apart first old second old' distinct
  · intro node member
    rw [listingEq, List.mem_insertIdx place]
    exact Or.inr member

/-- What the directory looks like between the two steps of `fs_remove`. -/
theorem Isolated.listed_removed {middle : Fs} {index : Nat}
    (place : index < (listing fs.toVolume).length)
    (changed : DirectoryChanged fs middle
      (removedNodes fs.toVolume index (listing fs.toVolume).length)) :
    (listedInodes fs.toVolume).Perm ((fs.node index).inode :: listedInodes middle.toVolume) := by
  have entry := isolated.directory.getElem_listing place
  have perm := (List.getElem_cons_eraseIdx_perm place).map DirectoryNode.inode
  rw [List.map_cons, ← changed.listing_removed isolated.directory place] at perm
  rw [← entry]
  exact perm.symm

/-- The first step of `fs_remove` takes the file out of the directory. -/
theorem Isolated.unlisted {middle : Fs} {index : Nat}
    (place : index < (listing fs.toVolume).length)
    (changed : DirectoryChanged fs middle
      (removedNodes fs.toVolume index (listing fs.toVolume).length)) :
    Isolated middle chain ∧
      listing middle.toVolume = (listing fs.toVolume).eraseIdx index ∧
      ∀ other ∈ listedInodes middle.toVolume, SameFile fs.toVolume middle.toVolume other ∧
        (fs.node index).inode ∉ other :: (chain other).map Prod.fst := by
  have directory := changed.directory_removed isolated.directory place
  have perm := isolated.listed_removed place changed
  have nodup := isolated.nodup
  rw [perm.nodup_iff, List.nodup_cons] at nodup
  have old {other : Nat} (listed : other ∈ listedInodes middle.toVolume) :
      other ∈ listedInodes fs.toVolume := perm.mem_iff.2 (List.mem_cons_of_mem _ listed)
  have kept {other : Nat} (listed : other ∈ listedInodes middle.toVolume) :=
    (isolated.files other (old listed)).kept changed.kept fun entry member =>
      changed.fsPage entry ((isolated.files other (old listed)).entry_lt
        (listedInodes_lt listed) entry member)
  refine ⟨⟨changed.anchored, ?_, nodup.2, fun other listed => (kept listed).1, ?_⟩,
    changed.listing_removed isolated.directory place,
    fun other listed => ⟨(kept listed).2, ?_⟩⟩
  · rw [directory.length_listing]
    exact directory
  · intro first listed second listed' distinct
    exact isolated.apart first (old listed) second (old listed') distinct
  · have gone : (fs.node index).inode ∈ listedInodes fs.toVolume :=
      perm.mem_iff.2 List.mem_cons_self
    have different : other ≠ (fs.node index).inode := fun same => nodup.1 (same ▸ listed)
    have apart := isolated.apart other (old listed) _ gone different
    exact fun member => apart.inodes member List.mem_cons_self

/-- The second step of `fs_remove` frees an inode that no listed file uses. -/
theorem Isolated.freed {inode : Nat}
    (unused : ∀ other ∈ listedInodes fs.toVolume, inode ∉ other :: (chain other).map Prod.fst)
    (freed : TableUpdated fs after inode 0xffff) :
    Isolated after chain ∧ listing after.toVolume = listing fs.toVolume ∧
      ∀ other ∈ listedInodes fs.toVolume, SameFile fs.toVolume after.toVolume other := by
  have listingEq : listing after.toVolume = listing fs.toVolume := listing_congr freed.node
  have listedEq : listedInodes after.toVolume = listedInodes fs.toVolume := by
    rw [listedInodes, listingEq, listedInodes]
  have kept {other : Nat} (listed : other ∈ listedInodes fs.toVolume) :=
    (isolated.files other listed).kept freed.kept fun entry member => by
      rw [freed.fsPage entry ((isolated.files other listed).entry_lt (listedInodes_lt listed)
        entry member), if_neg]
      rintro rfl
      exact unused other listed member
  refine ⟨⟨freed.anchored, ?_, ?_, ?_, ?_⟩, listingEq, fun other listed => (kept listed).2⟩
  · rw [listingEq]
    exact isolated.directory.congr freed.nodeUnused
  · rw [listedEq]
    exact isolated.nodup
  · rw [listedEq]
    exact fun other listed => (kept listed).1
  · rw [listedEq]
    exact isolated.apart

theorem Isolated.spared_mem_eraseIdx {name : List UInt8} {index : Nat}
    (place : index < (listing fs.toVolume).length)
    (matched : strncmp 6 (fs.node index).name.val name = .eq) {node : DirectoryNode}
    (member : node ∈ listing fs.toVolume) (other : strncmp 6 node.name.val name ≠ .eq) :
    node ∈ (listing fs.toVolume).eraseIdx index := by
  obtain ⟨position, inside, rfl⟩ := List.getElem_of_mem member
  rw [List.mem_eraseIdx_iff_getElem]
  refine ⟨position, inside, ?_, rfl⟩
  rintro rfl
  apply other
  rw [isolated.directory.getElem_listing inside]
  exact matched

/-- A call keeps the files apart, and the files it is not made for as they are. -/
theorem Isolated.preserved {operation : Operation} (effect : Effect fs operation after) :
    ∃ chain', Isolated after chain' ∧
      ∀ node ∈ listing fs.toVolume, operation.Spares node →
        node ∈ listing after.toVolume ∧ SameFile fs.toVolume after.toVolume node.inode := by
  have listed {volume : Volume} {node : DirectoryNode} (member : node ∈ listing volume) :
      node.inode ∈ listedInodes volume := List.mem_map_of_mem member
  cases effect with
  | unchanged => exact ⟨chain, isolated, fun node member _ => ⟨member, .refl _ _⟩⟩
  | @written operation after inode target links links' taken rewrites own written unlisted count =>
      obtain ⟨isolated', listingEq, same⟩ := isolated.written own written unlisted
      refine ⟨_, isolated', fun node member spared => ⟨listingEq ▸ member, ?_⟩⟩
      apply same _ (listed member)
      cases operation with
      | create => cases rewrites
      | remove => cases rewrites
      | write => exact fun equal => spared (equal.trans (Option.some.inj rewrites).symm)
      | truncate => exact fun equal => spared (equal.trans (Option.some.inj rewrites).symm)
  | created place room free unlisted changed =>
      obtain ⟨isolated', stays, same⟩ := isolated.created place room free unlisted changed
      exact ⟨_, isolated', fun node member _ => ⟨stays node member, same _ (listed member)⟩⟩
  | removed place matched changed freed =>
      obtain ⟨isolatedMiddle, middleEq, first⟩ := isolated.unlisted place changed
      obtain ⟨isolated', listingEq, second⟩ :=
        isolatedMiddle.freed (fun other listed => (first other listed).2) freed
      refine ⟨chain, isolated', fun node member spared => ?_⟩
      have stays := isolated.spared_mem_eraseIdx place matched member spared
      rw [← middleEq] at stays
      exact ⟨listingEq ▸ stays, (first _ (listed stays)).1.trans (second _ (listed stays))⟩

end Preserved

theorem FreshlyFormatted.isolated {fs : Fs} (formatted : FreshlyFormatted fs) :
    Isolated fs fun _ => [] := by
  have empty : listing fs.toVolume = [] := by
    rw [formatted.directory.listing_eq]
    rfl
  have none : listedInodes fs.toVolume = [] := by
    rw [listedInodes, empty]
    rfl
  refine ⟨formatted.anchored, ?_, ?_, ?_, ?_⟩
  · rw [empty]
    exact formatted.directory
  · rw [none]
    exact List.nodup_nil
  · rw [none]
    simp
  · rw [none]
    simp

theorem FreshlyFormatted.keepsApart_create {fs : Fs} (formatted : FreshlyFormatted fs)
    (name : List UInt8) : KeepsApart fs (.create name) := by
  obtain ⟨others, free⟩ := freeInodes_zero (formatted.inodes 0 (by omega) (by omega))
  have empty : listing fs.toVolume = [] := by
    rw [formatted.directory.listing_eq]
    rfl
  refine Or.inr ⟨by rw [empty]; decide, by rw [formatted.spare_eq]; omega, 0,
    by rw [free]; rfl, ?_⟩
  rw [listedInodes, empty]
  simp

theorem exists_isolated_run {fs : Fs} {operations : List Operation}
    (formatted : FreshlyFormatted fs)
    (guarded : GuardedRuns.Guarded step KeepsApart fs operations) :
    ∃ last, GuardedRuns.run step fs operations = some last ∧
      ∃ chain, Isolated last chain := by
  have progress : ∀ state operation, (∃ chain, Isolated state chain) →
      KeepsApart state operation →
      ∃ next, step state operation = some next ∧ ∃ chain, Isolated next chain := by
    rintro state operation ⟨chain, isolated⟩ keeps
    obtain ⟨status, after, result, effect⟩ := isolated.effect keeps
    obtain ⟨chain', isolated', _⟩ := isolated.preserved effect
    exact ⟨after, step_of_execute result, chain', isolated'⟩
  exact guarded.exists_run progress ⟨_, formatted.isolated⟩

/-- In every run from a formatted flash whose calls keep files apart, the listed
inodes are different, no two files share an inode or a page, and a further such
call leaves the files it is not made for as they are. -/
theorem isolated_of_guarded_run {power formatted : Fs} {operations : List Operation}
    (blank : Unformatted power.flash) (mounted : fsInit power = some (.ok, formatted))
    (guarded : GuardedRuns.Guarded step KeepsApart formatted operations) :
    ∃ last, GuardedRuns.run step formatted operations = some last ∧
      (listedInodes last.toVolume).Nodup ∧
      (∀ inode ∈ listedInodes last.toVolume, ∀ other ∈ listedInodes last.toVolume,
        inode ≠ other → ∃ links links', IsFile last.toVolume inode links ∧
          IsFile last.toVolume other links' ∧ Apart inode links other links') ∧
      ∀ operation status after, KeepsApart last operation →
        execute last operation = some (status, after) →
        ∀ node ∈ listing last.toVolume, operation.Spares node →
          node ∈ listing after.toVolume ∧ SameFile last.toVolume after.toVolume node.inode := by
  obtain ⟨after, mounted', fresh, _, _⟩ := fsInit_of_unformatted blank
  obtain rfl : after = formatted := by
    rw [mounted', Option.some.injEq, Prod.mk.injEq] at mounted
    exact mounted.2
  obtain ⟨last, reached, chain, isolated⟩ := exists_isolated_run fresh guarded
  refine ⟨last, reached, isolated.nodup, ?_, ?_⟩
  · intro inode listed other listed' different
    exact ⟨chain inode, chain other, (isolated.files inode listed).file,
      (isolated.files other listed').file, isolated.apart inode listed other listed' different⟩
  · intro operation status after keeps result
    obtain ⟨status', after', result', effect⟩ := isolated.effect keeps
    rw [result', Option.some.injEq, Prod.mk.injEq] at result
    obtain ⟨_, _, spared⟩ := isolated.preserved effect
    rw [← result.2]
    exact spared

/-- A file is created on a new chip and gets one byte, and another file is created. -/
theorem isolated_two_files :
    ∃ formatted last, fsInit blankChip = some (.ok, formatted) ∧
      GuardedRuns.run step formatted [.create [97], .write 0 [7] 0, .create [98]] = some last ∧
      (listedInodes last.toVolume).Nodup := by
  obtain ⟨formatted, fs, mounted, created, listed, _, writable⟩ := exists_first_file [97]
  obtain ⟨_, mounted', fresh, _⟩ := fsInit_of_unformatted unformatted_blankChip
  rw [mounted, Option.some.injEq, Prod.mk.injEq] at mounted'
  obtain ⟨-, rfl⟩ := mounted'
  obtain ⟨anchored, bound, file, covered, room, free⟩ := writable 1024 (by omega)
  have rounds (length : Nat) : writeRounds fs.toVolume 0 0 length = Dataflash.rounds 0 length := by
    cases file with
    | unwritten missing => rw [writeRounds, if_pos missing, if_pos rfl]
  have single : writeRounds fs.toVolume 0 0 [(7 : UInt8)].length = 1 := rounds 1
  rw [rounds, show Dataflash.rounds 0 1024 = 2 from rfl] at room free
  have second : KeepsApart fs (.write 0 [7] 0) := by
    refine ⟨Or.inl (by rw [listed]; simp), by omega, by omega, ?_⟩
    rw [takenInodes, single]
    simp
  have third : ∀ next, step fs (.write 0 [7] 0) = some next → KeepsApart next (.create [98]) := by
    intro next reached
    have roomHere : 1 + 3 * writeRounds fs.toVolume 0 0 [(7 : UInt8)].length ≤ spare fs := by omega
    rcases fsWrite_spec [7] anchored bound file covered roomHere (by omega) with
      ⟨_, beyond⟩ | ⟨after, links, target, taken, result, written, count, -, left, -⟩
    · exact absurd beyond (Nat.not_lt_zero _)
    have result' : execute fs (.write 0 [7] 0) = some (.ok, after) := congrArg some result
    rw [step_of_execute result', Option.some.injEq] at reached
    obtain rfl : taken = [] := List.length_eq_zero_iff.1 (by omega)
    obtain rfl : target = 0 := by simpa using written.target_mem
    have same := listing_congr written.rewritten.node
    have freed := written.rewritten.free
    rw [List.nil_append] at freed
    obtain ⟨inode, others, split⟩ := List.exists_cons_of_ne_nil
      (l := freeInodes after.toVolume) (by rw [← List.length_pos_iff, ← freed]; omega)
    have member : inode ∈ freeInodes after.toVolume := by simp [split]
    rw [← freed, List.mem_filter] at member
    rw [← reached]
    refine Or.inr ⟨?_, left, inode, by rw [split]; rfl, ?_⟩
    · have length := congrArg List.length listed
      rw [listedInodes, List.length_map] at length
      rw [same, length]
      decide
    · rw [listedInodes, same, ← listedInodes.eq_1, listed]
      simpa using member.2
  have guarded : GuardedRuns.Guarded step KeepsApart formatted
      [.create [97], .write 0 [7] 0, .create [98]] := by
    have created' : execute formatted (.create [97]) = some (.ok, fs) := created
    refine ⟨fresh.keepsApart_create [97], fun next reached => ?_⟩
    rw [step_of_execute created', Option.some.injEq] at reached
    rw [← reached]
    exact ⟨second, fun last written => ⟨third last written, fun _ _ => trivial⟩⟩
  obtain ⟨last, reached, nodup, _⟩ :=
    isolated_of_guarded_run unformatted_blankChip mounted guarded
  exact ⟨formatted, last, mounted, reached, nodup⟩

/-- Two files that are created one after the other get the same inode. -/
theorem create_twice_same_inode :
    ∃ formatted last, fsInit blankChip = some (.ok, formatted) ∧
      GuardedRuns.run step formatted [.create [97], .create [98]] = some last ∧
      listedInodes last.toVolume = [0, 0] ∧ ¬(listedInodes last.toVolume).Nodup := by
  obtain ⟨formatted, mounted, fresh, _⟩ := fsInit_of_unformatted unformatted_blankChip
  obtain ⟨fs, created, changed, lastFree⟩ := fresh.fsCreate_eq [97]
  have directory := changed.directory_inserted fresh.directory rfl (by omega) (by omega)
  obtain ⟨listed, _⟩ := fresh.first_file changed lastFree
  obtain ⟨others, free⟩ : ∃ others, freeInodes fs.toVolume = 0 :: others := by
    apply freeInodes_zero
    rw [changed.fsPage 0 (by omega)]
    exact fresh.inodes 0 (by omega) (by omega)
  obtain ⟨last, index, result, place, changed', _⟩ := fsCreate_second changed.anchored directory
    (changed.node 0 (by omega)) (OnlySystemMarked.kept fresh.used changed.kept)
    (by rw [lastFree]; omega) (by rw [lastFree]; omega) free
  have both : listedInodes last.toVolume = [0, 0] := by
    rw [listedInodes, changed'.listing_inserted directory rfl place (by omega), listed]
    obtain rfl | rfl : index = 0 ∨ index = 1 := by omega
    · rfl
    · rfl
  have created' : execute formatted (.create [97]) = some (.ok, fs) := created
  have result' : execute fs (.create [98]) = some (.ok, last) := result
  refine ⟨formatted, last, mounted, ?_, both, by rw [both]; decide⟩
  rw [GuardedRuns.run, step_of_execute created', Option.bind_some, GuardedRuns.run,
    step_of_execute result', Option.bind_some, GuardedRuns.run]

end Ethersex.Dataflash

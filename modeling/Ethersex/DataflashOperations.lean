import Ethersex.DataflashInit
import Mathlib.Data.List.TakeWhile
import Mathlib.Order.Interval.Finset.Nat

/-!
# The calls of the file system, and the directory they show

The directory lists the entries up to the first unused one.  `fs_create` inserts
an entry into this list and `fs_remove` takes one out.
-/

namespace Ethersex.Dataflash

open ByteMemory

variable {volume : Volume}

inductive Operation
  | create (name : List UInt8)
  | write (inode : Nat) (buf : List UInt8) (offset : Nat)
  | truncate (inode length : Nat)
  | remove (name : List UInt8)
deriving DecidableEq, Repr

def execute (fs : Fs) : Operation → Option (Status × Fs)
  | .create name => fsCreate fs name
  | .write inode buf offset => some (fsWrite fs inode buf offset)
  | .truncate inode length => some (fsTruncate fs inode length)
  | .remove name => fsRemove fs name

def step (fs : Fs) (operation : Operation) : Option Fs :=
  (execute fs operation).map Prod.snd

theorem step_of_execute {fs after : Fs} {operation : Operation} {status : Status}
    (result : execute fs operation = some (status, after)) : step fs operation = some after := by
  rw [step, result, Option.map_some]

/-- The entries in front of the first unused one. -/
def listing (volume : Volume) : List DirectoryNode :=
  ((List.range 60).map volume.node).takeWhile fun node => !node.unused

def listedInodes (volume : Volume) : List Nat := (listing volume).map DirectoryNode.inode

/-- The entries from `count` on are unused. -/
structure Directory (volume : Volume) (count : Nat) : Prop where
  count_le : count ≤ 60
  used : ∀ index < count, (volume.node index).unused = false
  rest : ∀ index, count ≤ index → index ≤ 60 → (volume.node index).unused = true

theorem Directory.ends {count : Nat} (directory : Directory volume count) :
    DirectoryEnds volume count :=
  ⟨directory.count_le, directory.used, directory.rest count (Nat.le_refl _) directory.count_le⟩

theorem DirectoryEnds.listing_eq {count : Nat} (directory : DirectoryEnds volume count) :
    listing volume = (List.range count).map volume.node := by
  obtain ⟨more, total⟩ := Nat.exists_eq_add_of_le directory.count_le
  have front : ∀ node ∈ (List.range count).map volume.node, (!node.unused) = true := by
    intro node member
    obtain ⟨index, inside, rfl⟩ := List.mem_map.1 member
    rw [directory.used index (List.mem_range.1 inside)]
    rfl
  rw [listing, total, List.range_add, List.map_append, List.takeWhile_append_of_pos front]
  cases more with
  | zero => simp
  | succ more =>
      rw [List.range_succ_eq_map, List.map_cons, List.map_cons, List.takeWhile_cons,
        Nat.add_zero, directory.ends]
      simp

theorem Directory.listing_eq {count : Nat} (directory : Directory volume count) :
    listing volume = (List.range count).map volume.node :=
  directory.ends.listing_eq

theorem Directory.length_listing {count : Nat}
    (directory : Directory volume count) : (listing volume).length = count := by
  rw [directory.listing_eq, List.length_map, List.length_range]

theorem Directory.getElem_listing {count index : Nat}
    (directory : Directory volume count) (inside : index < (listing volume).length) :
    (listing volume)[index] = volume.node index := by
  simp only [directory.listing_eq, List.getElem_map, List.getElem_range]

theorem Directory.mem_listing_of_used {count index : Nat}
    (directory : Directory volume count) (bound : index < 60)
    (used : (volume.node index).unused = false) : volume.node index ∈ listing volume := by
  rw [directory.listing_eq]
  refine List.mem_map_of_mem (List.mem_range.2 ?_)
  by_contra behind
  rw [directory.rest index (by omega) (by omega)] at used
  cases used

theorem mem_listing {node : DirectoryNode} (listed : node ∈ listing volume) :
    ∃ index < 60, node = volume.node index ∧ node.unused = false := by
  obtain ⟨index, inside, same⟩ := List.mem_map.1 (List.takeWhile_subset _ listed)
  have used := List.mem_takeWhile_imp listed
  exact ⟨index, List.mem_range.1 inside, same.symm, by simpa using used⟩

theorem node_inode_lt (volume : Volume) (index : Nat) : (volume.node index).inode < 4096 :=
  DirectoryNode.decode_inode_lt _

theorem listedInodes_lt {inode : Nat} (listed : inode ∈ listedInodes volume) :
    inode < 4096 := by
  obtain ⟨node, member, rfl⟩ := List.mem_map.1 listed
  obtain ⟨index, _, rfl, _⟩ := mem_listing member
  exact node_inode_lt volume index

theorem listing_congr {volume' : Volume}
    (nodes : ∀ index < 60, volume'.node index = volume.node index) :
    listing volume' = listing volume := by
  have same : (List.range 60).map volume'.node = (List.range 60).map volume.node :=
    List.map_congr_left fun index member => nodes index (List.mem_range.1 member)
  rw [listing, listing, same]

theorem Directory.congr {volume' : Volume} {count : Nat} (directory : Directory volume count)
    (unused : ∀ index ≤ 60, (volume'.node index).unused = (volume.node index).unused) :
    Directory volume' count where
  count_le := directory.count_le
  used := fun index inside => by
    rw [unused index (Nat.le_trans (Nat.le_of_lt inside) directory.count_le)]
    exact directory.used index inside
  rest := fun index behind inside => by
    rw [unused index inside]
    exact directory.rest index behind inside

section Insert

variable {before after : Fs} {node : DirectoryNode} {index count : Nat}

theorem Directory.inserted {volume' : Volume} (directory : Directory volume count)
    (nodes : ∀ other < 60, volume'.node other = insertedNodes volume node index count other)
    (endUnused : (volume'.node 60).unused = (volume.node 60).unused) (used : node.unused = false)
    (place : index ≤ count) (room : count < 60) : Directory volume' (count + 1) where
  count_le := room
  used := by
    intro other inside
    rw [nodes other (by omega), insertedNodes]
    by_cases earlier : other < index
    · rw [if_pos earlier]
      exact directory.used other (by omega)
    · rw [if_neg earlier]
      by_cases here : other = index
      · rw [if_pos here]
        exact used
      · rw [if_neg here, if_pos (by omega)]
        exact directory.used (other - 1) (by omega)
  rest := by
    intro other behind inside
    rcases Nat.eq_or_lt_of_le inside with last | within
    · rw [last, endUnused]
      exact directory.rest 60 (by omega) (Nat.le_refl _)
    · rw [nodes other within, insertedNodes, if_neg (by omega), if_neg (by omega),
        if_neg (by omega)]
      exact directory.rest other (by omega) inside

theorem DirectoryChanged.directory_inserted
    (changed : DirectoryChanged before after
      (insertedNodes before.toVolume node index count))
    (directory : Directory before.toVolume count) (used : node.unused = false)
    (place : index ≤ count) (room : count < 60) : Directory after.toVolume (count + 1) :=
  directory.inserted changed.node changed.endUnused used place room

theorem DirectoryChanged.listing_inserted
    (changed : DirectoryChanged before after
      (insertedNodes before.toVolume node index count))
    (directory : Directory before.toVolume count) (used : node.unused = false)
    (place : index ≤ count) (room : count < 60) :
    listing after.toVolume = (listing before.toVolume).insertIdx index node.stored := by
  have length := directory.length_listing
  rw [(changed.directory_inserted directory used place room).listing_eq]
  apply List.ext_getElem
  · rw [List.length_insertIdx_of_le_length (by omega), List.length_map, List.length_range, length]
  · intro other inside inside'
    rw [List.length_map, List.length_range] at inside
    simp only [directory.listing_eq, List.getElem_insertIdx, List.getElem_map, List.getElem_range]
    rw [changed.node other (by omega), insertedNodes]
    by_cases earlier : other < index
    · rw [if_pos earlier, dif_pos earlier]
    · rw [if_neg earlier, dif_neg earlier]
      by_cases here : other = index
      · rw [if_pos here, dif_pos here]
      · rw [if_neg here, dif_neg here, if_pos (by omega)]

end Insert

section Remove

variable {before after : Fs} {index count : Nat}

theorem Directory.removed {volume' : Volume} (directory : Directory volume count)
    (nodes : ∀ other < 60, volume'.node other = removedNodes volume index count other)
    (endUnused : (volume'.node 60).unused = (volume.node 60).unused) (place : index < count) :
    Directory volume' (count - 1) where
  count_le := Nat.le_trans (Nat.sub_le _ _) directory.count_le
  used := by
    have bound := directory.count_le
    intro other inside
    rw [nodes other (by omega), removedNodes]
    by_cases earlier : other < index
    · rw [if_pos earlier]
      exact directory.used other (by omega)
    · rw [if_neg earlier, if_pos inside]
      exact directory.used (other + 1) (by omega)
  rest := by
    have bound := directory.count_le
    intro other behind inside
    rcases Nat.eq_or_lt_of_le inside with last | within
    · rw [last, endUnused]
      exact directory.rest 60 (by omega) (Nat.le_refl _)
    · rw [nodes other within, removedNodes, if_neg (by omega), if_neg (by omega)]
      by_cases here : other = count - 1
      · rw [if_pos here]
      · rw [if_neg here]
        exact directory.rest other (by omega) inside

theorem DirectoryChanged.directory_removed
    (changed : DirectoryChanged before after (removedNodes before.toVolume index count))
    (directory : Directory before.toVolume count) (place : index < count) :
    Directory after.toVolume (count - 1) :=
  directory.removed changed.node changed.endUnused place

theorem DirectoryChanged.listing_removed
    (changed : DirectoryChanged before after (removedNodes before.toVolume index count))
    (directory : Directory before.toVolume count) (place : index < count) :
    listing after.toVolume = (listing before.toVolume).eraseIdx index := by
  have length := directory.length_listing
  have bound := directory.count_le
  rw [(changed.directory_removed directory place).listing_eq]
  apply List.ext_getElem
  · rw [List.length_eraseIdx_of_lt (by omega), List.length_map, List.length_range, length]
  · intro other inside inside'
    rw [List.length_map, List.length_range] at inside
    simp only [directory.listing_eq, List.getElem_eraseIdx, List.getElem_map, List.getElem_range]
    rw [changed.node other (by omega), removedNodes]
    by_cases earlier : other < index
    · rw [if_pos earlier, dif_pos earlier]
    · rw [if_neg earlier, dif_neg earlier, if_pos inside]

end Remove

/-- The new root of `fs_create` shows the directory with the new entry. -/
theorem directoryChanged_inserted {fs : Fs} {page rest index count : Nat} (anchored : Anchored fs)
    (fresh : Fresh fs page rest) (node : DirectoryNode) (place : index ≤ count)
    (room : count < 60) :
    DirectoryChanged fs (incremented (withBuffer fs (changedRoot fs
      (insertedEntries fs.toVolume node index count))) page)
      (insertedNodes fs.toVolume node index count) := by
  have inside : ∀ entry ∈ insertedEntries fs.toVolume node index count, entry.1 < 60 :=
    insertedEntries_lt place room
  have changed := directoryChanged_incremented anchored fresh inside
  exact { changed with
    node := fun other bound => by
      rw [changed.node other bound, pageNode_inserted anchored.root_lt place room bound] }

/-- `fs_create` changes nothing, or inserts an entry with the lowest unused inode. -/
theorem fsCreate_changed {fs : Fs} {count rest : Nat} (name : List UInt8) (anchored : Anchored fs)
    (directory : DirectoryEnds fs.toVolume count)
    (room : findPlace fs.toVolume name 66 0 0 ≠ some .duplicate →
      count < 60 ∧ rest + 1 ≤ spare fs ∧ freeInodes fs.toVolume ≠ []) :
    (findPlace fs.toVolume name 66 0 0 = some .duplicate ∧
      fsCreate fs name = some (.duplicate, fs)) ∨
    ∃ after index inode others,
      fsCreate fs name = some (.ok, after) ∧ index ≤ count ∧ count < 60 ∧
      freeInodes fs.toVolume = inode :: others ∧
      DirectoryChanged fs after (insertedNodes fs.toVolume
        (createdNode fs.toVolume name count inode) index count) ∧
      after.lastFree < 4096 ∧ ¬Covered fs after.lastFree ∧ rest ≤ spare after := by
  rcases fsCreate_spec name anchored directory room with
    same | ⟨index, inode, others, page, place, split, countLt, fresh, result⟩
  · exact Or.inl same
  · exact Or.inr ⟨_, index, inode, others, result, place, countLt, split,
      directoryChanged_inserted anchored fresh _ place countLt, fresh.lt, fresh.not_covered,
      Nat.le_trans fresh.rest (Nat.le_of_eq (spare_congr rfl rfl))⟩

/-- `fs_remove` changes nothing, or takes an entry out of the directory and frees
its inode. -/
theorem fsRemove_changed {fs : Fs} {count rest : Nat} (name : List UInt8) (anchored : Anchored fs)
    (directory : DirectoryEnds fs.toVolume count)
    (room : ∀ found, findName fs.toVolume name 66 0xffff 0xffff 0 = some found →
      found.index < found.max → rest + 3 ≤ spare fs) :
    (fsRemove fs name = some (.noSuchFile, fs) ∧
      ∀ found, findName fs.toVolume name 66 0xffff 0xffff 0 = some found →
        ¬found.index < found.max) ∨
    ∃ index middle after,
      index < count ∧ strncmp 6 (fs.node index).name.val name = .eq ∧
      fsRemove fs name = some (.ok, after) ∧
      DirectoryChanged fs middle (removedNodes fs.toVolume index count) ∧
      TableUpdated middle after (fs.node index).inode 0xffff ∧ rest ≤ spare after := by
  rcases fsRemove_spec name anchored directory room with
    same | ⟨index, page, table, root, place, matched, fresh, freshTable, freshRoot, result⟩
  · exact Or.inl same
  · have inside : ∀ entry ∈ removedEntries fs.toVolume index count, entry.1 < 60 :=
      removedEntries_lt place directory.count_le
    have changed : DirectoryChanged fs (unlisted fs index count page) _ :=
      directoryChanged_incremented anchored fresh inside
    refine Or.inr ⟨index, unlisted fs index count page, _, place, matched, result, ?_,
      tableUpdated_updated changed.anchored freshTable freshRoot (node_inode_lt _ _)
        (Or.inr rfl), ?_⟩
    · exact { changed with
        node := fun other bound => by
          rw [changed.node other bound,
            pageNode_removed anchored.root_lt place directory.count_le bound] }
    · exact Nat.le_trans freshRoot.rest (Nat.le_of_eq (spare_congr rfl rfl))

/-- All bits of the flash are set when the chip is new. -/
def blankChip : Fs where
  flash := fun _ _ => 0xff
  root := 0
  buf1 := fun _ => 0
  buf2 := fun _ => 0
  version := 0
  lastFree := 0
  uninit := fun _ => 0
  programs := []
  handouts := []

theorem unformatted_blankChip : Unformatted blankChip.flash := by
  intro page _ valid
  have unused : (pageHeader fun _ => 0xff).unused = true := by decide
  have used : (pageHeader fun _ => 0xff).unused = false := valid.used
  rw [unused] at used
  cases used

/-- Nothing but the pages that `fs_format` writes is marked. -/
def OnlySystemMarked (fs : Fs) : Prop := ∀ page < 4096, fsUsed fs page = true ↔ page ≤ 16

theorem OnlySystemMarked.spare_eq {fs : Fs} (marked : OnlySystemMarked fs) :
    spare fs = 4095 - max 16 fs.lastFree := by
  have pages : ((Finset.range 4096).filter fun page =>
      fs.lastFree < page ∧ fsUsed fs page = false) =
      Finset.Ico (max 16 fs.lastFree + 1) 4096 := by
    ext page
    simp only [Finset.mem_filter, Finset.mem_range, Finset.mem_Ico]
    constructor
    · rintro ⟨bound, above, unmarked⟩
      have behind : ¬page ≤ 16 := fun system => by
        rw [(marked page bound).2 system] at unmarked
        cases unmarked
      omega
    · rintro ⟨above, bound⟩
      refine ⟨bound, by omega, ?_⟩
      rw [← Bool.not_eq_true, marked page bound]
      omega
  rw [spare, pages, Nat.card_Ico]
  omega

theorem OnlySystemMarked.kept {before after : Fs} (marked : OnlySystemMarked before)
    (kept : Kept before after) : OnlySystemMarked after := by
  intro page bound
  rw [fsUsed_congr kept.bitmap]
  exact marked page bound

theorem freeInodes_first {inode : Nat} (bound : inode < 4096)
    (unused : fsPage volume inode = 0xffff)
    (before : ∀ other < inode, fsPage volume other ≠ 0xffff) :
    ∃ others, freeInodes volume = inode :: others := by
  obtain ⟨more, total⟩ := Nat.exists_eq_add_of_lt bound
  have none : (List.range inode).filter (fun other => fsPage volume other == 0xffff) = [] := by
    rw [List.filter_eq_nil_iff]
    intro other member
    simpa using before other (List.mem_range.1 member)
  rw [freeInodes, total, Nat.add_assoc, List.range_add, List.filter_append, none, List.nil_append,
    List.range_succ_eq_map, List.map_cons, List.filter_cons, Nat.add_zero, unused]
  exact ⟨_, rfl⟩

theorem freeInodes_zero (unused : fsPage volume 0 = 0xffff) :
    ∃ others, freeInodes volume = 0 :: others :=
  freeInodes_first (by omega) unused fun other before => by omega

section FirstFile

variable {fs : Fs} (formatted : FreshlyFormatted fs)
include formatted

theorem FreshlyFormatted.directory : Directory fs.toVolume 0 :=
  ⟨by omega, fun index inside => by omega, fun index _ inside => formatted.nodes index inside⟩

theorem FreshlyFormatted.spare_eq : spare fs = 4079 := by
  rw [OnlySystemMarked.spare_eq formatted.used, formatted.lastFree]
  rfl

/-- The first file gets inode 0. -/
theorem FreshlyFormatted.fsCreate_eq (name : List UInt8) :
    ∃ after, fsCreate fs name = some (.ok, after) ∧
      DirectoryChanged fs after
        (insertedNodes fs.toVolume (createdNode fs.toVolume name 0 0) 0 0) ∧
      after.lastFree = 17 := by
  obtain ⟨free, split⟩ := freeInodes_zero (formatted.inodes 0 (by omega) (by omega))
  have unused : (fs.node 0).unused = true := formatted.nodes 0 (by omega)
  have place : findPlace fs.toVolume name 66 0 0 = some (.at 0 0) := by
    rw [findPlace, if_pos unused]
  have enough := formatted.spare_eq
  rcases fsCreate_changed name formatted.anchored formatted.directory.ends
      fun _ => ⟨by omega, (by omega : 4078 + 1 ≤ spare fs), by rw [split]; simp⟩ with
    ⟨duplicate, _⟩ | ⟨after, index, inode, others, result, before, _, split', changed, bound,
      fresh, rest⟩
  · rw [place] at duplicate
    cases duplicate
  · rw [split, List.cons.injEq] at split'
    obtain ⟨rfl, -⟩ := split'
    obtain rfl : index = 0 := by omega
    refine ⟨after, result, changed, ?_⟩
    rw [(OnlySystemMarked.kept formatted.used changed.kept).spare_eq] at rest
    have behind : ¬after.lastFree ≤ 16 := fun system =>
      fresh (Or.inl ((formatted.used _ bound).2 system))
    omega

end FirstFile

/-- A second file behind the first one. -/
theorem fsCreate_second {fs : Fs} {inode : Nat} {others : List Nat}
    (anchored : Anchored fs) (directory : Directory fs.toVolume 1)
    (node : fs.node 0 = (createdNode volume [97] 0 0).stored) (marked : OnlySystemMarked fs)
    (behind : 16 ≤ fs.lastFree) (room : fs.lastFree < 4095)
    (free : freeInodes fs.toVolume = inode :: others) :
    ∃ last index, fsCreate fs [98] = some (.ok, last) ∧ index ≤ 1 ∧
      DirectoryChanged fs last
        (insertedNodes fs.toVolume (createdNode fs.toVolume [98] 1 inode) index 1) ∧
      last.lastFree = fs.lastFree + 1 := by
  have place : findPlace fs.toVolume [98] 66 0 0 ≠ some .duplicate := by
    have other : strncmp 6 (strncpy [97]).val [98] = .lt := by decide
    rw [findPlace, node]
    simp only [DirectoryNode.stored, createdNode, other, Bool.false_eq_true, if_false]
    rw [findPlace, if_pos (directory.rest 1 (by omega) (by omega))]
    simp
  have enough := marked.spare_eq
  rcases fsCreate_changed [98] anchored directory.ends
      fun _ => ⟨by omega, (by omega : spare fs - 1 + 1 ≤ spare fs), by rw [free]; simp⟩ with
    ⟨duplicate, _⟩ |
      ⟨last, index, inode', others', result, before, _, split, changed, bound, fresh, rest⟩
  · exact absurd duplicate place
  · rw [free, List.cons.injEq] at split
    obtain ⟨rfl, -⟩ := split
    refine ⟨last, index, result, before, changed, ?_⟩
    rw [(marked.kept changed.kept).spare_eq] at rest
    have above : ¬last.lastFree ≤ fs.lastFree := fun passed => fresh (Or.inr passed)
    omega

end Ethersex.Dataflash

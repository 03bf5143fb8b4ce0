import Ethersex.DataflashFiles

/-!
# Changing the directory

`fs_create` and `fs_remove` copy the root page into buffer 1, write some of its
nodes there and program the result as the new root.  The inode tables keep their
places.
-/

namespace Ethersex.Dataflash

open ByteMemory

/-- A node as it is read back. -/
def DirectoryNode.stored (node : DirectoryNode) : DirectoryNode :=
  { node with
    reserved := node.reserved % 4
    inode := node.inode % 4096 }

theorem DirectoryNode.stored_decode (bytes : List UInt8) :
    (DirectoryNode.decode bytes).stored = DirectoryNode.decode bytes := by
  have bound := wordAt_lt bytes 0
  simp only [stored, decode, DirectoryNode.mk.injEq, true_and, and_true]
  constructor <;> omega

theorem DirectoryNode.stored_unused {node : DirectoryNode} (same : node.stored = node) :
    ({ node with unused := true } : DirectoryNode).stored = { node with unused := true } := by
  have reserved := congrArg DirectoryNode.reserved same
  have inode := congrArg DirectoryNode.inode same
  simp only [stored] at reserved inode ⊢
  rw [reserved, inode]

/-- Nodes written to a page, each at its place. -/
def writtenNodes (page : Memory) (nodes : List (Nat × DirectoryNode)) : Memory :=
  nodes.foldl (fun page entry => writePage page (40 + entry.1 * 8) entry.2.encode) page

theorem pageNode_writtenNodes_of_notMem {nodes : List (Nat × DirectoryNode)} {index : Nat}
    (page : Memory) (inside : ∀ entry ∈ nodes, entry.1 < 60) (bound : index ≤ 60)
    (notMem : index ∉ nodes.map Prod.fst) :
    pageNode (writtenNodes page nodes) index = pageNode page index := by
  induction nodes generalizing page with
  | nil => rfl
  | cons entry nodes ih =>
      rw [List.map_cons, List.mem_cons, not_or] at notMem
      have here := inside entry List.mem_cons_self
      rw [writtenNodes, List.foldl_cons]
      refine (ih _ (fun other member => inside other (List.mem_cons_of_mem _ member))
        notMem.2).trans ?_
      rw [pageNode_writePage_encode _ _ (by omega) bound, if_neg notMem.1]

theorem pageNode_writtenNodes_of_mem {nodes : List (Nat × DirectoryNode)} {index : Nat}
    {node : DirectoryNode} (page : Memory) (inside : ∀ entry ∈ nodes, entry.1 < 60)
    (nodup : (nodes.map Prod.fst).Nodup) (member : (index, node) ∈ nodes) :
    pageNode (writtenNodes page nodes) index = node.stored := by
  induction nodes generalizing page with
  | nil => cases member
  | cons entry nodes ih =>
      rw [List.map_cons, List.nodup_cons] at nodup
      have here := inside entry List.mem_cons_self
      have rest : ∀ other ∈ nodes, other.1 < 60 :=
        fun other later => inside other (List.mem_cons_of_mem _ later)
      rw [writtenNodes, List.foldl_cons]
      rcases List.mem_cons.1 member with same | later
      · subst same
        refine (pageNode_writtenNodes_of_notMem _ rest (Nat.le_of_lt here) nodup.1).trans ?_
        rw [pageNode_writePage_encode _ _ (by omega) (by omega), if_pos rfl]
        rfl
      · exact ih _ rest nodup.2 later

theorem readPage_writtenNodes {nodes : List (Nat × DirectoryNode)} {start length : Nat}
    (page : Memory) (inside : ∀ entry ∈ nodes, entry.1 < 60) (bound : start + length ≤ 528)
    (outside : start + length ≤ 40 ∨ 520 ≤ start) :
    readPage (writtenNodes page nodes) start length = readPage page start length := by
  induction nodes generalizing page with
  | nil => rfl
  | cons entry nodes ih =>
      have here := inside entry List.mem_cons_self
      have size := entry.2.length_encode
      rw [writtenNodes, List.foldl_cons]
      refine (ih _ fun other member => inside other (List.mem_cons_of_mem _ member)).trans ?_
      exact readPage_writePage_disjoint (by omega) bound (by omega)

theorem foldl_writeNode (fs : Fs) (buffer : Memory) (indices : List Nat)
    (place source : Nat → Nat) :
    indices.foldl (fun fs index => writeNode fs (fs.node (source index)) (place index))
        (withBuffer fs buffer) =
      withBuffer fs (writtenNodes buffer
        (indices.map fun index => (place index, fs.node (source index)))) := by
  induction indices generalizing buffer with
  | nil => rfl
  | cons index indices ih =>
      rw [List.foldl_cons, List.map_cons]
      exact ih _

structure DirectoryChanged (before after : Fs) (nodes : Nat → DirectoryNode) : Prop where
  kept : Kept before after
  anchored : Anchored after
  fsPage : ∀ other < 4096, fsPage after.toVolume other = fsPage before.toVolume other
  node : ∀ index < 60, after.node index = nodes index
  endUnused : (after.node 60).unused = (before.node 60).unused
  newest : Newest before → before.version + 1 < 4294967296 →
    Newest after ∧ after.version = before.version + 1
  handouts : ∃ new, after.handouts = before.handouts ++ new ∧
    ∀ handout ∈ new, FreshHandout before handout
  root : after.root = after.lastFree
  programs : after.programs = before.programs ++ [(after.root, after.flash after.root)]
  flash : after.flash = Function.update before.flash after.root (after.flash after.root)

section Increment

variable {fs : Fs} {nodes : List (Nat × DirectoryNode)} {page rest : Nat}

/-- The content of buffer 1 when `fs_increment` is called. -/
def changedRoot (fs : Fs) (nodes : List (Nat × DirectoryNode)) : Memory :=
  writtenNodes (fs.flash fs.root) nodes

theorem flash_incremented_of_covered (fresh : Fresh fs page rest) (buffer : Memory) {other : Nat}
    (covered : Covered fs other) :
    (incremented (withBuffer fs buffer) page).flash other = fs.flash other :=
  Function.update_of_ne (fresh.ne_of_covered covered) ..

theorem flash_incremented_self (fs : Fs) (buffer : Memory) (page : Nat) :
    (incremented (withBuffer fs buffer) page).flash page =
      stampedPage buffer (nextVersion fs) :=
  Function.update_self _ _ _

theorem kept_incremented (fresh : Fresh fs page rest) (buffer : Memory) :
    Kept fs (incremented (withBuffer fs buffer) page) where
  bitmap := rfl
  lastFree := Nat.le_of_lt fresh.above
  flash := fun _ _ covered => flash_incremented_of_covered fresh buffer covered

theorem rootPage_incremented (bound : page < 4096) (buffer : Memory) :
    (incremented (withBuffer fs buffer) page).flash
        ((incremented (withBuffer fs buffer) page).root % 4096) =
      stampedPage buffer (nextVersion fs) := by
  show Function.update fs.flash page _ (page % 4096) = _
  rw [Nat.mod_eq_of_lt bound, Function.update_self]
  rfl

theorem node_incremented (bound : page < 4096) {index : Nat} (inside : index < 60) :
    (incremented (withBuffer fs (changedRoot fs nodes)) page).node index =
      pageNode (changedRoot fs nodes) index := by
  show pageNode ((incremented (withBuffer fs (changedRoot fs nodes)) page).flash
    ((incremented (withBuffer fs (changedRoot fs nodes)) page).root % 4096)) index = _
  rw [rootPage_incremented bound, pageNode_stampedPage _ _ inside]

theorem endUnused_incremented (rootBound : fs.root < 4096) (bound : page < 4096)
    (inside : ∀ entry ∈ nodes, entry.1 < 60) :
    ((incremented (withBuffer fs (changedRoot fs nodes)) page).node 60).unused =
      (fs.node 60).unused := by
  show (pageNode ((incremented (withBuffer fs (changedRoot fs nodes)) page).flash
    ((incremented (withBuffer fs (changedRoot fs nodes)) page).root % 4096)) 60).unused =
      (pageNode (fs.flash (fs.root % 4096)) 60).unused
  rw [rootPage_incremented bound, pageNode_unused_stampedPage _ _ (Nat.le_refl _),
    Nat.mod_eq_of_lt rootBound]
  exact pageNode_unused_congr (Nat.le_refl _)
    (readPage_writtenNodes _ inside (by omega) (by omega))

theorem fsInodetable_incremented (anchored : Anchored fs) (fresh : Fresh fs page rest)
    (inside : ∀ entry ∈ nodes, entry.1 < 60) {tableId : Nat} (bound : tableId < 16) :
    fsInodetable (incremented (withBuffer fs (changedRoot fs nodes)) page).toVolume tableId =
      fsInodetable fs.toVolume tableId := by
  show tablePointer ((incremented (withBuffer fs (changedRoot fs nodes)) page).flash
    ((incremented (withBuffer fs (changedRoot fs nodes)) page).root % 4096)) tableId =
      tablePointer (fs.flash (fs.root % 4096)) tableId
  rw [rootPage_incremented fresh.lt, tablePointer_stampedPage _ _ bound, changedRoot, tablePointer,
    readPage_writtenNodes _ inside (by omega) (by omega), Nat.mod_eq_of_lt anchored.root_lt,
    tablePointer]

theorem anchored_incremented (anchored : Anchored fs) (fresh : Fresh fs page rest)
    (inside : ∀ entry ∈ nodes, entry.1 < 60) :
    Anchored (incremented (withBuffer fs (changedRoot fs nodes)) page) where
  root_lt := fresh.lt
  rootCovered := Or.inr (Nat.le_refl _)
  table_lt := by
    intro tableId bound
    rw [fsInodetable_incremented anchored fresh inside bound]
    exact anchored.table_lt tableId bound
  tableCovered := by
    intro tableId bound
    rw [fsInodetable_incremented anchored fresh inside bound]
    exact (kept_incremented fresh _).covered (anchored.tableCovered tableId bound)

theorem newest_incremented (anchored : Anchored fs) (fresh : Fresh fs page rest)
    (inside : ∀ entry ∈ nodes, entry.1 < 60) (newest : Newest fs)
    (bound : fs.version + 1 < 4294967296) :
    Newest (incremented (withBuffer fs (changedRoot fs nodes)) page) ∧
      (incremented (withBuffer fs (changedRoot fs nodes)) page).version = fs.version + 1 := by
  have version : nextVersion fs = fs.version + 1 := Nat.mod_eq_of_lt bound
  have header : pageHeader (changedRoot fs nodes) = pageHeader (fs.flash fs.root) := by
    rw [changedRoot, pageHeader, readPage_writtenNodes _ inside (by omega) (by omega), pageHeader]
  have content : (incremented (withBuffer fs (changedRoot fs nodes)) page).flash page =
      stampedPage (changedRoot fs nodes) (nextVersion fs) := Function.update_self ..
  refine ⟨newest.switch version ?_ ?_ ?_ fresh.lt ?_, version⟩
  · show IsRootPage ((incremented (withBuffer fs (changedRoot fs nodes)) page).flash page)
    rw [content]
    apply isRootPage_stampedPage
    · rw [header, newest.valid.used]
    · rw [header, newest.valid.root]
  · show pageVersion ((incremented (withBuffer fs (changedRoot fs nodes)) page).flash page) = _
    rw [content, pageVersion_stampedPage, version, Nat.mod_eq_of_lt bound]
  · intro other _ (different : other ≠ page) _
    exact Function.update_of_ne different ..
  · intro tableId tableBound
    rw [fsInodetable_incremented anchored fresh inside tableBound,
      flash_incremented_of_covered fresh _ (anchored.tableCovered tableId tableBound),
      newest.tables tableId tableBound]

theorem directoryChanged_incremented (anchored : Anchored fs) (fresh : Fresh fs page rest)
    (inside : ∀ entry ∈ nodes, entry.1 < 60) :
    DirectoryChanged fs (incremented (withBuffer fs (changedRoot fs nodes)) page)
      (pageNode (changedRoot fs nodes)) where
  kept := kept_incremented fresh _
  anchored := anchored_incremented anchored fresh inside
  fsPage := by
    intro other bound
    have table : other / 256 < 16 := by omega
    apply fsPage_eq_of_tables
    rw [fsInodetable_incremented anchored fresh inside table,
      Nat.mod_eq_of_lt (anchored.table_lt _ table),
      flash_incremented_of_covered fresh _ (anchored.tableCovered _ table)]
  node := fun _ bound => node_incremented fresh.lt bound
  endUnused := endUnused_incremented anchored.root_lt fresh.lt inside
  newest := newest_incremented anchored fresh inside
  handouts := by
    refine ⟨[⟨page, fs.toVolume⟩], rfl, ?_⟩
    intro handout member
    rw [List.mem_singleton] at member
    subst member
    exact ⟨fresh.not_covered, rfl, fun _ _ _ => rfl⟩
  root := rfl
  programs := by
    show fs.programs ++ [(page, _)] =
      _ ++ [(page, (incremented (withBuffer fs (changedRoot fs nodes)) page).flash page)]
    rw [flash_incremented_self]
    rfl
  flash := by
    show _ = Function.update fs.flash page
      ((incremented (withBuffer fs (changedRoot fs nodes)) page).flash page)
    rw [flash_incremented_self]
    rfl

end Increment

theorem fsIncrement_nodes {fs : Fs} {rest : Nat} (enough : rest + 1 ≤ spare fs)
    (nodes : List (Nat × DirectoryNode)) :
    ∃ page, Fresh fs page rest ∧
      fsIncrement (withBuffer fs (changedRoot fs nodes)) =
        (.ok, incremented (withBuffer fs (changedRoot fs nodes)) page) := by
  have available : rest + 1 ≤ spare (withBuffer fs (changedRoot fs nodes)) := enough
  obtain ⟨page, fresh, result⟩ := fsIncrement_eq available
  exact ⟨page, ⟨fresh.above, fresh.lt, fresh.unmarked, fresh.rest⟩, result⟩

/-- The first unused entry of the directory is entry `count`. -/
structure DirectoryEnds (volume : Volume) (count : Nat) : Prop where
  count_le : count ≤ 60
  used : ∀ index < count, (volume.node index).unused = false
  ends : (volume.node count).unused = true

theorem findPlace_eq {volume : Volume} {count : Nat} (directory : DirectoryEnds volume count)
    (name : List UInt8) :
    ∀ (fuel index i : Nat), i ≤ count → count - i < fuel → index ≤ i →
      findPlace volume name fuel index i = some .duplicate ∨
      ∃ place ≤ count, findPlace volume name fuel index i = some (.at place count) := by
  intro fuel
  induction fuel with
  | zero => intro index i _ enough; omega
  | succ fuel ih =>
      intro index i inside enough lower
      rw [findPlace]
      rcases Nat.eq_or_lt_of_le inside with atEnd | before
      · subst atEnd
        refine Or.inr ⟨index, lower, ?_⟩
        simp only [directory.ends, if_true]
      · simp only [directory.used i before, Bool.false_eq_true, if_false]
        cases strncmp 6 (volume.node i).name.val name with
        | lt => exact ih (index + 1) (i + 1) (by omega) (by omega) (by omega)
        | eq => exact Or.inl rfl
        | gt => exact ih index (i + 1) (by omega) (by omega) (by omega)

/-- The state of the search for a name before entry `i`. -/
def FoundBefore (volume : Volume) (name : List UInt8) (i index inode : Nat) : Prop :=
  (index = 0xffff ∧ inode = 0xffff) ∨
    index < i ∧ strncmp 6 (volume.node index).name.val name = .eq ∧
      inode = (volume.node index).inode

theorem findName_eq {volume : Volume} {count : Nat} (directory : DirectoryEnds volume count)
    (name : List UInt8) :
    ∀ (fuel index inode i : Nat), i ≤ count → count - i < fuel →
      FoundBefore volume name i index inode →
      ∃ index' inode', findName volume name fuel index inode i = some ⟨index', inode', count⟩ ∧
        FoundBefore volume name count index' inode' := by
  intro fuel
  induction fuel with
  | zero => intro index inode i _ enough; omega
  | succ fuel ih =>
      intro index inode i inside enough found
      rw [findName]
      rcases Nat.eq_or_lt_of_le inside with atEnd | before
      · subst atEnd
        simp only [directory.ends, if_true]
        exact ⟨index, inode, rfl, found⟩
      · simp only [directory.used i before, Bool.false_eq_true, if_false]
        split
        case isTrue matched =>
          exact ih i (volume.node i).inode (i + 1) (by omega) (by omega)
            (Or.inr ⟨by omega, matched, rfl⟩)
        case isFalse =>
          refine ih index inode (i + 1) (by omega) (by omega) (found.imp_right ?_)
          rintro ⟨earlier, same⟩
          exact ⟨by omega, same⟩

def insertedEntries (volume : Volume) (node : DirectoryNode) (index count : Nat) :
    List (Nat × DirectoryNode) :=
  (index, node) :: (List.range' index (count - index)).map fun i => (i + 1, volume.node i)

theorem insertNode_eq {fs : Fs} (rootBound : fs.root < 4096) (node : DirectoryNode)
    (index count : Nat) :
    insertNode fs node index count =
      withBuffer fs (changedRoot fs (insertedEntries fs.toVolume node index count)) := by
  rw [insertNode, dfBufLoad_eq, Nat.mod_eq_of_lt rootBound]
  exact foldl_writeNode fs _ _ (fun i => i + 1) (fun i => i)

theorem insertedEntries_lt {volume : Volume} {node : DirectoryNode} {index count : Nat}
    (place : index ≤ count) (room : count < 60) :
    ∀ entry ∈ insertedEntries volume node index count, entry.1 < 60 := by
  intro entry member
  rcases List.mem_cons.1 member with same | later
  · rw [same]
    exact Nat.lt_of_le_of_lt place room
  · obtain ⟨i, range, rfl⟩ := List.mem_map.1 later
    rw [List.mem_range'_1] at range
    show i + 1 < 60
    omega

/-- The directory with a node inserted at `index`. -/
def insertedNodes (volume : Volume) (node : DirectoryNode) (index count place : Nat) :
    DirectoryNode :=
  if place < index then volume.node place
  else if place = index then node.stored
  else if place ≤ count then volume.node (place - 1)
  else volume.node place

theorem map_fst_insertedEntries (volume : Volume) (node : DirectoryNode) (index count : Nat) :
    (insertedEntries volume node index count).map Prod.fst =
      List.range' index (count - index + 1) := by
  rw [insertedEntries, List.map_cons, List.map_map, List.range'_succ, List.range'_succ_left]
  rfl

theorem stored_node (volume : Volume) (index : Nat) :
    (volume.node index).stored = volume.node index :=
  DirectoryNode.stored_decode _

theorem pageNode_inserted {fs : Fs} (rootBound : fs.root < 4096) {node : DirectoryNode}
    {index count : Nat} (place : index ≤ count) (room : count < 60) {other : Nat}
    (bound : other < 60) :
    pageNode (changedRoot fs (insertedEntries fs.toVolume node index count)) other =
      insertedNodes fs.toVolume node index count other := by
  have inside : ∀ entry ∈ insertedEntries fs.toVolume node index count, entry.1 < 60 :=
    insertedEntries_lt place room
  have places := map_fst_insertedEntries fs.toVolume node index count
  have nodup : ((insertedEntries fs.toVolume node index count).map Prod.fst).Nodup := by
    rw [places]
    exact List.nodup_range'
  have old : pageNode (fs.flash fs.root) other = fs.node other := by
    show _ = pageNode (fs.flash (fs.root % 4096)) other
    rw [Nat.mod_eq_of_lt rootBound]
  rw [changedRoot, insertedNodes]
  by_cases before : other < index
  · rw [if_pos before, pageNode_writtenNodes_of_notMem _ inside (Nat.le_of_lt bound), old]
    rw [places, List.mem_range'_1]
    omega
  · rw [if_neg before]
    by_cases here : other = index
    · rw [if_pos here]
      apply pageNode_writtenNodes_of_mem _ inside nodup
      rw [here]
      exact List.mem_cons_self
    · rw [if_neg here]
      by_cases behind : other ≤ count
      · rw [if_pos behind, ← stored_node fs.toVolume (other - 1)]
        apply pageNode_writtenNodes_of_mem _ inside nodup
        refine List.mem_cons_of_mem _ (List.mem_map.2 ⟨other - 1, ?_, ?_⟩)
        · rw [List.mem_range'_1]
          omega
        · rw [Nat.sub_add_cancel (by omega)]
      · rw [if_neg behind, pageNode_writtenNodes_of_notMem _ inside (Nat.le_of_lt bound), old]
        rw [places, List.mem_range'_1]
        omega

/-- The node `fs_create` makes. -/
def createdNode (volume : Volume) (name : List UInt8) (count inode : Nat) : DirectoryNode :=
  { volume.node count with
    name := strncpy name
    unused := false
    file := true
    inode := inode }

/-- `fs_create` when a place has been found; the inode has twelve bits, so that it is never
`0xffff`. -/
theorem fsCreate_of_place {fs : Fs} {index count : Nat} {name : List UInt8}
    (rootBound : fs.root < 4096)
    (found : findPlace fs.toVolume name 66 0 0 = some (.at index count)) :
    fsCreate fs name = some (fsIncrement (withBuffer fs (changedRoot fs
      (insertedEntries fs.toVolume
        (createdNode fs.toVolume name count (fsNewInode fs.toVolume % 4096)) index count)))) := by
  rw [← insertNode_eq rootBound]
  simp only [fsCreate, found, Option.map_some]
  rw [if_neg (by omega)]
  rfl

/-- `fs_create` when a place, an inode and a page have been found. -/
theorem fsCreate_at {fs : Fs} {index count inode rest : Nat} {others : List Nat}
    {name : List UInt8} (anchored : Anchored fs)
    (found : findPlace fs.toVolume name 66 0 0 = some (.at index count))
    (enough : rest + 1 ≤ spare fs) (split : freeInodes fs.toVolume = inode :: others) :
    ∃ page, Fresh fs page rest ∧
      fsCreate fs name = some (.ok, incremented (withBuffer fs (changedRoot fs
        (insertedEntries fs.toVolume (createdNode fs.toVolume name count inode) index count)))
        page) := by
  have inodeBound : inode < 4096 := by
    have member : inode ∈ freeInodes fs.toVolume := by simp [split]
    exact (mem_freeInodes.1 member).1
  obtain ⟨page, fresh, result⟩ := fsIncrement_nodes enough
    (insertedEntries fs.toVolume (createdNode fs.toVolume name count inode) index count)
  refine ⟨page, fresh, ?_⟩
  rw [fsCreate_of_place anchored.root_lt found, fsNewInode_of_free split,
    Nat.mod_eq_of_lt inodeBound, result]

/-- `fs_create` changes nothing, or inserts a node with the lowest free inode. -/
theorem fsCreate_spec {fs : Fs} {count rest : Nat} (name : List UInt8) (anchored : Anchored fs)
    (directory : DirectoryEnds fs.toVolume count)
    (room : findPlace fs.toVolume name 66 0 0 ≠ some .duplicate →
      count < 60 ∧ rest + 1 ≤ spare fs ∧ freeInodes fs.toVolume ≠ []) :
    (findPlace fs.toVolume name 66 0 0 = some .duplicate ∧
      fsCreate fs name = some (.duplicate, fs)) ∨
    ∃ index inode others page,
      index ≤ count ∧ freeInodes fs.toVolume = inode :: others ∧ count < 60 ∧
      Fresh fs page rest ∧
      fsCreate fs name = some (.ok, incremented (withBuffer fs (changedRoot fs
        (insertedEntries fs.toVolume (createdNode fs.toVolume name count inode) index count)))
        page) := by
  have bound := directory.count_le
  rcases findPlace_eq directory name 66 0 0 (by omega) (by omega) (by omega) with
    duplicate | ⟨index, place, found⟩
  · refine Or.inl ⟨duplicate, ?_⟩
    simp only [fsCreate, duplicate, Option.map_some]
  · obtain ⟨countLt, enough, available⟩ := room (by rw [found]; simp)
    obtain ⟨inode, others, split⟩ := List.exists_cons_of_ne_nil available
    obtain ⟨page, fresh, result⟩ := fsCreate_at anchored found enough split
    exact Or.inr ⟨index, inode, others, page, place, split, countLt, fresh, result⟩

def removedEntries (volume : Volume) (index count : Nat) : List (Nat × DirectoryNode) :=
  ((List.range' index (count - 1 - index)).map fun i => (i, volume.node (i + 1))) ++
    [(count - 1, { leftoverNode volume index count with unused := true })]

theorem deleteNode_eq {fs : Fs} (rootBound : fs.root < 4096) (index count : Nat) :
    deleteNode fs index count =
      withBuffer fs (changedRoot fs (removedEntries fs.toVolume index count)) := by
  rw [deleteNode, shiftDown, dfBufLoad_eq, Nat.mod_eq_of_lt rootBound,
    foldl_writeNode fs _ _ (fun i => i) (fun i => i + 1), changedRoot, removedEntries, writtenNodes,
    writtenNodes, List.foldl_append]
  rfl

theorem removedEntries_lt {volume : Volume} {index count : Nat} (place : index < count)
    (bound : count ≤ 60) : ∀ entry ∈ removedEntries volume index count, entry.1 < 60 := by
  intro entry member
  rcases List.mem_append.1 member with copied | last
  · obtain ⟨i, range, rfl⟩ := List.mem_map.1 copied
    rw [List.mem_range'_1] at range
    show i < 60
    omega
  · rw [List.mem_singleton.1 last]
    show count - 1 < 60
    omega

/-- The directory without the node at `index`. -/
def removedNodes (volume : Volume) (index count place : Nat) : DirectoryNode :=
  if place < index then volume.node place
  else if place < count - 1 then volume.node (place + 1)
  else if place = count - 1 then { leftoverNode volume index count with unused := true }
  else volume.node place

theorem map_fst_removedEntries (volume : Volume) {index count : Nat} (place : index < count) :
    (removedEntries volume index count).map Prod.fst = List.range' index (count - index) := by
  have split : count - index = (count - 1 - index) + 1 := by omega
  rw [removedEntries, List.map_append, List.map_map, split, List.range'_1_concat]
  congr 1
  · exact List.map_id _
  · rw [List.map_singleton]
    congr 1
    show count - 1 = _
    omega

theorem pageNode_removed {fs : Fs} (rootBound : fs.root < 4096) {index count : Nat}
    (place : index < count) (countBound : count ≤ 60) {other : Nat} (bound : other < 60) :
    pageNode (changedRoot fs (removedEntries fs.toVolume index count)) other =
      removedNodes fs.toVolume index count other := by
  have inside : ∀ entry ∈ removedEntries fs.toVolume index count, entry.1 < 60 :=
    removedEntries_lt place countBound
  have places := map_fst_removedEntries fs.toVolume place
  have nodup : ((removedEntries fs.toVolume index count).map Prod.fst).Nodup := by
    rw [places]
    exact List.nodup_range'
  have old : pageNode (fs.flash fs.root) other = fs.node other := by
    show _ = pageNode (fs.flash (fs.root % 4096)) other
    rw [Nat.mod_eq_of_lt rootBound]
  rw [changedRoot, removedNodes]
  by_cases before : other < index
  · rw [if_pos before, pageNode_writtenNodes_of_notMem _ inside (Nat.le_of_lt bound), old]
    rw [places, List.mem_range'_1]
    omega
  · rw [if_neg before]
    by_cases copied : other < count - 1
    · rw [if_pos copied, ← stored_node fs.toVolume (other + 1)]
      apply pageNode_writtenNodes_of_mem _ inside nodup
      refine List.mem_append_left _ (List.mem_map.2 ⟨other, ?_, rfl⟩)
      rw [List.mem_range'_1]
      omega
    · rw [if_neg copied]
      by_cases last : other = count - 1
      · have stored : (leftoverNode fs.toVolume index count).stored =
            leftoverNode fs.toVolume index count := by
          unfold leftoverNode
          split <;> exact stored_node _ _
        have leftover := DirectoryNode.stored_unused stored
        rw [if_pos last, ← leftover]
        apply pageNode_writtenNodes_of_mem _ inside nodup
        rw [last]
        exact List.mem_append_right _ List.mem_cons_self
      · rw [if_neg last, pageNode_writtenNodes_of_notMem _ inside (Nat.le_of_lt bound), old]
        rw [places, List.mem_range'_1]
        omega

/-- The volume between the two steps of `fs_remove`. -/
def unlisted (fs : Fs) (index count page : Nat) : Fs :=
  incremented (withBuffer fs (changedRoot fs (removedEntries fs.toVolume index count))) page

/-- `fs_remove` changes nothing, or takes the node out of the directory and then
frees its inode. -/
theorem fsRemove_spec {fs : Fs} {count rest : Nat} (name : List UInt8) (anchored : Anchored fs)
    (directory : DirectoryEnds fs.toVolume count)
    (room : ∀ found, findName fs.toVolume name 66 0xffff 0xffff 0 = some found →
      found.index < found.max → rest + 3 ≤ spare fs) :
    (fsRemove fs name = some (.noSuchFile, fs) ∧
      ∀ found, findName fs.toVolume name 66 0xffff 0xffff 0 = some found →
        ¬found.index < found.max) ∨
    ∃ index page table root,
      index < count ∧ strncmp 6 (fs.node index).name.val name = .eq ∧
      Fresh fs page (rest + 2) ∧
      Fresh (unlisted fs index count page) table (rest + 1) ∧
      Fresh (handOut (unlisted fs index count page) table) root rest ∧
      fsRemove fs name = some (.ok,
        updated (unlisted fs index count page) (fs.node index).inode 0xffff table root) := by
  have bound := directory.count_le
  obtain ⟨index, inode, found, place⟩ := findName_eq directory name 66 0xffff 0xffff 0
    (by omega) (by omega) (Or.inl ⟨rfl, rfl⟩)
  have call : fsRemove fs name = some (removeFound fs ⟨index, inode, count⟩) := by
    rw [fsRemove, found]
    rfl
  rw [call]
  rcases place with ⟨missing, _⟩ | ⟨inside, matched, same⟩
  · refine Or.inl ⟨?_, ?_⟩
    · rw [removeFound, if_pos (Or.inr (by simp only; omega))]
    · intro other search
      rw [found, Option.some.injEq] at search
      rw [← search]
      simp only
      omega
  · subst same
    have enough : rest + 2 + 1 ≤ spare fs := room _ found inside
    obtain ⟨page, fresh, result⟩ := fsIncrement_nodes enough
      (removedEntries fs.toVolume index count)
    have anchored' : Anchored (unlisted fs index count page) :=
      anchored_incremented anchored fresh (removedEntries_lt inside bound)
    have left : rest + 2 ≤ spare (unlisted fs index count page) :=
      Nat.le_trans fresh.rest (Nat.le_of_eq (spare_congr rfl rfl))
    obtain ⟨table, root, freshTable, freshRoot, freed⟩ :=
      fsUpdateInodetable_eq anchored' left (fs.node index).inode 0xffff
    refine Or.inr ⟨index, page, table, root, inside, matched, fresh, freshTable, freshRoot, ?_⟩
    rw [removeFound, if_neg (by simp only; omega), deleteNode_eq anchored.root_lt, result]
    simp only [ne_eq, not_true_eq_false, if_false]
    rw [← freed]
    rfl

end Ethersex.Dataflash

import Ethersex.DataflashPages
import Mathlib.Data.Finset.Card
import Mathlib.Data.Nat.Find

/-!
# Allocating pages and committing a new root

A page is covered when the bitmap marks it or the allocator has already passed
it.  As long as unmarked pages are left above the page allocated last, the
allocator hands out a page that is not covered, so what is written to it cannot
be seen through pages that are.
-/

namespace Ethersex.Dataflash

open ByteMemory

def Covered (fs : Fs) (page : Nat) : Prop := fsUsed fs page ∨ page ≤ fs.lastFree

/-- The number of unmarked pages above the page allocated last. -/
def spare (fs : Fs) : Nat :=
  ((Finset.range 4096).filter fun page => fs.lastFree < page ∧ fsUsed fs page = false).card

theorem fsUsed_congr {fs fs' : Fs} (bitmap : fs'.buf2 = fs.buf2) (page : Nat) :
    fsUsed fs' page = fsUsed fs page := by
  simp only [fsUsed, bitmapByte, dfBufRead, Fs.buffer, bitmap]

theorem spare_congr {fs fs' : Fs} (bitmap : fs'.buf2 = fs.buf2)
    (lastFree : fs'.lastFree = fs.lastFree) : spare fs' = spare fs := by
  simp only [spare, fsUsed_congr bitmap, lastFree]

/-- `page` is the page `fs_new_page` finds, and `rest` more are left above it. -/
structure Fresh (fs : Fs) (page rest : Nat) : Prop where
  above : fs.lastFree < page
  lt : page < 4096
  unmarked : fsUsed fs page = false
  rest : rest ≤ spare (handOut fs page)

theorem Fresh.not_covered {fs : Fs} {page rest : Nat} (fresh : Fresh fs page rest) :
    ¬Covered fs page := by
  rintro (used | passed)
  · rw [fresh.unmarked] at used
    cases used
  · exact absurd fresh.above (by omega)

theorem Fresh.ne_of_covered {fs : Fs} {page rest other : Nat} (fresh : Fresh fs page rest)
    (covered : Covered fs other) : other ≠ page := by
  rintro rfl
  exact fresh.not_covered covered

theorem searchPage_eq {fs : Fs} {target : Nat} (bound : target < 4096)
    (unmarked : fsUsed fs target = false) :
    ∀ (fuel start : Nat), start ≤ target → target - start < fuel →
      (∀ page, start ≤ page → page < target → fsUsed fs page = true ∧ page ≠ fs.lastFree) →
      searchPage fs fuel start = target := by
  intro fuel
  induction fuel with
  | zero => intro start _ enough; omega
  | succ fuel ih =>
      intro start below enough marked
      rw [searchPage]
      rcases Nat.eq_or_lt_of_le below with reached | before
      · subst reached
        rw [if_neg (by simp [unmarked])]
      · rw [if_pos (marked start (Nat.le_refl _) before), Nat.mod_eq_of_lt (by omega)]
        exact ih (start + 1) (by omega) (by omega)
          (fun page lower upper => marked page (by omega) upper)

theorem spare_handOut {fs : Fs} {page : Nat} (above : fs.lastFree < page) (bound : page < 4096)
    (unmarked : fsUsed fs page = false)
    (marked : ∀ other, fs.lastFree < other → other < page → fsUsed fs other = true) :
    spare fs = spare (handOut fs page) + 1 := by
  have others : ((Finset.range 4096).filter fun other =>
        fs.lastFree < other ∧ fsUsed fs other = false) =
      insert page ((Finset.range 4096).filter fun other =>
        page < other ∧ fsUsed fs other = false) := by
    ext other
    simp only [Finset.mem_filter, Finset.mem_range, Finset.mem_insert]
    constructor
    · rintro ⟨inside, beyond, free⟩
      rcases Nat.lt_trichotomy other page with before | same | behind
      · rw [marked other beyond before] at free
        cases free
      · exact Or.inl same
      · exact Or.inr ⟨inside, behind, free⟩
    · rintro (same | ⟨inside, behind, free⟩)
      · subst same
        exact ⟨bound, above, unmarked⟩
      · exact ⟨inside, by omega, free⟩
  rw [spare, others, Finset.card_insert_of_notMem (by simp)]
  rfl

/-- The allocator hands out the next unmarked page. -/
theorem fsNewPage_eq {fs : Fs} {rest : Nat} (enough : rest + 1 ≤ spare fs) :
    ∃ page, Fresh fs page rest ∧ fsNewPage fs = (page, handOut fs page) := by
  have nonempty : ∃ page, fs.lastFree < page ∧ page < 4096 ∧ fsUsed fs page = false := by
    have positive : 0 < spare fs := by omega
    obtain ⟨page, member⟩ := Finset.card_pos.1 positive
    simp only [Finset.mem_filter, Finset.mem_range] at member
    exact ⟨page, member.2.1, member.1, member.2.2⟩
  obtain ⟨above, bound, unmarked⟩ := Nat.find_spec nonempty
  have least := fun other (before : other < Nat.find nonempty) => Nat.find_min nonempty before
  generalize Nat.find nonempty = page at above bound unmarked least
  have marked : ∀ other, fs.lastFree < other → other < page → fsUsed fs other = true := by
    intro other beyond before
    have taken := least other before
    simp only [not_and, Bool.not_eq_false] at taken
    exact taken beyond (by omega)
  have found : searchPage fs 4096 ((fs.lastFree + 1) % 4096) = page := by
    rw [Nat.mod_eq_of_lt (by omega)]
    exact searchPage_eq bound unmarked 4096 (fs.lastFree + 1) (by omega) (by omega)
      (fun other lower before => ⟨marked other (by omega) before, by omega⟩)
  have count := spare_handOut above bound unmarked marked
  refine ⟨page, ⟨above, bound, unmarked, by omega⟩, ?_⟩
  rw [fsNewPage, found, if_neg (by omega)]

/-- Covered pages stay as they are. -/
structure Kept (before after : Fs) : Prop where
  bitmap : after.buf2 = before.buf2
  lastFree : before.lastFree ≤ after.lastFree
  flash : ∀ page < 4096, Covered before page → after.flash page = before.flash page

theorem Kept.covered {before after : Fs} (kept : Kept before after) {page : Nat}
    (covered : Covered before page) : Covered after page := by
  rcases covered with used | passed
  · exact Or.inl (by rw [fsUsed_congr kept.bitmap]; exact used)
  · exact Or.inr (Nat.le_trans passed kept.lastFree)

theorem Kept.trans {first second third : Fs} (kept : Kept first second)
    (kept' : Kept second third) : Kept first third where
  bitmap := kept'.bitmap.trans kept.bitmap
  lastFree := Nat.le_trans kept.lastFree kept'.lastFree
  flash := fun page bound covered =>
    (kept'.flash page bound (kept.covered covered)).trans (kept.flash page bound covered)

/-- The root and the inode tables are covered. -/
structure Anchored (fs : Fs) : Prop where
  root_lt : fs.root < 4096
  rootCovered : Covered fs fs.root
  table_lt : ∀ tableId < 16, fsInodetable fs.toVolume tableId < 4096
  tableCovered : ∀ tableId < 16, Covered fs (fsInodetable fs.toVolume tableId)

/-- A page handed out while the volume still shows what `fs` shows, except
perhaps in pages that are not covered. -/
structure FreshHandout (fs : Fs) (handout : Handout) : Prop where
  fresh : ¬Covered fs handout.page
  root : handout.volume.root = fs.root
  flash : ∀ page < 4096, Covered fs page → handout.volume.flash page = fs.flash page

def nextVersion (fs : Fs) : Nat := (fs.version + 1) % 4294967296

/-- The state after a successful `fs_increment`. -/
def incremented (fs : Fs) (page : Nat) : Fs :=
  { fs with
    flash := Function.update fs.flash page (stampedPage fs.buf1 (nextVersion fs))
    root := page
    buf1 := stampedPage fs.buf1 (nextVersion fs)
    version := nextVersion fs
    lastFree := page
    programs := fs.programs ++ [(page, stampedPage fs.buf1 (nextVersion fs))]
    handouts := fs.handouts ++ [⟨page, fs.toVolume⟩] }

theorem fsIncrement_eq {fs : Fs} {rest : Nat} (enough : rest + 1 ≤ spare fs) :
    ∃ page, Fresh fs page rest ∧ fsIncrement fs = (.ok, incremented fs page) := by
  have available : rest + 1 ≤ spare (stampRoot fs) :=
    Nat.le_trans enough (Nat.le_of_eq (spare_congr rfl rfl))
  obtain ⟨page, fresh, allocated⟩ := fsNewPage_eq available
  refine ⟨page, ⟨fresh.above, fresh.lt, ?_, ?_⟩, ?_⟩
  · rw [← fresh.unmarked]
    exact fsUsed_congr rfl page
  · exact Nat.le_trans fresh.rest (Nat.le_of_eq (spare_congr rfl rfl))
  · have bound := fresh.lt
    simp only [fsIncrement, allocated]
    rw [if_neg (by omega)]
    simp only [saveRoot, dfBufSave, Nat.mod_eq_of_lt bound]
    rfl

/-- The table page with one entry changed. -/
def newTable (fs : Fs) (inode page : Nat) : Memory :=
  writePage (fs.flash (fsInodetable fs.toVolume (inode / 256) % 4096)) (15 + inode % 256 * 2)
    (newTableNode (readBlock fs.uninit 0 2) page).encode

/-- The root page with one table moved. -/
def newRoot (fs : Fs) (tableId table : Nat) : Memory :=
  stampedPage (writePage (fs.flash fs.root) (8 + tableId * 2) (wordBytes table)) (nextVersion fs)

/-- The state after a successful `fs_update_inodetable` that put the table into
page `table` and the root into page `root`. -/
def updated (fs : Fs) (inode page table root : Nat) : Fs :=
  { fs with
    flash := Function.update (Function.update fs.flash table (newTable fs inode page)) root
      (newRoot fs (inode / 256) table)
    root := root
    buf1 := newRoot fs (inode / 256) table
    version := nextVersion fs
    lastFree := root
    uninit := fun index => fs.uninit (index + 2)
    programs := fs.programs ++
      [(table, newTable fs inode page), (root, newRoot fs (inode / 256) table)]
    handouts := fs.handouts ++
      [⟨table, fs.toVolume⟩,
        ⟨root, ⟨Function.update fs.flash table (newTable fs inode page), fs.root⟩⟩] }

/-- The state in which `fs_update_inodetable` calls `fs_increment`. -/
def tableSaved (fs : Fs) (inode page table : Nat) : Fs :=
  loadRootWithTable (saveInodetable (handOut fs table) inode page table) (inode / 256) table

theorem incremented_tableSaved {fs : Fs} {table : Nat} (rootBound : fs.root < 4096)
    (tableBound : table < 4096) (rootNe : fs.root ≠ table) (inode page root : Nat) :
    incremented (tableSaved fs inode page table) root = updated fs inode page table root := by
  have buffer : (tableSaved fs inode page table).buf1 =
      writePage (fs.flash fs.root) (8 + inode / 256 * 2) (wordBytes table) := by
    simp only [tableSaved, loadRootWithTable, saveInodetable, Fs.uninitialised, dfBufLoad,
      dfBufWrite, dfBufSave, Fs.setBuffer, Fs.buffer, handOut, Nat.mod_eq_of_lt tableBound,
      Nat.mod_eq_of_lt rootBound, Function.update_of_ne rootNe]
  simp only [incremented, updated, buffer, newRoot]
  simp only [tableSaved, loadRootWithTable, saveInodetable, Fs.uninitialised, dfBufLoad, dfBufWrite,
    dfBufSave, Fs.setBuffer, Fs.buffer, handOut, Nat.mod_eq_of_lt tableBound, newTable,
    List.append_assoc, List.cons_append, List.nil_append, nextVersion]

theorem fsUpdateInodetable_eq {fs : Fs} (anchored : Anchored fs) {rest : Nat}
    (enough : rest + 2 ≤ spare fs) (inode page : Nat) :
    ∃ table root, Fresh fs table (rest + 1) ∧ Fresh (handOut fs table) root rest ∧
      fsUpdateInodetable fs inode page = (.ok, updated fs inode page table root) := by
  have forTable : rest + 1 + 1 ≤ spare fs := enough
  obtain ⟨table, fresh, allocated⟩ := fsNewPage_eq forTable
  have rootNe : fs.root ≠ table := fresh.ne_of_covered anchored.rootCovered
  have available : rest + 1 ≤ spare (tableSaved fs inode page table) :=
    Nat.le_trans fresh.rest (Nat.le_of_eq (spare_congr rfl rfl))
  obtain ⟨root, freshRoot, increment⟩ := fsIncrement_eq available
  refine ⟨table, root, fresh, ⟨freshRoot.above, freshRoot.lt, freshRoot.unmarked, ?_⟩, ?_⟩
  · exact Nat.le_trans freshRoot.rest (Nat.le_of_eq (spare_congr rfl rfl))
  · have bound := fresh.lt
    rw [← incremented_tableSaved anchored.root_lt fresh.lt rootNe, ← increment]
    simp only [fsUpdateInodetable, allocated]
    rw [if_neg (by omega), tableSaved]

/-- The root is the one `fs_scan` finds: a valid root page, the first one with
the highest version.  No table can be taken for a root. -/
structure Newest (fs : Fs) : Prop where
  valid : IsRootPage (fs.flash fs.root)
  version : pageVersion (fs.flash fs.root) = fs.version
  positive : 1 ≤ fs.version
  newest : ∀ page < 4096, IsRootPage (fs.flash page) →
    pageVersion (fs.flash page) ≤ fs.version
  first : ∀ page < fs.root, IsRootPage (fs.flash page) →
    pageVersion (fs.flash page) < fs.version
  tables : ∀ tableId < 16,
    (pageHeader (fs.flash (fsInodetable fs.toVolume tableId))).root = false

/-- `inode` now points to `page`, and everything else is as before. -/
structure Relinked (before after : Fs) (inode page : Nat) : Prop where
  kept : Kept before after
  anchored : Anchored after
  fsPage : ∀ other < 4096, fsPage after.toVolume other =
    if other = inode then page else fsPage before.toVolume other
  node : ∀ index < 60, after.node index = before.node index
  nodeUnused : ∀ index ≤ 60, (after.node index).unused = (before.node index).unused
  handouts : ∃ new, after.handouts = before.handouts ++ new ∧
    ∀ handout ∈ new, FreshHandout before handout

/-- A new table is programmed, and then the new root. -/
structure TableProgrammed (before after : Fs) (table : Nat) (content : Memory) : Prop where
  programs : after.programs =
    before.programs ++ [(table, content), (after.root, after.flash after.root)]
  flash : after.flash = Function.update (Function.update before.flash table content) after.root
    (after.flash after.root)
  table_lt : table < 4096
  fresh : ¬Covered before table
  notRoot : Newest before → (pageHeader content).root = false

structure TableUpdated (before after : Fs) (inode page : Nat) : Prop
    extends Relinked before after inode page where
  programmed : ∃ table content, TableProgrammed before after table content
  newest : Newest before → before.version + 1 < 4294967296 →
    Newest after ∧ after.version = before.version + 1

section Updated

variable {fs : Fs} {inode page table root rest rest' : Nat}

theorem fsPage_eq_of_tables {volume volume' : Volume} {other : Nat}
    (tables : pageEntry (volume'.flash (fsInodetable volume' (other / 256) % 4096)) (other % 256) =
      pageEntry (volume.flash (fsInodetable volume (other / 256) % 4096)) (other % 256)) :
    fsPage volume' other = fsPage volume other := by
  have node : tableNode volume' (fsInodetable volume' (other / 256)) (other % 256) =
      tableNode volume (fsInodetable volume (other / 256)) (other % 256) := tables
  rw [fsPage, fsPage, node]

/-- A new table and a new root are put into two pages that hold no table. -/
structure Switches (fs : Fs) (table root : Nat) : Prop where
  root_lt : fs.root < 4096
  table_lt : ∀ tableId < 16, fsInodetable fs.toVolume tableId < 4096
  newTable_lt : table < 4096
  newRoot_lt : root < 4096
  different : table ≠ root
  table_ne : ∀ tableId < 16, fsInodetable fs.toVolume tableId ≠ table
  root_ne : ∀ tableId < 16, fsInodetable fs.toVolume tableId ≠ root

theorem Anchored.switches (anchored : Anchored fs) (fresh : Fresh fs table rest)
    (freshRoot : Fresh (handOut fs table) root rest') : Switches fs table root where
  root_lt := anchored.root_lt
  table_lt := anchored.table_lt
  newTable_lt := fresh.lt
  newRoot_lt := freshRoot.lt
  different := Nat.ne_of_lt freshRoot.above
  table_ne := fun tableId inside => fresh.ne_of_covered (anchored.tableCovered tableId inside)
  root_ne := by
    intro tableId inside
    apply freshRoot.ne_of_covered
    rcases anchored.tableCovered tableId inside with used | passed
    · exact Or.inl used
    · exact Or.inr (Nat.le_trans passed (Nat.le_of_lt fresh.above))

theorem updated_flash_root (fs : Fs) (inode page table root : Nat) :
    (updated fs inode page table root).flash root = newRoot fs (inode / 256) table :=
  Function.update_self ..

theorem updated_flash_of_covered (fresh : Fresh fs table rest)
    (freshRoot : Fresh (handOut fs table) root rest') {other : Nat} (covered : Covered fs other) :
    (updated fs inode page table root).flash other = fs.flash other := by
  have passed : Covered (handOut fs table) other := by
    rcases covered with used | passed
    · exact Or.inl used
    · exact Or.inr (Nat.le_trans passed (Nat.le_of_lt fresh.above))
  show Function.update (Function.update fs.flash table _) root _ other = _
  rw [Function.update_of_ne (freshRoot.ne_of_covered passed),
    Function.update_of_ne (fresh.ne_of_covered covered)]

theorem kept_updated (fresh : Fresh fs table rest)
    (freshRoot : Fresh (handOut fs table) root rest') :
    Kept fs (updated fs inode page table root) where
  bitmap := rfl
  lastFree := Nat.le_of_lt (Nat.lt_trans fresh.above freshRoot.above)
  flash := fun _ _ covered => updated_flash_of_covered fresh freshRoot covered

theorem tablePointer_newRoot (rootBound : fs.root < 4096) (tableBound : table < 4096)
    {tableId other : Nat} (inside : tableId < 16) (otherInside : other < 16) :
    tablePointer (newRoot fs tableId table) other =
      if other = tableId then table else fsInodetable fs.toVolume other := by
  rw [newRoot, tablePointer_stampedPage _ _ otherInside,
    tablePointer_writePage_word _ _ inside otherInside, Nat.mod_eq_of_lt (by omega)]
  simp only [tablePointer, fsInodetable, dfFlashRead, Nat.mod_eq_of_lt rootBound]

theorem fsInodetable_updated (switches : Switches fs table root) (inodeBound : inode < 4096)
    {other : Nat} (inside : other < 16) :
    fsInodetable (updated fs inode page table root).toVolume other =
      if other = inode / 256 then table else fsInodetable fs.toVolume other := by
  have content : (updated fs inode page table root).flash (root % 4096) =
      newRoot fs (inode / 256) table := by
    rw [Nat.mod_eq_of_lt switches.newRoot_lt, updated_flash_root]
  rw [← tablePointer_newRoot switches.root_lt switches.newTable_lt (by omega) inside, ← content]
  rfl

theorem anchored_updated (anchored : Anchored fs) (fresh : Fresh fs table rest)
    (freshRoot : Fresh (handOut fs table) root rest') (inodeBound : inode < 4096) :
    Anchored (updated fs inode page table root) where
  root_lt := freshRoot.lt
  rootCovered := Or.inr (Nat.le_refl _)
  table_lt := by
    intro tableId inside
    rw [fsInodetable_updated (anchored.switches fresh freshRoot) inodeBound inside]
    split
    · exact fresh.lt
    · exact anchored.table_lt tableId inside
  tableCovered := by
    intro tableId inside
    rw [fsInodetable_updated (anchored.switches fresh freshRoot) inodeBound inside]
    split
    · exact Or.inr (Nat.le_of_lt freshRoot.above)
    · exact (kept_updated fresh freshRoot).covered (anchored.tableCovered tableId inside)

theorem pageEntry_newTable (tableBound : fsInodetable fs.toVolume (inode / 256) < 4096)
    {entry : Nat} (inside : entry < 256) :
    pageEntry (newTable fs inode page) entry =
      if entry = inode % 256 then
        { newTableNode (readBlock fs.uninit 0 2) page with
          reserved := (newTableNode (readBlock fs.uninit 0 2) page).reserved % 8
          page := (newTableNode (readBlock fs.uninit 0 2) page).page % 4096 }
      else
        pageEntry (fs.flash (fsInodetable fs.toVolume (inode / 256))) entry := by
  rw [newTable, pageEntry_writePage_encode _ _ (by omega) inside, Nat.mod_eq_of_lt tableBound]

theorem updated_flash_table (different : table ≠ root) :
    (updated fs inode page table root).flash table = newTable fs inode page := by
  show Function.update (Function.update fs.flash table _) root _ table = _
  rw [Function.update_of_ne different, Function.update_self]

theorem fsPage_updated_self (switches : Switches fs table root) (inodeBound : inode < 4096)
    (pageBound : page < 4096 ∨ page = 0xffff) :
    fsPage (updated fs inode page table root).toVolume inode = page := by
  have moved : fsInodetable (updated fs inode page table root).toVolume (inode / 256) = table := by
    rw [fsInodetable_updated switches inodeBound (by omega), if_pos rfl]
  have entry : tableNode (updated fs inode page table root).toVolume table (inode % 256) =
      pageEntry (newTable fs inode page) (inode % 256) := by
    show pageEntry ((updated fs inode page table root).flash (table % 4096)) _ = _
    rw [Nat.mod_eq_of_lt switches.newTable_lt, updated_flash_table switches.different]
  rw [fsPage, moved, entry,
    pageEntry_newTable (switches.table_lt _ (by omega)) (Nat.mod_lt _ (by omega)), if_pos rfl]
  rcases pageBound with inside | none
  · simp only [newTableNode, if_neg (by omega : page ≠ 0xffff)]
    simp only [Bool.false_eq_true, if_false]
    omega
  · simp [newTableNode, none]

theorem fsPage_updated_of_ne (switches : Switches fs table root) (inodeBound : inode < 4096)
    {other : Nat} (otherBound : other < 4096) (different : other ≠ inode) :
    fsPage (updated fs inode page table root).toVolume other = fsPage fs.toVolume other := by
  have inside : other / 256 < 16 := by omega
  apply fsPage_eq_of_tables
  rw [fsInodetable_updated switches inodeBound inside, Nat.mod_eq_of_lt
    (switches.table_lt _ inside)]
  by_cases same : other / 256 = inode / 256
  · rw [if_pos same, Nat.mod_eq_of_lt switches.newTable_lt,
      updated_flash_table switches.different,
      pageEntry_newTable (switches.table_lt _ (by omega)) (Nat.mod_lt _ (by omega)),
      if_neg (by omega), same]
  · have kept : (updated fs inode page table root).flash (fsInodetable fs.toVolume (other / 256)) =
        fs.flash (fsInodetable fs.toVolume (other / 256)) := by
      show Function.update (Function.update fs.flash table _) root _ _ = _
      rw [Function.update_of_ne (switches.root_ne _ inside),
        Function.update_of_ne (switches.table_ne _ inside)]
    rw [if_neg same, Nat.mod_eq_of_lt (switches.table_lt _ inside), kept]

theorem fsPage_updated (switches : Switches fs table root) (inodeBound : inode < 4096)
    (pageBound : page < 4096 ∨ page = 0xffff) {other : Nat} (otherBound : other < 4096) :
    fsPage (updated fs inode page table root).toVolume other =
      if other = inode then page else fsPage fs.toVolume other := by
  split
  · next same =>
      rw [same]
      exact fsPage_updated_self switches inodeBound pageBound
  · next different => exact fsPage_updated_of_ne switches inodeBound otherBound different

theorem node_updated (oldBound : fs.root < 4096) (newBound : root < 4096)
    (inodeBound : inode < 4096) {index : Nat} (inside : index < 60) :
    (updated fs inode page table root).node index = fs.node index := by
  show pageNode ((updated fs inode page table root).flash (root % 4096)) index =
    pageNode (fs.flash (fs.root % 4096)) index
  rw [Nat.mod_eq_of_lt newBound, updated_flash_root, newRoot, pageNode_stampedPage _ _ inside,
    pageNode_writePage_before (by rw [length_wordBytes]; omega) (by omega),
    Nat.mod_eq_of_lt oldBound]

theorem nodeUnused_updated (oldBound : fs.root < 4096) (newBound : root < 4096)
    (inodeBound : inode < 4096) {index : Nat} (inside : index ≤ 60) :
    ((updated fs inode page table root).node index).unused = (fs.node index).unused := by
  show (pageNode ((updated fs inode page table root).flash (root % 4096)) index).unused =
    (pageNode (fs.flash (fs.root % 4096)) index).unused
  rw [Nat.mod_eq_of_lt newBound, updated_flash_root, newRoot,
    pageNode_unused_stampedPage _ _ inside,
    pageNode_writePage_before (by rw [length_wordBytes]; omega) inside,
    Nat.mod_eq_of_lt oldBound]

theorem Newest.switch {after : Fs} (newest : Newest fs) (version : after.version = fs.version + 1)
    (valid : IsRootPage (after.flash after.root))
    (stamped : pageVersion (after.flash after.root) = fs.version + 1)
    (others : ∀ other < 4096, other ≠ after.root → IsRootPage (after.flash other) →
      after.flash other = fs.flash other)
    (rootBound : after.root < 4096)
    (tables : ∀ tableId < 16,
      (pageHeader (after.flash (fsInodetable after.toVolume tableId))).root = false) :
    Newest after := by
  have older : ∀ other < 4096, other ≠ after.root → IsRootPage (after.flash other) →
      pageVersion (after.flash other) ≤ fs.version := by
    intro other bound different otherValid
    have same := others other bound different otherValid
    rw [same] at otherValid ⊢
    exact newest.newest other bound otherValid
  refine ⟨valid, by rw [stamped, version], by omega, ?_, ?_, tables⟩
  · intro other bound otherValid
    by_cases same : other = after.root
    · rw [same, stamped, version]
    · have bounded := older other bound same otherValid
      omega
  · intro other before otherValid
    have bounded := older other (by omega) (by omega) otherValid
    omega

theorem header_newTable (anchored : Anchored fs) (inodeBound : inode < 4096) (page : Nat) :
    pageHeader (newTable fs inode page) =
      pageHeader (fs.flash (fsInodetable fs.toVolume (inode / 256))) := by
  rw [newTable, pageHeader_writePage_behind (by rw [TableNode.length_encode]; omega) (by omega),
    Nat.mod_eq_of_lt (anchored.table_lt _ (by omega))]

theorem newest_updated (anchored : Anchored fs) (fresh : Fresh fs table rest)
    (freshRoot : Fresh (handOut fs table) root rest') (inodeBound : inode < 4096)
    (newest : Newest fs) (bound : fs.version + 1 < 4294967296) :
    Newest (updated fs inode page table root) ∧
      (updated fs inode page table root).version = fs.version + 1 := by
  have version : nextVersion fs = fs.version + 1 := Nat.mod_eq_of_lt bound
  have tableHeader := header_newTable anchored inodeBound page
  have rootHeader : pageHeader (writePage (fs.flash fs.root) (8 + inode / 256 * 2)
      (wordBytes table)) = pageHeader (fs.flash fs.root) :=
    pageHeader_writePage_behind (by rw [length_wordBytes]; omega) (by omega)
  refine ⟨newest.switch version ?_ ?_ ?_ freshRoot.lt ?_, version⟩
  · show IsRootPage ((updated fs inode page table root).flash root)
    rw [updated_flash_root]
    apply isRootPage_stampedPage
    · rw [rootHeader, newest.valid.used]
    · rw [rootHeader, newest.valid.root]
  · show pageVersion ((updated fs inode page table root).flash root) = _
    rw [updated_flash_root, newRoot, pageVersion_stampedPage, version, Nat.mod_eq_of_lt bound]
  · intro other _ (different : other ≠ root) otherValid
    by_cases same : other = table
    · subst same
      rw [updated_flash_table (anchored.switches fresh freshRoot).different] at otherValid
      have isRoot := otherValid.root
      rw [tableHeader, newest.tables _ (by omega)] at isRoot
      cases isRoot
    · show Function.update (Function.update fs.flash table _) root _ other = _
      rw [Function.update_of_ne different, Function.update_of_ne same]
  · intro tableId inside
    rw [fsInodetable_updated (anchored.switches fresh freshRoot) inodeBound inside]
    split
    · rw [updated_flash_table (anchored.switches fresh freshRoot).different, tableHeader,
        newest.tables _ (by omega)]
    · rw [updated_flash_of_covered fresh freshRoot (anchored.tableCovered _ inside),
        newest.tables _ inside]

theorem freshHandout_updated (fresh : Fresh fs table rest)
    (freshRoot : Fresh (handOut fs table) root rest') :
    ∀ handout ∈ [(⟨table, fs.toVolume⟩ : Handout),
      ⟨root, ⟨Function.update fs.flash table (newTable fs inode page), fs.root⟩⟩],
      FreshHandout fs handout := by
  intro handout member
  simp only [List.mem_cons, List.not_mem_nil, or_false] at member
  rcases member with first | second
  · subst first
    exact ⟨fresh.not_covered, rfl, fun _ _ _ => rfl⟩
  · subst second
    refine ⟨?_, rfl, fun other _ covered =>
      Function.update_of_ne (fresh.ne_of_covered covered) ..⟩
    intro covered
    exact freshRoot.not_covered (covered.imp_right fun passed =>
      Nat.le_trans passed (Nat.le_of_lt fresh.above))

theorem tableUpdated_updated (anchored : Anchored fs) (fresh : Fresh fs table rest)
    (freshRoot : Fresh (handOut fs table) root rest') (inodeBound : inode < 4096)
    (pageBound : page < 4096 ∨ page = 0xffff) :
    TableUpdated fs (updated fs inode page table root) inode page where
  kept := kept_updated fresh freshRoot
  anchored := anchored_updated anchored fresh freshRoot inodeBound
  newest := newest_updated anchored fresh freshRoot inodeBound
  programmed := by
    refine ⟨table, newTable fs inode page, ?_, ?_, fresh.lt, fresh.not_covered, ?_⟩
    · show (updated fs inode page table root).programs = _ ++
        [_, (root, (updated fs inode page table root).flash root)]
      rw [updated_flash_root]
      rfl
    · show _ = Function.update (Function.update fs.flash table _) root
        ((updated fs inode page table root).flash root)
      rw [updated_flash_root]
      rfl
    · intro newest
      rw [header_newTable anchored inodeBound, newest.tables _ (by omega)]
  fsPage := fun _ otherBound =>
    fsPage_updated (anchored.switches fresh freshRoot) inodeBound pageBound otherBound
  node := fun _ inside => node_updated anchored.root_lt freshRoot.lt inodeBound inside
  nodeUnused := fun _ inside =>
    nodeUnused_updated anchored.root_lt freshRoot.lt inodeBound inside
  handouts := ⟨_, rfl, freshHandout_updated fresh freshRoot⟩

end Updated

end Ethersex.Dataflash

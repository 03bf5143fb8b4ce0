import Ethersex.DataflashCommit

/-!
# Giving an inode a new page

`fs_write` and `fs_truncate` allocate a page, let the inode point to it and then
program the page.  Once all of this is done, the inode has the new page and
every other inode, directory entry and covered page is as before.
-/

namespace Ethersex.Dataflash

open ByteMemory

/-- `claimPage` has been executed: the page belongs to the inode, but is not
programmed yet. -/
structure Claimed (before after : Fs) (inode page : Nat) : Prop where
  page_lt : page < 4096
  fresh : ¬Covered before page
  table : TableUpdated (handOut before page) after inode page
  passed : page + 2 ≤ after.lastFree
  lastFree_lt : after.lastFree < 4096
  root_ne : after.root ≠ page
  table_ne : ∀ tableId < 16, fsInodetable after.toVolume tableId ≠ page

/-- The page of `inode` holds `content`. -/
structure Linked (before after : Fs) (inode page : Nat) (content : Memory) : Prop
    extends Relinked before after inode page where
  page_lt : page < 4096
  fresh : ¬Covered before page
  passed : page + 2 ≤ after.lastFree
  lastFree_lt : after.lastFree < 4096
  written : after.flash page = content
  newest : Newest before → before.version + 1 < 4294967296 → (pageHeader content).root = false →
    Newest after ∧ after.version = before.version + 1

theorem Linked.covered {before after : Fs} {inode page : Nat} {content : Memory}
    (linked : Linked before after inode page content) : Covered after page :=
  Or.inr (Nat.le_trans (Nat.le_add_right page 2) linked.passed)

theorem kept_handOut {fs : Fs} {page rest : Nat} (fresh : Fresh fs page rest) :
    Kept fs (handOut fs page) :=
  ⟨rfl, Nat.le_of_lt fresh.above, fun _ _ _ => rfl⟩

theorem Anchored.handOut {fs : Fs} {page rest : Nat} (anchored : Anchored fs)
    (fresh : Fresh fs page rest) : Anchored (handOut fs page) where
  root_lt := anchored.root_lt
  rootCovered := (kept_handOut fresh).covered anchored.rootCovered
  table_lt := anchored.table_lt
  tableCovered := fun tableId inside =>
    (kept_handOut fresh).covered (anchored.tableCovered tableId inside)

theorem claimPage_spec {fs : Fs} (anchored : Anchored fs) {rest inode : Nat}
    (enough : rest + 3 ≤ spare fs) (inodeBound : inode < 4096) :
    ∃ page after, claimPage fs inode = (.ok, page, after) ∧ Claimed fs after inode page ∧
      rest ≤ spare after := by
  have forPage : rest + 2 + 1 ≤ spare fs := enough
  obtain ⟨page, fresh, allocated⟩ := fsNewPage_eq forPage
  have anchored' := anchored.handOut fresh
  obtain ⟨table, root, freshTable, freshRoot, result⟩ :=
    fsUpdateInodetable_eq anchored' fresh.rest inode page
  have above : page < table := freshTable.above
  have higher : table < root := freshRoot.above
  refine ⟨page, _, ?_, ⟨fresh.lt, fresh.not_covered,
    tableUpdated_updated anchored' freshTable freshRoot inodeBound (Or.inl fresh.lt),
      ?_, freshRoot.lt,
    ?_, ?_⟩, ?_⟩
  · have bound := fresh.lt
    simp only [claimPage, allocated]
    rw [if_neg (by omega), result]
  · show page + 2 ≤ root
    omega
  · show root ≠ page
    omega
  · intro tableId inside
    rw [fsInodetable_updated (anchored'.switches freshTable freshRoot) inodeBound inside]
    split
    · omega
    · exact fresh.ne_of_covered (anchored.tableCovered tableId inside)
  · exact Nat.le_trans freshRoot.rest (Nat.le_of_eq (spare_congr rfl rfl))

def savedContent (buffer : Memory) (header : PageHeader) (data : List UInt8) (offset : Nat) :
    Memory :=
  writePage (writePage buffer 0 header.encode) (15 + offset) data

def withBuffer (fs : Fs) (buffer : Memory) : Fs := { fs with buf1 := buffer }

theorem dfBufLoad_eq (fs : Fs) (page : Nat) :
    dfBufLoad fs .buf1 page = withBuffer fs (fs.flash (page % 4096)) :=
  rfl

theorem FreshHandout.of_kept {before after : Fs} {handout : Handout} (kept : Kept before after)
    (root : after.root = before.root) (later : FreshHandout after handout) :
    FreshHandout before handout where
  fresh := fun covered => later.fresh (kept.covered covered)
  root := later.root.trans root
  flash := fun place bound covered =>
    (later.flash place bound (kept.covered covered)).trans (kept.flash place bound covered)

/-- Programming a page that is no root and that the volume does not use. -/
theorem Newest.overwrite {fs after : Fs} (newest : Newest fs) {page : Nat}
    (root : after.root = fs.root) (version : after.version = fs.version)
    (others : ∀ other, other ≠ page → after.flash other = fs.flash other)
    (notRoot : (pageHeader (after.flash page)).root = false) (root_ne : fs.root ≠ page)
    (tables : ∀ tableId < 16, fsInodetable after.toVolume tableId =
      fsInodetable fs.toVolume tableId)
    (table_ne : ∀ tableId < 16, fsInodetable fs.toVolume tableId ≠ page) : Newest after := by
  have unchanged : ∀ other, IsRootPage (after.flash other) →
      after.flash other = fs.flash other := by
    intro other valid
    apply others
    rintro rfl
    have isRoot := valid.root
    rw [notRoot] at isRoot
    cases isRoot
  refine ⟨?_, ?_, ?_, ?_, ?_, ?_⟩
  · rw [root, others _ root_ne]
    exact newest.valid
  · rw [root, others _ root_ne, version]
    exact newest.version
  · rw [version]
    exact newest.positive
  · intro other bound valid
    have same := unchanged other valid
    rw [same] at valid ⊢
    rw [version]
    exact newest.newest other bound valid
  · intro other before valid
    have same := unchanged other valid
    rw [same] at valid ⊢
    rw [version]
    rw [root] at before
    exact newest.first other before valid
  · intro tableId inside
    rw [tables tableId inside, others _ (table_ne tableId inside)]
    exact newest.tables tableId inside

theorem Newest.handOut {fs : Fs} {page : Nat} (newest : Newest fs) : Newest (handOut fs page) :=
  ⟨newest.valid, newest.version, newest.positive, newest.newest, newest.first, newest.tables⟩

section Save

variable {before after : Fs} {inode page : Nat} (buffer : Memory) (header : PageHeader)
  (data : List UInt8) (offset : Nat)

theorem savePage_flash (claimed : Claimed before after inode page) :
    (savePage (withBuffer after buffer) header data offset page).flash =
      Function.update after.flash page (savedContent buffer header data offset) := by
  simp only [savePage, dfBufSave, Nat.mod_eq_of_lt claimed.page_lt]
  rfl

theorem Claimed.kept_handOut (claimed : Claimed before after inode page) :
    Kept before (handOut before page) where
  bitmap := rfl
  lastFree := Nat.le_of_lt (Nat.lt_of_not_le fun passed => claimed.fresh (Or.inr passed))
  flash := fun _ _ _ => rfl

theorem Claimed.linked (claimed : Claimed before after inode page) :
    Linked before (savePage (withBuffer after buffer) header data offset page) inode page
      (savedContent buffer header data offset) := by
  have flash := savePage_flash buffer header data offset claimed
  generalize savedEq : savePage (withBuffer after buffer) header data offset page = saved at flash
  have root : saved.root = after.root := by rw [← savedEq]; rfl
  have bitmap : saved.buf2 = after.buf2 := by rw [← savedEq]; rfl
  have lastFree : saved.lastFree = after.lastFree := by rw [← savedEq]; rfl
  have version : saved.version = after.version := by rw [← savedEq]; rfl
  have handouts : saved.handouts = after.handouts := by rw [← savedEq]; rfl
  have other {place : Nat} (different : place ≠ page) : saved.flash place = after.flash place := by
    rw [flash, Function.update_of_ne different]
  have anchored := claimed.table.anchored
  have rootPage : saved.flash (saved.root % 4096) = after.flash (after.root % 4096) := by
    rw [root, Nat.mod_eq_of_lt anchored.root_lt, other claimed.root_ne]
  have tables (tableId : Nat) :
      fsInodetable saved.toVolume tableId = fsInodetable after.toVolume tableId := by
    show tablePointer (saved.flash (saved.root % 4096)) tableId = _
    rw [rootPage]
    rfl
  have keptOut := claimed.kept_handOut
  have kept : Kept before saved := by
    refine ⟨bitmap.trans claimed.table.kept.bitmap, ?_, ?_⟩
    · rw [lastFree]
      exact Nat.le_trans keptOut.lastFree claimed.table.kept.lastFree
    · intro place bound covered
      have different : place ≠ page := fun same => claimed.fresh (same ▸ covered)
      rw [other different, claimed.table.kept.flash place bound (keptOut.covered covered)]
      rfl
  have covered {place : Nat} (inside : Covered after place) : Covered saved place := by
    rcases inside with used | passed
    · exact Or.inl (by rw [fsUsed_congr bitmap]; exact used)
    · exact Or.inr (by rw [lastFree]; exact passed)
  refine
    { kept := kept
      anchored := ⟨by rw [root]; exact anchored.root_lt,
        by rw [root]; exact covered anchored.rootCovered,
        fun tableId inside => by rw [tables]; exact anchored.table_lt tableId inside,
        fun tableId inside => by rw [tables]; exact covered (anchored.tableCovered tableId inside)⟩
      fsPage := ?_
      node := ?_
      nodeUnused := ?_
      handouts := ?_
      page_lt := claimed.page_lt
      fresh := claimed.fresh
      passed := by rw [lastFree]; exact claimed.passed
      lastFree_lt := by rw [lastFree]; exact claimed.lastFree_lt
      written := by rw [flash, Function.update_self]
      newest := ?_ }
  · intro place bound
    have same : fsPage saved.toVolume place = fsPage after.toVolume place := by
      apply fsPage_eq_of_tables
      rw [tables, Nat.mod_eq_of_lt (anchored.table_lt _ (by omega)),
        other (claimed.table_ne _ (by omega))]
    rw [same]
    exact claimed.table.fsPage place bound
  · intro index inside
    refine Eq.trans ?_ (claimed.table.node index inside)
    show pageNode (saved.flash (saved.root % 4096)) index = _
    rw [rootPage]
    rfl
  · intro index inside
    refine Eq.trans ?_ (claimed.table.nodeUnused index inside)
    show (pageNode (saved.flash (saved.root % 4096)) index).unused = _
    rw [rootPage]
    rfl
  · obtain ⟨new, appended, freshNew⟩ := claimed.table.handouts
    refine ⟨⟨page, before.toVolume⟩ :: new, ?_, ?_⟩
    · rw [handouts, appended]
      simp [handOut]
    · intro handout member
      rcases List.mem_cons.1 member with first | later
      · subst first
        exact ⟨claimed.fresh, rfl, fun _ _ _ => rfl⟩
      · exact FreshHandout.of_kept keptOut rfl (freshNew handout later)
  · intro newest bound notRoot
    obtain ⟨newestAfter, versionAfter⟩ := claimed.table.newest newest.handOut bound
    refine ⟨newestAfter.overwrite root version (fun _ => other) ?_ claimed.root_ne
      (fun tableId _ => tables tableId) claimed.table_ne, version.trans versionAfter⟩
    rw [flash, Function.update_self]
    exact notRoot

end Save

end Ethersex.Dataflash

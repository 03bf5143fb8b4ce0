import Ethersex.DataflashFailures
import Ethersex.DataflashReadBack

/-!
# Truncating a file

`fs_truncate` looks for the page of the new end, rewrites it with the flag `eof` and leaves
the pages behind it.  A new end between two pages counts as the end of the first one.  A page
that is filled up to the new end is taken for the end of the file, although the file goes on
behind it.
-/

namespace Ethersex.Dataflash

open ByteMemory

/-- The pages that `fs_new_page` hands out one after the other. -/
structure Supplied (fs : Fs) (page table root : Nat) : Prop where
  first : fsNewPage fs = (page, handOut fs page)
  second : fsNewPage (handOut fs page) = (table, handOut (handOut fs page) table)
  third : (fsNewPage (handOut (handOut fs page) table)).1 = root

/-- The three pages are different, and none of them is the root, a table or a page of the
file. -/
structure NotInUse (fs : Fs) (links : List (Nat × Nat)) (page table root : Nat) : Prop where
  different : page ≠ root
  notRoot : ∀ taken ∈ [page, table, root], taken ≠ fs.root
  notTable : ∀ taken ∈ [page, table, root], ∀ tableId < 16,
    taken ≠ fsInodetable fs.toVolume tableId
  notListed : ∀ taken ∈ [page, table, root], taken ∉ links.map Prod.snd

/-- A file in a file system whose allocator does not hand out pages that are in use. -/
structure Truncatable (fs : Fs) (inode : Nat) (links : List (Nat × Nat)) : Prop where
  bounded : Bounded fs
  table_lt : ∀ tableId < 16, fsInodetable fs.toVolume tableId < 4096
  inode_lt : inode < 4096
  file : IsFile fs.toVolume inode links
  supply : ∀ page table root, Supplied fs page table root → NotInUse fs links page table root

theorem searchPage_congr {fs fs' : Fs} (bitmap : fs'.buf2 = fs.buf2)
    (lastFree : fs'.lastFree = fs.lastFree) (fuel page : Nat) :
    searchPage fs' fuel page = searchPage fs fuel page := by
  induction fuel generalizing page with
  | zero => rfl
  | succ fuel ih => rw [searchPage, searchPage, fsUsed_congr bitmap, lastFree, ih]

theorem fsNewPage_congr {fs fs' : Fs} (bitmap : fs'.buf2 = fs.buf2)
    (lastFree : fs'.lastFree = fs.lastFree) : (fsNewPage fs').1 = (fsNewPage fs).1 := by
  simp only [fsNewPage, lastFree, searchPage_congr bitmap lastFree]
  split <;> rfl

theorem fsNewPage_of_increment {fs : Fs} {page : Nat}
    (result : fsIncrement fs = (.ok, incremented fs page)) :
    (fsNewPage (stampRoot fs)).1 = page := by
  simp only [fsIncrement] at result
  split at result
  · cases congrArg Prod.fst result
  · exact congrArg (fun outcome => outcome.2.root) result

/-- A claim that succeeds has taken three pages. -/
theorem claimPage_supplied {fs : Fs} (bound : fs.lastFree < 4096) (inode : Nat) :
    (claimPage fs inode).1 ≠ .ok ∨
      ∃ page table root, Supplied fs page table root ∧ page < 4096 ∧ table < 4096 ∧
        root < 4096 ∧ table ≠ page ∧ root ≠ table ∧
        claimPage fs inode = (.ok, page,
          incremented (tableSaved (handOut fs page) inode page table) root) := by
  rcases fsNewPage_cases bound with ⟨allocated, _⟩ | ⟨page, offered, allocated⟩
  · left
    simp [claimPage, allocated]
  have inside := offered.lt
  have handedOut : (handOut fs page).lastFree < 4096 := inside
  rcases fsNewPage_cases handedOut with ⟨allocated', _⟩ | ⟨table, next, allocated'⟩
  · left
    simp only [claimPage, allocated]
    rw [if_neg (by omega)]
    simp [fsUpdateInodetable, allocated']
  have saved : (tableSaved (handOut fs page) inode page table).lastFree < 4096 := next.lt
  have claimed : claimPage fs inode =
      ((fsIncrement (tableSaved (handOut fs page) inode page table)).1, page,
        (fsIncrement (tableSaved (handOut fs page) inode page table)).2) := by
    have tableInside := next.lt
    simp only [claimPage, allocated]
    rw [if_neg (by omega)]
    simp only [fsUpdateInodetable, allocated']
    rw [if_neg (by omega)]
    rfl
  rw [claimed]
  rcases fsIncrement_cases saved with ⟨failed, _⟩ | ⟨root, last, result⟩
  · left
    rw [failed]
    exact Status.noConfusion
  · have handed : (fsNewPage (handOut (handOut fs page) table)).1 = root := by
      rw [← fsNewPage_of_increment result]
      exact fsNewPage_congr rfl rfl
    right
    refine ⟨page, table, root, ⟨allocated, allocated', handed⟩, inside, next.lt, last.lt,
      next.ne_lastFree, last.ne_lastFree, ?_⟩
    rw [result]

/-- As long as the allocator does not come round it hands out pages that are not covered. -/
theorem Anchored.truncatable {fs : Fs} {inode : Nat} {links : List (Nat × Nat)}
    (anchored : Anchored fs) (inodeBound : inode < 4096) (file : IsFile fs.toVolume inode links)
    (covered : ∀ link ∈ links, Covered fs link.2) (room : 3 ≤ spare fs) :
    Truncatable fs inode links := by
  obtain ⟨first, fresh, allocated⟩ := fsNewPage_eq (by omega : 2 + 1 ≤ spare fs)
  obtain ⟨second, freshTable, allocated'⟩ := fsNewPage_eq fresh.rest
  obtain ⟨third, freshRoot, allocated''⟩ := fsNewPage_eq freshTable.rest
  have above : first < second := freshTable.above
  have higher : second < third := freshRoot.above
  have below := fresh.above
  have firstBound := fresh.lt
  refine ⟨⟨by omega, anchored.root_lt⟩, anchored.table_lt, inodeBound, file, ?_⟩
  rintro page table root ⟨supplied, supplied', supplied''⟩
  obtain rfl : first = page := congrArg Prod.fst (allocated.symm.trans supplied)
  obtain rfl : second = table := congrArg Prod.fst (allocated'.symm.trans supplied')
  obtain rfl : third = root := by rw [← supplied'', allocated'']
  have notCovered : ∀ taken ∈ [first, second, third], ¬Covered fs taken := by
    intro taken member inUse
    simp only [List.mem_cons, List.not_mem_nil, or_false] at member
    rcases inUse with used | passed
    · rcases member with rfl | rfl | rfl
      · exact fresh.not_covered (Or.inl used)
      · exact freshTable.not_covered (Or.inl used)
      · exact freshRoot.not_covered (Or.inl used)
    · omega
  refine ⟨by omega, ?_, ?_, ?_⟩
  · rintro taken member rfl
    exact notCovered _ member anchored.rootCovered
  · rintro taken member tableId inside rfl
    exact notCovered _ member (anchored.tableCovered tableId inside)
  · intro taken member listed
    obtain ⟨link, linkMember, rfl⟩ := List.mem_map.1 listed
    exact notCovered _ member (covered link linkMember)

/-- The inode has the new page, and the volume is the same outside the pages taken. -/
structure Moved (before after : Volume) (inode page : Nat) (content : Memory)
    (taken : List Nat) : Prop where
  fsPage : ∀ other < 4096, fsPage after other =
    if other = inode then page else fsPage before other
  written : after.flash page = content
  flash : ∀ other ∉ taken, after.flash other = before.flash other

/-- Programming a page that is not the root and no table. -/
theorem fsPage_of_other_pages {before after : Volume} {page other : Nat}
    (root : after.root = before.root)
    (flash : ∀ place, place ≠ page → after.flash place = before.flash place)
    (rootNe : before.root % 4096 ≠ page)
    (tableNe : fsInodetable before (other / 256) % 4096 ≠ page) :
    fsPage after other = fsPage before other := by
  have table : fsInodetable after (other / 256) = fsInodetable before (other / 256) := by
    show tablePointer (after.flash (after.root % 4096)) _ = _
    rw [root, flash _ rootNe]
    rfl
  apply fsPage_eq_of_tables
  rw [table, flash _ tableNe]

section Moving

variable {fs : Fs} {inode target page length : Nat} {links : List (Nat × Nat)}

/-- The claimed page is programmed. -/
theorem moved_savePage {newPage table root : Nat}
    (switches : Switches (handOut fs newPage) table root)
    (targetBound : target < 4096) (newBound : newPage < 4096) (tableNe : table ≠ newPage)
    (rootNe : root ≠ newPage)
    (notTable : ∀ tableId < 16, newPage ≠ fsInodetable fs.toVolume tableId)
    (buffer : Memory) (header : PageHeader) (data : List UInt8) (offset : Nat) :
    Moved fs.toVolume (savePage (withBuffer (updated (handOut fs newPage) target newPage table root)
      buffer) header data offset newPage).toVolume target newPage
      (savedContent buffer header data offset) [newPage, table, root] := by
  have flash : (savePage (withBuffer (updated (handOut fs newPage) target newPage table root)
      buffer) header data offset newPage).flash =
      Function.update (updated (handOut fs newPage) target newPage table root).flash newPage
        (savedContent buffer header data offset) := by
    simp only [savePage, dfBufSave, Nat.mod_eq_of_lt newBound]
    rfl
  refine ⟨?_, ?_, ?_⟩
  · intro other otherBound
    refine Eq.trans ?_ (fsPage_updated switches targetBound (Or.inl newBound) otherBound)
    have elsewhere : ∀ place, place ≠ newPage → (savePage (withBuffer (updated (handOut fs newPage)
        target newPage table root) buffer) header data offset newPage).flash place =
        (updated (handOut fs newPage) target newPage table root).flash place := by
      intro place different
      rw [flash, Function.update_of_ne different]
    refine fsPage_of_other_pages ?_ elsewhere ?_ ?_
    · rfl
    · show root % 4096 ≠ newPage
      rw [Nat.mod_eq_of_lt switches.newRoot_lt]
      exact rootNe
    · rw [fsInodetable_updated switches targetBound (by omega)]
      split
      · rw [Nat.mod_eq_of_lt switches.newTable_lt]
        exact tableNe
      · rw [Nat.mod_eq_of_lt (switches.table_lt _ (by omega))]
        exact (notTable _ (by omega)).symm
  · rw [flash, Function.update_self]
  · intro other notTaken
    simp only [List.mem_cons, List.not_mem_nil, or_false, not_or] at notTaken
    rw [flash, Function.update_of_ne notTaken.1]
    show Function.update (Function.update fs.flash table _) root _ other = _
    rw [Function.update_of_ne notTaken.2.2, Function.update_of_ne notTaken.2.1]

theorem truncatePage_moved (truncatable : Truncatable fs inode links) (targetBound : target < 4096)
    (pageBound : page < 4096) (listed : page ∈ links.map Prod.snd) :
    (truncatePage fs target page length).1 ≠ .ok ∨
      ∃ after newPage taken, truncatePage fs target page length = (.ok, after) ∧
        Moved fs.toVolume after.toVolume target newPage (savedContent (fs.flash (page % 4096))
          { fs.header page with size := length, eof := true } [] 0) taken ∧
        newPage < 4096 ∧ ∀ other ∈ links.map Prod.snd, other ∉ taken := by
  rcases claimPage_supplied truncatable.bounded.lastFree target with
    failed | ⟨newPage, table, root, supplied, newBound, tableBound, rootBound, tableNe, rootNe,
      claimed⟩
  · left
    simp only [truncatePage]
    rw [if_pos failed]
    exact failed
  right
  have unused := truncatable.supply newPage table root supplied
  have switches : Switches (handOut fs newPage) table root :=
    { root_lt := truncatable.bounded.root
      table_lt := truncatable.table_lt
      newTable_lt := tableBound
      newRoot_lt := rootBound
      different := rootNe.symm
      table_ne := fun tableId inside => (unused.notTable table (by simp) tableId inside).symm
      root_ne := fun tableId inside => (unused.notTable root (by simp) tableId inside).symm }
  rw [incremented_tableSaved switches.root_lt tableBound (unused.notRoot table (by simp)).symm]
    at claimed
  have kept : (updated (handOut fs newPage) target newPage table root).flash (page % 4096) =
      fs.flash (page % 4096) := by
    have notTable : page ≠ table := fun same => unused.notListed table (by simp) (same ▸ listed)
    have notRoot : page ≠ root := fun same => unused.notListed root (by simp) (same ▸ listed)
    rw [Nat.mod_eq_of_lt pageBound]
    show Function.update (Function.update fs.flash table _) root _ page = _
    rw [Function.update_of_ne notRoot, Function.update_of_ne notTable]
  have header : (withBuffer (updated (handOut fs newPage) target newPage table root)
      (fs.flash (page % 4096))).header page = fs.header page := header_congr kept
  have result : truncatePage fs target page length =
      (.ok, savePage (withBuffer (updated (handOut fs newPage) target newPage table root)
        (fs.flash (page % 4096))) { fs.header page with size := length, eof := true } [] 0
        newPage) := by
    simp only [truncatePage, claimed, dfBufLoad_eq, kept, header, ne_eq,
      not_true_eq_false, if_false]
  exact ⟨_, newPage, [newPage, table, root], result,
    moved_savePage switches targetBound newBound tableNe unused.different.symm
      (unused.notTable newPage (by simp)) _ _ _ _,
    newBound, fun other member taken => unused.notListed other taken member⟩

/-- The file ends with the rewritten page. -/
theorem Moved.truncated {volume volume' : Volume} {oldPage newPage : Nat} {taken : List Nat}
    {content : Memory} {first suffix : List (Nat × Nat)}
    (moved : Moved volume volume' target newPage content taken) (newBound : newPage < 4096)
    (saved : content = savedContent (volume.flash (oldPage % 4096))
      { volume.header oldPage with size := length, eof := true } [] 0)
    (file : HasChain volume inode page links) (inodeBound : inode < 4096)
    (split : (inode, page) :: links = first ++ (target, oldPage) :: suffix)
    (tail : HasChain volume target oldPage suffix)
    (shorter : length < (volume.header oldPage).size)
    (kept : ∀ other ∈ ((inode, page) :: links).map Prod.snd, other ∉ taken) :
    ∃ links', IsFile volume' inode links' ∧
      linkBytes volume' links' = linkBytes volume first ++ (volume.data oldPage).take length := by
  have whole := IsFile.chain file
  have distinct := file.inodes_nodup
  rw [split, List.map_append, List.map_cons, List.nodup_append] at distinct
  have member {link : Nat × Nat} (inside : link ∈ first ++ (target, oldPage) :: suffix) :
      link ∈ (inode, page) :: links := by
    rw [split]
    exact inside
  have targetBound : target < 4096 := whole.inode_lt inodeBound target
    (List.mem_map_of_mem (f := Prod.fst) (member (by simp : (target, oldPage) ∈ _)))
  obtain ⟨root, ends, size, data⟩ := truncated_page tail.chain shorter saved
  have header : volume'.header newPage = pageHeader content := by
    rw [← moved.written]
    show pageHeader (volume'.flash (newPage % 4096)) = _
    rw [Nat.mod_eq_of_lt newBound]
  have new : HasChain volume' target newPage [] := by
    refine ⟨by rw [moved.fsPage target targetBound, if_pos rfl], by omega, ?_⟩
    rw [ChainFrom, header]
    exact ⟨root, ends, size⟩
  have front : ∀ link ∈ first, Dataflash.fsPage volume' link.1 = Dataflash.fsPage volume link.1 ∧
      volume'.flash link.2 = volume.flash link.2 := by
    intro link inside
    have listed := member (List.mem_append_left _ inside)
    refine ⟨?_, moved.flash _ (kept _ (List.mem_map_of_mem listed))⟩
    rw [moved.fsPage _ (whole.inode_lt inodeBound _ (List.mem_map_of_mem (f := Prod.fst) listed)),
      if_neg (distinct.2.2 _ (List.mem_map_of_mem inside) _ List.mem_cons_self)]
  obtain ⟨page', links', split', file'⟩ := HasChain.splice new file split front
  refine ⟨(inode, page') :: links', .chain file', ?_⟩
  have frontBytes : linkBytes volume' first = linkBytes volume first := by
    apply List.flatMap_congr
    intro link inside
    apply data_congr
    rw [Nat.mod_eq_of_lt (whole.page_lt _
      (List.mem_map_of_mem (f := Prod.snd) (member (List.mem_append_left _ inside))))]
    exact (front link inside).2
  have newBytes : volume'.data newPage = (volume.data oldPage).take length := by
    rw [← data, ← moved.written]
    show pageData (volume'.flash (newPage % 4096)) = _
    rw [Nat.mod_eq_of_lt newBound]
  rw [split', linkBytes_append, frontBytes, linkBytes_cons, chainBytes_nil, newBytes]

end Moving

/-- A successful call leaves the first `length` bytes; a call for more bytes than the file
has fails and changes nothing. -/
def Truncates (fs : Fs) (inode length : Nat) (content : List UInt8) : Prop :=
  (length ≤ content.length → ∀ after, fsTruncate fs inode length = (.ok, after) →
    fsSize after.toVolume inode = some length ∧
      fileBytes after.toVolume inode = some (content.take length)) ∧
  (content.length < length → content ≠ [] → fsTruncate fs inode length = (.badSeek, fs))

/-- The new end is between two pages of the file. -/
def BetweenPages (size length : Nat) : Prop := 0 < length ∧ length < size ∧ length % 512 = 0

instance (size length : Nat) : Decidable (BetweenPages size length) :=
  inferInstanceAs (Decidable (_ ∧ _))

/-- The call fails, changes nothing, or rewrites the page of the new end. -/
theorem fsTruncate_cases {fs : Fs} {inode page : Nat} {links : List (Nat × Nat)} (length : Nat)
    (file : HasChain fs.toVolume inode page links) :
    (fsTruncate fs inode length = (.badSeek, fs) ∧
      (chainBytes fs.toVolume page links).length < length) ∨
    (fsTruncate fs inode length = (.ok, fs) ∧
      (length = (chainBytes fs.toVolume page links).length ∨
        BetweenPages (chainBytes fs.toVolume page links).length length)) ∨
    ∃ first target oldPage suffix, (inode, page) :: links = first ++ (target, oldPage) :: suffix ∧
      HasChain fs.toVolume target oldPage suffix ∧
      fsTruncate fs inode length = truncatePage fs target oldPage (residual length) ∧
      (linkBytes fs.toVolume first).length + residual length = length ∧
      residual length < (fs.header oldPage).size ∧ length % 512 = residual length ∧
      length < (chainBytes fs.toVolume page links).length := by
  simp only [fsTruncate, file.entry, if_neg file.used,
    truncateSeek_eq (length + 1) inode page links length file]
  rcases writeSeek_eq (length + 1) inode page links length file (by omega) with
    ⟨failed, beyond⟩ | ⟨first, target, oldPage, suffix, split, found, position⟩
  · have bound := length_chainBytes_le file
    simp only [failed]
    exact Or.inl ⟨trivial, by omega⟩
  obtain ⟨firstLength, tail⟩ := length_linkBytes_full first inode page links file split
  simp only [found]
  have total : (chainBytes fs.toVolume page links).length =
      512 * first.length + (chainBytes fs.toVolume oldPage suffix).length := by
    rw [← linkBytes_cons fs.toVolume inode, split, linkBytes_append, linkBytes_cons,
      List.length_append, firstLength]
  have size := tail.chain.size_le
  have atMost := residual_le length
  have rest : (fs.header oldPage).size ≤ (chainBytes fs.toVolume oldPage suffix).length ∧
      ((fs.header oldPage).size = (chainBytes fs.toVolume oldPage suffix).length ∨
        (fs.header oldPage).size = 512) := by
    cases suffix with
    | nil =>
        rw [chainBytes_nil, length_data]
        exact ⟨Nat.le_refl _, Or.inl rfl⟩
    | cons link suffix =>
        rw [chainBytes_cons, List.length_append, length_data]
        exact ⟨Nat.le_add_right _ _, Or.inr tail.chain.1.2.2.1⟩
  rcases Nat.lt_trichotomy (residual length) (fs.header oldPage).size with
    shorter | same | longer
  · refine Or.inr (Or.inr ⟨first, target, oldPage, suffix, split, tail, ?_, by omega,
      shorter, by omega,
      by omega⟩)
    rw [if_neg (by omega), if_neg (by omega)]
  · refine Or.inr (Or.inl ⟨?_, ?_⟩)
    · rw [if_neg (by omega), if_pos same]
    · unfold BetweenPages
      omega
  · exact Or.inl ⟨by rw [if_pos longer], by omega⟩

theorem Truncatable.truncates {fs : Fs} {inode length : Nat} {links : List (Nat × Nat)}
    (truncatable : Truncatable fs inode links)
    (inside : ¬BetweenPages (linkBytes fs.toVolume links).length length) :
    Truncates fs inode length (linkBytes fs.toVolume links) := by
  have unchanged (exact : length = (linkBytes fs.toVolume links).length) :
      fsSize fs.toVolume inode = some length ∧
        fileBytes fs.toVolume inode = some ((linkBytes fs.toVolume links).take length) := by
    rw [truncatable.file.fsSize_eq, truncatable.file.fileBytes_eq, exact, List.take_length]
    exact ⟨rfl, rfl⟩
  have supplied := truncatable
  obtain ⟨_, _, inodeBound, file, _⟩ := truncatable
  cases file with
  | unwritten missing =>
      refine ⟨fun fits after result => ?_, fun _ nonempty => absurd rfl nonempty⟩
      simp only [fsTruncate, missing, if_true, Prod.mk.injEq, true_and] at result
      rw [← result]
      exact unchanged (Nat.le_zero.1 fits)
  | @chain page links file =>
      rw [linkBytes_cons] at inside unchanged ⊢
      rcases fsTruncate_cases length file with
        ⟨failed, short⟩ | ⟨same, exact | between⟩ |
          ⟨first, target, oldPage, suffix, split, tail, rewrites, position, shorter, _, less⟩
      · refine ⟨fun fits => by omega, fun _ _ => failed⟩
      · refine ⟨fun _ after result => ?_, fun short => by omega⟩
        rw [same, Prod.mk.injEq] at result
        rw [← result.2]
        exact unchanged exact
      · exact absurd between inside
      · refine ⟨fun _ after result => ?_, fun short => by omega⟩
        have listed : (target, oldPage) ∈ (inode, page) :: links := by
          rw [split]
          simp
        have targetBound := supplied.file.inode_lt inodeBound target
          (List.mem_map_of_mem (f := Prod.fst) listed)
        rw [rewrites] at result
        rcases truncatePage_moved supplied targetBound tail.page_lt
            (List.mem_map_of_mem (f := Prod.snd) listed) with
          failed | ⟨after', newPage, taken, result', moved, newBound, kept⟩
        · rw [result] at failed
          exact absurd rfl failed
        · rw [result, Prod.mk.injEq] at result'
          rw [← result'.2] at moved
          obtain ⟨links', file', bytes⟩ :=
            moved.truncated newBound rfl file inodeBound split tail shorter kept
          have cut : (chainBytes fs.toVolume page links).take length =
              linkBytes fs.toVolume first ++ (fs.data oldPage).take (residual length) := by
            rw [← linkBytes_cons fs.toVolume inode, split, linkBytes_append, linkBytes_cons,
              chainBytes, chainPages, List.flatMap_cons, List.take_append,
              List.take_of_length_le (by omega), List.take_append_of_le_length]
            · congr 2
              omega
            · rw [length_data]
              omega
          rw [file'.fsSize_eq, file'.fileBytes_eq, bytes, cut]
          refine ⟨?_, rfl⟩
          rw [List.length_append, List.length_take, length_data]
          congr 1
          omega

/-- Between two pages of the file the call reports success and leaves the file as it is. -/
theorem not_truncates {fs : Fs} {inode length : Nat} {links : List (Nat × Nat)}
    (file : IsFile fs.toVolume inode links)
    (between : BetweenPages (linkBytes fs.toVolume links).length length) :
    ¬Truncates fs inode length (linkBytes fs.toVolume links) := by
  obtain ⟨positive, less, border⟩ := between
  intro truncates
  have size := file.fsSize_eq
  cases file with
  | unwritten _ => exact absurd less (Nat.not_lt_zero length)
  | @chain page links file =>
      rw [linkBytes_cons] at less truncates size
      rcases fsTruncate_cases length file with
        ⟨_, short⟩ | ⟨same, _⟩ | ⟨_, _, oldPage, _, _, tail, _, _, shorter, rest, _⟩
      · omega
      · have cut := (truncates.1 (by omega) fs same).1
        rw [size, Option.some.injEq] at cut
        omega
      · have zero : residual length = 0 := by omega
        unfold residual at zero
        split at zero <;> omega

theorem truncates_iff {fs : Fs} {inode length : Nat} {links : List (Nat × Nat)}
    (truncatable : Truncatable fs inode links) :
    Truncates fs inode length (linkBytes fs.toVolume links) ↔
      ¬BetweenPages (linkBytes fs.toVolume links).length length :=
  ⟨fun truncates between => not_truncates truncatable.file between truncates,
    truncatable.truncates⟩

/-- The first bytes written to a file that was just created. -/
theorem Writable.first_bytes {fs : Fs} {inode rest : Nat} {buf : List UInt8}
    (writable : Writable fs inode 0 buf.length [])
    (room : rest + 3 * writeRounds fs.toVolume inode 0 buf.length ≤ spare fs) :
    ∃ after links, fsWrite fs inode buf 0 = (.ok, after) ∧ Anchored after ∧
      IsFile after.toVolume inode links ∧ (∀ link ∈ links, Covered after link.2) ∧
      rest ≤ spare after ∧ (linkBytes after.toVolume links).length = buf.length := by
  rcases fsWrite_spec buf writable.anchored writable.inode_lt writable.file writable.covered room
      writable.free with
    ⟨_, behind⟩ | ⟨after, links, target, taken, result, written, _, content, left, _⟩
  · exact absurd behind (Nat.not_lt_zero _)
  · refine ⟨after, links, result, written.rewritten.anchored, written.file, ?_, left, ?_⟩
    · intro link member
      exact written.covered _ (List.mem_map_of_mem member)
    · rw [content (Nat.zero_le _), length_overlay (Nat.zero_le _), length_writtenBytes]
      simp [linkBytes]

theorem IsFile.writeRounds_eq {volume : Volume} {inode : Nat} (file : IsFile volume inode [])
    (length : Nat) : writeRounds volume inode 0 length = rounds 0 length := by
  cases file with
  | unwritten missing => rw [writeRounds, if_pos missing, if_pos rfl]

/-- Ten bytes are written and cut down to four. -/
theorem truncates_first_bytes :
    ∃ formatted created fs links, fsInit blankChip = some (.ok, formatted) ∧
      fsCreate formatted [97] = some (.ok, created) ∧
      fsWrite created 0 (List.replicate 10 7) 0 = (.ok, fs) ∧
      (linkBytes fs.toVolume links).length = 10 ∧
      Truncates fs 0 4 (linkBytes fs.toVolume links) := by
  obtain ⟨formatted, created, mounted, result, _, _, writable⟩ := exists_first_file [97]
  have enough := (writable 1024 (by omega)).room
  rw [(writable 0 (by omega)).file.writeRounds_eq] at enough
  have twoPages : rounds 0 1024 = 2 := rfl
  have fits : Writable created 0 0 (List.replicate 10 (7 : UInt8)).length [] := by
    rw [List.length_replicate]
    exact writable 10 (by omega)
  have onePage : rounds 0 (List.replicate 10 (7 : UInt8)).length = 1 := rfl
  have room : 3 + 3 * writeRounds created.toVolume 0 0 (List.replicate 10 (7 : UInt8)).length ≤
      spare created := by
    rw [fits.file.writeRounds_eq]
    omega
  obtain ⟨fs, links, wrote, anchored, file, covered, left, length⟩ := fits.first_bytes room
  rw [List.length_replicate] at length
  refine ⟨formatted, created, fs, links, mounted, result, wrote, length, ?_⟩
  refine (truncates_iff (anchored.truncatable (by omega) file covered left)).2 ?_
  rw [length]
  decide

/-- A file of 513 bytes cannot be cut down to its first page. -/
theorem truncate_keeps_second_page :
    ∃ formatted created fs links, fsInit blankChip = some (.ok, formatted) ∧
      fsCreate formatted [97] = some (.ok, created) ∧
      fsWrite created 0 (List.replicate 513 7) 0 = (.ok, fs) ∧
      IsFile fs.toVolume 0 links ∧ (linkBytes fs.toVolume links).length = 513 ∧
      ¬Truncates fs 0 512 (linkBytes fs.toVolume links) := by
  obtain ⟨formatted, created, mounted, result, _, _, writable⟩ := exists_first_file [97]
  have fits : Writable created 0 0 (List.replicate 513 (7 : UInt8)).length [] := by
    rw [List.length_replicate]
    exact writable 513 (by omega)
  have room : 0 + 3 * writeRounds created.toVolume 0 0 (List.replicate 513 (7 : UInt8)).length ≤
      spare created := by
    rw [Nat.zero_add]
    exact fits.room
  obtain ⟨fs, links, wrote, _, file, _, _, length⟩ := fits.first_bytes room
  rw [List.length_replicate] at length
  refine ⟨formatted, created, fs, links, mounted, result, wrote, file, length, ?_⟩
  apply not_truncates file
  rw [length]
  decide

end Ethersex.Dataflash

import Ethersex.DataflashLinks
import Mathlib.Data.List.Nodup
import Mathlib.Data.List.Perm.Subperm

/-!
# Inode chains

A file is a chain of pages: each page but the last is full and names the inode
the file goes on with.  A chain is given by its first page and the list of the
inodes and pages behind it.
-/

namespace Ethersex.Dataflash

open ByteMemory

variable {volume : Volume} {page : Nat} {links : List (Nat × Nat)}

theorem fsPage_lt {inode : Nat} (used : fsPage volume inode ≠ 0xffff) :
    fsPage volume inode < 4096 := by
  rw [fsPage] at used ⊢
  split at used
  · exact absurd rfl used
  · next inUse =>
      rw [if_neg inUse]
      exact TableNode.decode_page_lt _

/-- The inodes whose table entry is unused, in the order `fs_new_inode` finds them. -/
def freeInodes (volume : Volume) : List Nat :=
  (List.range 4096).filter fun inode => fsPage volume inode == 0xffff

theorem mem_freeInodes {inode : Nat} :
    inode ∈ freeInodes volume ↔ inode < 4096 ∧ fsPage volume inode = 0xffff := by
  simp [freeInodes]

theorem nodup_freeInodes (volume : Volume) : (freeInodes volume).Nodup :=
  List.nodup_range.filter _

theorem findSome?_range_eq {α : Type*} {find : Nat → Option α} {count index : Nat} {found : α}
    (inside : index < count) (here : find index = some found)
    (before : ∀ earlier < index, find earlier = none) :
    (List.range count).findSome? find = some found := by
  induction count with
  | zero => omega
  | succ count ih =>
      rw [List.range_succ, List.findSome?_append]
      rcases Nat.lt_or_ge index count with earlier | last
      · rw [ih earlier]
        rfl
      · have same : index = count := by omega
        subst same
        have none : (List.range index).findSome? find = none := by
          rw [List.findSome?_eq_none_iff]
          intro earlier member
          exact before earlier (List.mem_range.1 member)
        rw [none]
        simp [here]

theorem fsPage_eq_none_iff {tableId entry : Nat} (inside : entry < 256) :
    fsPage volume (tableId * 256 + entry) = 0xffff ↔
      (tableNode volume (fsInodetable volume tableId) entry).unused = true := by
  have table : (tableId * 256 + entry) / 256 = tableId := by omega
  have place : (tableId * 256 + entry) % 256 = entry := by omega
  rw [fsPage, table, place]
  have bound : (tableNode volume (fsInodetable volume tableId) entry).page < 4096 :=
    TableNode.decode_page_lt _
  constructor
  · intro missing
    by_contra used
    rw [if_neg used] at missing
    omega
  · intro unused
    rw [if_pos unused]

theorem fsNewInode_of_free {next : Nat} {others : List Nat}
    (free : freeInodes volume = next :: others) : fsNewInode volume = next := by
  have first : (freeInodes volume).head? = some next := by rw [free]; rfl
  rw [freeInodes, List.head?_filter, List.find?_range_eq_some] at first
  obtain ⟨missing, member, before⟩ := first
  rw [beq_iff_eq] at missing
  rw [List.mem_range] at member
  have split : next / 256 * 256 + next % 256 = next := Nat.div_add_mod' next 256
  rw [← split, fsPage_eq_none_iff (Nat.mod_lt _ (by omega))] at missing
  have taken : ∀ tableId entry, entry < 256 → tableId * 256 + entry < next →
      (tableNode volume (fsInodetable volume tableId) entry).unused ≠ true := by
    intro tableId entry inside earlier unused
    have missing' := (fsPage_eq_none_iff inside).2 unused
    have present := before (tableId * 256 + entry) earlier
    simp [missing'] at present
  have inTable : ((List.range 256).findSome? fun entry =>
      if (tableNode volume (fsInodetable volume (next / 256)) entry).unused then
        some (next / 256 * 256 + entry) else none) = some next := by
    apply findSome?_range_eq (Nat.mod_lt next (by omega : 0 < 256))
    · rw [if_pos missing, split]
    · intro entry earlier
      rw [if_neg (taken _ entry (by omega) (by omega))]
  have inVolume : ((List.range 16).findSome? fun tableId =>
      let table := fsInodetable volume tableId
      (List.range 256).findSome? fun entry =>
        if (tableNode volume table entry).unused then
          some (tableId * 256 + entry) else none) = some next := by
    apply findSome?_range_eq (by omega : next / 256 < 16) inTable
    intro tableId earlier
    rw [List.findSome?_eq_none_iff]
    intro entry inside
    rw [List.mem_range] at inside
    rw [if_neg (taken tableId entry inside (by omega))]
  rw [fsNewInode, inVolume]
  rfl

theorem Relinked.freeInodes {before after : Fs} {inode : Nat}
    (linked : Relinked before after inode page) (used : page ≠ 0xffff) :
    freeInodes after.toVolume = (freeInodes before.toVolume).filter fun other => other ≠ inode := by
  rw [Dataflash.freeInodes, Dataflash.freeInodes, List.filter_filter]
  apply List.filter_congr
  intro other member
  rw [List.mem_range] at member
  rw [linked.fsPage other member]
  by_cases same : other = inode
  · simp [same, used]
  · simp [same]

def Volume.data (volume : Volume) (page : Nat) : List UInt8 :=
  pageData (volume.flash (page % 4096))

/-- The chain that starts in `page` goes on with these inodes and pages. -/
def ChainFrom (volume : Volume) : Nat → List (Nat × Nat) → Prop
  | page, [] =>
      (volume.header page).root = false ∧ (volume.header page).eof = true ∧
        (volume.header page).size ≤ 512
  | page, (inode, next) :: links =>
      ((volume.header page).root = false ∧ (volume.header page).eof = false ∧
        (volume.header page).size = 512 ∧ (volume.header page).nextInode = inode) ∧
        (fsPage volume inode = next ∧ next ≠ 0xffff) ∧ ChainFrom volume next links

def chainPages (page : Nat) (links : List (Nat × Nat)) : List Nat := page :: links.map Prod.snd

def chainBytes (volume : Volume) (page : Nat) (links : List (Nat × Nat)) : List UInt8 :=
  (chainPages page links).flatMap volume.data

theorem chainBytes_nil (volume : Volume) (page : Nat) :
    chainBytes volume page [] = volume.data page := by
  simp [chainBytes, chainPages]

theorem chainBytes_cons (volume : Volume) (page inode next : Nat) (links : List (Nat × Nat)) :
    chainBytes volume page ((inode, next) :: links) =
      volume.data page ++ chainBytes volume next links := by
  simp [chainBytes, chainPages]

theorem length_data (volume : Volume) (page : Nat) :
    (volume.data page).length = (volume.header page).size :=
  length_readPage ..

theorem ChainFrom.root_eq_false (chain : ChainFrom volume page links) :
    (volume.header page).root = false := by
  cases links with
  | nil => exact chain.1
  | cons link links => exact chain.1.1

theorem ChainFrom.size_le (chain : ChainFrom volume page links) :
    (volume.header page).size ≤ 512 := by
  cases links with
  | nil => exact chain.2.2
  | cons link links => exact Nat.le_of_eq chain.1.2.2.1

theorem header_nextInode_lt (volume : Volume) (page : Nat) :
    (volume.header page).nextInode < 4096 :=
  PageHeader.decode_nextInode_lt _

theorem ChainFrom.inode_lt (chain : ChainFrom volume page links) :
    ∀ link ∈ links, link.1 < 4096 := by
  induction links generalizing page with
  | nil => simp
  | cons link links ih =>
      intro other member
      rcases List.mem_cons.1 member with same | later
      · rw [same, ← chain.1.2.2.2]
        exact header_nextInode_lt volume page
      · exact ih chain.2.2 other later

theorem ChainFrom.fsPage_link (chain : ChainFrom volume page links) :
    ∀ link ∈ links, fsPage volume link.1 = link.2 ∧ link.2 ≠ 0xffff := by
  induction links generalizing page with
  | nil => simp
  | cons link links ih =>
      intro other member
      rcases List.mem_cons.1 member with same | later
      · rw [same]
        exact chain.2.1
      · exact ih chain.2.2 other later

theorem ChainFrom.page_lt (chain : ChainFrom volume page links) (bound : page < 4096) :
    ∀ other ∈ chainPages page links, other < 4096 := by
  intro other member
  rcases List.mem_cons.1 member with same | later
  · rw [same]
    exact bound
  · obtain ⟨link, linkMember, rfl⟩ := List.mem_map.1 later
    obtain ⟨entry, used⟩ := chain.fsPage_link link linkMember
    rw [← entry] at used ⊢
    exact fsPage_lt used

/-- A page determines the chain behind it. -/
theorem ChainFrom.unique {links' : List (Nat × Nat)}
    (chain : ChainFrom volume page links) (chain' : ChainFrom volume page links') :
    links = links' := by
  induction links generalizing page links' with
  | nil =>
      cases links' with
      | nil => rfl
      | cons link links' =>
          have last := chain.2.1
          rw [chain'.1.2.1] at last
          cases last
  | cons link links ih =>
      cases links' with
      | nil =>
          have last := chain'.2.1
          rw [chain.1.2.1] at last
          cases last
      | cons link' links' =>
          obtain ⟨inode, next⟩ := link
          obtain ⟨inode', next'⟩ := link'
          have sameInode : inode = inode' := chain.1.2.2.2.symm.trans chain'.1.2.2.2
          subst sameInode
          have sameNext : next = next' := chain.2.1.1.symm.trans chain'.2.1.1
          subst sameNext
          rw [ih chain.2.2 chain'.2.2]

theorem ChainFrom.drop {inode next : Nat} {first : List (Nat × Nat)}
    (chain : ChainFrom volume page (first ++ (inode, next) :: links)) :
    ChainFrom volume next links := by
  induction first generalizing page with
  | nil => exact chain.2.2
  | cons link first ih => exact ih chain.2.2

/-- The inode that leads to a page does not come again behind it. -/
theorem ChainFrom.inode_notMem {inode : Nat}
    (chain : ChainFrom volume page links) (entry : fsPage volume inode = page) :
    inode ∉ links.map Prod.fst := by
  intro member
  obtain ⟨⟨other, next⟩, linkMember, same⟩ := List.mem_map.1 member
  subst same
  obtain ⟨first, rest, split⟩ := List.append_of_mem linkMember
  have again : next = page := (chain.fsPage_link _ linkMember).1.symm.trans entry
  rw [split] at chain
  have suffix := chain.drop
  rw [again] at suffix
  have lengths := congrArg List.length (chain.unique suffix)
  simp only [List.length_append, List.length_cons] at lengths
  omega

theorem ChainFrom.inodes_nodup (chain : ChainFrom volume page links) :
    (links.map Prod.fst).Nodup := by
  induction links generalizing page with
  | nil => exact List.nodup_nil
  | cons link links ih =>
      rw [List.map_cons, List.nodup_cons]
      exact ⟨chain.2.2.inode_notMem chain.2.1.1, ih chain.2.2⟩

theorem header_congr {volume' : Volume}
    (same : volume'.flash (page % 4096) = volume.flash (page % 4096)) :
    volume'.header page = volume.header page := by
  rw [Volume.header, Volume.header, dfFlashRead, dfFlashRead, same]

theorem data_congr {volume' : Volume}
    (same : volume'.flash (page % 4096) = volume.flash (page % 4096)) :
    volume'.data page = volume.data page := by
  rw [Volume.data, Volume.data, same]

theorem ChainFrom.congr {volume' : Volume} (chain : ChainFrom volume page links)
    (pages : ∀ other ∈ chainPages page links,
      volume'.flash (other % 4096) = volume.flash (other % 4096))
    (entries : ∀ link ∈ links, fsPage volume' link.1 = fsPage volume link.1) :
    ChainFrom volume' page links := by
  induction links generalizing page with
  | nil =>
      have header := header_congr (pages page List.mem_cons_self)
      simp only [ChainFrom, header]
      exact chain
  | cons link links ih =>
      obtain ⟨inode, next⟩ := link
      have header := header_congr (pages page List.mem_cons_self)
      simp only [ChainFrom, header]
      refine ⟨chain.1, ⟨?_, chain.2.1.2⟩, ih chain.2.2 ?_ ?_⟩
      · rw [entries _ List.mem_cons_self]
        exact chain.2.1.1
      · intro other member
        exact pages other (List.mem_cons_of_mem _ member)
      · intro other member
        exact entries other (List.mem_cons_of_mem _ member)

theorem chainBytes_congr {volume' : Volume} (pages : ∀ other ∈ chainPages page links,
      volume'.flash (other % 4096) = volume.flash (other % 4096)) :
    chainBytes volume' page links = chainBytes volume page links :=
  List.flatMap_congr fun other member => data_congr (pages other member)

def bytesFrom (volume : Volume) : Nat → Nat → Option (List UInt8)
  | 0, _ => none
  | fuel + 1, inode =>
      let page := fsPage volume inode
      if page = 0xffff then some []
      else if (volume.header page).eof then some (volume.data page)
      else (bytesFrom volume fuel (volume.header page).nextInode).map (volume.data page ++ ·)

/-- The logical content of a file: the data of the pages on its chain. -/
def fileBytes (volume : Volume) (inode : Nat) : Option (List UInt8) :=
  bytesFrom volume 4097 inode

/-- `inode` has the page `page` and the chain behind it. -/
structure HasChain (volume : Volume) (inode page : Nat) (links : List (Nat × Nat)) : Prop where
  entry : fsPage volume inode = page
  used : page ≠ 0xffff
  chain : ChainFrom volume page links

theorem HasChain.next {inode next nextPage : Nat}
    (file : HasChain volume inode page ((next, nextPage) :: links)) :
    HasChain volume next nextPage links :=
  ⟨file.chain.2.1.1, file.chain.2.1.2, file.chain.2.2⟩

theorem HasChain.bytesFrom {inode : Nat}
    (file : HasChain volume inode page links) {fuel : Nat} (enough : links.length < fuel) :
    bytesFrom volume fuel inode = some (chainBytes volume page links) := by
  induction fuel generalizing inode page links with
  | zero => omega
  | succ fuel ih =>
      cases links with
      | nil =>
          simp only [Dataflash.bytesFrom, file.entry, if_neg file.used, file.chain.2.1, if_true,
            chainBytes_nil]
      | cons link links =>
          obtain ⟨next, nextPage⟩ := link
          simp only [List.length_cons] at enough
          have rest := ih file.next (by omega)
          simp only [Dataflash.bytesFrom, file.entry, if_neg file.used, file.chain.1.2.1,
            Bool.false_eq_true, if_false, file.chain.1.2.2.2, chainBytes_cons, rest,
            Option.map_some]

theorem HasChain.sizeFrom {inode : Nat}
    (file : HasChain volume inode page links) {fuel : Nat} (enough : links.length < fuel)
    (size : Nat) :
    sizeFrom volume fuel inode size = some (size + (chainBytes volume page links).length) := by
  induction fuel generalizing inode page links size with
  | zero => omega
  | succ fuel ih =>
      cases links with
      | nil =>
          simp only [Dataflash.sizeFrom, file.entry, if_neg file.used, file.chain.2.1, if_true,
            chainBytes_nil, length_data]
      | cons link links =>
          obtain ⟨next, nextPage⟩ := link
          simp only [List.length_cons] at enough
          have rest := ih file.next (by omega) (size + (volume.header page).size)
          simp only [Dataflash.sizeFrom, file.entry, if_neg file.used, file.chain.1.2.1,
            Bool.false_eq_true, if_false, file.chain.1.2.2.2, chainBytes_cons, rest,
            List.length_append, length_data, Nat.add_assoc]

/-- There are not more links than inodes. -/
theorem ChainFrom.length_le (chain : ChainFrom volume page links) : links.length ≤ 4096 := by
  have subset : links.map Prod.fst ⊆ List.range 4096 := by
    intro inode member
    obtain ⟨link, linkMember, rfl⟩ := List.mem_map.1 member
    exact List.mem_range.2 (chain.inode_lt link linkMember)
  have bound := (List.subperm_of_subset chain.inodes_nodup subset).length_le
  simpa using bound

theorem HasChain.fileBytes_eq {inode : Nat} (file : HasChain volume inode page links) :
    fileBytes volume inode = some (chainBytes volume page links) :=
  file.bytesFrom (Nat.lt_succ_of_le file.chain.length_le)

theorem HasChain.fsSize_eq {inode : Nat} (file : HasChain volume inode page links) :
    fsSize volume inode = some (chainBytes volume page links).length := by
  rw [fsSize, file.sizeFrom (Nat.lt_succ_of_le file.chain.length_le), Nat.zero_add]

end Ethersex.Dataflash

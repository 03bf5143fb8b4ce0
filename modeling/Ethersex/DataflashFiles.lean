import Ethersex.DataflashWrite

/-!
# Files, and what a call does to the file it is made for

A file is its inode with the list of the inodes and pages on its chain; the list
is empty as long as nothing has been written.  A call rewrites one inode of the
chain and takes unused inodes for the pages behind it.
-/

namespace Ethersex.Dataflash

open ByteMemory

variable {volume : Volume} {links : List (Nat × Nat)}

inductive IsFile (volume : Volume) (inode : Nat) : List (Nat × Nat) → Prop
  | unwritten (missing : fsPage volume inode = 0xffff) : IsFile volume inode []
  | chain {page : Nat} {links : List (Nat × Nat)} (file : HasChain volume inode page links) :
      IsFile volume inode ((inode, page) :: links)

/-- The data of the pages of a file. -/
def linkBytes (volume : Volume) (links : List (Nat × Nat)) : List UInt8 :=
  links.flatMap fun link => volume.data link.2

theorem linkBytes_cons (volume : Volume) (inode page : Nat) (links : List (Nat × Nat)) :
    linkBytes volume ((inode, page) :: links) = chainBytes volume page links := by
  simp [linkBytes, chainBytes, chainPages, List.flatMap_map]

theorem IsFile.fileBytes_eq {inode : Nat} (file : IsFile volume inode links) :
    fileBytes volume inode = some (linkBytes volume links) := by
  cases file with
  | unwritten missing =>
      rw [fileBytes, bytesFrom, missing]
      rfl
  | chain file => rw [file.fileBytes_eq, linkBytes_cons]

theorem IsFile.fsSize_eq {inode : Nat} (file : IsFile volume inode links) :
    fsSize volume inode = some (linkBytes volume links).length := by
  cases file with
  | unwritten missing =>
      rw [fsSize, sizeFrom, missing]
      rfl
  | chain file => rw [file.fsSize_eq, linkBytes_cons]

theorem HasChain.page_lt {inode page : Nat}
    (file : HasChain volume inode page links) : page < 4096 := by
  rw [← file.entry]
  exact fsPage_lt (by rw [file.entry]; exact file.used)

theorem IsFile.fsPage_link {inode : Nat} (file : IsFile volume inode links) :
    ∀ link ∈ links, fsPage volume link.1 = link.2 ∧ link.2 ≠ 0xffff := by
  cases file with
  | unwritten _ => simp
  | chain file =>
      intro link member
      rcases List.mem_cons.1 member with same | later
      · rw [same]
        exact ⟨file.entry, file.used⟩
      · exact file.chain.fsPage_link link later

theorem IsFile.page_lt {inode : Nat}
    (file : IsFile volume inode links) : ∀ page ∈ links.map Prod.snd, page < 4096 := by
  intro page member
  obtain ⟨link, linkMember, rfl⟩ := List.mem_map.1 member
  obtain ⟨entry, used⟩ := file.fsPage_link link linkMember
  rw [← entry] at used ⊢
  exact fsPage_lt used

theorem IsFile.inode_lt {inode : Nat} (file : IsFile volume inode links) (bound : inode < 4096) :
    ∀ other ∈ links.map Prod.fst, other < 4096 := by
  cases file with
  | unwritten _ => simp
  | chain file =>
      intro other member
      rcases List.mem_cons.1 member with same | later
      · rw [same]
        exact bound
      · obtain ⟨link, linkMember, rfl⟩ := List.mem_map.1 later
        exact file.chain.inode_lt link linkMember

/-- Inodes on a chain are not free. -/
theorem IsFile.notMem_freeInodes {inode : Nat} (file : IsFile volume inode links) :
    ∀ other ∈ links.map Prod.fst, other ∉ freeInodes volume := by
  intro other member free
  obtain ⟨link, linkMember, rfl⟩ := List.mem_map.1 member
  obtain ⟨entry, used⟩ := file.fsPage_link link linkMember
  exact used (entry.symm.trans (mem_freeInodes.1 free).2)

/-- A volume in which the entries and pages of a file are the same shows the same file. -/
theorem IsFile.congr {volume' : Volume} {inode : Nat} (file : IsFile volume inode links)
    (pages : ∀ page ∈ links.map Prod.snd, volume'.flash page = volume.flash page)
    (entries : ∀ other ∈ inode :: links.map Prod.fst,
      fsPage volume' other = fsPage volume other) :
    IsFile volume' inode links ∧ linkBytes volume' links = linkBytes volume links := by
  have bound := file.page_lt
  have same : ∀ page ∈ links.map Prod.snd,
      volume'.flash (page % 4096) = volume.flash (page % 4096) := by
    intro page member
    rw [Nat.mod_eq_of_lt (bound page member), pages page member]
  constructor
  · cases file with
    | unwritten missing =>
        exact .unwritten ((entries inode List.mem_cons_self).trans missing)
    | chain file =>
        refine .chain ⟨(entries inode List.mem_cons_self).trans file.entry, file.used,
          file.chain.congr same ?_⟩
        intro link member
        exact entries _ (List.mem_cons_of_mem _ (List.mem_cons_of_mem _
          (List.mem_map_of_mem member)))
  · apply List.flatMap_congr
    intro link member
    exact data_congr (same _ (List.mem_map_of_mem member))

/-- What is left of an offset in the page it falls into; a position between two
pages counts as the end of the first one. -/
def residual (offset : Nat) : Nat := if offset = 0 then 0 else (offset - 1) % 512 + 1

theorem residual_le (offset : Nat) : residual offset ≤ 512 := by
  unfold residual
  split <;> omega

/-- The page that an offset falls into divides the chain. -/
theorem writeSeek_eq :
    ∀ (fuel inode page : Nat) (links : List (Nat × Nat)) (offset : Nat),
      HasChain volume inode page links → offset < fuel →
      (writeSeek volume fuel inode page offset = none ∧ 512 * (links.length + 1) < offset) ∨
      ∃ first target oldPage suffix,
        (inode, page) :: links = first ++ (target, oldPage) :: suffix ∧
        writeSeek volume fuel inode page offset = some (target, oldPage, residual offset) ∧
        offset = 512 * first.length + residual offset := by
  intro fuel
  induction fuel with
  | zero => intro inode page links offset _ enough; omega
  | succ fuel ih =>
      intro inode page links offset file enough
      rw [writeSeek]
      by_cases far : 512 < offset
      · rw [if_pos far]
        cases links with
        | nil =>
            refine Or.inl ⟨?_, by simpa using far⟩
            simp only [file.chain.2.1, if_true]
        | cons link links =>
            obtain ⟨next, nextPage⟩ := link
            simp only [file.chain.1.2.1, Bool.false_eq_true, if_false, file.chain.1.2.2.2,
              file.chain.2.1.1]
            have same : residual (offset - 512) = residual offset := by
              unfold residual
              rw [if_neg (by omega), if_neg (by omega)]
              omega
            rcases ih next nextPage links (offset - 512) file.next (by omega) with
              ⟨failed, beyond⟩ | ⟨first, target, oldPage, suffix, split, found, position⟩
            · refine Or.inl ⟨failed, ?_⟩
              rw [List.length_cons]
              omega
            · refine Or.inr ⟨(inode, page) :: first, target, oldPage, suffix, ?_, ?_, ?_⟩
              · rw [List.cons_append, ← split]
              · rw [found, same]
              · rw [List.length_cons]
                omega
      · have here : residual offset = offset := by
          unfold residual
          split <;> omega
        rw [if_neg far]
        exact Or.inr ⟨[], inode, page, links, rfl, by rw [here], by rw [here]; simp⟩

/-- On a chain `fs_truncate` finds the same page as `fs_write`. -/
theorem truncateSeek_eq :
    ∀ (fuel inode page : Nat) (links : List (Nat × Nat)) (length : Nat),
      HasChain volume inode page links →
      truncateSeek volume fuel inode page length =
        match writeSeek volume fuel inode page length with
        | none => .error .badSeek
        | some found => .ok found := by
  intro fuel
  induction fuel with
  | zero => intro inode page links length _; rfl
  | succ fuel ih =>
      intro inode page links length file
      rw [truncateSeek, writeSeek]
      by_cases far : 512 < length
      · rw [if_pos far, if_pos far]
        cases links with
        | nil => simp only [file.chain.2.1, if_true]
        | cons link links =>
            obtain ⟨next, nextPage⟩ := link
            simp only [file.chain.1.2.1, Bool.false_eq_true, if_false, file.chain.1.2.2.2,
              file.chain.2.1.1, if_neg file.chain.2.1.2]
            exact ih next nextPage links (length - 512) file.next
      · rw [if_neg far, if_neg far]

theorem HasChain.inodes_nodup {inode page : Nat} (file : HasChain volume inode page links) :
    (((inode, page) :: links).map Prod.fst).Nodup := by
  rw [List.map_cons, List.nodup_cons]
  exact ⟨file.chain.inode_notMem file.entry, file.chain.inodes_nodup⟩

/-- When one inode of a chain gets a new page and a new chain behind it, what is in front of
it stays on the chain. -/
theorem HasChain.splice {volume' : Volume} {target oldPage newPage : Nat}
    {suffix suffix' : List (Nat × Nat)} (new : HasChain volume' target newPage suffix') :
    ∀ {first : List (Nat × Nat)} {inode page : Nat} {links : List (Nat × Nat)},
      HasChain volume inode page links →
      (inode, page) :: links = first ++ (target, oldPage) :: suffix →
      (∀ link ∈ first, fsPage volume' link.1 = fsPage volume link.1 ∧
        volume'.flash link.2 = volume.flash link.2) →
      ∃ page' links', (inode, page') :: links' = first ++ (target, newPage) :: suffix' ∧
        HasChain volume' inode page' links' := by
  intro first
  induction first with
  | nil =>
      intro inode page links file split _
      simp only [List.nil_append, List.cons.injEq, Prod.mk.injEq] at split
      obtain ⟨⟨rfl, rfl⟩, rfl⟩ := split
      exact ⟨newPage, suffix', rfl, new⟩
  | cons link first ih =>
      intro inode page links file split same
      simp only [List.cons_append, List.cons.injEq] at split
      obtain ⟨rfl, rfl⟩ := split
      obtain ⟨⟨next, nextPage⟩, links, shape⟩ :
          ∃ next links, first ++ (target, oldPage) :: suffix = next :: links :=
        List.exists_cons_of_ne_nil (by simp)
      rw [shape] at file
      obtain ⟨nextPage', links', split', rest⟩ := ih file.next shape.symm
        (fun link member => same link (List.mem_cons_of_mem _ member))
      obtain ⟨entry, flash⟩ := same _ List.mem_cons_self
      have header : volume'.header page = volume.header page := by
        apply header_congr
        rw [Nat.mod_eq_of_lt file.page_lt]
        exact flash
      refine ⟨page, (next, nextPage') :: links', by rw [List.cons_append, split'],
        entry.trans file.entry, file.used, ?_⟩
      rw [ChainFrom, header]
      exact ⟨file.chain.1, ⟨rest.entry, rest.used⟩, rest.chain⟩

/-- The file with the chain `links` before now has the chain `links'`. -/
structure FileWritten (before after : Fs) (inode : Nat) (links links' : List (Nat × Nat))
    (target : Nat) (taken : List Nat) : Prop where
  rewritten : Rewritten before after target taken
  target_mem : target ∈ inode :: links.map Prod.fst
  file : IsFile after.toVolume inode links'
  covered : ∀ page ∈ links'.map Prod.snd, Covered after page
  pages : ∀ page ∈ links'.map Prod.snd, ¬Covered before page ∨ page ∈ links.map Prod.snd
  inodes : ∀ other ∈ links'.map Prod.fst,
    other = inode ∨ other ∈ taken ∨ other ∈ links.map Prod.fst
  takes : ∀ other ∈ taken, other ∈ links'.map Prod.fst

section Rewriting

variable {before after : Fs} {target oldPage newPage : Nat} {taken : List Nat}
  {suffix suffix' : List (Nat × Nat)} {content : List UInt8}

/-- The chain in front of a rewritten inode is not touched. -/
theorem HasChain.replace_suffix
    (wrote : Wrote before after target taken newPage suffix' content suffix)
    {first : List (Nat × Nat)} {inode page : Nat}
    (file : HasChain before.toVolume inode page links) (inodeBound : inode < 4096)
    (split : (inode, page) :: links = first ++ (target, oldPage) :: suffix)
    (covered : ∀ link ∈ (inode, page) :: links, Covered before link.2) :
    ∃ page' links', (inode, page') :: links' = first ++ (target, newPage) :: suffix' ∧
      HasChain after.toVolume inode page' links' := by
  have whole := IsFile.chain file
  have distinct := file.inodes_nodup
  rw [split, List.map_append, List.map_cons, List.nodup_append] at distinct
  apply HasChain.splice wrote.file file split
  intro link member
  have member' : link ∈ (inode, page) :: links := by
    rw [split]
    exact List.mem_append_left _ member
  have inodeMember := List.mem_map_of_mem (f := Prod.fst) member'
  have pageBound := whole.page_lt _ (List.mem_map_of_mem (f := Prod.snd) member')
  refine ⟨?_, wrote.rewritten.kept.flash _ pageBound (covered link member')⟩
  apply wrote.rewritten.entries _ (whole.inode_lt inodeBound _ inodeMember)
  · exact distinct.2.2 _ (List.mem_map_of_mem member) _ List.mem_cons_self
  · intro taken
    have inFree : link.1 ∈ _ ++ freeInodes after.toVolume := List.mem_append_left _ taken
    rw [← wrote.rewritten.free] at inFree
    exact whole.notMem_freeInodes _ inodeMember (List.mem_filter.1 inFree).1

theorem Wrote.fileWritten (wrote : Wrote before after target taken newPage suffix' content suffix)
    {first : List (Nat × Nat)} {inode page : Nat}
    (file : HasChain before.toVolume inode page links) (inodeBound : inode < 4096)
    (split : (inode, page) :: links = first ++ (target, oldPage) :: suffix)
    (covered : ∀ link ∈ (inode, page) :: links, Covered before link.2) :
    FileWritten before after inode ((inode, page) :: links)
        (first ++ (target, newPage) :: suffix') target taken ∧
      linkBytes after.toVolume (first ++ (target, newPage) :: suffix') =
        linkBytes before.toVolume first ++ content := by
  obtain ⟨page', links', split', rest⟩ :=
    HasChain.replace_suffix wrote file inodeBound split covered
  have old : ∀ link ∈ first, link ∈ (inode, page) :: links := by
    intro link member
    rw [split]
    exact List.mem_append_left _ member
  have pageOld : ∀ link ∈ first, link.2 ∈ ((inode, page) :: links).map Prod.snd :=
    fun link member => List.mem_map_of_mem (old link member)
  have newPages : ∀ link ∈ (target, newPage) :: suffix', link.2 ∈ chainPages newPage suffix' := by
    intro link member
    exact List.mem_map_of_mem (f := Prod.snd) member
  refine ⟨⟨wrote.rewritten, ?_, ?_, ?_, ?_, ?_, ?_⟩, ?_⟩
  · refine List.mem_cons_of_mem _ ?_
    rw [split]
    simp
  · rw [← split']
    exact .chain rest
  · intro other member
    obtain ⟨link, linkMember, rfl⟩ := List.mem_map.1 member
    rcases List.mem_append.1 linkMember with before | behind
    · exact wrote.rewritten.kept.covered (covered link (old link before))
    · exact wrote.covered _ (newPages link behind)
  · intro other member
    obtain ⟨link, linkMember, rfl⟩ := List.mem_map.1 member
    rcases List.mem_append.1 linkMember with before | behind
    · exact Or.inr (pageOld link before)
    · refine (wrote.pages _ (newPages link behind)).imp_right fun inSuffix => ?_
      rw [split, List.map_append]
      exact List.mem_append_right _ (List.mem_cons_of_mem _ inSuffix)
  · intro other member
    obtain ⟨link, linkMember, rfl⟩ := List.mem_map.1 member
    rcases List.mem_append.1 linkMember with before | behind
    · exact Or.inr (Or.inr (List.mem_map_of_mem (old link before)))
    · rcases List.mem_cons.1 behind with same | later
      · rw [same, split]
        exact Or.inr (Or.inr (by simp))
      · rcases wrote.inodes _ (List.mem_map_of_mem later) with inTaken | inSuffix
        · exact Or.inr (Or.inl inTaken)
        · refine Or.inr (Or.inr ?_)
          rw [split, List.map_append]
          exact List.mem_append_right _ (List.mem_cons_of_mem _ inSuffix)
  · intro other member
    rw [List.map_append]
    exact List.mem_append_right _ (List.mem_cons_of_mem _ (wrote.takes other member))
  · have data : linkBytes after.toVolume first = linkBytes before.toVolume first := by
      apply List.flatMap_congr
      intro link member
      apply data_congr
      have bound : link.2 < 4096 := (IsFile.chain file).page_lt _ (pageOld link member)
      rw [Nat.mod_eq_of_lt bound,
        wrote.rewritten.kept.flash _ bound (covered link (old link member))]
    rw [linkBytes, List.flatMap_append]
    change linkBytes after.toVolume first ++ linkBytes after.toVolume _ = _
    rw [data, linkBytes_cons, wrote.bytes]

/-- A file that had no page yet. -/
theorem Wrote.fileWritten_fresh {inode : Nat}
    (wrote : Wrote before after inode taken newPage suffix' content []) :
    FileWritten before after inode [] ((inode, newPage) :: suffix') inode taken where
  rewritten := wrote.rewritten
  target_mem := List.mem_cons_self
  file := .chain wrote.file
  covered := wrote.covered
  pages := wrote.pages
  inodes := by
    intro other member
    rcases List.mem_cons.1 member with same | later
    · exact Or.inl same
    · exact Or.inr (wrote.inodes other later)
  takes := fun other member => List.mem_cons_of_mem _ (wrote.takes other member)

end Rewriting

/-- The page that an offset falls into is the last one of its file. -/
def EndsThere (volume : Volume) (inode offset : Nat) : Prop :=
  ∀ target page rest,
    writeSeek volume (offset + 1) inode (fsPage volume inode) offset = some (target, page, rest) →
      (volume.header page).eof = true

/-- Nothing follows the last page on a chain. -/
theorem HasChain.suffix_nil {inode page : Nat}
    (file : HasChain volume inode page links) (ends : (volume.header page).eof = true) :
    links = [] := by
  cases links with
  | nil => rfl
  | cons link links =>
      rw [file.chain.1.2.1] at ends
      cases ends

/-- The number of data pages that `fs_write` programs. -/
def writeRounds (volume : Volume) (inode offset length : Nat) : Nat :=
  if fsPage volume inode = 0xffff then
    if offset = 0 then rounds 0 length else 0
  else
    match writeSeek volume (offset + 1) inode (fsPage volume inode) offset with
    | none => 0
    | some (_, _, offset) => rounds offset length

theorem Rewritten.of_uninitialised {fs after : Fs} {length inode : Nat} {taken : List Nat}
    (rewritten : Rewritten (fs.uninitialised length).2 after inode taken) :
    Rewritten fs after inode taken where
  kept := ⟨rewritten.kept.bitmap, rewritten.kept.lastFree, rewritten.kept.flash⟩
  anchored := rewritten.anchored
  entries := rewritten.entries
  node := rewritten.node
  nodeUnused := rewritten.nodeUnused
  free := rewritten.free
  newest := fun newest => rewritten.newest
    ⟨newest.valid, newest.version, newest.positive, newest.newest, newest.first, newest.tables⟩

theorem Wrote.of_uninitialised {fs after : Fs} {length inode page : Nat} {taken : List Nat}
    {oldLinks : List (Nat × Nat)} {content : List UInt8}
    (wrote : Wrote (fs.uninitialised length).2 after inode taken page links content oldLinks) :
    Wrote fs after inode taken page links content oldLinks :=
  ⟨wrote.rewritten.of_uninitialised, wrote.file, wrote.bytes, wrote.covered, wrote.pages,
    wrote.inodes, wrote.takes⟩

theorem Anchored.uninitialised {fs : Fs} (anchored : Anchored fs) (length : Nat) :
    Anchored (fs.uninitialised length).2 :=
  ⟨anchored.root_lt, anchored.rootCovered, anchored.table_lt, anchored.tableCovered⟩

/-- All pages of a chain but the last one are full. -/
theorem length_linkBytes_full {target oldPage : Nat} {suffix : List (Nat × Nat)} :
    ∀ (first : List (Nat × Nat)) (inode page : Nat) (links : List (Nat × Nat)),
      HasChain volume inode page links →
      (inode, page) :: links = first ++ (target, oldPage) :: suffix →
      (linkBytes volume first).length = 512 * first.length ∧
        HasChain volume target oldPage suffix := by
  intro first
  induction first with
  | nil =>
      intro inode page links file split
      simp only [List.nil_append, List.cons.injEq, Prod.mk.injEq] at split
      obtain ⟨⟨rfl, rfl⟩, rfl⟩ := split
      exact ⟨rfl, file⟩
  | cons link first ih =>
      intro inode page links file split
      simp only [List.cons_append, List.cons.injEq] at split
      obtain ⟨rfl, rfl⟩ := split
      obtain ⟨⟨next, nextPage⟩, links, shape⟩ :
          ∃ next links, first ++ (target, oldPage) :: suffix = next :: links :=
        List.exists_cons_of_ne_nil (by simp)
      rw [shape] at file
      obtain ⟨length, rest⟩ := ih next nextPage links file.next shape.symm
      refine ⟨?_, rest⟩
      have size := length_data volume page
      rw [file.chain.1.2.2.1] at size
      rw [linkBytes, List.flatMap_cons, List.length_append, size]
      change 512 + (linkBytes volume first).length = _
      rw [length, List.length_cons]
      omega

theorem length_chainBytes_le {inode page : Nat} (file : HasChain volume inode page links) :
    (chainBytes volume page links).length ≤ 512 * (links.length + 1) := by
  induction links generalizing inode page with
  | nil =>
      rw [chainBytes_nil, length_data]
      simpa using file.chain.size_le
  | cons link links ih =>
      have rest := ih file.next
      have size := file.chain.size_le
      rw [chainBytes_cons, List.length_append, length_data, List.length_cons]
      omega

theorem overlay_append_left {content tail data : List UInt8} {offset : Nat} :
    overlay (content ++ tail) (content.length + offset) data =
      content ++ overlay tail offset data := by
  rw [overlay, overlay, List.take_append, List.drop_append,
    List.take_of_length_le (by omega : content.length ≤ content.length + offset),
    List.drop_eq_nil_of_le (by omega : content.length ≤ content.length + offset + data.length)]
  simp only [Nat.add_sub_cancel_left, Nat.add_assoc, List.nil_append, List.append_assoc]

theorem filter_freeInodes_used {inode : Nat} (used : fsPage volume inode ≠ 0xffff) :
    ((freeInodes volume).filter fun other => other ≠ inode) = freeInodes volume := by
  rw [List.filter_eq_self]
  intro other member
  simp only [ne_eq, decide_not, Bool.not_eq_eq_eq_not, Bool.not_true, decide_eq_false_iff_not]
  rintro rfl
  exact used (mem_freeInodes.1 member).2

theorem linkBytes_append (volume : Volume) (first second : List (Nat × Nat)) :
    linkBytes volume (first ++ second) = linkBytes volume first ++ linkBytes volume second :=
  List.flatMap_append

/-- An offset inside the file falls into the filled part of its page. -/
theorem residual_le_size {target oldPage offset : Nat}
    {first suffix : List (Nat × Nat)} (tail : HasChain volume target oldPage suffix)
    (length : (linkBytes volume first).length = 512 * first.length)
    (position : offset = 512 * first.length + residual offset)
    (inside : offset ≤ (linkBytes volume (first ++ (target, oldPage) :: suffix)).length) :
    residual offset ≤ (volume.header oldPage).size := by
  cases suffix with
  | nil =>
      rw [linkBytes_append, List.length_append, length, linkBytes_cons, chainBytes_nil,
        length_data] at inside
      omega
  | cons link suffix =>
      rw [tail.chain.1.2.2.1]
      exact residual_le offset

/-- The call has written the file, and so much room is left. -/
def WritesFile (buf : List UInt8) (rest : Nat) (fs : Fs) (inode offset : Nat)
    (links : List (Nat × Nat)) : Prop :=
  ∃ after links' target taken,
    fsWrite fs inode buf offset = (.ok, after) ∧
    FileWritten fs after inode links links' target taken ∧
    taken.length + 1 = writeRounds fs.toVolume inode offset buf.length ∧
    (offset ≤ (linkBytes fs.toVolume links).length →
      linkBytes after.toVolume links' = overlay (linkBytes fs.toVolume links) offset
        (writtenBytes buf (residual offset) buf.length)) ∧
    rest ≤ spare after ∧
    (writeRounds fs.toVolume inode offset buf.length = 1 ∨ EndsThere fs.toVolume inode offset →
      ∀ other ∈ links.map Prod.fst, other ∈ links'.map Prod.fst)

section Writing

variable {fs : Fs} {inode offset rest : Nat}

/-- A file without content is written from its start on. -/
theorem writesFile_fresh (buf : List UInt8) (anchored : Anchored fs) (inodeBound : inode < 4096)
    (missing : fsPage fs.toVolume inode = 0xffff)
    (room : rest + 3 * writeRounds fs.toVolume inode 0 buf.length ≤ spare fs)
    (free : writeRounds fs.toVolume inode 0 buf.length ≤
      ((freeInodes fs.toVolume).filter fun other => other ≠ inode).length + 1) :
    WritesFile buf rest fs inode 0 [] := by
  simp only [writeRounds, missing, if_true] at room free
  obtain ⟨after, taken, page, links, result, count, wrote, left⟩ :=
    writeFresh_spec { PageHeader.decode (fs.uninitialised 4).1 with unused := false, root := false }
      (Extends.mk (anchored.uninitialised 4) inodeBound (Nat.le_refl _) room free)
      (by unfold rounds; omega : rounds 0 buf.length ≤ buf.length + 1)
  have whole := wrote.of_uninitialised
  refine ⟨after, _, inode, taken, ?_, whole.fileWritten_fresh, ?_, ?_, left, fun _ => by simp⟩
  · simp only [fsWrite, missing, ne_eq, not_true_eq_false, if_false]
    exact result
  · simp only [writeRounds, missing, if_true]
    exact count
  · intro _
    rw [linkBytes_cons, wrote.bytes]
    simp [overlay, linkBytes, residual]

/-- The file is written from the page on that the offset falls into. -/
theorem writesFile_found (buf : List UInt8) (anchored : Anchored fs) (inodeBound : inode < 4096)
    {page target oldPage : Nat} {first suffix : List (Nat × Nat)}
    (file : HasChain fs.toVolume inode page links)
    (covered : ∀ link ∈ (inode, page) :: links, Covered fs link.2)
    (split : (inode, page) :: links = first ++ (target, oldPage) :: suffix)
    (found : writeSeek fs.toVolume (offset + 1) inode page offset =
      some (target, oldPage, residual offset))
    (position : offset = 512 * first.length + residual offset)
    (room : rest + 3 * rounds (residual offset) buf.length ≤ spare fs)
    (free : rounds (residual offset) buf.length ≤ (freeInodes fs.toVolume).length + 1) :
    WritesFile buf rest fs inode offset ((inode, page) :: links) := by
  have residualBound := residual_le offset
  obtain ⟨length, tail⟩ := length_linkBytes_full first inode page links file split
  have oldMem : (target, oldPage) ∈ (inode, page) :: links := by
    rw [split]
    simp
  have targetBound : target < 4096 :=
    (IsFile.chain file).inode_lt inodeBound target (List.mem_map_of_mem (f := Prod.fst) oldMem)
  have coveredSuffix : ∀ other ∈ chainPages oldPage suffix, Covered fs other := by
    intro other member
    change other ∈ ((target, oldPage) :: suffix).map Prod.snd at member
    obtain ⟨link, linkMember, rfl⟩ := List.mem_map.1 member
    apply covered link
    rw [split]
    exact List.mem_append_right _ linkMember
  have targetUsed : fsPage fs.toVolume target ≠ 0xffff := by
    rw [tail.entry]
    exact tail.used
  obtain ⟨after, taken, newPage, suffix', content, result, count, wrote, bytes, left, once⟩ :=
    writeExisting_spec ⟨anchored, targetBound, tail.page_lt, tail.chain, coveredSuffix,
      tail.chain.inode_notMem tail.entry, residualBound, Nat.le_refl _, room,
      by rw [filter_freeInodes_used targetUsed]; exact free⟩
      (by unfold rounds; omega : _ ≤ buf.length + 2)
  obtain ⟨written, newBytes⟩ := wrote.fileWritten file inodeBound split covered
  refine ⟨after, _, target, taken, ?_, written, ?_, ?_, left, ?_⟩
  · simp only [fsWrite, file.entry, ne_eq, file.used, not_false_eq_true, if_true, found]
    exact result
  · simp only [writeRounds, file.entry, if_neg file.used, found]
    exact count
  · intro inside
    rw [split] at inside ⊢
    rw [newBytes, bytes (residual_le_size tail length position inside), linkBytes_append,
      linkBytes_cons, ← overlay_append_left, length, ← position]
  · intro condition other member
    simp only [writeRounds, EndsThere, file.entry, if_neg file.used, found] at condition
    have sameSuffix : suffix ⊆ suffix' := by
      rcases condition with single | ends
      · rw [once single]
        exact List.Subset.refl _
      · rw [tail.suffix_nil (ends target oldPage _ rfl)]
        exact List.nil_subset _
    rw [split, List.map_append, List.map_cons] at member
    rw [List.map_append, List.map_cons]
    rcases List.mem_append.1 member with front | here
    · exact List.mem_append_left _ front
    · refine List.mem_append_right _ ?_
      rcases List.mem_cons.1 here with same | later
      · rw [same]
        exact List.mem_cons_self
      · exact List.mem_cons_of_mem _ (List.map_subset _ sameSuffix later)

theorem fsWrite_spec (buf : List UInt8) (anchored : Anchored fs) (inodeBound : inode < 4096)
    (file : IsFile fs.toVolume inode links) (covered : ∀ link ∈ links, Covered fs link.2)
    (room : rest + 3 * writeRounds fs.toVolume inode offset buf.length ≤ spare fs)
    (free : writeRounds fs.toVolume inode offset buf.length ≤
      ((freeInodes fs.toVolume).filter fun other => other ≠ inode).length + 1) :
    (fsWrite fs inode buf offset = (.badSeek, fs) ∧
      (linkBytes fs.toVolume links).length < offset) ∨
    WritesFile buf rest fs inode offset links := by
  cases file with
  | unwritten missing =>
      by_cases atStart : offset = 0
      · subst atStart
        exact Or.inr (writesFile_fresh buf anchored inodeBound missing room free)
      · refine Or.inl ⟨?_, by simp only [linkBytes, List.flatMap_nil, List.length_nil]; omega⟩
        simp [fsWrite, missing, atStart]
  | @chain page links file =>
      have used : fsPage fs.toVolume inode ≠ 0xffff := by
        rw [file.entry]
        exact file.used
      rw [filter_freeInodes_used used] at free
      simp only [writeRounds, file.entry, if_neg file.used] at room free
      rcases writeSeek_eq (offset + 1) inode page links offset file (by omega) with
        ⟨failed, beyond⟩ | ⟨first, target, oldPage, suffix, split, found, position⟩
      · refine Or.inl ⟨?_, ?_⟩
        · simp only [fsWrite, file.entry, ne_eq, file.used, not_false_eq_true, if_true, failed]
        · have bound := length_chainBytes_le file
          rw [linkBytes_cons]
          omega
      · simp only [found] at room free
        exact Or.inr (writesFile_found buf anchored inodeBound file covered split found position
          room free)

end Writing

/-- The number of data pages that `fs_truncate` programs. -/
def truncateRounds (volume : Volume) (inode length : Nat) : Nat :=
  if fsPage volume inode = 0xffff then
    0
  else
    match truncateSeek volume (length + 1) inode (fsPage volume inode) length with
    | .error _ => 0
    | .ok (_, page, length) => if length < (volume.header page).size then 1 else 0

theorem truncatePage_eq {fs : Fs} {inode page length rest : Nat} (anchored : Anchored fs)
    (enough : rest + 3 ≤ spare fs) (inodeBound : inode < 4096) (pageBound : page < 4096)
    (covered : Covered fs page) :
    ∃ after newPage, truncatePage fs inode page length = (.ok, after) ∧
      Linked fs after inode newPage (savedContent (fs.flash (page % 4096))
        { fs.header page with size := length, eof := true } [] 0) ∧
      rest ≤ spare after := by
  obtain ⟨newPage, claimedFs, claim, claimed, left⟩ := claimPage_spec anchored enough inodeBound
  have header : (withBuffer claimedFs (fs.flash (page % 4096))).header page = fs.header page :=
    header_congr (claimed.flash_old pageBound covered)
  refine ⟨_, newPage, ?_, claimed.linked _ _ _ _,
    Nat.le_trans left (Nat.le_of_eq (spare_congr rfl rfl))⟩
  simp only [truncatePage, claim, dfBufLoad_eq, claimed.flash_old pageBound covered, header, ne_eq,
    not_true_eq_false, if_false]

/-- The page that `fs_truncate` programs: its data end with the new end of the file. -/
theorem truncated_page {page length : Nat} {suffix : List (Nat × Nat)}
    {content : Memory} (chain : ChainFrom volume page suffix)
    (shorter : length < (volume.header page).size)
    (saved : content = savedContent (volume.flash (page % 4096))
      { volume.header page with size := length, eof := true } [] 0) :
    (pageHeader content).root = false ∧ (pageHeader content).eof = true ∧
      (pageHeader content).size ≤ 512 ∧ pageData content = (volume.data page).take length := by
  have sizeBound := chain.size_le
  have noData : 0 + ([] : List UInt8).length ≤ 512 := by simp
  have stored := pageHeader_savedContent (volume.flash (page % 4096))
    { volume.header page with size := length, eof := true } noData
  rw [← saved] at stored
  refine ⟨?_, ?_, ?_, ?_⟩
  · rw [stored]
    exact chain.root_eq_false
  · rw [stored]
  · rw [stored]
    simp only
    omega
  · rw [saved, pageData_savedContent (by simp) (by omega : length ≤ 512) rfl,
      take_data (by omega) sizeBound]
    simp [readPage]

theorem Linked.wrote_truncated {fs after : Fs} {target page newPage length : Nat}
    {suffix : List (Nat × Nat)}
    (linked : Linked fs after target newPage (savedContent (fs.flash (page % 4096))
      { fs.header page with size := length, eof := true } [] 0))
    (targetBound : target < 4096) (tail : HasChain fs.toVolume target page suffix)
    (shorter : length < (fs.header page).size) :
    Wrote fs after target [] newPage [] ((fs.data page).take length) suffix := by
  obtain ⟨root, ends, size, data⟩ := truncated_page tail.chain shorter rfl
  rw [← data]
  exact linked.wrote_end targetBound root ends size _

theorem fsTruncate_spec {fs : Fs} {inode length rest : Nat}
    (anchored : Anchored fs) (inodeBound : inode < 4096) (file : IsFile fs.toVolume inode links)
    (covered : ∀ link ∈ links, Covered fs link.2)
    (room : rest + 3 * truncateRounds fs.toVolume inode length ≤ spare fs) :
    (∃ status, fsTruncate fs inode length = (status, fs) ∧
      truncateRounds fs.toVolume inode length = 0) ∨
    ∃ after links' target,
      fsTruncate fs inode length = (.ok, after) ∧
      FileWritten fs after inode links links' target [] ∧
      truncateRounds fs.toVolume inode length = 1 ∧
      linkBytes after.toVolume links' = (linkBytes fs.toVolume links).take length ∧
      rest ≤ spare after ∧
      (EndsThere fs.toVolume inode length →
        ∀ other ∈ links.map Prod.fst, other ∈ links'.map Prod.fst) := by
  cases file with
  | unwritten missing =>
      exact Or.inl ⟨.ok, by simp [fsTruncate, missing], by simp [truncateRounds, missing]⟩
  | @chain page links file =>
      have used : fsPage fs.toVolume inode ≠ 0xffff := by
        rw [file.entry]
        exact file.used
      simp only [truncateRounds, fsTruncate, if_neg used] at room ⊢
      rw [file.entry] at room ⊢
      rw [truncateSeek_eq (length + 1) inode page links length file] at room ⊢
      rcases writeSeek_eq (length + 1) inode page links length file (by omega) with
        ⟨failed, _⟩ | ⟨first, target, oldPage, suffix, split, found, position⟩
      · simp only [failed]
        exact Or.inl ⟨_, rfl, trivial⟩
      · simp only [found] at room ⊢
        by_cases shorter : residual length < (fs.header oldPage).size
        · rw [if_pos shorter] at room ⊢
          obtain ⟨firstLength, tail⟩ := length_linkBytes_full first inode page links file split
          have oldMem : (target, oldPage) ∈ (inode, page) :: links := by
            rw [split]
            simp
          have targetBound : target < 4096 := (IsFile.chain file).inode_lt inodeBound target
            (List.mem_map_of_mem (f := Prod.fst) oldMem)
          have roomHere : rest + 3 ≤ spare fs := by omega
          obtain ⟨after, newPage, result, linked, left⟩ := truncatePage_eq anchored roomHere
            targetBound tail.page_lt (covered (target, oldPage) oldMem)
          obtain ⟨written, newBytes⟩ :=
            (linked.wrote_truncated targetBound tail shorter).fileWritten file inodeBound split
              covered
          refine Or.inr ⟨after, _, target, ?_, written, rfl, ?_, left, ?_⟩
          · rw [if_neg (by omega), if_neg (by omega)]
            exact result
          · have whole : chainBytes fs.toVolume oldPage suffix =
                fs.data oldPage ++ linkBytes fs.toVolume suffix := by
              rw [← linkBytes_cons fs.toVolume target, linkBytes, List.flatMap_cons]
              rfl
            have firstFits : (linkBytes fs.toVolume first).length ≤ length := by omega
            have cut : length - (linkBytes fs.toVolume first).length = residual length := by omega
            rw [newBytes, split, linkBytes_append, linkBytes_cons, whole, List.take_append,
              List.take_of_length_le firstFits, cut, List.take_append_of_le_length]
            rw [length_data]
            omega
          · intro ends other member
            rw [EndsThere, file.entry] at ends
            rw [tail.suffix_nil (ends target oldPage _ found)] at split
            rw [split, List.map_append] at member
            rw [List.map_append]
            exact member
        · rw [if_neg shorter]
          by_cases longer : (fs.header oldPage).size < residual length
          · exact Or.inl ⟨.badSeek, by rw [if_pos longer], rfl⟩
          · exact Or.inl ⟨.ok, by rw [if_neg longer, if_pos (by omega)], rfl⟩

end Ethersex.Dataflash

import Ethersex.DataflashCrash

/-!
# Allocating pages

`fs_new_page` never marks the page it hands out in the bitmap.  Until the search
comes round, all pages that are in use were either marked when the file system
was mounted or handed out since then, and these the search has passed.
-/

namespace Ethersex.Dataflash

open ByteMemory

/-- The pages that the file system needs: its root, the inode tables and the
pages on the chains of the listed files. -/
inductive Live (volume : Volume) : Nat → Prop
  | root : Live volume volume.root
  | table {tableId : Nat} (inside : tableId < 16) : Live volume (fsInodetable volume tableId)
  | file {node : DirectoryNode} {page : Nat} (listed : node ∈ listing volume)
      (used : fsPage volume node.inode ≠ 0xffff)
      (reaches : Reaches volume (fsPage volume node.inode) page) : Live volume page

def SafePage (fs : Fs) (page : Nat) : Prop :=
  ∀ other, Reaches fs.toVolume page other → Covered fs other

def SafeInode (fs : Fs) (inode : Nat) : Prop :=
  fsPage fs.toVolume inode ≠ 0xffff → SafePage fs (fsPage fs.toVolume inode)

theorem SafePage.covered {fs : Fs} {page : Nat} (safe : SafePage fs page) : Covered fs page :=
  safe page (.here page)

/-- A page that goes on leads to a safe inode. -/
theorem SafePage.next {fs : Fs} {page : Nat} (safe : SafePage fs page)
    (goesOn : (fs.header page).eof = false) : SafeInode fs (fs.header page).nextInode :=
  fun used other reaches => safe other (.step goesOn used reaches)

theorem SafeInode.of_free {fs : Fs} {inode : Nat} (free : inode ∈ freeInodes fs.toVolume) :
    SafeInode fs inode :=
  fun used => absurd (mem_freeInodes.1 free).2 used

/-- All pages in use are covered; entries behind the end of the directory count
as well, because they may be listed later. -/
structure Sound (fs : Fs) : Prop where
  anchored : Anchored fs
  files : ∀ index < 60, (fs.node index).unused = false → SafeInode fs (fs.node index).inode

/-- A volume that shows what `fs` shows wherever `fs` has covered pages. -/
structure Agrees (fs : Fs) (volume : Volume) : Prop where
  root : volume.root = fs.root
  flash : ∀ page < 4096, Covered fs page → volume.flash page = fs.flash page

section Agrees

variable {fs : Fs} {volume : Volume} (agrees : Agrees fs volume) (anchored : Anchored fs)
include agrees

theorem Agrees.header {page : Nat} (bound : page < 4096) (covered : Covered fs page) :
    volume.header page = fs.header page := by
  apply header_congr
  rw [Nat.mod_eq_of_lt bound, agrees.flash page bound covered]

include anchored

theorem Agrees.rootPage : volume.flash (volume.root % 4096) = fs.flash (fs.root % 4096) := by
  rw [agrees.root, Nat.mod_eq_of_lt anchored.root_lt,
    agrees.flash _ anchored.root_lt anchored.rootCovered]

theorem Agrees.node (index : Nat) : volume.node index = fs.node index := by
  show pageNode (volume.flash (volume.root % 4096)) index = _
  rw [agrees.rootPage anchored]
  rfl

theorem Agrees.fsInodetable (tableId : Nat) :
    fsInodetable volume tableId = Dataflash.fsInodetable fs.toVolume tableId := by
  show tablePointer (volume.flash (volume.root % 4096)) tableId = _
  rw [agrees.rootPage anchored]
  rfl

theorem Agrees.fsPage {inode : Nat} (bound : inode < 4096) :
    fsPage volume inode = Dataflash.fsPage fs.toVolume inode := by
  have table : inode / 256 < 16 := by omega
  apply fsPage_eq_of_tables
  rw [agrees.fsInodetable anchored, Nat.mod_eq_of_lt (anchored.table_lt _ table),
    agrees.flash _ (anchored.table_lt _ table) (anchored.tableCovered _ table)]

/-- What the volume reaches from a safe page is covered. -/
theorem Agrees.covered {page other : Nat} (reaches : Reaches volume page other)
    (bound : page < 4096) (safe : SafePage fs page) : Covered fs other := by
  induction reaches with
  | here page => exact safe.covered
  | @step page other goesOn used rest ih =>
      have nextBound := header_nextInode_lt volume page
      rw [agrees.header bound safe.covered] at goesOn used ih nextBound
      rw [agrees.fsPage anchored nextBound] at used ih
      exact ih (fsPage_lt used) (safe.next goesOn used)

end Agrees

theorem Sound.live_covered {fs : Fs} (sound : Sound fs) {volume : Volume}
    (agrees : Agrees fs volume) {page : Nat} (live : Live volume page) : Covered fs page := by
  cases live with
  | root =>
      rw [agrees.root]
      exact sound.anchored.rootCovered
  | @table tableId inside =>
      rw [agrees.fsInodetable sound.anchored]
      exact sound.anchored.tableCovered tableId inside
  | @file node page listed used reaches =>
      obtain ⟨index, bound, rfl, usedEntry⟩ := mem_listing listed
      rw [agrees.node sound.anchored] at used reaches usedEntry
      rw [agrees.fsPage sound.anchored (node_inode_lt fs.toVolume index)] at used reaches
      exact agrees.covered sound.anchored reaches (fsPage_lt used)
        (sound.files index bound usedEntry used)

/-- A page handed out while the pages in use are covered is not in use. -/
theorem Sound.not_live {fs : Fs} (sound : Sound fs) {handout : Handout}
    (fresh : FreshHandout fs handout) : ¬Live handout.volume handout.page :=
  fun live => fresh.fresh (sound.live_covered ⟨fresh.root, fresh.flash⟩ live)

/-- A step that adds the pages of `new` to what was reachable before. -/
theorem safePage_of_kept {before after : Fs} (kept : Kept before after) (new : Nat → Prop)
    (covered : ∀ page, new page → Covered after page)
    (goesOn : ∀ page, new page → (after.header page).eof = false →
      SafeInode before (after.header page).nextInode)
    (entries : ∀ inode < 4096, fsPage after.toVolume inode = fsPage before.toVolume inode ∨
      fsPage after.toVolume inode = 0xffff ∨ new (fsPage after.toVolume inode)) {page : Nat}
    (bound : page < 4096) (known : SafePage before page ∨ new page) : SafePage after page := by
  intro other reaches
  induction reaches with
  | here page =>
      rcases known with safe | isNew
      · exact kept.covered safe.covered
      · exact covered page isNew
  | @step page other continues used rest ih =>
      apply ih (fsPage_lt used)
      have next : SafeInode before (after.header page).nextInode := by
        rcases known with safe | isNew
        · have same : after.header page = before.header page := by
            apply header_congr
            rw [Nat.mod_eq_of_lt bound, kept.flash page bound safe.covered]
          rw [same] at continues ⊢
          exact safe.next continues
        · exact goesOn page isNew continues
      rcases entries _ (header_nextInode_lt after.toVolume page) with same | none | isNew
      · rw [same] at used ⊢
        exact Or.inl (next used)
      · exact absurd none used
      · exact Or.inr isNew

/-- All pages handed out between two states were not in use at that moment. -/
structure Progress (before after : Fs) : Prop where
  sound : Sound after
  handouts : ∃ new, after.handouts = before.handouts ++ new ∧
    ∀ handout ∈ new, ¬Live handout.volume handout.page

theorem Progress.refl {fs : Fs} (sound : Sound fs) : Progress fs fs :=
  ⟨sound, [], by simp, by simp⟩

theorem Progress.trans {first second third : Fs} (progress : Progress first second)
    (progress' : Progress second third) : Progress first third := by
  obtain ⟨new, appended, fresh⟩ := progress.handouts
  obtain ⟨new', appended', fresh'⟩ := progress'.handouts
  refine ⟨progress'.sound, new ++ new', by rw [appended', appended, List.append_assoc], ?_⟩
  intro handout member
  exact (List.mem_append.1 member).elim (fresh handout) (fresh' handout)

theorem Sound.fresh_not_live {before after : Fs} (sound : Sound before)
    (handouts : ∃ new, after.handouts = before.handouts ++ new ∧
      ∀ handout ∈ new, FreshHandout before handout) :
    ∃ new, after.handouts = before.handouts ++ new ∧
      ∀ handout ∈ new, ¬Live handout.volume handout.page := by
  obtain ⟨new, appended, fresh⟩ := handouts
  exact ⟨new, appended, fun handout member => sound.not_live (fresh handout member)⟩

section Linked

variable {before after : Fs} {inode page : Nat} {content : Memory}
  (linked : Linked before after inode page content)
  (ends : (pageHeader content).eof = true ∨ SafeInode before (pageHeader content).nextInode)
include linked ends

theorem Linked.safePage {other : Nat} (bound : other < 4096)
    (known : SafePage before other ∨ other = page) : SafePage after other := by
  refine safePage_of_kept linked.kept (fun other => other = page) ?_ ?_ ?_ bound known
  · rintro other rfl
    exact linked.covered
  · rintro other rfl goesOn
    rw [linked.header] at goesOn ⊢
    exact ends.resolve_left (by rw [goesOn]; exact Bool.false_ne_true)
  · intro place placeBound
    rw [linked.fsPage place placeBound]
    split
    · exact Or.inr (Or.inr rfl)
    · exact Or.inl rfl

theorem Linked.safeInode {other : Nat} (bound : other < 4096) (safe : SafeInode before other) :
    SafeInode after other := by
  intro used
  apply linked.safePage ends (fsPage_lt used)
  rw [linked.fsPage other bound] at used ⊢
  split
  · exact Or.inr rfl
  · next different =>
      rw [if_neg different] at used
      exact Or.inl (safe used)

theorem Linked.progress (sound : Sound before) : Progress before after := by
  refine ⟨⟨linked.anchored, ?_⟩, sound.fresh_not_live linked.handouts⟩
  intro index bound used
  rw [linked.node index bound] at used ⊢
  exact linked.safeInode ends (node_inode_lt before.toVolume index)
    (sound.files index bound used)

end Linked

/-- The chain from `page` on has `count` further pages, or ends before. -/
def Leads (volume : Volume) : Nat → Nat → Prop
  | 0, _ => True
  | count + 1, page =>
      (volume.header page).eof = true ∨
        fsPage volume (volume.header page).nextInode ≠ 0xffff ∧
          Leads volume count (fsPage volume (volume.header page).nextInode)

/-- The same while the loop of `fs_write` is about to link `inode`, which may be
the next one on the chain. -/
def Follows (volume : Volume) (inode : Nat) : Nat → Nat → Prop
  | 0, _ => True
  | count + 1, page =>
      (volume.header page).eof = true ∨ (volume.header page).nextInode = inode ∨
        fsPage volume (volume.header page).nextInode ≠ 0xffff ∧
          Follows volume inode count (fsPage volume (volume.header page).nextInode)

theorem Leads.follows {volume : Volume} {count page : Nat} (leads : Leads volume count page)
    (inode : Nat) : Follows volume inode count page := by
  induction count generalizing page with
  | zero => trivial
  | succ count ih =>
      rcases leads with ends | ⟨used, rest⟩
      · exact Or.inl ends
      · exact Or.inr (Or.inr ⟨used, ih rest⟩)

theorem follows_of_eof {volume : Volume} {inode count page : Nat}
    (ends : (volume.header page).eof = true) : Follows volume inode count page := by
  cases count with
  | zero => trivial
  | succ count => exact Or.inl ends

theorem follows_of_nextInode {volume : Volume} {inode count page : Nat}
    (next : (volume.header page).nextInode = inode) : Follows volume inode count page := by
  cases count with
  | zero => trivial
  | succ count => exact Or.inr (Or.inl next)

theorem Linked.follows {before after : Fs} {inode page next : Nat} {content : Memory}
    (linked : Linked before after inode page content)
    (nextInode : (pageHeader content).nextInode = next) {count other : Nat}
    (bound : other < 4096) (safe : SafePage before other)
    (follows : Follows before.toVolume inode count other) :
    Follows after.toVolume next count other := by
  have newPage (count : Nat) : Follows after.toVolume next count page :=
    follows_of_nextInode (by rw [linked.header, nextInode])
  induction count generalizing other with
  | zero => trivial
  | succ count ih =>
      have same : after.header other = before.header other := by
        apply header_congr
        rw [Nat.mod_eq_of_lt bound, linked.kept.flash other bound safe.covered]
      have entry := linked.fsPage _ (header_nextInode_lt before.toVolume other)
      rw [Follows, same]
      by_cases last : (before.header other).eof = true
      · exact Or.inl last
      · refine Or.inr (Or.inr ?_)
        rcases follows.resolve_left last with here | ⟨used, rest⟩
        · rw [entry, if_pos here]
          exact ⟨linked.page_ne, newPage count⟩
        · rw [entry]
          split
          · exact ⟨linked.page_ne, newPage count⟩
          · exact ⟨used, ih (fsPage_lt used) (safe.next (by simpa using last) used) rest⟩

theorem mem_free_of_split {volume : Volume} {inode next : Nat} {others : List Nat}
    (split : ((freeInodes volume).filter fun other => other ≠ inode) = next :: others) :
    next ∈ freeInodes volume := by
  have member : next ∈ (freeInodes volume).filter fun other => other ≠ inode := by
    rw [split]
    exact List.mem_cons_self
  exact List.mem_of_mem_filter member

theorem exists_next_of_rounds {volume : Volume} {inode rounds : Nat}
    (more : 2 ≤ rounds)
    (free : rounds ≤ ((freeInodes volume).filter fun other => other ≠ inode).length + 1) :
    ∃ next others, ((freeInodes volume).filter fun other => other ≠ inode) = next :: others := by
  cases split : (freeInodes volume).filter fun other => other ≠ inode with
  | nil =>
      rw [split] at free
      simp only [List.length_nil] at free
      omega
  | cons next others => exact ⟨next, others, rfl⟩

/-- The page that the next round starts from. -/
theorem Linked.next_page {before after : Fs} {inode oldPage page next count : Nat}
    {content : Memory} (linked : Linked before after inode page content)
    (nextInode : (pageHeader content).nextInode = next)
    (nextFree : next ∈ freeInodes before.toVolume) (bound : oldPage < 4096)
    (safe : SafePage before oldPage)
    (follows : Follows before.toVolume inode (count + 1) oldPage) {newPage : Nat}
    (newPageEq : newPage = if (before.header oldPage).eof then oldPage
      else fsPage after.toVolume (before.header oldPage).nextInode) :
    newPage < 4096 ∧ SafePage after newPage ∧ Follows after.toVolume next count newPage := by
  have ends : (pageHeader content).eof = true ∨
      SafeInode before (pageHeader content).nextInode := by
    rw [nextInode]
    exact Or.inr (SafeInode.of_free nextFree)
  have newLinked : page < 4096 ∧ SafePage after page ∧ Follows after.toVolume next count page :=
    ⟨linked.page_lt, linked.safePage ends linked.page_lt (Or.inr rfl),
      follows_of_nextInode (by rw [linked.header, nextInode])⟩
  by_cases last : (before.header oldPage).eof = true
  · have same : after.header oldPage = before.header oldPage := by
      apply header_congr
      rw [Nat.mod_eq_of_lt bound, linked.kept.flash oldPage bound safe.covered]
    rw [newPageEq, if_pos last]
    exact ⟨bound, linked.safePage ends bound (Or.inl safe), follows_of_eof (by rw [same, last])⟩
  · rw [newPageEq, if_neg last, linked.fsPage _ (header_nextInode_lt before.toVolume oldPage)]
    rcases follows.resolve_left last with here | ⟨used, rest⟩
    · rw [if_pos here]
      exact newLinked
    · split
      · exact newLinked
      · have safeNext := safe.next (by simpa using last) used
        exact ⟨fsPage_lt used, linked.safePage ends (fsPage_lt used) (Or.inl safeNext),
          linked.follows nextInode (fsPage_lt used) safeNext rest⟩

theorem writeExisting_progress (buf : List UInt8) :
    ∀ (fuel : Nat) (fs : Fs) (inode oldPage : Nat) (eof : Bool) (offset length : Nat), Sound fs →
      inode < 4096 → oldPage < 4096 → SafePage fs oldPage →
      Follows fs.toVolume inode (rounds offset length - 1) oldPage → offset ≤ 512 →
      length ≤ buf.length → rounds offset length ≤ fuel → 3 * rounds offset length ≤ spare fs →
      rounds offset length ≤
        ((freeInodes fs.toVolume).filter fun other => other ≠ inode).length + 1 →
      ∃ after, writeExisting buf fuel fs inode oldPage eof offset length = (.ok, after) ∧
        Progress fs after := by
  intro fuel
  induction fuel with
  | zero =>
      intro fs inode oldPage eof offset length _ _ _ _ _ _ _ enough
      have positive : 1 ≤ rounds offset length := Nat.le_max_left _ _
      omega
  | succ fuel ih =>
      intro fs inode oldPage eof offset length sound inodeBound oldBound safe follows inside
        available enough room free
      rcases Nat.lt_or_ge 512 (length + offset) with more | fits
      · have count := rounds_continue more inside
        have positive : 1 ≤ rounds 0 (length - (512 - offset)) := Nat.le_max_left _ _
        obtain ⟨next, others, split⟩ := exists_next_of_rounds (by omega) free
        have nextFree := mem_free_of_split split
        have nextBound := (mem_freeInodes.1 nextFree).1
        have taken : (buf.take (512 - offset)).length = 512 - offset := by
          rw [List.length_take]
          omega
        obtain ⟨after, page, result, linked, freeAfter, left⟩ :=
          writeExisting_continue buf fuel eof sound.anchored
            (by omega : 3 * rounds 0 (length - (512 - offset)) + 3 ≤ spare fs) inodeBound oldBound
            safe.covered more split
        have nextInode := (@full_continued (fs.flash (oldPage % 4096)) (fs.header oldPage) _ _ next
          inside taken nextBound).2.2.2
        have follows' : Follows fs.toVolume inode
            (rounds 0 (length - (512 - offset)) - 1 + 1) oldPage := by
          rw [Nat.sub_add_cancel positive, ← Nat.add_sub_cancel (rounds 0 _) 1, ← count]
          exact follows
        obtain ⟨newBound, newSafe, newFollows⟩ :=
          linked.next_page nextInode nextFree oldBound safe follows' rfl
        have progress := linked.progress
          (Or.inr (by rw [nextInode]; exact SafeInode.of_free nextFree)) sound
        have freeNext : rounds 0 (length - (512 - offset)) ≤
            ((freeInodes after.toVolume).filter fun other => other ≠ next).length + 1 := by
          rw [filter_freeInodes freeAfter]
          rw [split, List.length_cons] at free
          omega
        obtain ⟨last, rest, progress'⟩ := ih after next _ (eof || (fs.header oldPage).eof) 0
          (length - (512 - offset)) progress.sound nextBound newBound newSafe newFollows
          (by omega) (by omega) (by omega) left freeNext
        exact ⟨last, result.trans rest, progress.trans progress'⟩
      · obtain ⟨after, page, result, linked, _⟩ := writeExisting_last buf fuel eof sound.anchored
          (by rw [rounds_last fits] at room; omega : 0 + 3 ≤ spare fs) inodeBound oldBound
          safe.covered fits
        refine ⟨after, result, linked.progress ?_ sound⟩
        rw [pageHeader_savedContent _ _ (by rw [List.length_take]; omega)]
        cases last : (fs.header oldPage).eof with
        | true => exact Or.inl (by simp only [lastHeader, last, Bool.true_or])
        | false =>
            refine Or.inr ?_
            simp only [lastHeader, Nat.mod_eq_of_lt (header_nextInode_lt fs.toVolume oldPage)]
            exact safe.next last

theorem writeFresh_progress (buf : List UInt8) :
    ∀ (fuel : Nat) (fs : Fs) (inode : Nat) (page : PageHeader) (length : Nat), Sound fs →
      inode < 4096 → length ≤ buf.length → rounds 0 length ≤ fuel → 3 * rounds 0 length ≤ spare fs →
      rounds 0 length ≤ ((freeInodes fs.toVolume).filter fun other => other ≠ inode).length + 1 →
      ∃ after, writeFresh buf fuel fs inode page length = (.ok, after) ∧ Progress fs after := by
  intro fuel
  induction fuel with
  | zero =>
      intro fs inode page length _ _ _ enough
      have positive : 1 ≤ rounds 0 length := Nat.le_max_left _ _
      omega
  | succ fuel ih =>
      intro fs inode page length sound inodeBound available enough room free
      rcases Nat.lt_or_ge 512 length with more | fits
      · have count : rounds 0 length = rounds 0 (length - 512) + 1 :=
          rounds_continue more (by omega)
        have positive : 1 ≤ rounds 0 (length - 512) := Nat.le_max_left _ _
        obtain ⟨next, others, split⟩ := exists_next_of_rounds (by omega) free
        have nextFree := mem_free_of_split split
        have nextBound := (mem_freeInodes.1 nextFree).1
        have taken : (buf.take 512).length = 512 - 0 := by
          rw [List.length_take]
          omega
        obtain ⟨after, pagenum, buffer, result, linked, freeAfter, left⟩ :=
          writeFresh_continue buf fuel page sound.anchored
            (by omega : 3 * rounds 0 (length - 512) + 3 ≤ spare fs) inodeBound more split
        have nextInode := (@full_continued buffer page _ _ next (by omega) taken nextBound).2.2.2
        have progress := linked.progress
          (Or.inr (by rw [nextInode]; exact SafeInode.of_free nextFree)) sound
        have freeNext : rounds 0 (length - 512) ≤
            ((freeInodes after.toVolume).filter fun other => other ≠ next).length + 1 := by
          rw [filter_freeInodes freeAfter]
          rw [split, List.length_cons] at free
          omega
        obtain ⟨last, rest, progress'⟩ := ih after next (continuedHeader page next) (length - 512)
          progress.sound nextBound (by omega) (by omega) left freeNext
        exact ⟨last, result.trans rest, progress.trans progress'⟩
      · obtain ⟨after, pagenum, buffer, result, linked, _⟩ :=
          writeFresh_last buf fuel page sound.anchored
            (by rw [rounds_last (by omega)] at room; omega : 0 + 3 ≤ spare fs) inodeBound fits
        refine ⟨after, result, linked.progress (Or.inl ?_) sound⟩
        rw [pageHeader_savedContent _ _ (by rw [List.length_take]; omega)]

/-- The page that `fs_write` seeks. -/
theorem writeSeek_safe {fs : Fs} {length : Nat} :
    ∀ (fuel inode page offset : Nat), inode < 4096 → fsPage fs.toVolume inode = page →
      page ≠ 0xffff → SafePage fs page →
      Leads fs.toVolume (rounds 0 (offset + length) - 1) page → offset < fuel →
      writeSeek fs.toVolume fuel inode page offset = none ∨
      ∃ target oldPage rest, writeSeek fs.toVolume fuel inode page offset =
          some (target, oldPage, rest) ∧
        target < 4096 ∧ fsPage fs.toVolume target = oldPage ∧ oldPage ≠ 0xffff ∧
        SafePage fs oldPage ∧ rest ≤ 512 ∧
        Leads fs.toVolume (rounds rest length - 1) oldPage := by
  intro fuel
  induction fuel with
  | zero => intro inode page offset _ _ _ _ _ enough; omega
  | succ fuel ih =>
      intro inode page offset bound entry used safe leads enough
      rw [writeSeek]
      by_cases far : 512 < offset
      · rw [if_pos far]
        cases last : (fs.header page).eof with
        | true =>
            simp only [last, if_true]
            exact Or.inl trivial
        | false =>
            simp only [last, Bool.false_eq_true, if_false]
            have count : rounds 0 (offset + length) - 1 =
                rounds 0 (offset - 512 + length) - 1 + 1 := by
              simp only [rounds]
              omega
            rw [count] at leads
            obtain ⟨nextUsed, rest⟩ := leads.resolve_left (by rw [last]; exact Bool.false_ne_true)
            exact ih _ _ (offset - 512) (header_nextInode_lt fs.toVolume page) rfl nextUsed
              (safe.next last nextUsed) rest (by omega)
      · rw [if_neg far]
        refine Or.inr ⟨inode, page, offset, rfl, bound, entry, used, safe, by omega, ?_⟩
        have same : rounds offset length = rounds 0 (offset + length) := by
          simp only [rounds]
          omega
        rw [same]
        exact leads

end Ethersex.Dataflash

import Ethersex.DataflashAllocation

/-!
# Runs in which no page in use is handed out

As long as the allocator does not come round, each call hands out pages that are
not in use and leaves all pages in use covered.  When it does come round, it
hands out the pages again that were allocated since the file system was mounted.
-/

namespace Ethersex.Dataflash

open ByteMemory

/-- The call finds the pages and inodes it needs: enough pages in front of the
allocator, an entry in the directory, unused inodes; and the part of the chain
that `fs_write` reads is there. -/
def KeepsLive (fs : Fs) : Operation → Prop
  | .create name =>
      findPlace fs.toVolume name 66 0 0 = some .duplicate ∨
        (∃ count < 60, DirectoryEnds fs.toVolume count) ∧ 1 ≤ spare fs ∧
          freeInodes fs.toVolume ≠ []
  | .write inode buf offset =>
      (inode ∈ listedInodes fs.toVolume ∨ inode < 4096 ∧ SafeInode fs inode) ∧
        (fsPage fs.toVolume inode ≠ 0xffff →
          Leads fs.toVolume (rounds 0 (offset + buf.length) - 1) (fsPage fs.toVolume inode)) ∧
        3 * writeRounds fs.toVolume inode offset buf.length ≤ spare fs ∧
        writeRounds fs.toVolume inode offset buf.length ≤
          ((freeInodes fs.toVolume).filter fun other => other ≠ inode).length + 1
  | .truncate inode length =>
      inode < 4096 ∧ 3 * truncateRounds fs.toVolume inode length ≤ spare fs
  | .remove name =>
      (∃ count, DirectoryEnds fs.toVolume count) ∧
        ∀ found, findName fs.toVolume name 66 0xffff 0xffff 0 = some found →
          found.index < found.max → 3 ≤ spare fs

theorem Sound.uninitialised {fs : Fs} (sound : Sound fs) (length : Nat) :
    Sound (fs.uninitialised length).2 :=
  ⟨sound.anchored.uninitialised length, sound.files⟩

theorem Sound.listed {fs : Fs} (sound : Sound fs) {inode : Nat}
    (listed : inode ∈ listedInodes fs.toVolume) : SafeInode fs inode := by
  obtain ⟨node, member, rfl⟩ := List.mem_map.1 listed
  obtain ⟨index, bound, rfl, used⟩ := mem_listing member
  exact sound.files index bound used

theorem Sound.progress_write {fs : Fs} (sound : Sound fs) {inode offset : Nat} {buf : List UInt8}
    (keeps : KeepsLive fs (.write inode buf offset)) :
    ∃ status after, execute fs (.write inode buf offset) = some (status, after) ∧
      Progress fs after := by
  obtain ⟨known, leads, room, free⟩ := keeps
  obtain ⟨bound, safe⟩ : inode < 4096 ∧ SafeInode fs inode :=
    known.elim (fun listed => ⟨listedInodes_lt listed, sound.listed listed⟩) id
  by_cases missing : fsPage fs.toVolume inode = 0xffff
  · by_cases start : offset = 0
    · have count : writeRounds fs.toVolume inode offset buf.length = rounds 0 buf.length := by
        rw [writeRounds, if_pos missing, if_pos start]
      rw [count] at room free
      have enough : rounds 0 buf.length ≤ buf.length + 1 := by
        simp only [rounds]
        omega
      obtain ⟨after, result, progress⟩ := writeFresh_progress buf (buf.length + 1)
        (fs.uninitialised 4).2 inode
        { PageHeader.decode (fs.uninitialised 4).1 with unused := false, root := false }
        buf.length (sound.uninitialised 4) bound (Nat.le_refl _) enough room free
      refine ⟨.ok, after, congrArg some ?_, ⟨progress.sound, progress.handouts⟩⟩
      rw [fsWrite, if_neg (by simpa using missing), if_neg (by simpa using start)]
      exact result
    · refine ⟨.badSeek, fs, congrArg some ?_, .refl sound⟩
      rw [fsWrite, if_neg (by simpa using missing), if_pos start]
  · rcases writeSeek_safe (offset + 1) inode _ offset bound rfl missing (safe missing)
        (leads missing) (Nat.lt_succ_self _) with
      none | ⟨target, oldPage, rest, found, targetBound, entry, used, safeOld, inside, leadsOld⟩
    · refine ⟨.badSeek, fs, congrArg some ?_, .refl sound⟩
      rw [fsWrite, if_pos missing, none]
    · have count : writeRounds fs.toVolume inode offset buf.length = rounds rest buf.length := by
        rw [writeRounds, if_neg missing, found]
      rw [count, filter_freeInodes_used missing] at free
      rw [count] at room
      have free' : rounds rest buf.length ≤
          ((freeInodes fs.toVolume).filter fun other => other ≠ target).length + 1 := by
        rw [filter_freeInodes_used (by rw [entry]; exact used)]
        exact free
      have enough : rounds rest buf.length ≤ buf.length + 2 := by
        simp only [rounds]
        omega
      obtain ⟨after, result, progress⟩ := writeExisting_progress buf (buf.length + 2) fs target
        oldPage false rest buf.length sound targetBound
        (by rw [← entry] at used ⊢; exact fsPage_lt used) safeOld (leadsOld.follows target) inside
        (Nat.le_refl _) enough room free'
      refine ⟨.ok, after, congrArg some ?_, progress⟩
      rw [fsWrite, if_pos missing, found]
      exact result

theorem truncateSeek_lt {volume : Volume} :
    ∀ (fuel inode page length : Nat) {target oldPage rest : Nat}, inode < 4096 →
      truncateSeek volume fuel inode page length = .ok (target, oldPage, rest) →
      target < 4096 := by
  intro fuel
  induction fuel with
  | zero =>
      intro inode page length target oldPage rest bound found
      rw [truncateSeek, Except.ok.injEq, Prod.mk.injEq] at found
      rw [← found.1]
      exact bound
  | succ fuel ih =>
      intro inode page length target oldPage rest bound found
      simp only [truncateSeek] at found
      split at found
      · split at found
        · cases found
        · split at found
          · cases found
          · exact ih _ _ _ (header_nextInode_lt volume page) found
      · rw [Except.ok.injEq, Prod.mk.injEq] at found
        rw [← found.1]
        exact bound

theorem Sound.progress_truncatePage {fs : Fs} (sound : Sound fs) {inode : Nat}
    (page length : Nat) (bound : inode < 4096) (room : 3 ≤ spare fs) :
    ∃ after, truncatePage fs inode page length = (.ok, after) ∧ Progress fs after := by
  obtain ⟨newPage, middle, claim, claimed, _⟩ :=
    claimPage_spec sound.anchored (by omega : 0 + 3 ≤ spare fs) bound
  have linked := claimed.linked (middle.flash (page % 4096))
    { middle.header page with size := length, eof := true } [] 0
  refine ⟨_, ?_, linked.progress (Or.inl ?_) sound⟩
  · rw [truncatePage, claim]
    rfl
  · rw [pageHeader_savedContent _ _ (by simp)]

theorem Sound.progress_truncate {fs : Fs} (sound : Sound fs) {inode length : Nat}
    (keeps : KeepsLive fs (.truncate inode length)) :
    ∃ status after, execute fs (.truncate inode length) = some (status, after) ∧
      Progress fs after := by
  obtain ⟨bound, room⟩ := keeps
  have unchanged (status : Status) (result : fsTruncate fs inode length = (status, fs)) :
      ∃ status after, execute fs (.truncate inode length) = some (status, after) ∧
        Progress fs after :=
    ⟨status, fs, congrArg some result, .refl sound⟩
  by_cases missing : fsPage fs.toVolume inode = 0xffff
  · exact unchanged .ok (by rw [fsTruncate, if_pos missing])
  · cases found : truncateSeek fs.toVolume (length + 1) inode (fsPage fs.toVolume inode) length with
    | error status =>
        exact unchanged status (by rw [fsTruncate, if_neg missing, found])
    | ok place =>
        obtain ⟨target, page, rest⟩ := place
        rw [truncateRounds, if_neg missing, found] at room
        rcases Nat.lt_trichotomy (fs.header page).size rest with short | same | shorter
        · refine unchanged .badSeek ?_
          rw [fsTruncate, if_neg missing, found]
          exact if_pos short
        · refine unchanged .ok ?_
          rw [fsTruncate, if_neg missing, found]
          simp only [same, Nat.lt_irrefl, if_false, if_true]
        · simp only [shorter, if_true] at room
          obtain ⟨after, result, progress⟩ := sound.progress_truncatePage page rest
            (truncateSeek_lt _ _ _ _ bound found) (by omega)
          refine ⟨.ok, after, congrArg some ?_, progress⟩
          rw [fsTruncate, if_neg missing, found]
          simp only
          rw [if_neg (by omega), if_neg (by omega), result]

section DirectoryChanged

variable {before after : Fs} {nodes : Nat → DirectoryNode}

theorem DirectoryChanged.safeInode (changed : DirectoryChanged before after nodes) {inode : Nat}
    (bound : inode < 4096) (safe : SafeInode before inode) : SafeInode after inode := by
  intro used
  refine safePage_of_kept changed.kept (fun _ => False) (fun _ none => none.elim)
    (fun _ none => none.elim) (fun other otherBound => Or.inl (changed.fsPage other otherBound))
    (fsPage_lt used) (Or.inl ?_)
  rw [changed.fsPage inode bound] at used ⊢
  exact safe used

theorem DirectoryChanged.progress (changed : DirectoryChanged before after nodes)
    (sound : Sound before)
    (safe : ∀ index < 60, (nodes index).unused = false →
      (nodes index).inode < 4096 ∧ SafeInode before (nodes index).inode) :
    Progress before after := by
  refine ⟨⟨changed.anchored, ?_⟩, sound.fresh_not_live changed.handouts⟩
  intro index bound used
  rw [changed.node index bound] at used ⊢
  obtain ⟨inodeBound, safeNode⟩ := safe index bound used
  exact changed.safeInode inodeBound safeNode

end DirectoryChanged

/-- Freeing an inode makes fewer pages reachable. -/
theorem TableUpdated.progress_freed {before after : Fs} {inode : Nat}
    (freed : TableUpdated before after inode 0xffff) (sound : Sound before) :
    Progress before after := by
  refine ⟨⟨freed.anchored, ?_⟩, sound.fresh_not_live freed.handouts⟩
  have entries : ∀ other < 4096, fsPage after.toVolume other = fsPage before.toVolume other ∨
      fsPage after.toVolume other = 0xffff ∨ False := by
    intro other bound
    rw [freed.fsPage other bound]
    split
    · exact Or.inr (Or.inl rfl)
    · exact Or.inl rfl
  intro index bound usedEntry used
  rw [freed.node index bound] at usedEntry used ⊢
  refine safePage_of_kept freed.kept (fun _ => False) (fun _ none => none.elim)
    (fun _ none => none.elim) entries (fsPage_lt used) (Or.inl ?_)
  rcases entries _ (node_inode_lt before.toVolume index) with same | none | impossible
  · rw [same] at used ⊢
    exact sound.files index bound usedEntry used
  · exact absurd none used
  · exact impossible.elim

theorem Sound.node {fs : Fs} (sound : Sound fs) {index : Nat} (bound : index < 60)
    (used : (fs.node index).unused = false) :
    (fs.node index).inode < 4096 ∧ SafeInode fs (fs.node index).inode :=
  ⟨node_inode_lt fs.toVolume index, sound.files index bound used⟩

theorem Sound.progress_create {fs : Fs} (sound : Sound fs) {name : List UInt8}
    (keeps : KeepsLive fs (.create name)) :
    ∃ status after, execute fs (.create name) = some (status, after) ∧ Progress fs after := by
  rcases keeps with duplicate | ⟨⟨count, countLt, directory⟩, room, available⟩
  · have result : fsCreate fs name = some (.duplicate, fs) := by
      simp only [fsCreate, duplicate, Option.map_some]
    exact ⟨_, _, result, .refl sound⟩
  · rcases fsCreate_changed name sound.anchored directory
        fun _ => ⟨countLt, (by omega : 0 + 1 ≤ spare fs), available⟩ with
      ⟨_, result⟩ | ⟨after, index, inode, others, result, place, _, split, changed, _⟩
    · exact ⟨_, _, result, .refl sound⟩
    · refine ⟨_, _, result, changed.progress sound ?_⟩
      intro other bound used
      have free : inode ∈ freeInodes fs.toVolume := by
        rw [split]
        exact List.mem_cons_self
      have inodeBound := (mem_freeInodes.1 free).1
      unfold insertedNodes at used ⊢
      split at used
      · next earlier =>
          rw [if_pos earlier]
          exact sound.node bound used
      · next notEarlier =>
          rw [if_neg notEarlier]
          split at used
          · next here =>
              rw [if_pos here]
              have stored : (createdNode fs.toVolume name count inode).stored.inode = inode :=
                Nat.mod_eq_of_lt inodeBound
              rw [stored]
              exact ⟨inodeBound, .of_free free⟩
          · next notHere =>
              rw [if_neg notHere]
              split at used
              · next behind =>
                  rw [if_pos behind]
                  exact sound.node (by omega) used
              · next notBehind =>
                  rw [if_neg notBehind]
                  exact sound.node bound used

theorem Sound.progress_remove {fs : Fs} (sound : Sound fs) {name : List UInt8}
    (keeps : KeepsLive fs (.remove name)) :
    ∃ status after, execute fs (.remove name) = some (status, after) ∧ Progress fs after := by
  obtain ⟨⟨count, directory⟩, room⟩ := keeps
  have enough : ∀ found, findName fs.toVolume name 66 0xffff 0xffff 0 = some found →
      found.index < found.max → 0 + 3 ≤ spare fs := fun found search inside => by
    have pages := room found search inside
    omega
  rcases fsRemove_changed name sound.anchored directory enough with
    ⟨result, _⟩ | ⟨index, middle, after, place, _, result, changed, freed, _⟩
  · exact ⟨_, _, result, .refl sound⟩
  · have countBound := directory.count_le
    have progress : Progress fs middle := by
      refine changed.progress sound ?_
      intro other bound used
      unfold removedNodes at used ⊢
      split at used
      · next earlier =>
          rw [if_pos earlier]
          exact sound.node bound used
      · next notEarlier =>
          rw [if_neg notEarlier]
          split at used
          · next before =>
              rw [if_pos before]
              exact sound.node (by omega) used
          · next notBefore =>
              rw [if_neg notBefore]
              split at used
              · cases used
              · next notLast =>
                  rw [if_neg notLast]
                  exact sound.node bound used
    exact ⟨_, _, result, progress.trans (freed.progress_freed progress.sound)⟩

theorem Sound.progress {fs : Fs} (sound : Sound fs) {operation : Operation}
    (keeps : KeepsLive fs operation) :
    ∃ status after, execute fs operation = some (status, after) ∧ Progress fs after := by
  cases operation with
  | create name => exact sound.progress_create keeps
  | write inode buf offset => exact sound.progress_write keeps
  | truncate inode length => exact sound.progress_truncate keeps
  | remove name => exact sound.progress_remove keeps

theorem markSystemPages_volume (fs : Fs) : (markSystemPages fs).toVolume = fs.toVolume := by
  have tables : ∀ (tableIds : List Nat) (fs : Fs), (tableIds.foldl
      (fun fs tableId => fsMarkUsed fs (fsInodetable fs.toVolume tableId)) fs).toVolume =
        fs.toVolume := by
    intro tableIds
    induction tableIds with
    | nil => exact fun _ => rfl
    | cons tableId tableIds ih => exact fun fs => ih _
  exact tables _ _

/-- `fs_init` marks all pages in use. -/
theorem sound_of_fsInit {power mounted : Fs} (init : fsInit power = some (.ok, mounted))
    (tables : ∀ tableId < 16, fsInodetable mounted.toVolume tableId < 4096) : Sound mounted := by
  rw [fsInit_eq, Option.map_eq_some_iff] at init
  obtain ⟨after, marks, same⟩ := init
  rw [Prod.mk.injEq] at same
  obtain ⟨-, rfl⟩ := same
  have rootBound : (beforeMark power).root < 4096 := by
    rw [beforeMark]
    split
    · next found => exact ((scanned_afterScan power).found found).1
    · next none =>
        rw [(fsFormat_spec (by omega)).2.root]
        omega
  have volume : after.toVolume = (beforeMark power).toVolume :=
    (foldlM_markFile_spec _ _ _ marks).1.volume.trans (markSystemPages_volume _)
  rw [volume] at tables
  have mounted := markUsedPages_spec rootBound tables marks
  refine ⟨mounted.anchored rootBound tables, ?_⟩
  intro index bound used usedInode other reaches
  exact Or.inl (mounted.files index bound used usedInode other reaches)

/-- In every run from a mounted file system whose calls find what they need, no
page that is in use is handed out. -/
theorem handouts_not_live_of_guarded_run {power mounted : Fs} {operations : List Operation}
    (init : fsInit power = some (.ok, mounted))
    (tables : ∀ tableId < 16, fsInodetable mounted.toVolume tableId < 4096)
    (guarded : GuardedRuns.Guarded step KeepsLive mounted operations) :
    ∃ last new, GuardedRuns.run step mounted operations = some last ∧
      last.handouts = mounted.handouts ++ new ∧
      ∀ handout ∈ new, ¬Live handout.volume handout.page := by
  have progress : ∀ state operation, Progress mounted state → KeepsLive state operation →
      ∃ next, step state operation = some next ∧ Progress mounted next := by
    intro state operation before keeps
    obtain ⟨status, next, result, progress⟩ := before.sound.progress keeps
    exact ⟨next, step_of_execute result, before.trans progress⟩
  obtain ⟨last, reached, last_progress⟩ :=
    guarded.exists_run progress (.refl (sound_of_fsInit init tables))
  obtain ⟨new, appended, fresh⟩ := last_progress.handouts
  exact ⟨last, new, reached, appended, fresh⟩

/-- Creating a file on a new chip. -/
theorem handouts_not_live_first_create :
    ∃ mounted last new, fsInit blankChip = some (.ok, mounted) ∧
      GuardedRuns.run step mounted [.create [97]] = some last ∧
      last.handouts = mounted.handouts ++ new ∧
      ∀ handout ∈ new, ¬Live handout.volume handout.page := by
  obtain ⟨mounted, init, fresh, _⟩ := fsInit_of_unformatted unformatted_blankChip
  obtain ⟨others, free⟩ := freeInodes_zero (fresh.inodes 0 (by omega) (by omega))
  have keeps : KeepsLive mounted (.create [97]) :=
    Or.inr ⟨⟨0, by omega, fresh.directory.ends⟩, by rw [fresh.spare_eq]; omega,
      by rw [free]; simp⟩
  have guarded : GuardedRuns.Guarded step KeepsLive mounted [.create [97]] :=
    ⟨keeps, fun _ _ => trivial⟩
  obtain ⟨last, new, reached, appended, notLive⟩ :=
    handouts_not_live_of_guarded_run init fresh.anchored.table_lt guarded
  exact ⟨mounted, last, new, init, reached, appended, notLive⟩

/-- The pages that linking takes when nothing but the system pages is marked. -/
theorem Linked.lastFree_eq {before after : Fs} {inode page : Nat} {content : Memory}
    (linked : Linked before after inode page content) (marked : OnlySystemMarked before)
    (behind : 16 ≤ before.lastFree) (left : spare before - 3 ≤ spare after)
    (room : before.lastFree + 3 ≤ 4095) :
    page = before.lastFree + 1 ∧ after.lastFree = before.lastFree + 3 := by
  rw [marked.spare_eq, (marked.kept linked.kept).spare_eq] at left
  have above : ¬page ≤ before.lastFree := fun passed => linked.fresh (Or.inr passed)
  have passed := linked.passed
  have bound := linked.lastFree_lt
  omega

/-- A file in page 18 with inode 0, and a file with inode 1 that is written again
and again. -/
structure Filling (fs : Fs) (lastFree : Nat) : Prop where
  anchored : Anchored fs
  marked : OnlySystemMarked fs
  lastFree : fs.lastFree = lastFree
  first : ∃ node ∈ listing fs.toVolume, node.inode = 0
  firstPage : fsPage fs.toVolume 0 = 18
  second : fsPage fs.toVolume 1 ≠ 0xffff
  covered : Covered fs (fsPage fs.toVolume 1)

theorem fsWrite_existing {fs : Fs} {inode : Nat} (used : fsPage fs.toVolume inode ≠ 0xffff) :
    fsWrite fs inode [7] 0 =
      writeExisting [7] 3 fs inode (fsPage fs.toVolume inode) false 0 1 := by
  rw [fsWrite, if_pos used]
  rfl

theorem fsWrite_fresh {fs : Fs} {inode : Nat} (missing : fsPage fs.toVolume inode = 0xffff) :
    fsWrite fs inode [7] 0 = writeFresh [7] 2 (fs.uninitialised 4).2 inode
      { PageHeader.decode (fs.uninitialised 4).1 with unused := false, root := false } 1 := by
  rw [fsWrite, if_neg (by simpa using missing)]
  rfl

theorem Filling.write {fs : Fs} {lastFree : Nat} (filling : Filling fs lastFree)
    (behind : 16 ≤ lastFree) (room : lastFree + 3 ≤ 4095) :
    ∃ after, step fs (.write 1 [7] 0) = some after ∧ Filling after (lastFree + 3) := by
  have enough : spare fs - 3 + 3 ≤ spare fs := by
    rw [filling.marked.spare_eq, filling.lastFree]
    omega
  obtain ⟨after, page, result, linked, left⟩ := writeExisting_last [7] 2 false filling.anchored
    enough (by omega : 1 < 4096) (fsPage_lt filling.second) filling.covered (by omega : 1 + 0 ≤ 512)
  have moved := linked.lastFree_eq filling.marked (by rw [filling.lastFree]; exact behind) left
    (by rw [filling.lastFree]; exact room)
  rw [filling.lastFree] at moved
  have entry : fsPage after.toVolume 1 = page := linked.entry (by omega)
  have executed : execute fs (.write 1 [7] 0) = some (.ok, after) :=
    congrArg some ((fsWrite_existing filling.second).trans result)
  refine ⟨after, step_of_execute executed, linked.anchored, filling.marked.kept linked.kept,
    moved.2, ?_, ?_, ?_, ?_⟩
  · rw [listing_congr linked.node]
    exact filling.first
  · rw [linked.fsPage 0 (by omega), if_neg (by omega), filling.firstPage]
  · rw [entry]
    exact linked.page_ne
  · rw [entry]
    exact linked.covered

theorem Filling.writes {fs : Fs} {lastFree count : Nat} (filling : Filling fs lastFree)
    (behind : 16 ≤ lastFree) (room : lastFree + 3 * count ≤ 4095) :
    ∃ after, GuardedRuns.run step fs (List.replicate count (.write 1 [7] 0)) = some after ∧
      Filling after (lastFree + 3 * count) := by
  induction count generalizing fs lastFree with
  | zero => exact ⟨fs, rfl, filling⟩
  | succ count ih =>
      obtain ⟨middle, first, filling'⟩ := filling.write behind (by omega)
      obtain ⟨after, rest, filled⟩ := ih filling' (by omega) (by omega)
      refine ⟨after, ?_, ?_⟩
      · rw [List.replicate_succ, GuardedRuns.run, first, Option.bind_some, rest]
      · rw [(by omega : lastFree + 3 * (count + 1) = lastFree + 3 + 3 * count)]
        exact filled

/-- Behind the last page the search starts again at the first one. -/
theorem OnlySystemMarked.fsNewPage_round {fs : Fs} (marked : OnlySystemMarked fs)
    (last : fs.lastFree = 4095) : fsNewPage fs = (17, handOut fs 17) := by
  have unmarked : fsUsed fs 17 = false := by
    rw [← Bool.not_eq_true, marked 17 (by omega)]
    omega
  have found : searchPage fs 4096 ((fs.lastFree + 1) % 4096) = 17 := by
    rw [last]
    exact searchPage_eq (by omega) unmarked 4096 0 (by omega) (by omega) fun page _ before =>
      ⟨(marked page (by omega)).2 (by omega), by omega⟩
  rw [fsNewPage, found, if_neg (by omega)]

theorem OnlySystemMarked.fsNewPage_next {fs : Fs} (marked : OnlySystemMarked fs) {page : Nat}
    (behind : 17 ≤ page) (bound : page < 4095) :
    fsNewPage (handOut fs page) = (page + 1, handOut (handOut fs page) (page + 1)) := by
  have unmarked : fsUsed (handOut fs page) (page + 1) = false := by
    rw [← Bool.not_eq_true]
    show ¬fsUsed fs (page + 1) = true
    rw [marked (page + 1) (by omega)]
    omega
  have found : searchPage (handOut fs page) 4096 (((handOut fs page).lastFree + 1) % 4096) =
      page + 1 := by
    show searchPage _ _ ((page + 1) % 4096) = _
    rw [Nat.mod_eq_of_lt (by omega)]
    exact searchPage_eq (by omega) unmarked 4096 (page + 1) (by omega) (by omega)
      fun other lower before => by omega
  rw [fsNewPage, found]
  exact if_neg (by show page + 1 ≠ page; omega)

theorem handouts_fsIncrement (fs : Fs) : fs.handouts ⊆ (fsIncrement fs).2.handouts := by
  have allocated : fs.handouts ⊆ (fsNewPage (stampRoot fs)).2.handouts := by
    rw [fsNewPage]
    split
    · exact List.Subset.refl _
    · exact List.subset_append_left _ _
  rw [fsIncrement]
  dsimp only
  split
  · exact allocated
  · exact allocated

/-- When the search comes round, it hands out the page of the first file. -/
theorem Filling.round {fs : Fs} (filling : Filling fs 4095) :
    ∃ after, step fs (.write 1 [7] 0) = some after ∧
      (⟨18, fs.toVolume⟩ : Handout) ∈ after.handouts := by
  refine ⟨_, step_of_execute rfl, ?_⟩
  show _ ∈ (fsWrite fs 1 [7] 0).2.handouts
  have claimed : (⟨18, fs.toVolume⟩ : Handout) ∈ (claimPage fs 1).2.2.handouts := by
    rw [claimPage, filling.marked.fsNewPage_round filling.lastFree]
    simp only [if_neg (by omega : ¬(17 : Nat) = 0xffff), fsUpdateInodetable,
      filling.marked.fsNewPage_next (by omega : 17 ≤ 17) (by omega)]
    rw [if_neg (by omega)]
    apply handouts_fsIncrement
    show _ ∈ (fs.handouts ++ [⟨17, fs.toVolume⟩]) ++ [⟨18, fs.toVolume⟩]
    simp
  rw [fsWrite_existing filling.second, writeExisting]
  generalize claimPage fs 1 = claim at claimed ⊢
  dsimp only
  split
  · exact claimed
  · rw [if_neg (by omega)]
    exact claimed

/-- The first byte of a file takes three pages. -/
theorem step_write_first {fs : Fs} {inode : Nat} (anchored : Anchored fs)
    (marked : OnlySystemMarked fs) (behind : 16 ≤ fs.lastFree) (room : fs.lastFree + 3 ≤ 4095)
    (bound : inode < 4096) (missing : fsPage fs.toVolume inode = 0xffff) :
    ∃ after content, step fs (.write inode [7] 0) = some after ∧
      Linked (fs.uninitialised 4).2 after inode (fs.lastFree + 1) content ∧
      OnlySystemMarked after ∧ after.lastFree = fs.lastFree + 3 := by
  have enough : spare fs - 3 + 3 ≤ spare (fs.uninitialised 4).2 := by
    show spare fs - 3 + 3 ≤ spare fs
    rw [marked.spare_eq]
    omega
  obtain ⟨after, page, buffer, result, linked, left⟩ := writeFresh_last [7] 1
    { PageHeader.decode (fs.uninitialised 4).1 with unused := false, root := false }
    (anchored.uninitialised 4) enough bound (by omega : 1 ≤ 512)
  obtain ⟨pageEq, lastFree⟩ := linked.lastFree_eq marked behind left room
  have executed : execute fs (.write inode [7] 0) = some (.ok, after) :=
    congrArg some ((fsWrite_fresh missing).trans result)
  rw [pageEq] at linked
  have marked' : OnlySystemMarked (fs.uninitialised 4).2 := marked
  exact ⟨after, _, step_of_execute executed, linked, marked'.kept linked.kept, lastFree⟩

/-- Two files with one byte each on a new chip. -/
theorem exists_filling :
    ∃ mounted fs, fsInit blankChip = some (.ok, mounted) ∧ mounted.handouts = [] ∧
      GuardedRuns.run step mounted
        [.create [97], .write 0 [7] 0, .create [98], .write 1 [7] 0] = some fs ∧
      Filling fs 24 := by
  obtain ⟨mounted, init, fresh, handouts, _⟩ := fsInit_of_unformatted unformatted_blankChip
  obtain ⟨one, created, changed, lastFreeOne⟩ := fresh.fsCreate_eq [97]
  have missing : ∀ inode ≤ 1, fsPage one.toVolume inode = 0xffff := by
    intro inode bound
    rw [changed.fsPage inode (by omega)]
    exact fresh.inodes inode (by omega) (by omega)
  obtain ⟨two, content, written, linked, marked, lastFreeTwo⟩ :=
    step_write_first changed.anchored (OnlySystemMarked.kept fresh.used changed.kept)
      (by rw [lastFreeOne]; omega) (by rw [lastFreeOne]; omega) (by omega) (missing 0 (by omega))
  rw [lastFreeOne] at linked lastFreeTwo
  have directory : Directory two.toVolume 1 :=
    (changed.directory_inserted fresh.directory rfl (by omega) (by omega)).congr linked.nodeUnused
  have node : two.node 0 = (createdNode mounted.toVolume [97] 0 0).stored :=
    (linked.node 0 (by omega)).trans (changed.node 0 (by omega))
  have zeroPage : fsPage two.toVolume 0 = 18 := linked.entry (by omega)
  have missingOne : fsPage two.toVolume 1 = 0xffff := by
    rw [linked.fsPage 1 (by omega), if_neg (by omega)]
    exact missing 1 (by omega)
  obtain ⟨others, free⟩ := freeInodes_first (by omega : 1 < 4096) missingOne fun other before => by
    obtain rfl : other = 0 := by omega
    rw [zeroPage]
    omega
  obtain ⟨three, index, created', place, changed', lastFreeThree⟩ :=
    fsCreate_second linked.anchored directory node marked (by omega) (by omega) free
  obtain ⟨four, content', written', linked', marked', lastFreeFour⟩ :=
    step_write_first changed'.anchored (marked.kept changed'.kept) (by omega) (by omega)
      (by omega : 1 < 4096) (by rw [changed'.fsPage 1 (by omega), missingOne])
  have stepOne : execute mounted (.create [97]) = some (.ok, one) := created
  have stepThree : execute two (.create [98]) = some (.ok, three) := created'
  have entry : fsPage four.toVolume 1 = three.lastFree + 1 := linked'.entry (by omega)
  refine ⟨mounted, four, init, handouts, ?_, linked'.anchored, marked', by omega, ?_, ?_, ?_, ?_⟩
  · simp only [GuardedRuns.run, step_of_execute stepOne, written, step_of_execute stepThree,
      written', Option.bind_some]
  · refine ⟨(createdNode mounted.toVolume [97] 0 0).stored, ?_, rfl⟩
    rw [listing_congr linked'.node]
    show _ ∈ listing three.toVolume
    rw [changed'.listing_inserted directory rfl place (by omega),
      List.mem_insertIdx (by rw [directory.length_listing]; exact place), ← node]
    exact Or.inr (directory.mem_listing_of_used (by omega) (directory.used 0 (by omega)))
  · rw [linked'.fsPage 0 (by omega), if_neg (by omega)]
    show fsPage three.toVolume 0 = 18
    rw [changed'.fsPage 0 (by omega), zeroPage]
  · rw [entry]
    omega
  · rw [entry]
    exact linked'.covered

/-- Two files on a new chip: one byte is written to the first and then again and
again to the second.  After 1358 writes the search comes round and hands out the
page of the first file. -/
theorem live_page_handed_out :
    ∃ mounted last new, fsInit blankChip = some (.ok, mounted) ∧
      GuardedRuns.run step mounted
        ([.create [97], .write 0 [7] 0, .create [98], .write 1 [7] 0] ++
          (List.replicate 1357 (.write 1 [7] 0) ++ [.write 1 [7] 0])) = some last ∧
      last.handouts = mounted.handouts ++ new ∧
      ∃ handout ∈ new, Live handout.volume handout.page := by
  obtain ⟨mounted, fs, init, handouts, reached, filling⟩ := exists_filling
  obtain ⟨full, filled, filling'⟩ := filling.writes (by omega) (by omega : 24 + 3 * 1357 ≤ 4095)
  obtain ⟨last, final, member⟩ := Filling.round filling'
  refine ⟨mounted, last, last.handouts, init, ?_, by rw [handouts, List.nil_append], _, member, ?_⟩
  · rw [GuardedRuns.run_append, reached, Option.bind_some, GuardedRuns.run_append, filled,
      Option.bind_some, GuardedRuns.run, final, Option.bind_some, GuardedRuns.run]
  · obtain ⟨node, listed, inode⟩ := filling'.first
    have page : fsPage full.toVolume node.inode = 18 := by rw [inode, filling'.firstPage]
    have live : Live full.toVolume (fsPage full.toVolume node.inode) :=
      .file listed (by rw [page]; omega) (.here _)
    rw [page] at live
    exact live

end Ethersex.Dataflash

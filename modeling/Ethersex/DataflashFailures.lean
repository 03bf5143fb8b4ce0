import Ethersex.DataflashCrash

/-!
# Calls that fail

`fs_new_page` reads a bitmap that no call changes, so it fails when no page but the
one handed out last is unmarked, and after two different pages it never fails
again.  All calls but `fs_remove` ask for two pages before they program anything.
-/

namespace Ethersex.Dataflash

open ByteMemory

/-- The variables of the file system name pages of the chip. -/
structure Bounded (fs : Fs) : Prop where
  lastFree : fs.lastFree < 4096
  root : fs.root < 4096

/-- Two different pages are unmarked. -/
def Plenty (fs : Fs) : Prop :=
  ∃ first < 4096, ∃ second < 4096, first ≠ second ∧
    fsUsed fs first = false ∧ fsUsed fs second = false

/-- The page is unmarked and not the one that was handed out last. -/
structure Offered (fs : Fs) (page : Nat) : Prop where
  lt : page < 4096
  ne_lastFree : page ≠ fs.lastFree
  unmarked : fsUsed fs page = false

theorem Plenty.congr {before after : Fs} (plenty : Plenty before)
    (bitmap : after.buf2 = before.buf2) : Plenty after := by
  obtain ⟨first, bound, second, bound', different, unmarked, unmarked'⟩ := plenty
  refine ⟨first, bound, second, bound', different, ?_, ?_⟩
  · rw [fsUsed_congr bitmap, unmarked]
  · rw [fsUsed_congr bitmap, unmarked']

theorem Plenty.exists_offered {fs : Fs} (plenty : Plenty fs) : ∃ page, Offered fs page := by
  obtain ⟨first, bound, second, bound', different, unmarked, unmarked'⟩ := plenty
  by_cases last : first = fs.lastFree
  · exact ⟨second, bound', fun same => different (last.trans same.symm), unmarked'⟩
  · exact ⟨first, bound, last, unmarked⟩

/-- The search stops at an unmarked page, or when it has come round. -/
theorem searchPage_cases {fs : Fs} (bound : fs.lastFree < 4096) :
    ∀ fuel passed, passed + fuel + 1 = 4096 →
      (∀ earlier < passed, fsUsed fs ((fs.lastFree + 1 + earlier) % 4096) = true) →
      (searchPage fs (fuel + 1) ((fs.lastFree + 1 + passed) % 4096) = fs.lastFree ∧
        ∀ page, ¬Offered fs page) ∨
      Offered fs (searchPage fs (fuel + 1) ((fs.lastFree + 1 + passed) % 4096)) := by
  intro fuel
  induction fuel with
  | zero =>
      intro passed total marked
      obtain rfl : passed = 4095 := by omega
      have here : (fs.lastFree + 1 + 4095) % 4096 = fs.lastFree := by omega
      refine Or.inl ⟨?_, ?_⟩
      · rw [here, searchPage, if_neg (by simp)]
      · rintro page ⟨inside, other, unmarked⟩
        have used := marked ((page + 4095 - fs.lastFree) % 4096) (by omega)
        rw [(by omega : (fs.lastFree + 1 + (page + 4095 - fs.lastFree) % 4096) % 4096 = page),
          unmarked] at used
        cases used
  | succ fuel ih =>
      intro passed total marked
      have elsewhere : (fs.lastFree + 1 + passed) % 4096 ≠ fs.lastFree := by omega
      rw [searchPage]
      cases used : fsUsed fs ((fs.lastFree + 1 + passed) % 4096) with
      | false =>
          rw [if_neg (by simp)]
          exact Or.inr ⟨Nat.mod_lt _ (by omega), elsewhere, used⟩
      | true =>
          have next : ((fs.lastFree + 1 + passed) % 4096 + 1) % 4096 =
              (fs.lastFree + 1 + (passed + 1)) % 4096 := by omega
          rw [if_pos ⟨rfl, elsewhere⟩, next]
          apply ih (passed + 1) (by omega)
          intro earlier before
          rcases Nat.eq_or_lt_of_le (Nat.le_of_lt_succ before) with same | lower
          · rw [same, used]
          · exact marked earlier lower

theorem fsNewPage_cases {fs : Fs} (bound : fs.lastFree < 4096) :
    (fsNewPage fs = (0xffff, fs) ∧ ∀ page, ¬Offered fs page) ∨
      ∃ page, Offered fs page ∧ fsNewPage fs = (page, handOut fs page) := by
  rcases searchPage_cases bound 4095 0 (by omega) (by omega) with ⟨round, none⟩ | offered
  · refine Or.inl ⟨?_, none⟩
    rw [fsNewPage, ← Nat.add_zero (fs.lastFree + 1), round, if_pos rfl]
  · refine Or.inr ⟨_, offered, ?_⟩
    rw [fsNewPage, ← Nat.add_zero (fs.lastFree + 1), if_neg offered.ne_lastFree]

theorem Offered.congr {before after : Fs} {page : Nat} (offered : Offered before page)
    (bitmap : after.buf2 = before.buf2) (lastFree : after.lastFree = before.lastFree) :
    Offered after page := by
  refine ⟨offered.lt, ?_, ?_⟩
  · rw [lastFree]
    exact offered.ne_lastFree
  · rw [fsUsed_congr bitmap]
    exact offered.unmarked

/-- Two pages that are handed out one after the other are different. -/
theorem Offered.plenty {fs : Fs} {first second : Nat} (offered : Offered fs first)
    (next : Offered (handOut fs first) second) : Plenty fs :=
  ⟨second, next.lt, first, offered.lt, next.ne_lastFree, next.unmarked, offered.unmarked⟩

theorem fsIncrement_cases {fs : Fs} (bound : fs.lastFree < 4096) :
    (fsIncrement fs = (.badPage, stampRoot fs) ∧ ∀ page, ¬Offered fs page) ∨
      ∃ page, Offered fs page ∧ fsIncrement fs = (.ok, incremented fs page) := by
  have stamped : (stampRoot fs).lastFree < 4096 := bound
  rcases fsNewPage_cases stamped with ⟨allocated, none⟩ | ⟨page, offered, allocated⟩
  · refine Or.inl ⟨?_, fun page offered => none page (offered.congr rfl rfl)⟩
    simp only [fsIncrement, allocated, if_true]
  · refine Or.inr ⟨page, offered.congr rfl rfl, ?_⟩
    have inside := offered.lt
    simp only [fsIncrement, allocated]
    rw [if_neg (by omega)]
    simp only [saveRoot, dfBufSave, Nat.mod_eq_of_lt inside]
    rfl

theorem fsUpdateInodetable_cases {fs : Fs} (bound : fs.lastFree < 4096) (inode page : Nat) :
    (fsUpdateInodetable fs inode page = (.badPage, fs) ∧ ∀ page, ¬Offered fs page) ∨
      ∃ table, Offered fs table ∧ fsUpdateInodetable fs inode page =
        fsIncrement (tableSaved fs inode page table) := by
  rcases fsNewPage_cases bound with ⟨allocated, none⟩ | ⟨table, offered, allocated⟩
  · refine Or.inl ⟨?_, none⟩
    simp only [fsUpdateInodetable, allocated, if_true]
  · refine Or.inr ⟨table, offered, ?_⟩
    have inside := offered.lt
    simp only [fsUpdateInodetable, allocated]
    rw [if_neg (by omega), tableSaved]

/-- When the second page was found, the third one is found as well. -/
theorem fsUpdateInodetable_of_plenty {fs : Fs} (bound : fs.lastFree < 4096) (plenty : Plenty fs)
    (inode page : Nat) :
    ∃ table root, Offered fs table ∧ Offered (handOut fs table) root ∧
      fsUpdateInodetable fs inode page =
        (.ok, incremented (tableSaved fs inode page table) root) := by
  rcases fsUpdateInodetable_cases bound inode page with ⟨_, none⟩ | ⟨table, offered, result⟩
  · obtain ⟨page, offered⟩ := plenty.exists_offered
    exact absurd offered (none page)
  · have saved : Plenty (tableSaved fs inode page table) := plenty.congr rfl
    have inside : (tableSaved fs inode page table).lastFree < 4096 := offered.lt
    rcases fsIncrement_cases inside with ⟨_, none⟩ | ⟨root, next, result'⟩
    · obtain ⟨page, offered⟩ := saved.exists_offered
      exact absurd offered (none page)
    · exact ⟨table, root, offered, next.congr rfl rfl, result.trans result'⟩

/-- A claim fails before anything is programmed, or two pages are unmarked. -/
theorem claimPage_cases {fs : Fs} (bound : fs.lastFree < 4096) (inode : Nat) :
    (∃ pagenum after, claimPage fs inode = (.badPage, pagenum, after) ∧
      after.toVolume = fs.toVolume ∧ after.buf2 = fs.buf2 ∧ after.lastFree < 4096 ∧ ¬Plenty fs) ∨
      ∃ pagenum table root, Plenty fs ∧ Offered fs pagenum ∧ Offered (handOut fs pagenum) table ∧
        Offered (handOut (handOut fs pagenum) table) root ∧
        claimPage fs inode = (.ok, pagenum,
          incremented (tableSaved (handOut fs pagenum) inode pagenum table) root) := by
  rcases fsNewPage_cases bound with ⟨allocated, none⟩ | ⟨pagenum, offered, allocated⟩
  · refine Or.inl ⟨0xffff, fs, ?_, rfl, rfl, bound, ?_⟩
    · simp only [claimPage, allocated, if_true]
    · intro plenty
      obtain ⟨page, offered⟩ := plenty.exists_offered
      exact none page offered
  · have inside := offered.lt
    have claimed : claimPage fs inode =
        ((fsUpdateInodetable (handOut fs pagenum) inode pagenum).1, pagenum,
          (fsUpdateInodetable (handOut fs pagenum) inode pagenum).2) := by
      simp only [claimPage, allocated]
      rw [if_neg (by omega)]
    have handedOut : (handOut fs pagenum).lastFree < 4096 := inside
    rcases fsUpdateInodetable_cases handedOut inode pagenum with
      ⟨result, none⟩ | ⟨table, next, _⟩
    · refine Or.inl ⟨pagenum, handOut fs pagenum, ?_, rfl, rfl, inside, ?_⟩
      · rw [claimed, result]
      · intro plenty
        have plenty' : Plenty (handOut fs pagenum) := plenty.congr rfl
        obtain ⟨page, offered'⟩ := plenty'.exists_offered
        exact none page offered'
    · have plenty := offered.plenty next
      obtain ⟨table, root, next, last, result⟩ :=
        fsUpdateInodetable_of_plenty handedOut (plenty.congr rfl) inode pagenum
      refine Or.inr ⟨pagenum, table, root, plenty, offered, next, last, ?_⟩
      rw [claimed, result]

/-- The variables stay in their bounds, and a call that fails has not changed the volume. -/
structure FailsUnchanged (fs : Fs) (result : Status × Fs) : Prop where
  bounded : Bounded result.2
  unchanged : result.1 ≠ .ok → result.2.toVolume = fs.toVolume

theorem FailsUnchanged.of_ok {fs : Fs} {result : Status × Fs} (bounded : Bounded result.2)
    (ok : result.1 = .ok) : FailsUnchanged fs result :=
  ⟨bounded, fun failed => absurd ok failed⟩

theorem FailsUnchanged.of_same {fs after : Fs} {status : Status} (bounded : Bounded fs)
    (lastFree : after.lastFree < 4096) (same : after.toVolume = fs.toVolume) :
    FailsUnchanged fs (status, after) := by
  refine ⟨⟨lastFree, ?_⟩, fun _ => same⟩
  rw [same]
  exact bounded.root

/-- No inode number is `0xffff` in the twelve bits that `next_inode` has. -/
theorem nextInode_ne (volume : Volume) : fsNewInode volume % 4096 ≠ 0xffff := by
  omega

section Writing

variable (buf : List UInt8)

theorem writeExisting_of_plenty :
    ∀ (fuel : Nat) (fs : Fs) (inode oldPage : Nat) (eof : Bool) (offset length : Nat),
      Bounded fs → Plenty fs →
      (writeExisting buf fuel fs inode oldPage eof offset length).1 = .ok ∧
        Bounded (writeExisting buf fuel fs inode oldPage eof offset length).2 := by
  intro fuel
  induction fuel with
  | zero => exact fun fs _ _ _ _ _ bounded _ => ⟨rfl, bounded⟩
  | succ fuel ih =>
      intro fs inode oldPage eof offset length bounded plenty
      rcases claimPage_cases bounded.lastFree inode with
        ⟨_, _, _, _, _, _, none⟩ | ⟨pagenum, table, root, _, _, _, last, claimed⟩
      · exact absurd plenty none
      · simp only [writeExisting, claimed, ne_eq, not_true_eq_false, if_false]
        by_cases more : 512 < length + offset
        · rw [if_pos more, if_neg (nextInode_ne _)]
          exact ih _ _ _ _ _ _ ⟨last.lt, last.lt⟩ (plenty.congr rfl)
        · rw [if_neg more]
          exact ⟨rfl, last.lt, last.lt⟩

theorem writeExisting_failsUnchanged (fuel : Nat) {fs : Fs} (inode oldPage : Nat) (eof : Bool)
    (offset length : Nat) (bounded : Bounded fs) :
    FailsUnchanged fs (writeExisting buf fuel fs inode oldPage eof offset length) := by
  by_cases plenty : Plenty fs
  · obtain ⟨ok, bounded'⟩ :=
      writeExisting_of_plenty buf fuel fs inode oldPage eof offset length bounded plenty
    exact .of_ok bounded' ok
  · cases fuel with
    | zero => exact .of_ok bounded rfl
    | succ fuel =>
        rcases claimPage_cases bounded.lastFree inode with
          ⟨pagenum, after, claimed, same, _, lastFree, _⟩ | ⟨_, _, _, plenty', _⟩
        · simp only [writeExisting, claimed, ne_eq, reduceCtorEq, not_false_eq_true, if_true]
          exact .of_same bounded lastFree same
        · exact absurd plenty' plenty

theorem writeFresh_of_plenty :
    ∀ (fuel : Nat) (fs : Fs) (inode : Nat) (page : PageHeader) (length : Nat),
      Bounded fs → Plenty fs →
      (writeFresh buf fuel fs inode page length).1 = .ok ∧
        Bounded (writeFresh buf fuel fs inode page length).2 := by
  intro fuel
  induction fuel with
  | zero => exact fun fs _ _ _ bounded _ => ⟨rfl, bounded⟩
  | succ fuel ih =>
      intro fs inode page length bounded plenty
      rcases claimPage_cases bounded.lastFree inode with
        ⟨_, _, _, _, _, _, none⟩ | ⟨pagenum, table, root, _, _, _, last, claimed⟩
      · exact absurd plenty none
      · simp only [writeFresh, claimed, ne_eq, not_true_eq_false, if_false]
        by_cases more : 512 < length
        · rw [if_pos more, if_neg (nextInode_ne _)]
          exact ih _ _ _ _ ⟨last.lt, last.lt⟩ (plenty.congr rfl)
        · rw [if_neg more]
          exact ⟨rfl, last.lt, last.lt⟩

theorem writeFresh_failsUnchanged (fuel : Nat) {fs : Fs} (inode : Nat) (page : PageHeader)
    (length : Nat) (bounded : Bounded fs) :
    FailsUnchanged fs (writeFresh buf fuel fs inode page length) := by
  by_cases plenty : Plenty fs
  · obtain ⟨ok, bounded'⟩ := writeFresh_of_plenty buf fuel fs inode page length bounded plenty
    exact .of_ok bounded' ok
  · cases fuel with
    | zero => exact .of_ok bounded rfl
    | succ fuel =>
        rcases claimPage_cases bounded.lastFree inode with
          ⟨pagenum, after, claimed, same, _, lastFree, _⟩ | ⟨_, _, _, plenty', _⟩
        · simp only [writeFresh, claimed, ne_eq, reduceCtorEq, not_false_eq_true, if_true]
          exact .of_same bounded lastFree same
        · exact absurd plenty' plenty

theorem fsWrite_failsUnchanged {fs : Fs} (inode offset : Nat) (bounded : Bounded fs) :
    FailsUnchanged fs (fsWrite fs inode buf offset) := by
  rw [fsWrite]
  by_cases written : fsPage fs.toVolume inode ≠ 0xffff
  · rw [if_pos written]
    cases writeSeek fs.toVolume (offset + 1) inode (fsPage fs.toVolume inode) offset with
    | none => exact .of_same bounded bounded.lastFree rfl
    | some found => exact writeExisting_failsUnchanged buf _ _ _ _ _ _ bounded
  · rw [if_neg written]
    by_cases behind : offset ≠ 0
    · rw [if_pos behind]
      exact .of_same bounded bounded.lastFree rfl
    · rw [if_neg behind]
      have fresh := writeFresh_failsUnchanged buf (buf.length + 1) inode
        { PageHeader.decode (fs.uninitialised 4).1 with unused := false, root := false } buf.length
        (⟨bounded.lastFree, bounded.root⟩ : Bounded (fs.uninitialised 4).2)
      exact ⟨fresh.bounded, fresh.unchanged⟩

end Writing

theorem truncatePage_failsUnchanged {fs : Fs} (inode pagenum length : Nat)
    (bounded : Bounded fs) : FailsUnchanged fs (truncatePage fs inode pagenum length) := by
  rcases claimPage_cases bounded.lastFree inode with
    ⟨_, after, claimed, same, _, lastFree, _⟩ | ⟨_, _, root, _, _, _, last, claimed⟩
  · simp only [truncatePage, claimed, ne_eq, reduceCtorEq, not_false_eq_true, if_true]
    exact .of_same bounded lastFree same
  · simp only [truncatePage, claimed, ne_eq, not_true_eq_false, if_false]
    exact .of_ok ⟨last.lt, last.lt⟩ rfl

theorem fsTruncate_failsUnchanged {fs : Fs} (inode length : Nat) (bounded : Bounded fs) :
    FailsUnchanged fs (fsTruncate fs inode length) := by
  rw [fsTruncate]
  by_cases missing : fsPage fs.toVolume inode = 0xffff
  · rw [if_pos missing]
    exact .of_ok bounded rfl
  · rw [if_neg missing]
    cases truncateSeek fs.toVolume (length + 1) inode (fsPage fs.toVolume inode) length with
    | error status => exact .of_same bounded bounded.lastFree rfl
    | ok found =>
        obtain ⟨target, page, rest⟩ := found
        by_cases longer : (fs.header page).size < rest
        · simp only [if_pos longer]
          exact .of_same bounded bounded.lastFree rfl
        · simp only [if_neg longer]
          by_cases same : rest = (fs.header page).size
          · rw [if_pos same]
            exact .of_ok bounded rfl
          · rw [if_neg same]
            exact truncatePage_failsUnchanged _ _ _ bounded

theorem fsIncrement_failsUnchanged {fs : Fs} (buffer : Memory) (bounded : Bounded fs) :
    FailsUnchanged fs (fsIncrement (withBuffer fs buffer)) := by
  have lastFree : (withBuffer fs buffer).lastFree < 4096 := bounded.lastFree
  rcases fsIncrement_cases lastFree with ⟨result, _⟩ | ⟨page, offered, result⟩
  · rw [result]
    exact .of_same bounded bounded.lastFree rfl
  · rw [result]
    exact .of_ok ⟨offered.lt, offered.lt⟩ rfl

theorem fsCreate_failsUnchanged {fs : Fs} {name : List UInt8} {result : Status × Fs}
    (bounded : Bounded fs) (created : fsCreate fs name = some result) :
    FailsUnchanged fs result := by
  rw [fsCreate, Option.map_eq_some_iff] at created
  obtain ⟨place, _, rfl⟩ := created
  cases place with
  | duplicate => exact .of_same bounded bounded.lastFree rfl
  | «at» index max =>
      simp only [if_neg (nextInode_ne _), insertNode_eq bounded.root]
      exact fsIncrement_failsUnchanged _ bounded

/-- What the search for a name ends with. -/
theorem findName_cases {volume : Volume} {name : List UInt8} {found : Found} :
    ∀ fuel index inode i, (index = 0xffff ∨ index < i) →
      findName volume name fuel index inode i = some found →
      (found.index = 0xffff ∨ found.index < found.max) ∧ i ≤ found.max ∧ found.max < i + fuel ∧
        (∀ place, i ≤ place → place < found.max → (volume.node place).unused = false) ∧
        (volume.node found.max).unused = true := by
  intro fuel
  induction fuel with
  | zero => intro index inode i _ result; cases result
  | succ fuel ih =>
      intro index inode i before result
      rw [findName] at result
      cases unused : (volume.node i).unused with
      | true =>
          simp only [unused, if_true, Option.some.injEq] at result
          rw [← result]
          exact ⟨before, Nat.le_refl i, by simp only; omega, fun place lower upper => by
            simp only at upper; omega, unused⟩
      | false =>
          have next : ∃ index' inode', (index' = 0xffff ∨ index' < i + 1) ∧
              findName volume name fuel index' inode' (i + 1) = some found := by
            simp only [unused, Bool.false_eq_true, if_false] at result
            split at result
            · exact ⟨i, _, Or.inr (by omega), result⟩
            · exact ⟨index, inode, by omega, result⟩
          obtain ⟨index', inode', before', result'⟩ := next
          obtain ⟨place, lower, upper, used, ends⟩ := ih index' inode' (i + 1) before' result'
          refine ⟨place, by omega, by omega, ?_, ends⟩
          intro other above below
          rcases Nat.eq_or_lt_of_le above with same | behind
          · rw [← same]
            exact unused
          · exact used other behind below

/-- The name is listed, one page is unmarked and it is not the one handed out last. -/
def LosesEntry (fs : Fs) : Operation → Prop
  | .create _ => False
  | .write _ _ _ => False
  | .truncate _ _ => False
  | .remove name =>
      (∃ found, findName fs.toVolume name 66 0xffff 0xffff 0 = some found ∧
        found.index < found.max) ∧
      (∃ page, Offered fs page) ∧ ¬Plenty fs

/-- What `fs_remove` does once it has found the name. -/
theorem removeFound_cases {fs : Fs} {found : Found} (bounded : Bounded fs)
    (listed : found.index < found.max) :
    (removeFound fs found =
        (.badPage, stampRoot (deleteNode fs found.index found.max)) ∧
      ∀ page, ¬Offered fs page) ∨
    (∃ page, Offered fs page ∧ ¬Plenty fs ∧ removeFound fs found =
      (.badPage, incremented (deleteNode fs found.index found.max) page)) ∨
    ∃ page table root, Offered fs page ∧ Offered (handOut fs page) table ∧
      Offered (handOut (handOut fs page) table) root ∧ removeFound fs found =
        (.ok, incremented (tableSaved (incremented (deleteNode fs found.index found.max) page)
          found.inode 0xffff table) root) := by
  have deleted := deleteNode_eq bounded.root found.index found.max
  have lastFree : (deleteNode fs found.index found.max).lastFree < 4096 := by
    rw [deleted]
    exact bounded.lastFree
  have call : removeFound fs found =
      if (fsIncrement (deleteNode fs found.index found.max)).1 ≠ .ok then
        fsIncrement (deleteNode fs found.index found.max)
      else fsUpdateInodetable (fsIncrement (deleteNode fs found.index found.max)).2 found.inode
        0xffff := by
    rw [removeFound, if_neg (by omega)]
  rw [call]
  rcases fsIncrement_cases lastFree with ⟨result, none⟩ | ⟨page, offered, result⟩
  · refine Or.inl ⟨?_, ?_⟩
    · rw [result]
      rfl
    · intro page offered
      apply none page
      rw [deleted]
      exact offered.congr rfl rfl
  · have offered' : Offered fs page := by
      rw [deleted] at offered
      exact offered.congr rfl rfl
    have inside : (incremented (deleteNode fs found.index found.max) page).lastFree < 4096 :=
      offered.lt
    have bitmap : (incremented (deleteNode fs found.index found.max) page).buf2 = fs.buf2 := by
      rw [deleted]
      rfl
    simp only [result, ne_eq, not_true_eq_false, if_false]
    right
    rcases fsUpdateInodetable_cases inside found.inode 0xffff with
      ⟨result', none⟩ | ⟨table, next, _⟩
    · refine Or.inl ⟨page, offered', ?_, result'⟩
      intro plenty
      obtain ⟨other, again⟩ := (plenty.congr bitmap).exists_offered
      exact none other again
    · have next' : Offered (handOut fs page) table := next.congr bitmap.symm rfl
      have plenty := (offered'.plenty next').congr bitmap
      obtain ⟨table, root, next, last, result'⟩ :=
        fsUpdateInodetable_of_plenty inside plenty found.inode 0xffff
      exact Or.inr ⟨page, table, root, offered', next.congr bitmap.symm rfl,
        last.congr bitmap.symm rfl, result'⟩

theorem removeFound_of_missing {fs : Fs} {found : Found} (missing : ¬found.index < found.max)
    (place : found.index = 0xffff ∨ found.index < found.max) (bound : found.max < 66) :
    removeFound fs found = (.noSuchFile, fs) := by
  rw [removeFound, if_pos (by omega)]

theorem fsRemove_failsUnchanged {fs : Fs} {name : List UInt8} {result : Status × Fs}
    (bounded : Bounded fs) (removed : fsRemove fs name = some result) :
    Bounded result.2 ∧ (¬LosesEntry fs (.remove name) → FailsUnchanged fs result) := by
  rw [fsRemove, Option.map_eq_some_iff] at removed
  obtain ⟨found, search, rfl⟩ := removed
  obtain ⟨place, _, upper, _, _⟩ := findName_cases 66 0xffff 0xffff 0 (Or.inl rfl) search
  by_cases listed : found.index < found.max
  · rcases removeFound_cases bounded listed with
      ⟨result, _⟩ | ⟨page, offered, none, result⟩ | ⟨page, table, root, _, _, last, result⟩
    · rw [result, deleteNode_eq bounded.root]
      exact ⟨⟨bounded.lastFree, bounded.root⟩, fun _ => .of_same bounded bounded.lastFree rfl⟩
    · rw [result]
      exact ⟨⟨offered.lt, offered.lt⟩,
        fun keeps => absurd ⟨⟨found, search, listed⟩, ⟨page, offered⟩, none⟩ keeps⟩
    · rw [result]
      exact ⟨⟨last.lt, last.lt⟩, fun _ => .of_ok ⟨last.lt, last.lt⟩ rfl⟩
  · rw [removeFound_of_missing listed place upper]
    exact ⟨bounded, fun _ => .of_same bounded bounded.lastFree rfl⟩

theorem execute_failsUnchanged {fs : Fs} {operation : Operation} {result : Status × Fs}
    (bounded : Bounded fs) (executed : execute fs operation = some result) :
    Bounded result.2 ∧ (¬LosesEntry fs operation → FailsUnchanged fs result) := by
  cases operation with
  | create name =>
      have fails := fsCreate_failsUnchanged bounded executed
      exact ⟨fails.bounded, fun _ => fails⟩
  | write inode buf offset =>
      have fails := fsWrite_failsUnchanged buf inode offset bounded
      rw [Option.some.inj executed] at fails
      exact ⟨fails.bounded, fun _ => fails⟩
  | truncate inode length =>
      have fails := fsTruncate_failsUnchanged inode length bounded
      rw [Option.some.inj executed] at fails
      exact ⟨fails.bounded, fun _ => fails⟩
  | remove name => exact fsRemove_failsUnchanged bounded executed

inductive Reachable : Fs → Prop
  | mounted {power fs : Fs} {status : Status} (result : fsInit power = some (status, fs)) :
      Reachable fs
  | called {fs after : Fs} {operation : Operation} {status : Status} (before : Reachable fs)
      (result : execute fs operation = some (status, after)) : Reachable after

/-- Marking changes neither the volume nor the page handed out last. -/
structure OnlyMarks (before after : Fs) : Prop where
  volume : after.toVolume = before.toVolume
  lastFree : after.lastFree = before.lastFree

theorem onlyMarks_markChain {volume : Volume} :
    ∀ (fuel : Nat) (fs after : Fs) (page : Nat), markChain volume fuel fs page = some after →
      OnlyMarks fs after := by
  intro fuel
  induction fuel with
  | zero => intro fs after page result; cases result
  | succ fuel ih =>
      intro fs after page result
      rw [markChain] at result
      by_cases missing : page = 0xffff
      · rw [if_pos missing, Option.some.injEq] at result
        rw [← result]
        exact ⟨rfl, rfl⟩
      · rw [if_neg missing] at result
        simp only at result
        split at result
        · rw [Option.some.injEq] at result
          rw [← result]
          exact ⟨rfl, rfl⟩
        · have rest := ih _ _ _ result
          exact ⟨rest.volume, rest.lastFree⟩

theorem onlyMarks_foldlM {indices : List Nat} {fs after : Fs}
    (result : indices.foldlM markFile fs = some after) : OnlyMarks fs after := by
  induction indices generalizing fs with
  | nil =>
      cases result
      exact ⟨rfl, rfl⟩
  | cons index indices ih =>
      rw [List.foldlM_cons] at result
      obtain ⟨middle, first, rest⟩ := Option.bind_eq_some_iff.1 result
      have marks := ih rest
      rw [markFile] at first
      split at first
      · cases first
        exact marks
      · have chain := onlyMarks_markChain _ _ _ _ first
        exact ⟨marks.volume.trans chain.volume, marks.lastFree.trans chain.lastFree⟩

theorem onlyMarks_foldl (tables : List Nat) (fs : Fs) :
    OnlyMarks fs (tables.foldl
      (fun fs tableId => fsMarkUsed fs (fsInodetable fs.toVolume tableId)) fs) := by
  induction tables generalizing fs with
  | nil => exact ⟨rfl, rfl⟩
  | cons tableId tables ih =>
      have rest := ih (fsMarkUsed fs (fsInodetable fs.toVolume tableId))
      exact ⟨rest.volume, rest.lastFree⟩

theorem onlyMarks_markSystemPages (fs : Fs) : OnlyMarks fs (markSystemPages fs) := by
  have tables := onlyMarks_foldl (List.range 16) (fsMarkUsed fs fs.root)
  rw [markSystemPages]
  exact ⟨tables.volume, tables.lastFree⟩

theorem bounded_of_mounted {power fs : Fs} {status : Status}
    (mounted : fsInit power = some (status, fs)) : Bounded fs := by
  rw [fsInit_eq, Option.map_eq_some_iff] at mounted
  obtain ⟨after, marks, same⟩ := mounted
  rw [Prod.mk.injEq] at same
  obtain ⟨-, rfl⟩ := same
  have files := onlyMarks_foldlM marks
  have system := onlyMarks_markSystemPages (beforeMark power)
  have volume : after.toVolume = (beforeMark power).toVolume := files.volume.trans system.volume
  have lastFree : after.lastFree = (beforeMark power).lastFree :=
    files.lastFree.trans system.lastFree
  have scanned := scanned_afterScan power
  have none : (afterScan power).lastFree = 0 := by
    rw [scanned.lastFree, beforeScan_lastFree]
  by_cases found : 1 ≤ (afterScan power).version
  · rw [beforeMark, if_pos found] at volume lastFree
    refine ⟨by rw [lastFree, none]; omega, ?_⟩
    rw [volume]
    exact (scanned.found found).1
  · rw [beforeMark, if_neg found] at volume lastFree
    have formatted := (fsFormat_spec (by omega : (afterScan power).version = 0)).2
    refine ⟨by rw [lastFree, formatted.lastFree, none]; omega, ?_⟩
    rw [volume, formatted.root]
    omega

theorem Reachable.bounded {fs : Fs} (reachable : Reachable fs) : Bounded fs := by
  induction reachable with
  | mounted result => exact bounded_of_mounted result
  | called _ result ih => exact (execute_failsUnchanged ih result).1

/-- When the call fails, names, sizes and contents are the same as before. -/
def FailsQuietly (fs : Fs) (operation : Operation) : Prop :=
  ∀ status after, execute fs operation = some (status, after) → status ≠ .ok →
    shown after.toVolume = shown fs.toVolume

theorem DirectoryEnds.length_shown {volume : Volume} {count : Nat}
    (directory : DirectoryEnds volume count) : (shown volume).length = count := by
  rw [shown, List.length_map, directory.listing_eq, List.length_map, List.length_range]

theorem DirectoryEnds.max_eq {volume : Volume} {count : Nat} {name : List UInt8} {found : Found}
    (directory : DirectoryEnds volume count)
    (search : findName volume name 66 0xffff 0xffff 0 = some found) : found.max = count := by
  have bound := directory.count_le
  obtain ⟨index, inode, result, _⟩ := findName_eq directory name 66 0xffff 0xffff 0
    (by omega) (by omega) (Or.inl ⟨rfl, rfl⟩)
  rw [search, Option.some.injEq] at result
  rw [result]

/-- The root that `fs_remove` programs first lists one entry less. -/
theorem directoryEnds_deleted {fs : Fs} {index count page : Nat} (bounded : Bounded fs)
    (directory : DirectoryEnds fs.toVolume count) (place : index < count) (bound : page < 4096) :
    DirectoryEnds (incremented (deleteNode fs index count) page).toVolume (count - 1) := by
  have countBound := directory.count_le
  have node : ∀ other < 60, (incremented (deleteNode fs index count) page).node other =
      removedNodes fs.toVolume index count other := by
    intro other inside
    rw [deleteNode_eq bounded.root, ← pageNode_removed bounded.root place countBound inside]
    show pageNode ((incremented (withBuffer fs _) page).flash
      ((incremented (withBuffer fs _) page).root % 4096)) other = _
    rw [rootPage_incremented bound, pageNode_stampedPage _ _ inside]
  refine ⟨by omega, ?_, ?_⟩
  · intro other inside
    rw [node other (by omega), removedNodes]
    by_cases earlier : other < index
    · rw [if_pos earlier]
      exact directory.used other (by omega)
    · rw [if_neg earlier, if_pos inside]
      exact directory.used (other + 1) (by omega)
  · rw [node _ (by omega), removedNodes, if_neg (by omega), if_neg (by omega), if_pos rfl]

theorem not_failsQuietly_of_losesEntry {fs : Fs} {operation : Operation} {count : Nat}
    (bounded : Bounded fs) (directory : DirectoryEnds fs.toVolume count)
    (loses : LosesEntry fs operation) : ¬FailsQuietly fs operation := by
  cases operation with
  | create => exact loses.elim
  | write => exact loses.elim
  | truncate => exact loses.elim
  | remove name =>
      obtain ⟨⟨found, search, listed⟩, ⟨page, offered⟩, single⟩ := loses
      have max := directory.max_eq search
      rcases removeFound_cases bounded listed with
        ⟨_, none⟩ | ⟨page, offered, _, result⟩ | ⟨_, _, _, first, second, _⟩
      · exact absurd offered (none page)
      · intro quiet
        have executed : execute fs (.remove name) =
            some (.badPage, incremented (deleteNode fs found.index found.max) page) := by
          show fsRemove fs name = _
          rw [fsRemove, search, Option.map_some, result]
        have same := congrArg List.length (quiet _ _ executed (by decide))
        rw [max] at same listed
        rw [(directoryEnds_deleted bounded directory listed offered.lt).length_shown,
          directory.length_shown] at same
        omega
      · exact absurd (first.plenty second) single

/-- A call that fails changes nothing that is shown, unless it is `fs_remove` for a
listed name while one page is left to hand out.  Then it does, when the directory
ends inside its table. -/
theorem failsQuietly_iff_keeps_entry {fs : Fs} (reachable : Reachable fs)
    (operation : Operation) :
    (¬LosesEntry fs operation → FailsQuietly fs operation) ∧
      ∀ count, DirectoryEnds fs.toVolume count →
        FailsQuietly fs operation → ¬LosesEntry fs operation := by
  have bounded := reachable.bounded
  refine ⟨?_, ?_⟩
  · intro keeps status after executed failed
    have fails := (execute_failsUnchanged bounded executed).2 keeps
    rw [fails.unchanged failed]
  · intro count directory quiet loses
    exact not_failsQuietly_of_losesEntry bounded directory loses quiet

/-- With a file on a formatted flash every call that fails changes nothing, such as the
removal of a name that is not listed. -/
theorem failsQuietly_oneFile :
    ∃ formatted fs, fsInit blankChip = some (.ok, formatted) ∧
      execute formatted (.create [97]) = some (.ok, fs) ∧ (listing fs.toVolume).length = 1 ∧
      execute fs (.remove [98]) = some (.noSuchFile, fs) ∧
      ∀ operation, FailsQuietly fs operation := by
  obtain ⟨formatted, mounted, fresh, _⟩ := fsInit_of_unformatted unformatted_blankChip
  obtain ⟨fs, created, changed, _⟩ := fresh.fsCreate_eq [97]
  have directory := changed.directory_inserted fresh.directory rfl (by omega) (by omega)
  have marked := OnlySystemMarked.kept fresh.used changed.kept
  have plenty : Plenty fs := by
    have unmarked : ∀ page, 16 < page → page < 4096 → fsUsed fs page = false := by
      intro page behind bound
      rw [← Bool.not_eq_true, marked page bound]
      omega
    exact ⟨17, by omega, 18, by omega, by omega, unmarked 17 (by omega) (by omega),
      unmarked 18 (by omega) (by omega)⟩
  refine ⟨formatted, fs, mounted, created, directory.length_listing, ?_, ?_⟩
  · have node : fs.node 0 = (createdNode formatted.toVolume [97] 0 0).stored :=
      changed.node 0 (by omega)
    have used : ¬(fs.node 0).unused = true := by
      rw [node]
      exact Bool.false_ne_true
    have other : ¬strncmp 6 (fs.node 0).name.val [98] = .eq := by
      rw [node]
      exact (by decide : ¬strncmp 6 (strncpy [97]).val [98] = .eq)
    show fsRemove fs [98] = _
    rw [fsRemove, findName, if_neg used, if_neg other, findName,
      if_pos (directory.rest 1 (by omega) (by omega)), Option.map_some,
      removeFound_of_missing (by decide) (Or.inl rfl) (by decide)]
  · intro operation
    apply (failsQuietly_iff_keeps_entry (.called (.mounted mounted)
      (show execute formatted (.create [97]) = _ from created)) operation).1
    cases operation with
    | create => exact id
    | write => exact id
    | truncate => exact id
    | remove name => exact fun loses => loses.2.2 plenty

theorem markChain_unmarked {volume : Volume} {page : Nat} (bound : page < 4096)
    (never : ∀ inode < 4096, fsPage volume inode ≠ page) :
    ∀ (fuel : Nat) (fs after : Fs) (start : Nat), start ≠ page → (start < 4096 ∨ start = 0xffff) →
      markChain volume fuel fs start = some after → fsUsed after page = fsUsed fs page := by
  intro fuel
  induction fuel with
  | zero => intro fs after start _ _ result; cases result
  | succ fuel ih =>
      intro fs after start different inside result
      rw [markChain] at result
      by_cases missing : start = 0xffff
      · rw [if_pos missing, Option.some.injEq] at result
        rw [result]
      · have marked : fsUsed (fsMarkUsed fs start) page = fsUsed fs page := by
          rw [fsUsed_fsMarkUsed (inside.resolve_right missing) bound]
          simp [different.symm]
        rw [if_neg missing] at result
        simp only at result
        split at result
        · rw [Option.some.injEq] at result
          rw [← result, marked]
        · rw [ih _ after _ (never _ (header_nextInode_lt volume start)) (fsPage_lt_or volume _)
            result, marked]

theorem foldlM_markFile_unmarked {volume : Volume} {page : Nat} (bound : page < 4096)
    (never : ∀ inode < 4096, fsPage volume inode ≠ page) {indices : List Nat} {fs after : Fs}
    (same : fs.toVolume = volume) (result : indices.foldlM markFile fs = some after) :
    fsUsed after page = fsUsed fs page := by
  induction indices generalizing fs with
  | nil =>
      cases result
      rfl
  | cons index indices ih =>
      subst same
      rw [List.foldlM_cons] at result
      obtain ⟨middle, first, rest⟩ := Option.bind_eq_some_iff.1 result
      rw [ih (markFile_spec first).1.volume rest]
      rw [markFile] at first
      split at first
      · cases first
        rfl
      · exact markChain_unmarked bound never _ _ _ _ (never _ (node_inode_lt _ _))
          (fsPage_lt_or _ _) first

def fullFileNode : DirectoryNode := ⟨false, true, 0, 17, strncpy [97]⟩

/-- A root of version 1 with one file; the pages behind it hold the tables. -/
def fullRoot : Memory :=
  sealedPage (writePage (fun _ => 0xff) 0
    ((⟨false, true, true, false, 0, 0⟩ : PageHeader).encode ++ versionBytes 1 ++ emptyTables ++
      fullFileNode.encode))

/-- Inode `n` is in page `n`, from 17 up to 4094; the other inodes are unused. -/
def fullEntry (inode : Nat) : Nat := if 17 ≤ inode ∧ inode ≤ 4094 then 16 * inode else 1

def fullTable (tableId : Nat) : Memory := fun index =>
  if index < 15 then 0
  else if (index - 15) % 2 = 0 then .ofNat (fullEntry (256 * tableId + (index - 15) / 2))
  else .ofNat (fullEntry (256 * tableId + (index - 15) / 2) / 256)

/-- A full page that goes on with the next inode. -/
def fullData (page : Nat) : Memory :=
  writePage (fun _ => 0) 0
    (⟨false, false, page == 4094, false, page + 1, 512⟩ : PageHeader).encode

/-- One file fills all pages but the last one. -/
def fullChip : Fs :=
  { blankChip with
    flash := fun page =>
      if page = 0 then fullRoot
      else if page ≤ 16 then fullTable (page - 1)
      else if page ≤ 4094 then fullData page
      else fun _ => 0xff
    version := 1 }

theorem fullRoot_views :
    pageHeader fullRoot = ⟨false, true, true, false, 0, 0⟩ ∧ pageVersion fullRoot = 1 ∧
      (∀ tableId < 16, tablePointer fullRoot tableId = tableId + 1) ∧
      pageNode fullRoot 0 = fullFileNode ∧
      ∀ index < 60, 1 ≤ index → (pageNode fullRoot index).unused = true := by
  decide +kernel

theorem pageEntry_fullTable (tableId : Nat) {entry : Nat} (inside : entry < 256) :
    pageEntry (fullTable tableId) entry =
      ⟨flag (fullEntry (256 * tableId + entry)) 0, fullEntry (256 * tableId + entry) / 2 % 8,
        fullEntry (256 * tableId + entry) / 16⟩ := by
  have small : fullEntry (256 * tableId + entry) < 65536 := by
    unfold fullEntry
    split <;> omega
  have word : wordAt (readPage (fullTable tableId) (15 + 2 * entry) 2) 0 =
      fullEntry (256 * tableId + entry) := by
    rw [wordAt, getD_readPage (by omega) (by omega), getD_readPage (by omega) (by omega)]
    simp only [fullTable]
    rw [if_neg (by omega), if_pos (by omega), if_neg (by omega), if_neg (by omega),
      (by omega : (15 + 2 * entry + 0 - 15) / 2 = entry),
      (by omega : (15 + 2 * entry + (0 + 1) - 15) / 2 = entry), UInt8.toNat_ofNat',
      UInt8.toNat_ofNat']
    omega
  simp only [pageEntry, TableNode.decode, word]

theorem isRootPage_fullRoot : IsRootPage fullRoot := by
  obtain ⟨header, _⟩ := fullRoot_views
  refine ⟨by rw [header], by rw [header], ?_⟩
  rw [fullRoot]
  exact pageCrc_sealedPage _

theorem fullChip_flash_table {page : Nat} (positive : 1 ≤ page) (bound : page ≤ 16) :
    fullChip.flash page = fullTable (page - 1) := by
  show (if _ then _ else _) = _
  rw [if_neg (by omega), if_pos bound]

theorem fullChip_flash_data {page : Nat} (behind : 17 ≤ page) (bound : page ≤ 4094) :
    fullChip.flash page = fullData page := by
  show (if _ then _ else _) = _
  rw [if_neg (by omega), if_neg (by omega), if_pos bound]

theorem fullChip_flash_last {page : Nat} (behind : 4094 < page) :
    fullChip.flash page = fun _ => 0xff := by
  show (if _ then _ else _) = _
  rw [if_neg (by omega), if_neg (by omega), if_neg (by omega)]

theorem fullChip_table {tableId : Nat} (inside : tableId < 16) :
    fsInodetable fullChip.toVolume tableId = tableId + 1 :=
  fullRoot_views.2.2.1 tableId inside

theorem fullChip_fsPage {inode : Nat} (bound : inode < 4096) :
    fsPage fullChip.toVolume inode = if 17 ≤ inode ∧ inode ≤ 4094 then inode else 0xffff := by
  have page : fullChip.flash ((inode / 256 + 1) % 4096) = fullTable (inode / 256) := by
    rw [Nat.mod_eq_of_lt (by omega), fullChip_flash_table (by omega) (by omega),
      Nat.add_sub_cancel]
  have entry : tableNode fullChip.toVolume (inode / 256 + 1) (inode % 256) = _ :=
    (congrArg (fun page => pageEntry page (inode % 256)) page).trans
      (pageEntry_fullTable (inode / 256) (by omega))
  rw [fsPage, fullChip_table (by omega), entry, Nat.div_add_mod]
  unfold fullEntry
  split
  · have even : flag (16 * inode) 0 = false := by
      simp only [flag, Nat.pow_zero, Nat.div_one, beq_eq_false_iff_ne]
      omega
    simp only [even, Bool.false_eq_true, if_false]
    omega
  · rfl

theorem fullChip_header {page : Nat} (behind : 17 ≤ page) (bound : page ≤ 4094) :
    fullChip.header page = ⟨false, false, page == 4094, false, page + 1, 512⟩ := by
  have content : fullChip.flash (page % 4096) = fullData page := by
    rw [Nat.mod_eq_of_lt (by omega), fullChip_flash_data behind bound]
  show pageHeader (fullChip.flash (page % 4096)) = _
  rw [content, fullData, pageHeader_writePage_encode]
  simp only [Nat.mod_eq_of_lt (by omega : page + 1 < 4096)]

theorem fullChip_next {page : Nat} (behind : 17 ≤ page) (before : page < 4094) :
    (fullChip.header page).eof = false ∧
      fsPage fullChip.toVolume (fullChip.header page).nextInode = page + 1 := by
  rw [fullChip_header behind (by omega)]
  refine ⟨?_, ?_⟩
  · simp only [beq_eq_false_iff_ne]
    omega
  · rw [fullChip_fsPage (by simp only; omega), if_pos (by simp only; omega)]

/-- Marking the file ends at page 4094. -/
theorem fullChip_markChain :
    ∀ (left fuel page : Nat) (fs : Fs), 17 ≤ page → page + left = 4094 → left < fuel →
      ∃ after, markChain fullChip.toVolume fuel fs page = some after := by
  intro left
  induction left with
  | zero =>
      intro fuel page fs behind last enough
      obtain ⟨fuel, rfl⟩ : ∃ fuel', fuel = fuel' + 1 := ⟨fuel - 1, by omega⟩
      obtain rfl : page = 4094 := by omega
      rw [markChain, if_neg (by omega), fullChip_header behind (Nat.le_refl _)]
      exact ⟨_, if_pos rfl⟩
  | succ left ih =>
      intro fuel page fs behind last enough
      obtain ⟨fuel, rfl⟩ : ∃ fuel', fuel = fuel' + 1 := ⟨fuel - 1, by omega⟩
      obtain ⟨goesOn, next⟩ := fullChip_next behind (by omega)
      rw [markChain, if_neg (by omega)]
      simp only [goesOn, next, Bool.false_eq_true, if_false]
      exact ih fuel (page + 1) _ (by omega) (by omega) (by omega)

theorem fullChip_reaches :
    ∀ (steps page : Nat), 17 ≤ page → page + steps ≤ 4094 →
      Reaches fullChip.toVolume page (page + steps) := by
  intro steps
  induction steps with
  | zero => exact fun page _ _ => .here page
  | succ steps ih =>
      intro page behind before
      obtain ⟨goesOn, next⟩ := fullChip_next behind (by omega)
      have rest := ih (page + 1) (by omega) (by omega)
      rw [(by omega : page + 1 + steps = page + (steps + 1))] at rest
      apply Reaches.step goesOn
      · rw [next]
        omega
      · rw [next]
        exact rest

theorem pageHeader_fullTable (tableId : Nat) : (pageHeader (fullTable tableId)).root = false := by
  have zeros : readBlock (fullTable tableId) 0 4 = readBlock (fun _ => 0) 0 4 :=
    readBlock_congr fun index _ inside => if_pos (by omega)
  rw [pageHeader, readPage_eq _ (by omega), zeros]
  decide

/-- Page 0 is the only root. -/
theorem fullChip_not_root {page : Nat} (other : page ≠ 0) : ¬IsRootPage (fullChip.flash page) := by
  rintro ⟨used, root, _⟩
  rcases Nat.lt_or_ge 16 page with behind | table
  · rcases Nat.lt_or_ge 4094 page with last | data
    · have blank : (pageHeader fun _ => 0xff).unused = true := by decide
      rw [fullChip_flash_last last, blank] at used
      cases used
    · rw [fullChip_flash_data behind data, fullData, pageHeader_writePage_encode] at root
      cases root
  · rw [fullChip_flash_table (by omega) table, pageHeader_fullTable] at root
    cases root

theorem newest_fullChip : Newest fullChip := by
  obtain ⟨_, version, _⟩ := fullRoot_views
  refine ⟨isRootPage_fullRoot, version, Nat.le_refl 1, ?_, ?_, ?_⟩
  · intro page bound valid
    by_cases first : page = 0
    · rw [first]
      exact Nat.le_of_eq version
    · exact absurd valid (fullChip_not_root first)
  · intro page before
    exact absurd before (Nat.not_lt_zero page)
  · intro tableId inside
    rw [fullChip_table inside, fullChip_flash_table (by omega) (by omega)]
    exact pageHeader_fullTable _

/-- Mounting this flash leaves page 4095 unmarked and marks all others. -/
theorem fullChip_mounted :
    ∃ mounted, fsInit fullChip = some (.ok, mounted) ∧ mounted.toVolume = fullChip.toVolume ∧
      mounted.lastFree = 0 ∧ ∀ page < 4096, fsUsed mounted page = false ↔ page = 4095 := by
  obtain ⟨_, _, _, file, empty⟩ := fullRoot_views
  obtain ⟨volume, version⟩ := afterScan_of_newest newest_fullChip (Nat.zero_lt_succ _) rfl
  have scanned := scanned_afterScan fullChip
  have start : beforeMark fullChip = afterScan fullChip := by
    rw [beforeMark, if_pos]
    rw [version]
    exact Nat.le_refl 1
  have rootBound : (afterScan fullChip).root < 4096 := by
    rw [volume]
    exact Nat.zero_lt_succ _
  have tableBound : ∀ tableId < 16, fsInodetable (afterScan fullChip).toVolume tableId < 4096 := by
    intro tableId inside
    rw [volume, fullChip_table inside]
    omega
  obtain ⟨marked, system⟩ := markSystemPages_spec rootBound tableBound
  have filePage : fsPage fullChip.toVolume fullFileNode.inode = 17 := fullChip_fsPage (by decide)
  have node : fullChip.node 0 = fullFileNode := file
  have ends : ∀ index ∈ List.range 60, (fullChip.node index).unused = false →
      MarkingEnds fullChip.toVolume (fullChip.node index).inode := by
    intro index member used fs
    rcases Nat.eq_zero_or_pos index with first | behind
    · rw [first, node, filePage]
      exact fullChip_markChain 4077 4097 17 fs (by omega) (by omega) (by omega)
    · have unused : (fullChip.node index).unused = true :=
        empty index (List.mem_range.1 member) behind
      rw [unused] at used
      cases used
  obtain ⟨mounted, marks⟩ := exists_foldlM_markFile (List.range 60)
    (markSystemPages (afterScan fullChip)) (marked.volume.trans volume) ends
  have all := markUsedPages_spec rootBound tableBound marks
  have sameVolume : mounted.toVolume = fullChip.toVolume := all.marked.volume.trans volume
  refine ⟨mounted, ?_, sameVolume, ?_, fun page bound => ⟨?_, ?_⟩⟩
  · rw [fsInit_eq, start, markUsedPages, marks]
    rfl
  · rw [all.marked.lastFree, scanned.lastFree, beforeScan_lastFree]
  · intro unmarked
    by_contra other
    apply Bool.false_ne_true
    rw [← unmarked]
    rcases Nat.lt_or_ge 16 page with behind | low
    · have reached := all.files 0 (by omega)
      rw [sameVolume, node, filePage] at reached
      have reaches := fullChip_reaches (page - 17) 17 (by omega) (by omega)
      rw [(by omega : 17 + (page - 17) = page)] at reaches
      exact reached rfl (by omega) page reaches
    · rcases Nat.eq_zero_or_pos page with first | positive
      · have root := all.root
        rw [sameVolume] at root
        rw [first]
        exact root
      · have table := all.tables (page - 1) (by omega)
        rw [sameVolume, fullChip_table (by omega), Nat.sub_add_cancel positive] at table
        exact table
  · intro last
    have never : ∀ inode < 4096, fsPage fullChip.toVolume inode ≠ page := by
      intro inode inside
      rw [fullChip_fsPage inside]
      split <;> omega
    have filled : ∀ index < 528, (afterScan fullChip).buf2 index = 0xff := by
      rw [scanned.bitmap]
      exact beforeScan_buf2 fullChip
    rw [foldlM_markFile_unmarked bound never (marked.volume.trans volume) marks,
      ← Bool.not_eq_true, system page bound, fsUsed_of_filled filled bound, volume]
    rintro ((root | impossible) | ⟨tableId, inside, same⟩)
    · exact absurd (last.symm.trans root) (by decide)
    · cases impossible
    · rw [fullChip_table inside] at same
      omega

/-- `fs_remove` takes the name of a file out of the directory and fails to free its inode. -/
theorem entry_lost_by_failed_remove :
    ∃ mounted after, fsInit fullChip = some (.ok, mounted) ∧
      execute mounted (.remove [97]) = some (.badPage, after) ∧
      listing mounted.toVolume = [fullFileNode] ∧ listing after.toVolume = [] ∧
      ¬FailsQuietly mounted (.remove [97]) := by
  obtain ⟨mounted, result, volume, lastFree, unmarked⟩ := fullChip_mounted
  obtain ⟨_, _, _, file, empty⟩ := fullRoot_views
  have bounded := bounded_of_mounted result
  have node : mounted.node 0 = fullFileNode := by
    rw [volume]
    exact file
  have directory : DirectoryEnds mounted.toVolume 1 := by
    refine ⟨by omega, ?_, ?_⟩
    · intro index inside
      obtain rfl : index = 0 := by omega
      rw [node]
      rfl
    · rw [volume]
      exact empty 1 (by omega) (Nat.le_refl 1)
  have search : findName mounted.toVolume [97] 66 0xffff 0xffff 0 = some ⟨0, 17, 1⟩ := by
    have matched : strncmp 6 fullFileNode.name.val [97] = .eq := by decide
    have used : fullFileNode.unused = false := rfl
    rw [findName, node]
    simp only [used, matched, Bool.false_eq_true, if_false, if_true]
    rw [findName, if_pos directory.ends]
    rfl
  have offered : Offered mounted 4095 :=
    ⟨by omega, by rw [lastFree]; omega, (unmarked 4095 (by omega)).2 rfl⟩
  have single : ¬Plenty mounted := by
    rintro ⟨first, bound, second, bound', different, free, free'⟩
    exact different (((unmarked first bound).1 free).trans ((unmarked second bound').1 free').symm)
  have loses : LosesEntry mounted (.remove [97]) :=
    ⟨⟨_, search, Nat.zero_lt_one⟩, ⟨4095, offered⟩, single⟩
  have listed : (⟨0, 17, 1⟩ : Found).index < (⟨0, 17, 1⟩ : Found).max := Nat.zero_lt_one
  rcases removeFound_cases bounded listed with
    ⟨_, none⟩ | ⟨page, offered', _, removed⟩ | ⟨_, _, _, first, second, _⟩
  · exact absurd offered (none 4095)
  · refine ⟨mounted, incremented (deleteNode mounted 0 1) page, result, ?_, ?_, ?_,
      not_failsQuietly_of_losesEntry bounded directory loses⟩
    · show fsRemove mounted [97] = _
      rw [fsRemove, search, Option.map_some, removed]
    · rw [directory.listing_eq]
      exact congrArg (fun node => [node]) node
    · exact (directoryEnds_deleted bounded directory Nat.zero_lt_one offered'.lt).listing_eq
  · exact absurd (first.plenty second) single

end Ethersex.Dataflash

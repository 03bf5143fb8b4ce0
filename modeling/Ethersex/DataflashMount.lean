import Ethersex.DataflashDirectory

/-!
# Mounting the file system

`fs_init` clears the bitmap, scans all pages for the newest root, formats the
flash when there is none, and marks the pages it can reach.
-/

namespace Ethersex.Dataflash

open ByteMemory

theorem mask_and_bit : ∀ place other : Fin 8,
    ~~~((1 : UInt8) <<< UInt8.ofNat place) &&& (1 <<< UInt8.ofNat other) =
      (if other = place then 0 else 1 <<< UInt8.ofNat other : UInt8) := by
  decide

theorem bitmapByte_eq {fs : Fs} {page : Nat} (bound : page < 4096) :
    bitmapByte fs page = fs.buf2 (page / 8) := by
  rw [bitmapByte, dfBufRead, getD_readPage (by omega) (by omega), Nat.add_zero]
  rfl

theorem buf2_fsMarkUsed {fs : Fs} {page : Nat} (bound : page < 4096) :
    (fsMarkUsed fs page).buf2 = Function.update fs.buf2 (page / 8)
      (fs.buf2 (page / 8) &&& ~~~(1 <<< UInt8.ofNat (page % 8))) := by
  rw [← bitmapByte_eq bound]
  show writePage fs.buf2 (page / 8) [_] = _
  rw [writePage_eq _ (by simp only [List.length_singleton]; omega), writeBlock_singleton]
  rfl

theorem fsUsed_fsMarkUsed {fs : Fs} {page other : Nat} (bound : page < 4096)
    (otherBound : other < 4096) :
    fsUsed (fsMarkUsed fs page) other = (decide (other = page) || fsUsed fs other) := by
  rw [fsUsed, fsUsed, bitmapByte_eq otherBound, bitmapByte_eq otherBound, buf2_fsMarkUsed bound]
  by_cases sameByte : other / 8 = page / 8
  · have mask := mask_and_bit ⟨page % 8, by omega⟩ ⟨other % 8, by omega⟩
    rw [sameByte, Function.update_self, UInt8.and_assoc, mask]
    by_cases same : other = page
    · subst same
      simp
    · rw [if_neg (by rw [Fin.mk.injEq]; omega)]
      simp [same]
  · rw [Function.update_of_ne sameByte]
    have different : other ≠ page := by
      rintro rfl
      exact sameByte rfl
    simp [different]

/-- Marking changes nothing but the bitmap, and only marks. -/
structure Marked (before after : Fs) : Prop where
  volume : after.toVolume = before.toVolume
  version : after.version = before.version
  lastFree : after.lastFree = before.lastFree
  programs : after.programs = before.programs
  handouts : after.handouts = before.handouts
  used : ∀ page < 4096, fsUsed before page = true → fsUsed after page = true

theorem Marked.refl (fs : Fs) : Marked fs fs :=
  ⟨rfl, rfl, rfl, rfl, rfl, fun _ _ used => used⟩

theorem Marked.trans {first second third : Fs} (marked : Marked first second)
    (marked' : Marked second third) : Marked first third where
  volume := marked'.volume.trans marked.volume
  version := marked'.version.trans marked.version
  lastFree := marked'.lastFree.trans marked.lastFree
  programs := marked'.programs.trans marked.programs
  handouts := marked'.handouts.trans marked.handouts
  used := fun page bound used => marked'.used page bound (marked.used page bound used)

theorem marked_fsMarkUsed {fs : Fs} {page : Nat} (bound : page < 4096) :
    Marked fs (fsMarkUsed fs page) := by
  refine ⟨rfl, rfl, rfl, rfl, rfl, ?_⟩
  intro other otherBound used
  rw [fsUsed_fsMarkUsed bound otherBound, used, Bool.or_true]

theorem fsUsed_fsMarkUsed_self {fs : Fs} {page : Nat} (bound : page < 4096) :
    fsUsed (fsMarkUsed fs page) page = true := by
  rw [fsUsed_fsMarkUsed bound bound]
  simp

/-- The pages on the chain that starts in a page. -/
inductive Reaches (volume : Volume) : Nat → Nat → Prop
  | here (page : Nat) : Reaches volume page page
  | step {page other : Nat} (goesOn : (volume.header page).eof = false)
      (used : fsPage volume (volume.header page).nextInode ≠ 0xffff)
      (rest : Reaches volume (fsPage volume (volume.header page).nextInode) other) :
      Reaches volume page other

theorem fsPage_lt_or (volume : Volume) (inode : Nat) :
    fsPage volume inode < 4096 ∨ fsPage volume inode = 0xffff := by
  by_cases unused : fsPage volume inode = 0xffff
  · exact Or.inr unused
  · exact Or.inl (fsPage_lt unused)

theorem Reaches.lt {volume : Volume} {page other : Nat} (reaches : Reaches volume page other)
    (bound : page < 4096) : other < 4096 := by
  induction reaches with
  | here page => exact bound
  | step _ used _ ih => exact ih (fsPage_lt used)

theorem markChain_spec {volume : Volume} :
    ∀ (fuel : Nat) (fs after : Fs) (page : Nat), (page < 4096 ∨ page = 0xffff) →
      markChain volume fuel fs page = some after →
      Marked fs after ∧
        (page ≠ 0xffff → ∀ other, Reaches volume page other → fsUsed after other = true) := by
  intro fuel
  induction fuel with
  | zero => intro fs after page _ result; cases result
  | succ fuel ih =>
      intro fs after page bound result
      rw [markChain] at result
      by_cases missing : page = 0xffff
      · rw [if_pos missing] at result
        cases result
        exact ⟨Marked.refl fs, fun present => absurd missing present⟩
      · rw [if_neg missing] at result
        have inside : page < 4096 := bound.resolve_right missing
        have marked : Marked fs (fsMarkUsed fs page) := marked_fsMarkUsed inside
        have here : fsUsed (fsMarkUsed fs page) page = true := fsUsed_fsMarkUsed_self inside
        cases last : (volume.header page).eof with
        | true =>
            simp only [last, if_true] at result
            cases result
            refine ⟨marked, fun _ other reaches => ?_⟩
            cases reaches with
            | here => exact here
            | step goesOn => rw [last] at goesOn; cases goesOn
        | false =>
            simp only [last, Bool.false_eq_true, if_false] at result
            obtain ⟨rest, behind⟩ := ih _ after _ (fsPage_lt_or volume _) result
            refine ⟨marked.trans rest, fun _ other reaches => ?_⟩
            cases reaches with
            | here => exact rest.used page inside here
            | step _ used reaches => exact behind used other reaches

/-- Marking comes to an end on a chain. -/
theorem markChain_of_chain {volume : Volume} :
    ∀ (links : List (Nat × Nat)) (fuel : Nat) (fs : Fs) (page : Nat),
      ChainFrom volume page links → links.length < fuel →
      ∃ after, markChain volume fuel fs page = some after := by
  intro links
  induction links with
  | nil =>
      intro fuel fs page chain enough
      obtain ⟨fuel, rfl⟩ : ∃ fuel', fuel = fuel' + 1 := ⟨fuel - 1, by omega⟩
      rw [markChain]
      by_cases missing : page = 0xffff
      · exact ⟨_, if_pos missing⟩
      · rw [if_neg missing]
        simp only [chain.2.1, if_true]
        exact ⟨_, rfl⟩
  | cons link links ih =>
      intro fuel fs page chain enough
      obtain ⟨next, nextPage⟩ := link
      rw [List.length_cons] at enough
      obtain ⟨fuel, rfl⟩ : ∃ fuel', fuel = fuel' + 1 := ⟨fuel - 1, by omega⟩
      rw [markChain]
      by_cases missing : page = 0xffff
      · exact ⟨_, if_pos missing⟩
      · rw [if_neg missing]
        simp only [chain.1.2.1, Bool.false_eq_true, if_false, chain.1.2.2.2, chain.2.1.1]
        exact ih fuel _ nextPage chain.2.2 (by omega)

theorem markFile_spec {fs after : Fs} {index : Nat} (result : markFile fs index = some after) :
    Marked fs after ∧
      ((fs.node index).unused = false → fsPage fs.toVolume (fs.node index).inode ≠ 0xffff →
        ∀ other, Reaches fs.toVolume (fsPage fs.toVolume (fs.node index).inode) other →
          fsUsed after other = true) := by
  rw [markFile] at result
  cases unused : (fs.node index).unused with
  | true =>
      simp only [unused, if_true] at result
      cases result
      exact ⟨Marked.refl fs, fun used => by cases used⟩
  | false =>
      simp only [unused, Bool.false_eq_true, if_false] at result
      obtain ⟨marked, reached⟩ := markChain_spec 4097 fs after _ (fsPage_lt_or _ _) result
      exact ⟨marked, fun _ => reached⟩

/-- All pages reached from the directory entries in the list are marked. -/
theorem foldlM_markFile_spec :
    ∀ (indices : List Nat) (fs after : Fs), indices.foldlM markFile fs = some after →
      Marked fs after ∧ ∀ index ∈ indices, (fs.node index).unused = false →
        fsPage fs.toVolume (fs.node index).inode ≠ 0xffff →
        ∀ other, Reaches fs.toVolume (fsPage fs.toVolume (fs.node index).inode) other →
          fsUsed after other = true := by
  intro indices
  induction indices with
  | nil =>
      intro fs after result
      cases result
      exact ⟨Marked.refl fs, by simp⟩
  | cons index indices ih =>
      intro fs after result
      rw [List.foldlM_cons] at result
      obtain ⟨middle, first, rest⟩ := Option.bind_eq_some_iff.1 result
      obtain ⟨marked, reached⟩ := markFile_spec first
      obtain ⟨marked', reached'⟩ := ih middle after rest
      refine ⟨marked.trans marked', ?_⟩
      intro other member used present page reaches
      rcases List.mem_cons.1 member with same | later
      · subst same
        exact marked'.used page (reaches.lt (fsPage_lt present))
          (reached used present page reaches)
      · rw [marked.volume] at reached'
        exact reached' other later used present page reaches

/-- The tables in the list are marked, and nothing else. -/
theorem foldl_fsMarkUsed_spec {volume : Volume} :
    ∀ (tables : List Nat) (fs : Fs), (∀ tableId ∈ tables, fsInodetable volume tableId < 4096) →
      fs.toVolume = volume →
      Marked fs (tables.foldl
        (fun fs tableId => fsMarkUsed fs (fsInodetable fs.toVolume tableId)) fs) ∧
      ∀ page < 4096, fsUsed (tables.foldl
        (fun fs tableId => fsMarkUsed fs (fsInodetable fs.toVolume tableId)) fs) page = true ↔
          fsUsed fs page = true ∨ ∃ tableId ∈ tables, page = fsInodetable volume tableId := by
  intro tables
  induction tables with
  | nil => exact fun fs _ _ => ⟨Marked.refl fs, by simp⟩
  | cons tableId tables ih =>
      intro fs bound same
      subst same
      have inside := bound tableId List.mem_cons_self
      have marked : Marked fs (fsMarkUsed fs (fsInodetable fs.toVolume tableId)) :=
        marked_fsMarkUsed inside
      obtain ⟨rest, used⟩ := ih (fsMarkUsed fs (fsInodetable fs.toVolume tableId))
        (fun other member => bound other (List.mem_cons_of_mem _ member)) marked.volume
      rw [List.foldl_cons]
      refine ⟨marked.trans rest, fun page pageBound => ?_⟩
      rw [used page pageBound, fsUsed_fsMarkUsed inside pageBound, Bool.or_eq_true,
        decide_eq_true_eq, List.exists_mem_cons_iff]
      tauto

theorem markSystemPages_spec {fs : Fs} (rootBound : fs.root < 4096)
    (tableBound : ∀ tableId < 16, fsInodetable fs.toVolume tableId < 4096) :
    Marked fs (markSystemPages fs) ∧
      ∀ page < 4096, fsUsed (markSystemPages fs) page = true ↔
        (page = fs.root ∨ fsUsed fs page = true) ∨
          ∃ tableId < 16, page = fsInodetable fs.toVolume tableId := by
  have rootMarked : Marked fs (fsMarkUsed fs fs.root) := marked_fsMarkUsed rootBound
  obtain ⟨marked, used⟩ := foldl_fsMarkUsed_spec (List.range 16) (fsMarkUsed fs fs.root)
    (fun tableId member => tableBound tableId (List.mem_range.1 member)) rootMarked.volume
  refine ⟨rootMarked.trans marked, fun page bound => (used page bound).trans ?_⟩
  rw [fsUsed_fsMarkUsed rootBound bound, Bool.or_eq_true, decide_eq_true_eq]
  simp only [List.mem_range]

/-- What is marked when `fs_init` returns. -/
structure Mounted (before after : Fs) : Prop where
  marked : Marked before after
  root : fsUsed after after.root = true
  tables : ∀ tableId < 16, fsUsed after (fsInodetable after.toVolume tableId) = true
  files : ∀ index < 60, (after.node index).unused = false →
    fsPage after.toVolume (after.node index).inode ≠ 0xffff →
    ∀ other, Reaches after.toVolume (fsPage after.toVolume (after.node index).inode) other →
      fsUsed after other = true

theorem markUsedPages_spec {fs after : Fs} (rootBound : fs.root < 4096)
    (tableBound : ∀ tableId < 16, fsInodetable fs.toVolume tableId < 4096)
    (result : markUsedPages fs = some after) : Mounted fs after := by
  obtain ⟨systemMarked, systemUsed⟩ := markSystemPages_spec rootBound tableBound
  obtain ⟨filesMarked, filesUsed⟩ := foldlM_markFile_spec (List.range 60) _ after result
  rw [systemMarked.volume] at filesUsed
  have marked := systemMarked.trans filesMarked
  refine ⟨marked, ?_, ?_, ?_⟩
  · rw [marked.volume]
    exact filesMarked.used _ rootBound ((systemUsed _ rootBound).2 (Or.inl (Or.inl rfl)))
  · intro tableId inside
    rw [marked.volume]
    exact filesMarked.used _ (tableBound tableId inside)
      ((systemUsed _ (tableBound tableId inside)).2 (Or.inr ⟨tableId, inside, rfl⟩))
  · rw [marked.volume]
    exact fun index inside => filesUsed index (List.mem_range.2 inside)

theorem Mounted.anchored {before after : Fs} (mounted : Mounted before after)
    (rootBound : before.root < 4096)
    (tableBound : ∀ tableId < 16, fsInodetable before.toVolume tableId < 4096) :
    Anchored after := by
  have volume := mounted.marked.volume
  refine ⟨?_, Or.inl mounted.root, ?_, fun tableId inside => Or.inl (mounted.tables tableId inside)⟩
  · rw [volume]
    exact rootBound
  · rw [volume]
    exact tableBound

end Ethersex.Dataflash

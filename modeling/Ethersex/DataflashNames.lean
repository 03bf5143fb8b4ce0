import Ethersex.DataflashEmpty
import Ethersex.DataflashFailures
import Ethersex.GuardedRuns

/-!
# The names in the directory

`fs_create` puts a new name behind the smaller ones and `fs_remove` closes the gap, so that
the used entries stay sorted.  `fs_get_inode` compares the name of an entry before it looks
whether the entry is in use: it also finds the name that is left in the first unused entry.
-/

namespace Ethersex.Dataflash

open ByteMemory GuardedRuns

/-- The first bytes of a string as a number; `strncmp` compares these numbers. -/
def nameValue : Nat → List UInt8 → Nat
  | 0, _ => 0
  | count + 1, name =>
      (name.headD 0).toNat * 256 ^ count +
        nameValue count (if name.headD 0 = 0 then [] else name.tail)

theorem nameValue_lt (count : Nat) (name : List UInt8) : nameValue count name < 256 ^ count := by
  induction count generalizing name with
  | zero => exact Nat.one_pos
  | succ count ih =>
      have first := (name.headD 0).toNat_lt
      have rest := ih (if name.headD 0 = 0 then [] else name.tail)
      calc nameValue (count + 1) name
          < (name.headD 0).toNat * 256 ^ count + 256 ^ count := Nat.add_lt_add_left rest _
        _ = ((name.headD 0).toNat + 1) * 256 ^ count := by rw [Nat.add_mul, Nat.one_mul]
        _ ≤ 256 * 256 ^ count := Nat.mul_le_mul_right _ (by omega)
        _ = 256 ^ (count + 1) := by rw [Nat.pow_succ, Nat.mul_comm]

/-- A smaller first byte decides. -/
theorem nameValue_lt_of_head {count : Nat} {first second : List UInt8}
    (less : (first.headD 0).toNat < (second.headD 0).toNat) :
    nameValue (count + 1) first < nameValue (count + 1) second := by
  have rest := nameValue_lt count (if first.headD 0 = 0 then [] else first.tail)
  calc nameValue (count + 1) first
      < ((first.headD 0).toNat + 1) * 256 ^ count := by
        rw [nameValue, Nat.add_mul, Nat.one_mul]
        exact Nat.add_lt_add_left rest _
    _ ≤ (second.headD 0).toNat * 256 ^ count := Nat.mul_le_mul_right _ less
    _ ≤ nameValue (count + 1) second := Nat.le_add_right _ _

theorem strncmp_eq_compare (count : Nat) (first second : List UInt8) :
    strncmp count first second = compare (nameValue count first) (nameValue count second) := by
  induction count generalizing first second with
  | zero => rfl
  | succ count ih =>
      rw [strncmp]
      by_cases less : first.headD 0 < second.headD 0
      · rw [if_pos less, Nat.compare_eq_lt.2 (nameValue_lt_of_head less)]
      by_cases more : second.headD 0 < first.headD 0
      · rw [if_neg less, if_pos more, Nat.compare_eq_gt.2 (nameValue_lt_of_head more)]
      have same : first.headD 0 = second.headD 0 := by
        rw [UInt8.lt_iff_toNat_lt] at less more
        exact UInt8.toNat_inj.1 (by omega)
      rw [if_neg less, if_neg more, nameValue, nameValue, ← same]
      by_cases ends : first.headD 0 = 0
      · rw [if_pos ends, if_pos ends, if_pos ends, Nat.compare_eq_eq.2 rfl]
      · rw [if_neg ends, if_neg ends, if_neg ends, ih]
        simp only [Nat.compare_eq_ite_lt, Nat.add_lt_add_iff_left]

theorem strncmp_eq_lt {first second : List UInt8} :
    strncmp 6 first second = .lt ↔ nameValue 6 first < nameValue 6 second := by
  rw [strncmp_eq_compare, Nat.compare_eq_lt]

theorem strncmp_eq_eq {first second : List UInt8} :
    strncmp 6 first second = .eq ↔ nameValue 6 first = nameValue 6 second := by
  rw [strncmp_eq_compare, Nat.compare_eq_eq]

theorem strncmp_eq_gt {first second : List UInt8} :
    strncmp 6 first second = .gt ↔ nameValue 6 second < nameValue 6 first := by
  rw [strncmp_eq_compare, Nat.compare_eq_gt]

theorem strncpyBytes_succ (count : Nat) (name : List UInt8) :
    strncpyBytes (count + 1) name =
      name.headD 0 :: strncpyBytes count (if name.headD 0 = 0 then [] else name.tail) := by
  cases name with
  | nil => rfl
  | cons byte bytes => rfl

theorem nameValue_strncpyBytes (count : Nat) (name : List UInt8) :
    nameValue count (strncpyBytes count name) = nameValue count name := by
  induction count generalizing name with
  | zero => rfl
  | succ count ih =>
      rw [strncpyBytes_succ, nameValue, nameValue, List.headD_cons, List.tail_cons]
      by_cases ends : name.headD 0 = 0
      · rw [if_pos ends, if_pos ends]
      · rw [if_neg ends, if_neg ends, ih]

theorem strncpyBytes_eq_of_nameValue {count : Nat} {first second : List UInt8}
    (same : nameValue count first = nameValue count second) :
    strncpyBytes count first = strncpyBytes count second := by
  induction count generalizing first second with
  | zero => rfl
  | succ count ih =>
      have notLess : ¬(first.headD 0).toNat < (second.headD 0).toNat := fun less =>
        Nat.ne_of_lt (nameValue_lt_of_head less) same
      have notMore : ¬(second.headD 0).toNat < (first.headD 0).toNat := fun more =>
        Nat.ne_of_gt (nameValue_lt_of_head more) same
      have head : first.headD 0 = second.headD 0 := UInt8.toNat_inj.1 (by omega)
      rw [nameValue, nameValue, head] at same
      rw [strncpyBytes_succ, strncpyBytes_succ, head, ih (Nat.add_left_cancel same)]

/-- Names are compared on what `strncpy` keeps of them. -/
theorem strncpy_eq_iff {first second : List UInt8} :
    strncpy first = strncpy second ↔ nameValue 6 first = nameValue 6 second := by
  constructor
  · intro same
    have bytes : strncpyBytes 6 first = strncpyBytes 6 second := congrArg Subtype.val same
    rw [← nameValue_strncpyBytes 6 first, bytes, nameValue_strncpyBytes]
  · intro same
    exact Subtype.ext (strncpyBytes_eq_of_nameValue same)

/-- The place of an entry's name in the order of all names. -/
def nodeValue (volume : Volume) (index : Nat) : Nat := nameValue 6 (volume.node index).name.val

/-- The directory lists these names, one entry for each, in increasing order. -/
structure DirectoryShows (volume : Volume) (count : Nat) (names : Finset FileName) : Prop where
  directory : Directory volume count
  increasing : ∀ first second, first < second → second < count →
    strncmp 6 (volume.node first).name.val (volume.node second).name.val = .lt
  names : names = (Finset.range count).image fun index => strncpy (volume.node index).name.val

section Search

variable {volume : Volume} {count : Nat} {names : Finset FileName} {name : List UInt8}

theorem DirectoryShows.nodeValue_lt (shows : DirectoryShows volume count names) {first second : Nat}
    (before : first < second) (inside : second < count) :
    nodeValue volume first < nodeValue volume second :=
  strncmp_eq_lt.1 (shows.increasing first second before inside)

theorem DirectoryShows.mem_iff (shows : DirectoryShows volume count names) :
    strncpy name ∈ names ↔ ∃ index < count, nodeValue volume index = nameValue 6 name := by
  rw [shows.names, Finset.mem_image]
  constructor
  · rintro ⟨index, inside, same⟩
    exact ⟨index, Finset.mem_range.1 inside, strncpy_eq_iff.1 same⟩
  · rintro ⟨index, inside, same⟩
    exact ⟨index, Finset.mem_range.2 inside, strncpy_eq_iff.2 same⟩

/-- The new name belongs in front of entry `index`. -/
structure Fits (volume : Volume) (name : List UInt8) (index count : Nat) : Prop where
  le : index ≤ count
  smaller : ∀ other < index, nodeValue volume other < nameValue 6 name
  greater : ∀ other, index ≤ other → other < count → nameValue 6 name < nodeValue volume other

theorem DirectoryShows.findPlace_from (shows : DirectoryShows volume count names)
    (name : List UInt8) {fuel index i : Nat} (inside : i ≤ count) (enough : count - i < fuel)
    (fits : Fits volume name index i) :
    (findPlace volume name fuel index i = some .duplicate ∧ strncpy name ∈ names) ∨
      ∃ place, findPlace volume name fuel index i = some (.at place count) ∧
        Fits volume name place count := by
  induction fuel generalizing index i with
  | zero => omega
  | succ fuel ih =>
      rw [findPlace]
      rcases Nat.eq_or_lt_of_le inside with atEnd | before
      · subst atEnd
        rw [if_pos shows.directory.ends.ends]
        exact Or.inr ⟨index, rfl, fits⟩
      · simp only [shows.directory.used i before, Bool.false_eq_true, if_false]
        cases order : strncmp 6 (volume.node i).name.val name with
        | eq => exact Or.inl ⟨rfl, shows.mem_iff.2 ⟨i, before, strncmp_eq_eq.1 order⟩⟩
        | gt =>
            have greater : nameValue 6 name < nodeValue volume i := strncmp_eq_gt.1 order
            apply ih before (by omega)
            refine ⟨Nat.le_succ_of_le fits.le, fits.smaller, ?_⟩
            intro other behind within
            rcases Nat.eq_or_lt_of_le (Nat.le_of_lt_succ within) with here | earlier
            · rw [here]
              exact greater
            · exact fits.greater other behind earlier
        | lt =>
            have smaller : nodeValue volume i < nameValue 6 name := strncmp_eq_lt.1 order
            -- A smaller entry behind a greater one would break the order.
            have same : index = i := by
              rcases Nat.eq_or_lt_of_le fits.le with same | less
              · exact same
              · have greater := fits.greater index (Nat.le_refl _) less
                have sorted := shows.nodeValue_lt less before
                omega
            subst same
            apply ih before (by omega)
            refine ⟨Nat.le_refl _, ?_, fun other behind within => by omega⟩
            intro other within
            rcases Nat.eq_or_lt_of_le (Nat.le_of_lt_succ within) with here | earlier
            · rw [here]
              exact smaller
            · exact fits.smaller other earlier

/-- `fs_create` finds the name, or the place for it. -/
theorem DirectoryShows.findPlace_cases (shows : DirectoryShows volume count names)
    (name : List UInt8) :
    (findPlace volume name 66 0 0 = some .duplicate ∧ strncpy name ∈ names) ∨
      ∃ place, findPlace volume name 66 0 0 = some (.at place count) ∧
        Fits volume name place count := by
  have bound := shows.directory.count_le
  exact shows.findPlace_from name (Nat.zero_le _) (by omega)
    ⟨Nat.le_refl _, fun other before => by omega, fun other _ before => by omega⟩

theorem Fits.not_mem {place : Nat} (shows : DirectoryShows volume count names)
    (fits : Fits volume name place count) : strncpy name ∉ names := by
  rw [shows.mem_iff]
  rintro ⟨index, inside, same⟩
  rcases Nat.lt_or_ge index place with before | behind
  · exact absurd same (Nat.ne_of_lt (fits.smaller index before))
  · exact absurd same (Nat.ne_of_gt (fits.greater index behind inside))

/-- The search for `fs_remove` does not miss an entry with this name. -/
theorem findName_matched (directory : DirectoryEnds volume count) {fuel index inode i : Nat}
    {found : Found} (inside : i ≤ count)
    (matched : index < count ∨
      ∃ other < count, i ≤ other ∧ strncmp 6 (volume.node other).name.val name = .eq)
    (search : findName volume name fuel index inode i = some found) : found.index < count := by
  induction fuel generalizing index inode i with
  | zero => cases search
  | succ fuel ih =>
      rw [findName] at search
      rcases Nat.eq_or_lt_of_le inside with atEnd | before
      · subst atEnd
        simp only [directory.ends, if_true, Option.some.injEq] at search
        rw [← search]
        rcases matched with earlier | ⟨other, within, behind, _⟩
        · exact earlier
        · omega
      · simp only [directory.used i before, Bool.false_eq_true, if_false] at search
        split at search
        case isTrue same => exact ih before (Or.inl before) search
        case isFalse different =>
          apply ih before (matched.imp_right ?_) search
          rintro ⟨other, within, behind, same⟩
          refine ⟨other, within, Nat.lt_of_le_of_ne behind ?_, same⟩
          rintro rfl
          exact different same

/-- `fs_remove` finds the entry of the name, or no entry has it. -/
theorem DirectoryShows.findName_cases (shows : DirectoryShows volume count names)
    (name : List UInt8) :
    (findName volume name 66 0xffff 0xffff 0 = some ⟨0xffff, 0xffff, count⟩ ∧
      strncpy name ∉ names) ∨
      ∃ index < count, nodeValue volume index = nameValue 6 name ∧
        findName volume name 66 0xffff 0xffff 0 =
          some ⟨index, (volume.node index).inode, count⟩ := by
  have ends := shows.directory.ends
  have bound := shows.directory.count_le
  obtain ⟨index, inode, search, found⟩ := findName_eq ends name 66 0xffff 0xffff 0 (Nat.zero_le _)
    (by omega) (Or.inl ⟨rfl, rfl⟩)
  rcases found with ⟨rfl, rfl⟩ | ⟨inside, same, rfl⟩
  · refine Or.inl ⟨search, fun member => ?_⟩
    obtain ⟨other, within, same⟩ := shows.mem_iff.1 member
    have listed := findName_matched ends (Nat.zero_le _)
      (Or.inr ⟨other, within, Nat.zero_le _, strncmp_eq_eq.2 same⟩) search
    exact absurd listed (by simp only; omega)
  · exact Or.inr ⟨index, inside, strncmp_eq_eq.1 same, search⟩

/-- `fs_get_inode` passes used entries with other names. -/
theorem findInode_passes {fuel i passed : Nat}
    (used : ∀ other < passed, (volume.node (i + other)).unused = false)
    (others : ∀ other < passed, strncmp 6 (volume.node (i + other)).name.val name ≠ .eq) :
    findInode volume name (passed + fuel) i = findInode volume name fuel (i + passed) := by
  induction passed generalizing i with
  | zero => rw [Nat.zero_add, Nat.add_zero]
  | succ passed ih =>
      have usedHere := used 0 (Nat.succ_pos _)
      have otherHere := others 0 (Nat.succ_pos _)
      rw [Nat.add_zero] at usedHere otherHere
      have rest := ih (i := i + 1)
        (fun other inside => by
          rw [(by omega : i + 1 + other = i + (other + 1))]
          exact used (other + 1) (by omega))
        (fun other inside => by
          rw [(by omega : i + 1 + other = i + (other + 1))]
          exact others (other + 1) (by omega))
      rw [(by omega : passed + 1 + fuel = passed + fuel + 1), findInode]
      simp only [usedHere, if_neg otherHere, Bool.false_eq_true, if_false]
      rw [rest, (by omega : i + 1 + passed = i + (passed + 1))]

theorem DirectoryShows.fsGetInode_at (shows : DirectoryShows volume count names) {index : Nat}
    (inside : index ≤ count)
    (others : ∀ other < index, nodeValue volume other ≠ nameValue 6 name) :
    fsGetInode volume name = findInode volume name (66 - index) index := by
  have bound := shows.directory.count_le
  have passes : findInode volume name (index + (66 - index)) 0 =
      findInode volume name (66 - index) (0 + index) := by
    apply findInode_passes
    · intro other before
      rw [Nat.zero_add]
      exact shows.directory.used other (by omega)
    · intro other before same
      rw [Nat.zero_add] at same
      exact others other before (strncmp_eq_eq.1 same)
  rwa [(by omega : index + (66 - index) = 66), Nat.zero_add] at passes

/-- A listed name is found at its entry. -/
theorem DirectoryShows.fsGetInode_listed (shows : DirectoryShows volume count names) {index : Nat}
    (inside : index < count)
    (same : strncmp 6 (volume.node index).name.val name = .eq) :
    fsGetInode volume name = some (volume.node index).inode := by
  have bound := shows.directory.count_le
  have value : nodeValue volume index = nameValue 6 name := strncmp_eq_eq.1 same
  rw [shows.fsGetInode_at (Nat.le_of_lt inside) fun other before => by
    have less := shows.nodeValue_lt before inside
    omega]
  rw [(by omega : 66 - index = 65 - index + 1), findInode, if_pos same]

/-- A name that is not listed is found only when the first unused entry has it. -/
theorem DirectoryShows.fsGetInode_unlisted (shows : DirectoryShows volume count names)
    (unlisted : strncpy name ∉ names) :
    fsGetInode volume name = some 0xffff ↔
      strncmp 6 (volume.node count).name.val name ≠ .eq := by
  have bound := shows.directory.count_le
  have others : ∀ other < count, nodeValue volume other ≠ nameValue 6 name := by
    intro other inside same
    exact unlisted (shows.mem_iff.2 ⟨other, inside, same⟩)
  rw [shows.fsGetInode_at (Nat.le_refl _) others,
    (by omega : 66 - count = 65 - count + 1), findInode,
    if_pos shows.directory.ends.ends]
  have small := node_inode_lt volume count
  split
  case isTrue same =>
    rw [Option.some.injEq]
    exact ⟨fun inode => by omega, fun different => absurd same different⟩
  case isFalse different => exact ⟨fun _ => different, fun _ => rfl⟩

end Search

/-- The root is the page that was handed out last, so that the next page is another one, and
the supply of pages does not end. -/
structure Renewable (fs : Fs) : Prop where
  root : fs.root = fs.lastFree
  lastFree_lt : fs.lastFree < 4096
  plenty : Plenty fs

theorem Renewable.root_lt {fs : Fs} (renewable : Renewable fs) : fs.root < 4096 := by
  rw [renewable.root]
  exact renewable.lastFree_lt

/-- A new root with these entries has been programmed. -/
structure Relisted (before after : Fs) (nodes : Nat → DirectoryNode) : Prop where
  renewable : Renewable after
  node : ∀ index < 60, after.node index = nodes index
  endUnused : (after.node 60).unused = (before.node 60).unused

theorem Renewable.fsIncrement_eq {fs : Fs} (renewable : Renewable fs) (buffer : Memory) :
    ∃ page, Offered fs page ∧
      fsIncrement (withBuffer fs buffer) = (.ok, incremented (withBuffer fs buffer) page) := by
  have bound : (withBuffer fs buffer).lastFree < 4096 := renewable.lastFree_lt
  rcases fsIncrement_cases bound with ⟨_, none⟩ | ⟨page, offered, result⟩
  · obtain ⟨page, offered⟩ := renewable.plenty.exists_offered
    exact (none page (offered.congr rfl rfl)).elim
  · exact ⟨page, offered.congr rfl rfl, result⟩

theorem Renewable.incremented {fs : Fs} {page : Nat} (renewable : Renewable fs)
    (bound : page < 4096) (buffer : Memory) :
    Renewable (incremented (withBuffer fs buffer) page) :=
  ⟨rfl, bound, renewable.plenty.congr rfl⟩

/-- `fs_create` succeeds whenever it has found a place. -/
theorem Renewable.fsCreate_eq {fs : Fs} {index count : Nat} {name : List UInt8}
    (renewable : Renewable fs)
    (found : findPlace fs.toVolume name 66 0 0 = some (.at index count)) :
    ∃ page, Offered fs page ∧
      fsCreate fs name = some (.ok, Dataflash.incremented (withBuffer fs (changedRoot fs
        (insertedEntries fs.toVolume
          (createdNode fs.toVolume name count (fsNewInode fs.toVolume % 4096)) index count)))
        page) := by
  obtain ⟨page, offered, result⟩ := renewable.fsIncrement_eq (changedRoot fs
    (insertedEntries fs.toVolume
      (createdNode fs.toVolume name count (fsNewInode fs.toVolume % 4096)) index count))
  exact ⟨page, offered, by rw [fsCreate_of_place renewable.root_lt found, result]⟩

theorem Renewable.fsCreate_relisted {fs : Fs} {index count : Nat} {name : List UInt8}
    (renewable : Renewable fs)
    (found : findPlace fs.toVolume name 66 0 0 = some (.at index count))
    (place : index ≤ count) (room : count < 60) :
    ∃ after, fsCreate fs name = some (.ok, after) ∧
      Relisted fs after (insertedNodes fs.toVolume
        (createdNode fs.toVolume name count (fsNewInode fs.toVolume % 4096)) index count) := by
  obtain ⟨page, offered, result⟩ := renewable.fsCreate_eq found
  refine ⟨_, result, renewable.incremented offered.lt _, fun other inside => ?_,
    endUnused_incremented renewable.root_lt offered.lt (insertedEntries_lt place room)⟩
  rw [node_incremented offered.lt inside, pageNode_inserted renewable.root_lt place room inside]

theorem Renewable.fsRemove_relisted {fs : Fs} {index count : Nat} {name : List UInt8}
    (renewable : Renewable fs)
    (found : findName fs.toVolume name 66 0xffff 0xffff 0 =
      some ⟨index, (fs.node index).inode, count⟩)
    (place : index < count) (bound : count ≤ 60) :
    ∃ after, fsRemove fs name = some (.ok, after) ∧
      Relisted fs after (removedNodes fs.toVolume index count) := by
  obtain ⟨page, offered, result⟩ := renewable.fsIncrement_eq (changedRoot fs
    (removedEntries fs.toVolume index count))
  have middle : Renewable (unlisted fs index count page) := renewable.incremented offered.lt _
  obtain ⟨table, root, next, last, freed⟩ := fsUpdateInodetable_of_plenty middle.lastFree_lt
    middle.plenty (fs.node index).inode 0xffff
  -- The table is not written over the root that was programmed before it.
  have rootNe : (unlisted fs index count page).root ≠ table := next.ne_lastFree.symm
  rw [incremented_tableSaved middle.root_lt next.lt rootNe] at freed
  refine ⟨updated (unlisted fs index count page) (fs.node index).inode 0xffff table root, ?_,
    ⟨rfl, last.lt, middle.plenty.congr rfl⟩, ?_, ?_⟩
  · rw [fsRemove, found, Option.map_some, removeFound, if_neg (by simp only; omega),
      deleteNode_eq renewable.root_lt, result]
    simp only [ne_eq, not_true_eq_false, if_false]
    rw [← freed]
    rfl
  · intro other inside
    rw [node_updated middle.root_lt last.lt (node_inode_lt _ _) inside, unlisted,
      node_incremented offered.lt inside, pageNode_removed renewable.root_lt place bound inside]
  · rw [nodeUnused_updated middle.root_lt last.lt (node_inode_lt _ _) (Nat.le_refl _), unlisted,
      endUnused_incremented renewable.root_lt offered.lt (removedEntries_lt place bound)]

section Change

variable {before after : Fs} {index count : Nat} {names : Finset FileName} {name : List UInt8}

theorem Relisted.nodeValue_inserted {node : DirectoryNode}
    (relisted : Relisted before after (insertedNodes before.toVolume node index count))
    (named : node.name = strncpy name) (place : index ≤ count) (room : count < 60) :
    nodeValue after.toVolume index = nameValue 6 name := by
  have here : after.node index = node.stored := by
    rw [relisted.node index (by omega), insertedNodes, if_neg (by omega), if_pos rfl]
  rw [nodeValue, here, DirectoryNode.stored, named]
  exact nameValue_strncpyBytes 6 name

theorem Relisted.shows_inserted {node : DirectoryNode}
    (relisted : Relisted before after (insertedNodes before.toVolume node index count))
    (shows : DirectoryShows before.toVolume count names) (named : node.name = strncpy name)
    (used : node.unused = false) (fits : Fits before.toVolume name index count)
    (room : count < 60) :
    DirectoryShows after.toVolume (count + 1) (insert (strncpy name) names) := by
  have place := fits.le
  have front {other : Nat} (earlier : other < index) : after.node other = before.node other := by
    rw [relisted.node other (by omega), insertedNodes, if_pos earlier]
  have back {other : Nat} (later : index < other) (inside : other ≤ count) :
      after.node other = before.node (other - 1) := by
    rw [relisted.node other (by omega), insertedNodes, if_neg (by omega), if_neg (by omega),
      if_pos inside]
  have value := relisted.nodeValue_inserted named place room
  have own : strncpy (after.node index).name.val = strncpy name := strncpy_eq_iff.2 value
  refine ⟨shows.directory.inserted relisted.node relisted.endUnused used place room, ?_, ?_⟩
  · intro first second less inside
    rw [strncmp_eq_lt]
    show nodeValue after.toVolume first < nodeValue after.toVolume second
    rcases Nat.lt_trichotomy second index with earlier | same | later
    · rw [nodeValue, nodeValue, front earlier, front (by omega)]
      exact shows.nodeValue_lt less (by omega)
    · subst same
      rw [value, nodeValue, front less]
      exact fits.smaller first less
    · rw [nodeValue.eq_def after.toVolume second, back later (by omega)]
      rcases Nat.lt_trichotomy first index with earlier | same | later'
      · rw [nodeValue, front earlier]
        exact shows.nodeValue_lt (by omega) (by omega)
      · subst same
        rw [value]
        exact fits.greater (second - 1) (by omega) (by omega)
      · rw [nodeValue, back later' (by omega)]
        exact shows.nodeValue_lt (by omega) (by omega)
  · ext listed
    rw [Finset.mem_insert, shows.names, Finset.mem_image, Finset.mem_image]
    constructor
    · rintro (rfl | ⟨other, inside, rfl⟩)
      · exact ⟨index, Finset.mem_range.2 (by omega), own⟩
      · rw [Finset.mem_range] at inside
        rcases Nat.lt_or_ge other index with earlier | behind
        · exact ⟨other, Finset.mem_range.2 (by omega), by rw [front earlier]⟩
        · refine ⟨other + 1, Finset.mem_range.2 (by omega), ?_⟩
          rw [back (by omega) (by omega), Nat.add_sub_cancel]
    · rintro ⟨other, inside, rfl⟩
      rw [Finset.mem_range] at inside
      rcases Nat.lt_trichotomy other index with earlier | same | later
      · exact Or.inr ⟨other, Finset.mem_range.2 (by omega), by rw [front earlier]⟩
      · rw [same]
        exact Or.inl own
      · exact Or.inr ⟨other - 1, Finset.mem_range.2 (by omega),
          by rw [back later (by omega)]⟩

theorem Relisted.shows_removed
    (relisted : Relisted before after (removedNodes before.toVolume index count))
    (shows : DirectoryShows before.toVolume count names) (place : index < count)
    (same : nodeValue before.toVolume index = nameValue 6 name) :
    DirectoryShows after.toVolume (count - 1) (names.erase (strncpy name)) := by
  have bound := shows.directory.count_le
  have front {other : Nat} (earlier : other < index) : after.node other = before.node other := by
    rw [relisted.node other (by omega), removedNodes, if_pos earlier]
  have back {other : Nat} (behind : index ≤ other) (inside : other < count - 1) :
      after.node other = before.node (other + 1) := by
    rw [relisted.node other (by omega), removedNodes, if_neg (by omega), if_pos inside]
  have others {other : Nat} (inside : other < count) (different : other ≠ index) :
      strncpy (before.node other).name.val ≠ strncpy name := by
    intro equal
    have value : nodeValue before.toVolume other = nameValue 6 name := strncpy_eq_iff.1 equal
    rcases Nat.lt_or_gt_of_ne different with earlier | later
    · exact absurd (shows.nodeValue_lt earlier place) (by omega)
    · exact absurd (shows.nodeValue_lt later inside) (by omega)
  refine ⟨shows.directory.removed relisted.node relisted.endUnused place, ?_, ?_⟩
  · intro first second less inside
    rw [strncmp_eq_lt]
    show nodeValue after.toVolume first < nodeValue after.toVolume second
    rcases Nat.lt_or_ge second index with earlier | behind
    · rw [nodeValue, nodeValue, front earlier, front (by omega)]
      exact shows.nodeValue_lt less (by omega)
    · rw [nodeValue.eq_def after.toVolume second, back behind inside]
      rcases Nat.lt_or_ge first index with earlier | behind'
      · rw [nodeValue, front earlier]
        exact shows.nodeValue_lt (by omega) (by omega)
      · rw [nodeValue, back behind' (by omega)]
        exact shows.nodeValue_lt (by omega) (by omega)
  · ext listed
    rw [Finset.mem_erase, shows.names, Finset.mem_image, Finset.mem_image]
    constructor
    · rintro ⟨different, other, inside, rfl⟩
      rw [Finset.mem_range] at inside
      rcases Nat.lt_trichotomy other index with earlier | equal | later
      · exact ⟨other, Finset.mem_range.2 (by omega), by rw [front earlier]⟩
      · subst equal
        exact absurd (strncpy_eq_iff.2 same) different
      · refine ⟨other - 1, Finset.mem_range.2 (by omega), ?_⟩
        rw [back (by omega) (by omega), Nat.sub_add_cancel (by omega)]
    · rintro ⟨other, inside, rfl⟩
      rw [Finset.mem_range] at inside
      rcases Nat.lt_or_ge other index with earlier | behind
      · rw [front earlier]
        exact ⟨others (by omega) (by omega), other, Finset.mem_range.2 (by omega), rfl⟩
      · rw [back behind inside]
        exact ⟨others (by omega) (by omega), other + 1, Finset.mem_range.2 (by omega), rfl⟩

end Change

inductive NameCall
  | create (name : List UInt8)
  | remove (name : List UInt8)
deriving DecidableEq, Repr

def NameCall.operation : NameCall → Operation
  | .create name => .create name
  | .remove name => .remove name

def nameStep (fs : Fs) (call : NameCall) : Option Fs := step fs call.operation

/-- The names that have been created and not yet removed. -/
def NameCall.apply (names : Finset FileName) : NameCall → Finset FileName
  | .create name => insert (strncpy name) names
  | .remove name => names.erase (strncpy name)

/-- A new name is created only while one of the 60 entries is unused. -/
def HasRoom (fs : Fs) : NameCall → Prop
  | .create name => (listing fs.toVolume).length < 60 ∨
      ∃ node ∈ listing fs.toVolume, strncmp 6 node.name.val name = .eq
  | .remove _ => True

/-- The file system lists these names and can go on. -/
structure ListsNames (fs : Fs) (names : Finset FileName) : Prop where
  renewable : Renewable fs
  shows : ∃ count, DirectoryShows fs.toVolume count names

theorem ListsNames.create {fs : Fs} {names : Finset FileName} {name : List UInt8}
    (lists : ListsNames fs names) (room : HasRoom fs (.create name)) :
    ∃ next, nameStep fs (.create name) = some next ∧
      ListsNames next (insert (strncpy name) names) := by
  obtain ⟨count, shows⟩ := lists.shows
  rcases shows.findPlace_cases name with ⟨duplicate, member⟩ | ⟨place, found, fits⟩
  · have result : fsCreate fs name = some (.duplicate, fs) := by
      simp only [fsCreate, duplicate, Option.map_some]
    refine ⟨fs, step_of_execute result, ?_⟩
    rw [Finset.insert_eq_of_mem member]
    exact lists
  · have less : count < 60 := by
      rcases room with room | ⟨node, listed, same⟩
      · rwa [shows.directory.length_listing] at room
      · rw [shows.directory.listing_eq, List.mem_map] at listed
        obtain ⟨index, inside, rfl⟩ := listed
        exact absurd (shows.mem_iff.2 ⟨index, List.mem_range.1 inside, strncmp_eq_eq.1 same⟩)
          (fits.not_mem shows)
    obtain ⟨after, result, relisted⟩ := lists.renewable.fsCreate_relisted found fits.le less
    exact ⟨after, step_of_execute result, relisted.renewable, count + 1,
      relisted.shows_inserted shows rfl rfl fits less⟩

theorem ListsNames.remove {fs : Fs} {names : Finset FileName} (lists : ListsNames fs names)
    (name : List UInt8) :
    ∃ next, nameStep fs (.remove name) = some next ∧
      ListsNames next (names.erase (strncpy name)) := by
  obtain ⟨count, shows⟩ := lists.shows
  rcases shows.findName_cases name with ⟨missing, unlisted⟩ | ⟨index, inside, same, found⟩
  · have bound := shows.directory.count_le
    have result : fsRemove fs name = some (.noSuchFile, fs) := by
      rw [fsRemove, missing, Option.map_some, removeFound, if_pos (Or.inr (by simp only; omega))]
    refine ⟨fs, step_of_execute result, ?_⟩
    rw [Finset.erase_eq_of_notMem unlisted]
    exact lists
  · obtain ⟨after, result, relisted⟩ :=
      lists.renewable.fsRemove_relisted found inside shows.directory.count_le
    exact ⟨after, step_of_execute result, relisted.renewable, count - 1,
      relisted.shows_removed shows inside same⟩

theorem FreshlyFormatted.directoryShows {fs : Fs} (fresh : FreshlyFormatted fs) :
    DirectoryShows fs.toVolume 0 ∅ := by
  refine ⟨fresh.directory, ?_, rfl⟩
  intro first second _ inside
  omega

theorem FreshlyFormatted.listsNames {fs : Fs} (fresh : FreshlyFormatted fs) :
    ListsNames fs ∅ := by
  have unmarked {page : Nat} (bound : page < 4096) (behind : 16 < page) :
      fsUsed fs page = false := by
    rw [← Bool.not_eq_true, fresh.used page bound]
    omega
  refine ⟨⟨?_, ?_, 17, by omega, 18, by omega, by omega, unmarked (by omega) (by omega),
    unmarked (by omega) (by omega)⟩, 0, fresh.directoryShows⟩
  · rw [fresh.root, fresh.lastFree]
  · rw [fresh.lastFree]
    omega

theorem ListsNames.run {fs : Fs} {names : Finset FileName} {calls : List NameCall}
    (lists : ListsNames fs names) (guarded : Guarded nameStep HasRoom fs calls) :
    ∃ last, run nameStep fs calls = some last ∧
      ListsNames last (calls.foldl NameCall.apply names) := by
  induction calls generalizing fs names with
  | nil => exact ⟨fs, rfl, lists⟩
  | cons call calls ih =>
      obtain ⟨next, stepped, lists'⟩ :
          ∃ next, nameStep fs call = some next ∧ ListsNames next (call.apply names) := by
        cases call with
        | create name => exact lists.create guarded.1
        | remove name => exact lists.remove name
      obtain ⟨last, reached, listsLast⟩ := ih lists' (guarded.2 next stepped)
      refine ⟨last, ?_, listsLast⟩
      rw [GuardedRuns.run, stepped]
      exact reached

/-- After calls that never create a new name in a full directory, the directory lists the
names that were created and not yet removed.  A listed name is found at its entry; another
name is taken for a missing one exactly when it is not left in the first unused entry.  A full
directory does not stop `fs_create`. -/
theorem run_directoryShows {power formatted : Fs} {calls : List NameCall}
    (blank : Unformatted power.flash) (mounted : fsInit power = some (.ok, formatted))
    (guarded : Guarded nameStep HasRoom formatted calls) :
    ∃ last count, run nameStep formatted calls = some last ∧
      DirectoryShows last.toVolume count (calls.foldl NameCall.apply ∅) ∧
      (∀ index ≤ 60,
        (fsList last.toVolume index).1 = if index < count then .ok else .eof) ∧
      (∀ index < count, ∀ name, strncmp 6 (last.node index).name.val name = .eq →
        fsGetInode last.toVolume name = some (last.node index).inode) ∧
      (∀ name, strncpy name ∉ calls.foldl NameCall.apply ∅ →
        (fsGetInode last.toVolume name = some 0xffff ↔
          strncmp 6 (last.node count).name.val name ≠ .eq)) ∧
      (count = 60 → ∀ name, strncpy name ∉ calls.foldl NameCall.apply ∅ →
        ∃ after, fsCreate last name = some (.ok, after) ∧ after.root ≠ last.root) := by
  obtain ⟨after, mounted', fresh, _⟩ := fsInit_of_unformatted blank
  obtain rfl : formatted = after := by
    rw [mounted', Option.some.injEq, Prod.mk.injEq] at mounted
    exact mounted.2.symm
  obtain ⟨last, reached, lists⟩ := fresh.listsNames.run guarded
  obtain ⟨count, shows⟩ := lists.shows
  refine ⟨last, count, reached, shows, ?_, fun index inside name => shows.fsGetInode_listed inside,
    fun name => shows.fsGetInode_unlisted, ?_⟩
  · intro index inside
    rw [fsList_status inside]
    by_cases listed : index < count
    · rw [shows.directory.used index listed, if_pos listed]
      rfl
    · rw [shows.directory.rest index (by omega) inside, if_neg listed]
      rfl
  · intro _ name unlisted
    rcases shows.findPlace_cases name with ⟨_, member⟩ | ⟨place, found, _⟩
    · exact absurd member unlisted
    · obtain ⟨page, offered, result⟩ := lists.renewable.fsCreate_eq found
      refine ⟨_, result, ?_⟩
      rw [lists.renewable.root]
      exact offered.ne_lastFree

theorem run_directoryShows_twoNames :
    ∃ formatted last count, fsInit blankChip = some (.ok, formatted) ∧
      run nameStep formatted [.create [97], .create [98]] = some last ∧
      DirectoryShows last.toVolume count {strncpy [98], strncpy [97]} := by
  obtain ⟨formatted, mounted, fresh, _⟩ := fsInit_of_unformatted unformatted_blankChip
  obtain ⟨fs, created, changed, _⟩ := fresh.fsCreate_eq [97]
  have directory := changed.directory_inserted fresh.directory rfl (by omega) (by omega)
  have guarded : Guarded nameStep HasRoom formatted [.create [97], .create [98]] := by
    refine ⟨Or.inl ?_, fun next stepped => ⟨Or.inl ?_, fun _ _ => trivial⟩⟩
    · rw [fresh.directory.length_listing]
      omega
    · have same : nameStep formatted (.create [97]) = some fs :=
        congrArg (Option.map Prod.snd) created
      rw [same, Option.some.injEq] at stepped
      rw [← stepped, directory.length_listing]
      omega
  obtain ⟨last, count, reached, shows, _⟩ :=
    run_directoryShows unformatted_blankChip mounted guarded
  exact ⟨formatted, last, count, mounted, reached, shows⟩

/-- The second name is put behind the first one. -/
theorem FreshlyFormatted.two_names {fs : Fs} (fresh : FreshlyFormatted fs) :
    ∃ middle last, fsCreate fs [97] = some (.ok, middle) ∧ fsCreate middle [98] = some (.ok, last) ∧
      Renewable last ∧ DirectoryShows last.toVolume 2 {strncpy [98], strncpy [97]} ∧
      nodeValue last.toVolume 1 = nameValue 6 [98] := by
  have shows := fresh.directoryShows
  rcases shows.findPlace_cases [97] with ⟨_, member⟩ | ⟨place, found, fits⟩
  · cases member
  obtain rfl : place = 0 := Nat.le_zero.1 fits.le
  obtain ⟨middle, created, relisted⟩ :=
    fresh.listsNames.renewable.fsCreate_relisted found (Nat.le_refl _) (by omega)
  have value := relisted.nodeValue_inserted rfl (Nat.le_refl _) (by omega)
  have shows' := relisted.shows_inserted shows rfl rfl fits (by omega)
  rcases shows'.findPlace_cases [98] with ⟨_, member⟩ | ⟨place, found', fits'⟩
  · exact absurd member (by decide)
  obtain rfl : place = 1 := by
    rcases Nat.eq_or_lt_of_le fits'.le with behind | front
    · exact behind
    · have greater := fits'.greater 0 (by omega) (by omega)
      rw [value] at greater
      exact absurd greater (by decide)
  obtain ⟨last, created', relisted'⟩ :=
    relisted.renewable.fsCreate_relisted found' (Nat.le_refl _) (by omega)
  exact ⟨middle, last, created, created', relisted'.renewable,
    relisted'.shows_inserted shows' rfl rfl fits' (by omega),
    relisted'.nodeValue_inserted rfl (Nat.le_refl _) (by omega)⟩

/-- The name of the last entry stays in the entry behind the new end of the directory. -/
theorem Relisted.nodeValue_removed {before after : Fs} {index count : Nat}
    (relisted : Relisted before after (removedNodes before.toVolume index count))
    (place : index < count) (bound : count ≤ 60) :
    nodeValue after.toVolume (count - 1) =
      nodeValue before.toVolume (if index < count - 1 then count - 1 else count) := by
  have left : after.node (count - 1) =
      { leftoverNode before.toVolume index count with unused := true } := by
    rw [relisted.node _ (by omega), removedNodes, if_neg (by omega), if_neg (by omega), if_pos rfl]
  rw [nodeValue, left, leftoverNode]
  split
  · rfl
  · rfl

/-- The names are `a` and `b`; both are created, and then both are removed. -/
theorem removed_name_is_found :
    Unformatted blankChip.flash ∧
      ∃ formatted last, fsInit blankChip = some (.ok, formatted) ∧
        run nameStep formatted [.create [97], .create [98], .remove [97], .remove [98]] =
          some last ∧
        listing last.toVolume = [] ∧ fsGetInode last.toVolume [98] ≠ some 0xffff := by
  obtain ⟨formatted, mounted, fresh, _⟩ := fsInit_of_unformatted unformatted_blankChip
  obtain ⟨first, second, created, created', renewable, shows, value⟩ := fresh.two_names
  rcases shows.findName_cases [97] with ⟨_, unlisted⟩ | ⟨index, inside, same, found⟩
  · exact absurd (by decide) unlisted
  obtain rfl : index = 0 := by
    rcases Nat.eq_zero_or_pos index with front | behind
    · exact front
    · obtain rfl : index = 1 := by omega
      rw [value] at same
      exact absurd same (by decide)
  obtain ⟨third, removed, relisted⟩ := renewable.fsRemove_relisted found inside (by omega)
  have shows' := relisted.shows_removed shows inside same
  have value' := relisted.nodeValue_removed inside (by omega)
  rw [if_pos (by omega), value] at value'
  rcases shows'.findName_cases [98] with ⟨_, unlisted⟩ | ⟨index, inside', same', found'⟩
  · exact absurd (by decide) unlisted
  obtain rfl : index = 0 := by omega
  obtain ⟨last, removed', relisted'⟩ :=
    relisted.renewable.fsRemove_relisted found' inside' (by omega)
  have shows'' := relisted'.shows_removed shows' inside' same'
  have value'' := relisted'.nodeValue_removed inside' (by omega)
  rw [if_neg (by omega)] at value''
  refine ⟨unformatted_blankChip, formatted, last, mounted, ?_, ?_, ?_⟩
  · simp only [run, nameStep, NameCall.operation, step, execute, created, created', removed,
      removed', Option.map_some, Option.bind_some]
  · rw [shows''.directory.listing_eq]
    rfl
  · rw [Ne, shows''.fsGetInode_unlisted (by decide), not_not, strncmp_eq_eq]
    exact value''.trans value'

end Ethersex.Dataflash

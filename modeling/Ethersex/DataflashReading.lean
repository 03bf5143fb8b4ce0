import Ethersex.DataflashFiles

/-!
# Reading a file

`fs_read` follows the chain of a file to the page the offset is in and copies page
by page.  When the end of the range is in a page that is not read up to its end, the
offset in the page is added to the number of bytes to copy.  The sum is right for a page
that is read from its beginning; for a range that starts inside the page it ends in, the
copy runs behind the range.
-/

namespace Ethersex.Dataflash

open ByteMemory

theorem store_append (stored : Stored) (position : Nat) (first second : List UInt8) :
    store (store stored position first) (position + first.length) second =
      store stored position (first ++ second) := by
  funext index
  simp only [store, List.length_append]
  by_cases before : index < position + first.length
  · rw [if_neg (by omega)]
    by_cases inside : position ≤ index
    · rw [if_pos ⟨inside, before⟩, if_pos (by omega),
        List.getElem?_append_left (by omega)]
    · rw [if_neg (by omega), if_neg (by omega)]
  · by_cases inside : index < position + first.length + second.length
    · rw [if_pos (by omega), if_pos (by omega), List.getElem?_append_right (by omega)]
      congr 1
      omega
    · rw [if_neg (by omega), if_neg (by omega), if_neg (by omega)]

theorem store_empty (bytes : List UInt8) :
    store (fun _ => none) 0 bytes = fun index => bytes[index]? := by
  funext index
  rw [store, Nat.zero_add, Nat.sub_zero]
  split
  · rfl
  · next outside => exact (List.getElem?_eq_none (by omega)).symm

theorem sizeSum_eq {first second : Nat} (bound : first + second < 2147483648) :
    sizeSum first second = (first + second : Nat) := by
  rw [sizeSum, if_pos bound, Int.natCast_add]

theorem sizeSum_overflow {first second : Nat} (overflow : 2147483648 ≤ first + second) :
    sizeSum first second = (first + second : Nat) - 4294967296 := by
  rw [sizeSum, if_neg (by omega), Int.natCast_add]

/-- All pages but the last one hold 512 bytes and name the next inode; the last page has
the flag `eof`. -/
def FullChain (volume : Volume) : Nat → List (Nat × Nat) → Prop
  | page, [] => (volume.header page).eof = true ∧ (volume.header page).size ≤ 512
  | page, (inode, next) :: links =>
      ((volume.header page).eof = false ∧ (volume.header page).size = 512 ∧
        (volume.header page).nextInode = inode) ∧
      (fsPage volume inode = next ∧ next ≠ 0xffff) ∧ FullChain volume next links

/-- The content of the chain that starts with `inode`. -/
inductive HoldsBytes (volume : Volume) (inode : Nat) : List UInt8 → Prop
  | unwritten (missing : fsPage volume inode = 0xffff) : HoldsBytes volume inode []
  | chain {page : Nat} {links : List (Nat × Nat)} (entry : fsPage volume inode = page)
      (used : page ≠ 0xffff) (chain : FullChain volume page links) :
      HoldsBytes volume inode (chainBytes volume page links)

theorem FullChain.size_le {volume : Volume} {page : Nat} {links : List (Nat × Nat)}
    (chain : FullChain volume page links) : (volume.header page).size ≤ 512 := by
  cases links with
  | nil => exact chain.2
  | cons link links => exact Nat.le_of_eq chain.1.2.1

theorem dfFlashRead_data {volume : Volume} {page offset count : Nat}
    (inside : offset + count ≤ (volume.header page).size)
    (size : (volume.header page).size ≤ 512) :
    dfFlashRead volume page (15 + offset) count = ((volume.data page).drop offset).take count := by
  have whole := length_data volume page
  rw [dfFlashRead, readPage_eq _ (by omega), Volume.data, pageData]
  change _ = ((readPage _ 15 (volume.header page).size).drop offset).take count
  rw [readPage_eq _ (by omega)]
  have split : (volume.header page).size =
      offset + (count + ((volume.header page).size - offset - count)) := by omega
  rw [split, readBlock_append, readBlock_append, List.drop_left' (length_readBlock ..),
    List.take_left' (length_readBlock ..)]

/-- Either the file ends in front of the offset, or the chain is divided at the page the
offset is in. -/
theorem readSeek_eq {volume : Volume} :
    ∀ (fuel page : Nat) (links : List (Nat × Nat)) (offset : Nat),
      FullChain volume page links → offset < fuel →
      (readSeek volume fuel page offset = .error 0 ∧
        (chainBytes volume page links).length ≤ offset) ∨
      ∃ front target rest, readSeek volume fuel page offset = .ok (target, offset % 512) ∧
        FullChain volume target rest ∧
        chainBytes volume page links = front ++ chainBytes volume target rest ∧
        front.length + offset % 512 = offset := by
  intro fuel
  induction fuel with
  | zero => intro page links offset _ enough; omega
  | succ fuel ih =>
      intro page links offset chain enough
      rw [readSeek]
      by_cases far : 512 ≤ offset
      · rw [if_pos far]
        cases links with
        | nil =>
            have size := chain.2
            rw [chainBytes_nil, length_data]
            simp only [chain.1, if_true]
            exact Or.inl ⟨trivial, by omega⟩
        | cons link links =>
            obtain ⟨inode, next⟩ := link
            obtain ⟨⟨goesOn, size, named⟩, ⟨entry, used⟩, rest⟩ := chain
            have full : (volume.data page).length = 512 := by rw [length_data, size]
            simp only [goesOn, Bool.false_eq_true, if_false, named, entry, if_neg used,
              chainBytes_cons]
            rcases ih next links (offset - 512) rest (by omega) with
              ⟨ended, short⟩ | ⟨front, target, behind, found, tail, split, position⟩
            · refine Or.inl ⟨ended, ?_⟩
              rw [List.length_append]
              omega
            · refine Or.inr ⟨volume.data page ++ front, target, behind, ?_, tail, ?_, ?_⟩
              · rw [found, ← Nat.mod_eq_sub_mod far]
              · rw [split, List.append_assoc]
              · rw [← Nat.mod_eq_sub_mod far] at position
                rw [List.length_append]
                omega
      · rw [if_neg far]
        refine Or.inr ⟨[], page, links, ?_, chain, rfl, ?_⟩
        · rw [Nat.mod_eq_of_lt (by omega)]
        · rw [List.length_nil]
          omega

section Rounds

variable {volume : Volume} {page fuel position offset length read : Nat} {stored : Stored}

/-- The last round of a range that does not end with its page. -/
theorem readPages_last (last : sizeSum length offset ≤ (volume.header page).size) :
    readPages volume (fuel + 1) page stored position offset length read =
      some (((read + length : Nat) : Int), store stored position
        (dfFlashRead volume page (15 + offset) (sizeSum length offset % 65536).toNat)) := by
  rw [readPages]
  simp only [last, if_true, Int.natCast_add]

theorem readPages_eof {links : List (Nat × Nat)} (chain : FullChain volume page links)
    (inside : offset ≤ (volume.header page).size)
    (behind : (volume.header page).size < length + offset)
    (bound : length + offset < 2147483648) (ends : (volume.header page).eof = true) :
    readPages volume (fuel + 1) page stored position offset length read =
      some (((read + ((volume.data page).length - offset) : Nat) : Int),
        store stored position ((volume.data page).drop offset)) := by
  have size := length_data volume page
  have copied := dfFlashRead_data
    (by omega : offset + ((volume.header page).size - offset) ≤ (volume.header page).size)
    chain.size_le
  rw [List.take_of_length_le (by rw [List.length_drop]; omega)] at copied
  rw [readPages, sizeSum_eq bound, size, Int.natCast_add read]
  simp only [if_neg (by omega : ¬((length + offset : Nat) : Int) ≤ (volume.header page).size), ends,
    if_true, copied]

theorem readPages_next {inode next : Nat} {links : List (Nat × Nat)}
    (chain : FullChain volume page ((inode, next) :: links)) (inside : offset ≤ 512)
    (behind : 512 < length + offset) (bound : length + offset < 2147483648) :
    readPages volume (fuel + 1) page stored position offset length read =
      readPages volume fuel next (store stored position ((volume.data page).drop offset))
        (position + ((volume.data page).drop offset).length) 0
        (length - ((volume.data page).drop offset).length)
        (read + ((volume.data page).drop offset).length) := by
  obtain ⟨⟨goesOn, full, named⟩, ⟨entry, used⟩, rest⟩ := chain
  have size := length_data volume page
  rw [full] at size
  have copied := dfFlashRead_data
    (by omega : offset + (512 - offset) ≤ (volume.header page).size) (by omega)
  rw [List.take_of_length_le (by rw [List.length_drop]; omega)] at copied
  rw [readPages, sizeSum_eq bound]
  simp only [full, if_neg (by omega : ¬((length + offset : Nat) : Int) ≤ ((512 : Nat) : Int)),
    goesOn, Bool.false_eq_true, if_false, copied, named, entry, if_neg used, List.length_drop, size]

/-- A range that starts with the page it ends in. -/
theorem readPages_short {links : List (Nat × Nat)} (chain : FullChain volume page links)
    (short : length ≤ (volume.header page).size) :
    readPages volume (fuel + 1) page stored position 0 length read =
      some (((read + length : Nat) : Int),
        store stored position ((volume.data page).take length)) := by
  have size := chain.size_le
  have sum := sizeSum_eq (by omega : length + 0 < 2147483648)
  have count : (sizeSum length 0 % 65536).toNat = length := by omega
  have copied := dfFlashRead_data (by omega : 0 + length ≤ (volume.header page).size) size
  rw [readPages_last (by omega), count, copied, List.drop_zero]

end Rounds

/-- The rounds from a page on, when the range does not end in it or starts with it. -/
theorem readPages_eq {volume : Volume} {links : List (Nat × Nat)} :
    ∀ {fuel page position offset length read : Nat} {stored : Stored},
      FullChain volume page links → (offset = 0 ∨ offset < (volume.header page).size) →
      0 < length → length + offset < 2147483648 → length < fuel →
      (offset = 0 ∨ (volume.header page).size < length + offset) →
      readPages volume fuel page stored position offset length read =
        some (((read + min length ((chainBytes volume page links).length - offset) : Nat) : Int),
          store stored position (((chainBytes volume page links).drop offset).take length)) := by
  induction links with
  | nil =>
      intro fuel page position offset length read stored chain inside positive bound enough across
      obtain ⟨fuel, rfl⟩ : ∃ rounds, fuel = rounds + 1 := ⟨fuel - 1, by omega⟩
      have size := length_data volume page
      rw [chainBytes_nil]
      by_cases short : length + offset ≤ (volume.header page).size
      · obtain rfl : offset = 0 := by omega
        rw [readPages_short chain (by omega), List.drop_zero, size, Nat.sub_zero,
          Nat.min_eq_left (by omega)]
      · rw [readPages_eof chain (by omega) (by omega) bound chain.1,
          Nat.min_eq_right (by omega), List.take_of_length_le (by rw [List.length_drop]; omega)]
  | cons link links ih =>
      intro fuel page position offset length read stored chain inside positive bound enough across
      obtain ⟨fuel, rfl⟩ : ∃ rounds, fuel = rounds + 1 := ⟨fuel - 1, by omega⟩
      obtain ⟨inode, next⟩ := link
      have size := length_data volume page
      have full := chain.1.2.1
      rw [chainBytes_cons]
      by_cases short : length + offset ≤ (volume.header page).size
      · obtain rfl : offset = 0 := by omega
        rw [readPages_short chain (by omega), List.drop_zero, List.length_append, Nat.sub_zero,
          Nat.min_eq_left (by omega), List.take_append_of_le_length (by omega)]
      · have front := List.length_drop (i := offset) (l := volume.data page)
        rw [readPages_next chain (by omega) (by omega) bound,
          ih chain.2.2 (Or.inl rfl) (by omega) (by omega) (by omega) (Or.inl rfl), store_append,
          List.drop_append_of_le_length (by omega), List.drop_zero, List.take_append,
          List.take_of_length_le (by omega : ((volume.data page).drop offset).length ≤ length),
          List.length_append]
        congr 3
        omega

/-- `fs_read` returns the number of bytes of the range that the file has, and stores these
bytes and nothing behind them. -/
def ReadsRange (volume : Volume) (inode offset length : Nat) (content : List UInt8) : Prop :=
  ∃ stored, fsRead volume inode offset length =
      some (((min length (content.length - offset) : Nat) : Int), stored) ∧
    ∀ index, stored index =
      if index < min length (content.length - offset) then content[offset + index]? else none

/-- The range starts inside the page that it ends in, or the number of the byte in its page
and the length have a sum that is no `fs_size_t`. -/
def RunsBehind (size offset length : Nat) : Prop :=
  offset % 512 ≠ 0 ∧
    (offset % 512 + length ≤ 512 ∧ offset + length ≤ size ∨
      offset < size ∧ 2147483648 ≤ offset % 512 + length)

instance (size offset length : Nat) : Decidable (RunsBehind size offset length) :=
  inferInstanceAs (Decidable (_ ∧ _))

theorem readsRange_of_take {volume : Volume} {inode offset length : Nat} {content : List UInt8}
    (result : fsRead volume inode offset length =
      some (((min length (content.length - offset) : Nat) : Int),
        store (fun _ => none) 0 ((content.drop offset).take length))) :
    ReadsRange volume inode offset length content := by
  refine ⟨_, result, fun index => ?_⟩
  rw [store_empty]
  show ((content.drop offset).take length)[index]? = _
  rw [List.getElem?_take, List.getElem?_drop]
  by_cases inside : index < length
  · rw [if_pos inside]
    split
    · rfl
    · exact List.getElem?_eq_none (by omega)
  · rw [if_neg inside, if_neg (by omega)]

section Reading

variable {volume : Volume} {inode page offset length : Nat} {links : List (Nat × Nat)}
  (entry : fsPage volume inode = page) (used : page ≠ 0xffff)
  (chain : FullChain volume page links)
include entry used chain

/-- The call ends in front of the loop, or the loop starts with the page of the offset. -/
theorem fsRead_cases :
    (fsRead volume inode offset length = some (0, fun _ => none) ∧
      (chainBytes volume page links).length ≤ offset) ∨
    ∃ front target rest, fsRead volume inode offset length =
        readPages volume (4097 * (length + 1)) target (fun _ => none) 0 (offset % 512) length 0 ∧
      FullChain volume target rest ∧ offset % 512 < (volume.header target).size ∧
      chainBytes volume page links = front ++ chainBytes volume target rest ∧
      front.length + offset % 512 = offset := by
  have ends {result : Int} (ended : readSeek volume (offset + 1) page offset = .error result) :
      fsRead volume inode offset length = some (result, fun _ => none) := by
    unfold fsRead
    rw [entry, if_neg used, ended]
  have starts {target start : Nat}
      (found : readSeek volume (offset + 1) page offset = .ok (target, start)) :
      fsRead volume inode offset length =
        if (volume.header target).size ≤ start then some (0, fun _ => none)
        else readPages volume (4097 * (length + 1)) target (fun _ => none) 0 start length 0 := by
    unfold fsRead
    rw [entry, if_neg used, found]
  rcases readSeek_eq (offset + 1) page links offset chain (by omega) with
    ⟨ended, short⟩ | ⟨front, target, rest, found, tail, split, position⟩
  · exact Or.inl ⟨ends ended, short⟩
  · by_cases inside : offset % 512 < (volume.header target).size
    · refine Or.inr ⟨front, target, rest, ?_, tail, inside, split, position⟩
      rw [starts found]
      exact if_neg (by omega)
    · refine Or.inl ⟨?_, ?_⟩
      · rw [starts found]
        exact if_pos (by omega)
      · cases rest with
        | nil =>
            rw [split, List.length_append, chainBytes_nil, length_data]
            omega
        | cons link rest =>
            have full := tail.1.2.1
            have below := Nat.mod_lt offset (by omega : 0 < 512)
            omega

end Reading

/-- The two ranges in terms of the page the offset is in. -/
theorem runsBehind_iff {volume : Volume} {target offset length : Nat} {front : List UInt8}
    {rest : List (Nat × Nat)} (tail : FullChain volume target rest)
    (inside : offset % 512 < (volume.header target).size)
    (position : front.length + offset % 512 = offset) :
    RunsBehind (front ++ chainBytes volume target rest).length offset length ↔
      offset % 512 ≠ 0 ∧ (offset % 512 + length ≤ (volume.header target).size ∨
        2147483648 ≤ offset % 512 + length) := by
  have size := tail.size_le
  unfold RunsBehind
  cases rest with
  | nil =>
      rw [List.length_append, chainBytes_nil, length_data]
      omega
  | cons link rest =>
      have full := tail.1.2.1
      rw [List.length_append, chainBytes_cons, List.length_append, length_data]
      omega

/-- The bytes copied in the last round, when the offset in the page is counted twice. -/
theorem not_readsRange {volume : Volume} {inode target offset length count : Nat}
    {content : List UInt8} {fuel : Nat}
    (result : fsRead volume inode offset length =
      readPages volume (fuel + 1) target (fun _ => none) 0 (offset % 512) length 0)
    (last : sizeSum length (offset % 512) ≤ (volume.header target).size)
    (copied : (sizeSum length (offset % 512) % 65536).toNat = count)
    (different : count ≠ length) : ¬ReadsRange volume inode offset length content := by
  rintro ⟨stored, returned, bytes⟩
  rw [result, readPages_last last, copied, Option.some.injEq, Prod.mk.injEq,
    store_empty] at returned
  obtain ⟨number, rfl⟩ := returned
  have whole : min length (content.length - offset) = length := by omega
  have copiedLength := length_readPage (volume.flash (target % 4096)) (15 + offset % 512) count
  rcases Nat.lt_or_gt_of_ne different with fewer | more
  · have missing :
        (readPage (volume.flash (target % 4096)) (15 + offset % 512) count)[count]? = _ :=
      bytes count
    rw [whole, if_pos fewer, List.getElem?_eq_none (Nat.le_of_eq copiedLength),
      List.getElem?_eq_getElem (by omega)] at missing
    cases missing
  · have behind :
        (readPage (volume.flash (target % 4096)) (15 + offset % 512) count)[length]? = _ :=
      bytes length
    rw [whole, if_neg (Nat.lt_irrefl _), List.getElem?_eq_none_iff] at behind
    exact absurd (Nat.le_trans (Nat.le_of_eq copiedLength.symm) behind) (by omega)

theorem readsRange_iff {volume : Volume} {inode : Nat} {content : List UInt8}
    (holds : HoldsBytes volume inode content) {offset length : Nat} (positive : 0 < length)
    (bound : length < 2147483648) :
    ReadsRange volume inode offset length content ↔ ¬RunsBehind content.length offset length := by
  have empty (short : content.length ≤ offset)
      (result : fsRead volume inode offset length = some (0, fun _ => none)) :
      ReadsRange volume inode offset length content ↔
        ¬RunsBehind content.length offset length := by
    have nothing : min length (content.length - offset) = 0 := by omega
    refine iff_of_true ⟨fun _ => none, ?_, fun index => ?_⟩ (fun behind => ?_)
    · rw [result, nothing]
      rfl
    · rw [nothing, if_neg (Nat.not_lt_zero index)]
    · unfold RunsBehind at behind
      omega
  cases holds with
  | unwritten missing =>
      apply empty (Nat.zero_le _)
      simp only [fsRead, missing, if_true]
  | @chain page links entry used chain =>
      rcases fsRead_cases entry used chain with
        ⟨result, short⟩ | ⟨front, target, rest, result, tail, inside, split, position⟩
      · exact empty short result
      · have size := tail.size_le
        rw [split, runsBehind_iff tail inside position]
        by_cases wrapped : 2147483648 ≤ offset % 512 + length
        · have sum := sizeSum_overflow (by omega : 2147483648 ≤ length + offset % 512)
          refine iff_of_false ?_ fun holds => holds ⟨by omega, Or.inr wrapped⟩
          apply not_readsRange result (by omega) rfl
          omega
        · have sum := sizeSum_eq (by omega : length + offset % 512 < 2147483648)
          by_cases across : offset % 512 = 0 ∨ (volume.header target).size < length + offset % 512
          · refine iff_of_true ?_ (by omega)
            apply readsRange_of_take
            rw [result, readPages_eq tail (Or.inr inside) positive (by omega) (by omega) across,
              List.drop_append, List.drop_eq_nil_of_le (by omega : front.length ≤ offset),
              List.nil_append, (by omega : offset - front.length = offset % 512),
              List.length_append]
            congr 3
            omega
          · refine iff_of_false ?_ fun holds => holds ⟨by omega, Or.inl (by omega)⟩
            apply not_readsRange result (by omega) rfl
            omega

/-- Inode 0 has page 2, which holds the bytes from 0 to 9. -/
def tenBytes : Volume where
  flash := fun page =>
    if page = 0 then writeBlock (fun _ => 0) 8 [1, 0]
    else if page = 1 then writeBlock (fun _ => 0) 15 [32, 0]
    else writeBlock (writeBlock (fun _ => 0) 0 [4, 0, 10, 0]) 15 [0, 1, 2, 3, 4, 5, 6, 7, 8, 9]
  root := 0

theorem holdsBytes_tenBytes : HoldsBytes tenBytes 0 [0, 1, 2, 3, 4, 5, 6, 7, 8, 9] := by
  have chain : FullChain tenBytes 2 [] := ⟨by decide, by decide⟩
  have holds := HoldsBytes.chain (by decide : fsPage tenBytes 0 = 2) (by decide) chain
  have content : chainBytes tenBytes 2 [] = [0, 1, 2, 3, 4, 5, 6, 7, 8, 9] := by decide
  rwa [content] at holds

/-- Reading up to the end of the file. -/
theorem readsRange_tenBytes : ReadsRange tenBytes 0 4 100 [0, 1, 2, 3, 4, 5, 6, 7, 8, 9] :=
  (readsRange_iff holdsBytes_tenBytes (by decide) (by decide)).2 (by decide)

/-- A call for one byte behind the first one stores two. -/
theorem read_stores_two_bytes :
    HoldsBytes tenBytes 0 [0, 1, 2, 3, 4, 5, 6, 7, 8, 9] ∧
      (fsRead tenBytes 0 1 1).map (fun result => (result.1, result.2 0, result.2 1)) =
        some (1, some 1, some 2) ∧
      ¬ReadsRange tenBytes 0 1 1 [0, 1, 2, 3, 4, 5, 6, 7, 8, 9] := by
  have holds := holdsBytes_tenBytes
  have stored : (fsRead tenBytes 0 1 1).map (fun result => (result.1, result.2 0, result.2 1)) =
      some (1, some 1, some 2) := by decide
  refine ⟨holds, stored, ?_⟩
  rintro ⟨bytes, result, positions⟩
  have behind := positions 1
  rw [result] at stored
  rw [if_neg (by decide)] at behind
  simp only [Option.map_some, Option.some.injEq, Prod.mk.injEq, behind, reduceCtorEq, and_false]
    at stored

end Ethersex.Dataflash

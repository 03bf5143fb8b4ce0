import Ethersex.DataflashChains

/-!
# What `fs_write` leaves behind

Each round of the loops in `fs_write` links one page.  The rounds of a call
build a chain in front of what is left of the old one.  Because the caller's
buffer pointer is the same in every round, each round but the first one writes
the beginning of the data again.
-/

namespace Ethersex.Dataflash

open ByteMemory

/-- The number of pages a call writes when it starts `offset` bytes into a page. -/
def rounds (offset length : Nat) : Nat := max 1 ((offset + length + 511) / 512)

theorem rounds_last {offset length : Nat} (fits : length + offset ≤ 512) :
    rounds offset length = 1 := by
  unfold rounds
  omega

theorem rounds_continue {offset length : Nat} (more : 512 < length + offset)
    (inside : offset ≤ 512) :
    rounds offset length = rounds 0 (length - (512 - offset)) + 1 := by
  unfold rounds
  omega

theorem rounds_pos (offset length : Nat) : 0 < rounds offset length :=
  Nat.le_max_left ..

theorem rounds_start {length : Nat} (more : 512 < length) :
    rounds 0 length = rounds 0 (length - 512) + 1 :=
  rounds_continue more (Nat.zero_le _)

/-- The byte of the buffer that ends up as byte `index` of the written range. -/
def roundIndex (offset index : Nat) : Nat :=
  if index < 512 - offset then index else (index - (512 - offset)) % 512

def writtenBytes (buf : List UInt8) (offset length : Nat) : List UInt8 :=
  (List.range length).map fun index => buf.getD (roundIndex offset index) 0

@[simp]
theorem length_writtenBytes (buf : List UInt8) (offset length : Nat) :
    (writtenBytes buf offset length).length = length := by
  simp [writtenBytes]

theorem map_getD_range {buf : List UInt8} {length : Nat} (bound : length ≤ buf.length) :
    (List.range length).map (fun index => buf.getD index 0) = buf.take length := by
  apply List.ext_getElem
  · simp [bound]
  · intro index _ inside
    simp only [List.getElem_map, List.getElem_range, List.getElem_take]
    rw [List.getD_eq_getElem]

theorem writtenBytes_last {buf : List UInt8} {offset length : Nat} (fits : length + offset ≤ 512)
    (bound : length ≤ buf.length) : writtenBytes buf offset length = buf.take length := by
  rw [← map_getD_range bound]
  apply List.map_congr_left
  intro index member
  rw [List.mem_range] at member
  rw [roundIndex, if_pos (by omega)]

theorem writtenBytes_continue {buf : List UInt8} {offset length : Nat}
    (more : 512 < length + offset) (bound : length ≤ buf.length) :
    writtenBytes buf offset length =
      buf.take (512 - offset) ++ writtenBytes buf 0 (length - (512 - offset)) := by
  have split : length = (512 - offset) + (length - (512 - offset)) := by omega
  conv_lhs => rw [writtenBytes, split]
  rw [List.range_add, List.map_append, List.map_map, ← map_getD_range (by omega), writtenBytes]
  congr 1
  · apply List.map_congr_left
    intro index member
    rw [List.mem_range] at member
    rw [roundIndex, if_pos (by omega)]
  · apply List.map_congr_left
    intro index _
    have here : roundIndex offset (512 - offset + index) = index % 512 := by
      rw [roundIndex, if_neg (by omega)]
      congr 1
      omega
    have there : roundIndex 0 index = index % 512 := by
      unfold roundIndex
      split <;> omega
    simp only [Function.comp_apply, here, there]

/-- `data` laid over `content` from `offset` on. -/
def overlay (content : List UInt8) (offset : Nat) (data : List UInt8) : List UInt8 :=
  content.take offset ++ data ++ content.drop (offset + data.length)

theorem overlay_append {content tail : List UInt8} {offset : Nat} {data : List UInt8}
    (inside : offset + data.length ≤ content.length) :
    overlay (content ++ tail) offset data = overlay content offset data ++ tail := by
  rw [overlay, overlay, List.take_append_of_le_length (by omega),
    List.drop_append_of_le_length inside, ← List.append_assoc]

theorem overlay_end {content : List UInt8} {offset : Nat} {data : List UInt8}
    (reaches : content.length ≤ offset + data.length) :
    overlay content offset data = content.take offset ++ data := by
  rw [overlay, List.drop_eq_nil_of_le reaches, List.append_nil]

theorem overlay_across {content tail : List UInt8} {offset : Nat} {data rest : List UInt8}
    (fills : offset + data.length = content.length) :
    overlay (content ++ tail) offset (data ++ rest) =
      (content.take offset ++ data) ++ overlay tail 0 rest := by
  have skip : offset + (data ++ rest).length = content.length + rest.length := by
    rw [List.length_append]
    omega
  rw [overlay, overlay, skip, List.take_append_of_le_length (by omega), List.drop_append]
  simp

section Content

variable (buffer : Memory) (header : PageHeader) {data : List UInt8} {offset : Nat}

theorem pageHeader_savedContent (bound : offset + data.length ≤ 512) :
    pageHeader (savedContent buffer header data offset) =
      { header with
        nextInode := header.nextInode % 4096
        size := header.size % 65536 } := by
  rw [savedContent, pageHeader_writePage_behind (by omega) (by omega), pageHeader_writePage_encode]

theorem readPage_savedContent {size : Nat} (bound : offset + data.length ≤ size)
    (sizeBound : size ≤ 512) :
    readPage (savedContent buffer header data offset) 15 size =
      (readPage buffer 15 offset ++ data) ++
        readPage buffer (15 + (offset + data.length)) (size - (offset + data.length)) := by
  have encodeLength := header.length_encode
  rw [savedContent, writePage_eq _ (by omega), writePage_eq _ (by omega), readPage_eq _ (by omega),
    readPage_eq _ (by omega), readPage_eq _ (by omega),
    readBlock_writeBlock_inside (by omega) (by omega),
    readBlock_writeBlock_disjoint (by omega), readBlock_writeBlock_disjoint (by omega)]
  congr 2
  · congr 1
    omega
  · omega
  · omega

variable {buffer header}

theorem full_continued {next : Nat} (inside : offset ≤ 512) (length : data.length = 512 - offset)
    (nextBound : next < 4096) :
    (pageHeader (savedContent buffer (continuedHeader header next) data offset)).root = false ∧
      (pageHeader (savedContent buffer (continuedHeader header next) data offset)).eof = false ∧
      (pageHeader (savedContent buffer (continuedHeader header next) data offset)).size = 512 ∧
      (pageHeader (savedContent buffer (continuedHeader header next) data offset)).nextInode =
        next := by
  rw [pageHeader_savedContent _ _ (by omega)]
  exact ⟨rfl, rfl, rfl, Nat.mod_eq_of_lt nextBound⟩

theorem pageData_savedContent {size : Nat} (bound : offset + data.length ≤ size)
    (sizeBound : size ≤ 512) (sizeEq : header.size = size) :
    pageData (savedContent buffer header data offset) =
      (readPage buffer 15 offset ++ data) ++
        readPage buffer (15 + (offset + data.length)) (size - (offset + data.length)) := by
  have stored : (pageHeader (savedContent buffer header data offset)).size = size := by
    rw [pageHeader_savedContent _ _ (by omega), sizeEq]
    exact Nat.mod_eq_of_lt (by omega)
  rw [pageData, stored, readPage_savedContent _ _ bound sizeBound]

/-- The data fills its page up to the end. -/
theorem pageData_savedContent_full (bound : offset + data.length ≤ 512)
    (sizeEq : header.size = offset + data.length) :
    pageData (savedContent buffer header data offset) = readPage buffer 15 offset ++ data := by
  rw [pageData_savedContent (Nat.le_refl _) bound sizeEq, Nat.sub_self]
  simp [readPage]

end Content

theorem take_data {volume : Volume} {page offset : Nat}
    (inside : offset ≤ (volume.header page).size) (bound : (volume.header page).size ≤ 512) :
    (volume.data page).take offset = readPage (volume.flash (page % 4096)) 15 offset := by
  show (readPage _ 15 (volume.header page).size).take offset = _
  rw [readPage_eq _ (by omega), readPage_eq _ (by omega), take_readBlock inside]

theorem drop_data {volume : Volume} {page offset : Nat}
    (inside : offset ≤ (volume.header page).size) (bound : (volume.header page).size ≤ 512) :
    (volume.data page).drop offset =
      readPage (volume.flash (page % 4096)) (15 + offset) ((volume.header page).size - offset) := by
  show (readPage _ 15 (volume.header page).size).drop offset = _
  rw [readPage_eq _ (by omega), readPage_eq _ (by omega), drop_readBlock inside]

/-- A round that ends inside a page keeps the data before and behind it. -/
theorem pageData_last {volume : Volume} {page offset : Nat} {data : List UInt8}
    (inside : offset ≤ (volume.header page).size) (bound : (volume.header page).size ≤ 512)
    (fits : data.length + offset ≤ 512) :
    pageData (savedContent (volume.flash (page % 4096))
      (lastHeader (volume.header page) false (data.length + offset)) data offset) =
      overlay (volume.data page) offset data := by
  rw [overlay, take_data inside bound]
  rcases Nat.lt_or_ge (volume.header page).size (data.length + offset) with grows | stays
  · have size : (lastHeader (volume.header page) false (data.length + offset)).size =
        offset + data.length := by
      simp only [lastHeader, Bool.false_eq_true, false_or]
      rw [if_pos grows, Nat.add_comm]
    rw [pageData_savedContent_full (by omega) size,
      List.drop_eq_nil_of_le (by rw [length_data]; omega), List.append_nil]
  · have size : (lastHeader (volume.header page) false (data.length + offset)).size =
        (volume.header page).size := by
      simp only [lastHeader, Bool.false_eq_true, false_or]
      exact if_neg (by omega)
    rw [pageData_savedContent (by omega) bound size, drop_data (by omega) bound]

section Round

variable {fs : Fs} (buf : List UInt8) (fuel : Nat) (eof : Bool)
  {rest inode oldPage offset length : Nat}

theorem Claimed.flash_old {after : Fs} {page : Nat} (claimed : Claimed fs after inode page)
    (bound : oldPage < 4096) (covered : Covered fs oldPage) :
    after.flash (oldPage % 4096) = fs.flash (oldPage % 4096) := by
  rw [Nat.mod_eq_of_lt bound,
    claimed.table.kept.flash oldPage bound (claimed.kept_handOut.covered covered)]
  rfl

theorem bufferHeader_withBuffer (fs after : Fs) (page : Nat) :
    bufferHeader (withBuffer after (fs.flash (page % 4096))) = fs.header page :=
  rfl

theorem writeExisting_last (anchored : Anchored fs) (enough : rest + 3 ≤ spare fs)
    (inodeBound : inode < 4096) (oldBound : oldPage < 4096) (oldCovered : Covered fs oldPage)
    (fits : length + offset ≤ 512) :
    ∃ after page,
      writeExisting buf (fuel + 1) fs inode oldPage eof offset length = (.ok, after) ∧
      Linked fs after inode page (savedContent (fs.flash (oldPage % 4096))
        (lastHeader (fs.header oldPage) eof (length + offset)) (buf.take length) offset) ∧
      rest ≤ spare after := by
  obtain ⟨page, claimedFs, claim, claimed, left⟩ := claimPage_spec anchored enough inodeBound
  refine ⟨_, page, ?_, claimed.linked _ _ _ _, Nat.le_trans left
    (Nat.le_of_eq (spare_congr rfl rfl))⟩
  simp only [writeExisting, claim, dfBufLoad_eq, claimed.flash_old oldBound oldCovered,
    bufferHeader_withBuffer, ne_eq, not_true_eq_false, if_false,
    if_neg (by omega : ¬512 < length + offset)]

/-- A table update leaves the same inodes free in the volume it is part of. -/
theorem Claimed.freeInodes {after saved : Fs} {page : Nat} {content : Memory}
    (claimed : Claimed fs after inode page) (linked : Linked fs saved inode page content) :
    freeInodes after.toVolume = freeInodes saved.toVolume := by
  have bound := claimed.page_lt
  rw [claimed.table.toRelinked.freeInodes (by omega), linked.toRelinked.freeInodes (by omega)]
  rfl

theorem writeExisting_continue (anchored : Anchored fs) (enough : rest + 3 ≤ spare fs)
    (inodeBound : inode < 4096) (oldBound : oldPage < 4096) (oldCovered : Covered fs oldPage)
    (more : 512 < length + offset) {next : Nat} {others : List Nat}
    (free : ((freeInodes fs.toVolume).filter fun other => other ≠ inode) = next :: others) :
    ∃ after page,
      writeExisting buf (fuel + 1) fs inode oldPage eof offset length =
        writeExisting buf fuel after next
          (if (fs.header oldPage).eof then oldPage
            else fsPage after.toVolume (fs.header oldPage).nextInode)
          (eof || (fs.header oldPage).eof) 0 (length - (512 - offset)) ∧
      Linked fs after inode page (savedContent (fs.flash (oldPage % 4096))
        (continuedHeader (fs.header oldPage) next) (buf.take (512 - offset)) offset) ∧
      freeInodes after.toVolume = next :: others ∧ rest ≤ spare after := by
  obtain ⟨page, claimedFs, claim, claimed, left⟩ := claimPage_spec anchored enough inodeBound
  have linked := claimed.linked (fs.flash (oldPage % 4096))
    (continuedHeader (fs.header oldPage) next) (buf.take (512 - offset)) offset
  have bound := claimed.page_lt
  have nextFree := (linked.toRelinked.freeInodes (by omega)).trans free
  have claimedFree := (claimed.freeInodes linked).trans nextFree
  have nextBound : next < 4096 := by
    have member : next ∈ Dataflash.freeInodes claimedFs.toVolume := by simp [claimedFree]
    exact (mem_freeInodes.1 member).1
  have found : fsNewInode (withBuffer claimedFs (fs.flash (oldPage % 4096))).toVolume % 4096 =
      next := by
    rw [← Nat.mod_eq_of_lt nextBound]
    exact congrArg (· % 4096) (fsNewInode_of_free claimedFree)
  have entry : fsPage (withBuffer claimedFs (fs.flash (oldPage % 4096))).toVolume
      (fs.header oldPage).nextInode =
      fsPage (savePage (withBuffer claimedFs (fs.flash (oldPage % 4096)))
        (continuedHeader (fs.header oldPage) next) (buf.take (512 - offset)) offset page).toVolume
        (fs.header oldPage).nextInode := by
    rw [linked.fsPage _ (header_nextInode_lt _ _)]
    exact claimed.table.fsPage _ (header_nextInode_lt _ _)
  refine ⟨_, page, ?_, linked, nextFree,
    Nat.le_trans left (Nat.le_of_eq (spare_congr rfl rfl))⟩
  simp only [writeExisting, claim, dfBufLoad_eq, claimed.flash_old oldBound oldCovered,
    bufferHeader_withBuffer, ne_eq, not_true_eq_false, if_false, if_pos more, found, entry,
    if_neg (by omega : ¬next = 0xffff)]

theorem writeFresh_last (page : PageHeader) (anchored : Anchored fs) (enough : rest + 3 ≤ spare fs)
    (inodeBound : inode < 4096) (fits : length ≤ 512) :
    ∃ after pagenum buffer,
      writeFresh buf (fuel + 1) fs inode page length = (.ok, after) ∧
      Linked fs after inode pagenum (savedContent buffer
        { page with eof := true, size := length, root := false } (buf.take length) 0) ∧
      rest ≤ spare after := by
  obtain ⟨pagenum, claimedFs, claim, claimed, left⟩ := claimPage_spec anchored enough inodeBound
  refine ⟨_, pagenum, claimedFs.buf1, ?_, claimed.linked _ _ _ _,
    Nat.le_trans left (Nat.le_of_eq (spare_congr rfl rfl))⟩
  simp only [writeFresh, claim, ne_eq, not_true_eq_false, if_false,
    if_neg (by omega : ¬512 < length)]
  rfl

theorem writeFresh_continue (page : PageHeader) (anchored : Anchored fs)
    (enough : rest + 3 ≤ spare fs) (inodeBound : inode < 4096) (more : 512 < length) {next : Nat}
    {others : List Nat}
    (free : ((freeInodes fs.toVolume).filter fun other => other ≠ inode) = next :: others) :
    ∃ after pagenum buffer,
      writeFresh buf (fuel + 1) fs inode page length =
        writeFresh buf fuel after next (continuedHeader page next) (length - 512) ∧
      Linked fs after inode pagenum
        (savedContent buffer (continuedHeader page next) (buf.take 512) 0) ∧
      freeInodes after.toVolume = next :: others ∧ rest ≤ spare after := by
  obtain ⟨pagenum, claimedFs, claim, claimed, left⟩ := claimPage_spec anchored enough inodeBound
  have linked := claimed.linked claimedFs.buf1 (continuedHeader page next) (buf.take 512) 0
  have bound := claimed.page_lt
  have nextFree := (linked.toRelinked.freeInodes (by omega)).trans free
  have claimedFree := (claimed.freeInodes linked).trans nextFree
  have nextBound : next < 4096 := by
    have member : next ∈ Dataflash.freeInodes claimedFs.toVolume := by simp [claimedFree]
    exact (mem_freeInodes.1 member).1
  have found : fsNewInode claimedFs.toVolume % 4096 = next := by
    rw [fsNewInode_of_free claimedFree, Nat.mod_eq_of_lt nextBound]
  refine ⟨_, pagenum, claimedFs.buf1, ?_, linked, nextFree,
    Nat.le_trans left (Nat.le_of_eq (spare_congr rfl rfl))⟩
  simp only [writeFresh, claim, ne_eq, not_true_eq_false, if_false, if_pos more, found,
    if_neg (by omega : ¬next = 0xffff)]
  rfl

end Round

/-- `inode` and the inodes `taken` have new pages; everything else is as before. -/
structure Rewritten (before after : Fs) (inode : Nat) (taken : List Nat) : Prop where
  kept : Kept before after
  anchored : Anchored after
  entries : ∀ other < 4096, other ≠ inode → other ∉ taken →
    fsPage after.toVolume other = fsPage before.toVolume other
  node : ∀ index < 60, after.node index = before.node index
  nodeUnused : ∀ index ≤ 60, (after.node index).unused = (before.node index).unused
  free : ((freeInodes before.toVolume).filter fun other => other ≠ inode) =
    taken ++ freeInodes after.toVolume
  newest : Newest before → before.version + (taken.length + 1) < 4294967296 →
    Newest after ∧ after.version = before.version + (taken.length + 1)

/-- `inode` heads a chain with this content.  Its pages were not covered before,
apart from those of the old chain that it goes on with. -/
structure Wrote (before after : Fs) (inode : Nat) (taken : List Nat) (page : Nat)
    (links : List (Nat × Nat)) (content : List UInt8) (oldLinks : List (Nat × Nat)) : Prop where
  rewritten : Rewritten before after inode taken
  file : HasChain after.toVolume inode page links
  bytes : chainBytes after.toVolume page links = content
  covered : ∀ other ∈ chainPages page links, Covered after other
  pages : ∀ other ∈ chainPages page links, ¬Covered before other ∨ other ∈ oldLinks.map Prod.snd
  inodes : ∀ other ∈ links.map Prod.fst, other ∈ taken ∨ other ∈ oldLinks.map Prod.fst
  takes : ∀ other ∈ taken, other ∈ links.map Prod.fst

theorem filter_freeInodes {volume : Volume} {next : Nat} {others : List Nat}
    (split : freeInodes volume = next :: others) :
    ((freeInodes volume).filter fun other => other ≠ next) = others := by
  have nodup := nodup_freeInodes volume
  rw [split, List.nodup_cons] at nodup
  rw [split, List.filter_cons_of_neg (by simp), List.filter_eq_self]
  intro other member
  simp only [ne_eq, decide_not, Bool.not_eq_eq_eq_not, Bool.not_true, decide_eq_false_iff_not]
  rintro rfl
  exact nodup.1 member

section Chain

variable {before middle after : Fs} {inode page : Nat} {content : Memory}

theorem Linked.rewritten (linked : Linked before after inode page content)
    (notRoot : (pageHeader content).root = false) : Rewritten before after inode [] where
  kept := linked.kept
  anchored := linked.anchored
  entries := fun other bound different _ => by rw [linked.fsPage other bound, if_neg different]
  node := linked.node
  nodeUnused := linked.nodeUnused
  free := by
    have bound := linked.page_lt
    rw [List.nil_append, linked.toRelinked.freeInodes (by omega)]
  newest := fun newest bound => linked.newest newest bound notRoot

theorem Rewritten.cons {next : Nat} {taken : List Nat}
    (linked : Linked before middle inode page content)
    (notRoot : (pageHeader content).root = false) {others : List Nat}
    (split : freeInodes middle.toVolume = next :: others)
    (rewritten : Rewritten middle after next taken) :
    Rewritten before after inode (next :: taken) where
  kept := linked.kept.trans rewritten.kept
  anchored := rewritten.anchored
  entries := by
    intro other bound different notTaken
    rw [List.mem_cons, not_or] at notTaken
    rw [rewritten.entries other bound notTaken.1 notTaken.2, linked.fsPage other bound,
      if_neg different]
  node := fun index inside => (rewritten.node index inside).trans (linked.node index inside)
  nodeUnused := fun index inside =>
    (rewritten.nodeUnused index inside).trans (linked.nodeUnused index inside)
  free := by
    have bound := linked.page_lt
    rw [← linked.toRelinked.freeInodes (by omega), List.cons_append, ← rewritten.free,
      filter_freeInodes split, split]
  newest := by
    intro newest bound
    rw [List.length_cons] at bound ⊢
    obtain ⟨newestMiddle, version⟩ := linked.newest newest (by omega) notRoot
    obtain ⟨newestAfter, version'⟩ := rewritten.newest newestMiddle (by omega)
    exact ⟨newestAfter, by omega⟩

theorem Linked.header (linked : Linked before after inode page content) :
    after.header page = pageHeader content := by
  show pageHeader (after.flash (page % 4096)) = _
  rw [Nat.mod_eq_of_lt linked.page_lt, linked.written]

theorem Linked.data (linked : Linked before after inode page content) :
    after.data page = pageData content := by
  show pageData (after.flash (page % 4096)) = _
  rw [Nat.mod_eq_of_lt linked.page_lt, linked.written]

theorem Linked.entry (linked : Linked before after inode page content)
    (inodeBound : inode < 4096) : fsPage after.toVolume inode = page := by
  rw [linked.fsPage inode inodeBound, if_pos rfl]

theorem Linked.page_ne (linked : Linked before after inode page content) : page ≠ 0xffff := by
  have bound := linked.page_lt
  omega

/-- The last round of a file that ends in its page. -/
theorem Linked.wrote_end (linked : Linked before after inode page content)
    (inodeBound : inode < 4096) (notRoot : (pageHeader content).root = false)
    (last : (pageHeader content).eof = true) (size : (pageHeader content).size ≤ 512)
    (oldLinks : List (Nat × Nat)) :
    Wrote before after inode [] page [] (pageData content) oldLinks where
  rewritten := linked.rewritten notRoot
  file := by
    refine ⟨linked.entry inodeBound, linked.page_ne, ?_⟩
    rw [ChainFrom, linked.header]
    exact ⟨notRoot, last, size⟩
  bytes := by rw [chainBytes_nil, linked.data]
  covered := by
    intro other member
    rw [chainPages, List.map_nil, List.mem_singleton] at member
    rw [member]
    exact linked.covered
  pages := by
    intro other member
    rw [chainPages, List.map_nil, List.mem_singleton] at member
    rw [member]
    exact Or.inl linked.fresh
  inodes := by simp
  takes := by simp

/-- The last round of a file whose last page holds nothing but new data. -/
theorem Linked.wrote_data {buffer : Memory} {header : PageHeader} {data : List UInt8} {length : Nat}
    (linked : Linked before after inode page (savedContent buffer header data 0))
    (inodeBound : inode < 4096) (dataLength : data.length = length) (fits : length ≤ 512)
    (notRoot : header.root = false) (last : header.eof = true) (size : header.size = length) :
    Wrote before after inode [] page [] data [] := by
  have stored := pageHeader_savedContent buffer header (by omega : 0 + data.length ≤ 512)
  have whole := linked.wrote_end inodeBound (by rw [stored]; exact notRoot)
    (by rw [stored]; exact last) (by rw [stored]; simp only [size]; omega) []
  rw [pageData_savedContent_full (by omega) (by omega)] at whole
  exact whole

/-- A round in front of the rounds that follow. -/
theorem Wrote.cons {next nextPage : Nat} {taken others : List Nat}
    {links oldLinks : List (Nat × Nat)}
    {bytes : List UInt8} (linked : Linked before middle inode page content)
    (inodeBound : inode < 4096) (split : freeInodes middle.toVolume = next :: others)
    (full : (pageHeader content).root = false ∧ (pageHeader content).eof = false ∧
      (pageHeader content).size = 512 ∧ (pageHeader content).nextInode = next)
    (wrote : Wrote middle after next taken nextPage links bytes oldLinks) :
    Wrote before after inode (next :: taken) page ((next, nextPage) :: links)
      (pageData content ++ bytes) oldLinks := by
  have used : inode ∉ freeInodes middle.toVolume := by
    rw [mem_freeInodes, linked.entry inodeBound]
    exact fun missing => linked.page_ne missing.2
  have different : inode ≠ next := by
    rintro rfl
    exact used (by simp [split])
  have notTaken : inode ∉ taken := by
    intro member
    have inFree : inode ∈ taken ++ freeInodes after.toVolume := List.mem_append_left _ member
    rw [← wrote.rewritten.free] at inFree
    exact used (List.mem_filter.1 inFree).1
  have flash : after.flash (page % 4096) = content := by
    rw [Nat.mod_eq_of_lt linked.page_lt,
      wrote.rewritten.kept.flash page linked.page_lt linked.covered, linked.written]
  refine ⟨wrote.rewritten.cons linked full.1 split, ⟨?_, linked.page_ne, ?_⟩, ?_, ?_, ?_, ?_, ?_⟩
  · rw [wrote.rewritten.entries inode inodeBound different notTaken, linked.entry inodeBound]
  · have header : after.header page = pageHeader content := by
      show pageHeader (after.flash (page % 4096)) = _
      rw [flash]
    rw [ChainFrom, header]
    exact ⟨full, ⟨wrote.file.entry, wrote.file.used⟩, wrote.file.chain⟩
  · have data : after.data page = pageData content := by
      show pageData (after.flash (page % 4096)) = _
      rw [flash]
    rw [chainBytes_cons, data, wrote.bytes]
  · intro other member
    rcases List.mem_cons.1 member with same | later
    · rw [same]
      exact wrote.rewritten.kept.covered linked.covered
    · exact wrote.covered other later
  · intro other member
    rcases List.mem_cons.1 member with same | later
    · rw [same]
      exact Or.inl linked.fresh
    · exact (wrote.pages other later).imp_left fun notCovered covered =>
        notCovered (linked.kept.covered covered)
  · intro other member
    rcases List.mem_cons.1 member with same | later
    · exact Or.inl (by rw [same]; exact List.mem_cons_self)
    · exact (wrote.inodes other later).imp_left fun taken => List.mem_cons_of_mem _ taken
  · intro other member
    rw [List.map_cons]
    rcases List.mem_cons.1 member with same | later
    · rw [same]
      exact List.mem_cons_self
    · exact List.mem_cons_of_mem _ (wrote.takes other later)

theorem Wrote.mono {taken : List Nat} {links oldLinks oldLinks' : List (Nat × Nat)}
    {bytes : List UInt8} (wrote : Wrote before after inode taken page links bytes oldLinks)
    (subset : oldLinks ⊆ oldLinks') :
    Wrote before after inode taken page links bytes oldLinks' :=
  { wrote with
    pages := fun other member =>
      (wrote.pages other member).imp_right fun old => List.map_subset _ subset old
    inodes := fun other member =>
      (wrote.inodes other member).imp_right fun old => List.map_subset _ subset old }

/-- A chain is not changed by linking an inode that is not on it. -/
theorem Linked.chain_kept (linked : Linked before after inode page content) {first : Nat}
    {links : List (Nat × Nat)} (chain : ChainFrom before.toVolume first links)
    (bound : first < 4096) (covered : ∀ other ∈ chainPages first links, Covered before other)
    (notMem : inode ∉ links.map Prod.fst) :
    ChainFrom after.toVolume first links ∧
      chainBytes after.toVolume first links = chainBytes before.toVolume first links := by
  have pages : ∀ other ∈ chainPages first links,
      after.flash (other % 4096) = before.flash (other % 4096) := by
    intro other member
    have otherBound := chain.page_lt bound other member
    rw [Nat.mod_eq_of_lt otherBound, linked.kept.flash other otherBound (covered other member)]
  refine ⟨chain.congr pages ?_, chainBytes_congr pages⟩
  intro link member
  rw [linked.fsPage _ (chain.inode_lt link member), if_neg]
  rintro rfl
  exact notMem (List.mem_map_of_mem member)

/-- The last round of a file that goes on behind the written range. -/
theorem Linked.wrote_front (linked : Linked before after inode page content)
    (inodeBound : inode < 4096) {next nextPage : Nat} {links : List (Nat × Nat)}
    (file : HasChain before.toVolume next nextPage links)
    (full : (pageHeader content).root = false ∧ (pageHeader content).eof = false ∧
      (pageHeader content).size = 512 ∧ (pageHeader content).nextInode = next)
    (covered : ∀ other ∈ chainPages nextPage links, Covered before other)
    (notMem : inode ∉ next :: links.map Prod.fst) :
    Wrote before after inode [] page ((next, nextPage) :: links)
      (pageData content ++ chainBytes before.toVolume nextPage links)
      ((next, nextPage) :: links) := by
  rw [List.mem_cons, not_or] at notMem
  have nextBound : next < 4096 := by
    rw [← full.2.2.2]
    exact PageHeader.decode_nextInode_lt _
  have pageBound : nextPage < 4096 := by
    rw [← file.entry]
    exact fsPage_lt (by rw [file.entry]; exact file.used)
  obtain ⟨chain, bytes⟩ := linked.chain_kept file.chain pageBound covered notMem.2
  refine ⟨linked.rewritten full.1, ⟨linked.entry inodeBound, linked.page_ne, ?_⟩, ?_, ?_, ?_, ?_,
    by simp⟩
  · rw [ChainFrom, linked.header]
    refine ⟨full, ⟨?_, file.used⟩, chain⟩
    rw [linked.fsPage next nextBound, if_neg (Ne.symm notMem.1), file.entry]
  · rw [chainBytes_cons, linked.data, bytes]
  · intro other member
    rcases List.mem_cons.1 member with same | later
    · rw [same]
      exact linked.covered
    · exact linked.kept.covered (covered other later)
  · intro other member
    rcases List.mem_cons.1 member with same | later
    · rw [same]
      exact Or.inl linked.fresh
    · exact Or.inr later
  · exact fun other member => Or.inr member

end Chain

theorem exists_cons_of_rounds {free : List Nat} {offset length : Nat}
    (more : 512 < length + offset) (enough : rounds offset length ≤ free.length + 1) :
    ∃ next others, free = next :: others := by
  cases free with
  | nil =>
      simp only [rounds, List.length_nil] at enough
      omega
  | cons next others => exact ⟨next, others, rfl⟩

/-- The loop is behind the end of the old file, and there is room for what it writes. -/
structure Extends (buf : List UInt8) (rest : Nat) (fs : Fs) (inode length : Nat) : Prop where
  anchored : Anchored fs
  inodeBound : inode < 4096
  bound : length ≤ buf.length
  room : rest + 3 * rounds 0 length ≤ spare fs
  free : rounds 0 length ≤
    ((freeInodes fs.toVolume).filter fun other => other ≠ inode).length + 1

/-- Every round of the loop has written a page of its own. -/
def Extended (buf : List UInt8) (rest : Nat) (fs : Fs) (inode length : Nat)
    (outcome : Status × Fs) : Prop :=
  ∃ after taken page links, outcome = (.ok, after) ∧ taken.length + 1 = rounds 0 length ∧
    Wrote fs after inode taken page links (writtenBytes buf 0 length) [] ∧ rest ≤ spare after

section Extending

variable {buf : List UInt8} {rest inode length next page : Nat} {fs middle : Fs}
  {others : List Nat} {memory : Memory} {header : PageHeader}

theorem Extends.split (start : Extends buf rest fs inode length) (more : 512 < length) :
    rest + 3 * rounds 0 (length - 512) + 3 ≤ spare fs ∧ ∃ next others,
      ((freeInodes fs.toVolume).filter fun other => other ≠ inode) = next :: others := by
  have room := start.room
  rw [rounds_start more] at room
  exact ⟨room, exists_cons_of_rounds (show 512 < length + 0 from more) start.free⟩

theorem Extends.later (start : Extends buf rest fs inode length) (more : 512 < length)
    (split : ((freeInodes fs.toVolume).filter fun other => other ≠ inode) = next :: others)
    (anchored : Anchored middle) (freeMiddle : freeInodes middle.toVolume = next :: others)
    (left : rest + 3 * rounds 0 (length - 512) ≤ spare middle) :
    Extends buf rest middle next (length - 512) := by
  have nextMember : next ∈ freeInodes middle.toVolume := by simp [freeMiddle]
  have bound := start.bound
  have free := start.free
  rw [split, List.length_cons, rounds_start more] at free
  refine ⟨anchored, (mem_freeInodes.1 nextMember).1, by omega, left, ?_⟩
  rw [filter_freeInodes freeMiddle]
  exact Nat.le_of_succ_le_succ free

theorem Extends.cons (start : Extends buf rest fs inode length) (more : 512 < length)
    (linked : Linked fs middle inode page
      (savedContent memory (continuedHeader header next) (buf.take 512) 0))
    (freeMiddle : freeInodes middle.toVolume = next :: others) {outcome : Status × Fs}
    (later : Extended buf rest middle next (length - 512) outcome) :
    Extended buf rest fs inode length outcome := by
  have bound := start.bound
  have data : (buf.take 512).length = 512 - 0 := by
    rw [List.length_take]
    omega
  have nextMember : next ∈ freeInodes middle.toVolume := by simp [freeMiddle]
  obtain ⟨after, taken, nextPage, links, result, takenLength, wrote, left⟩ := later
  refine ⟨after, next :: taken, page, (next, nextPage) :: links, result, ?_, ?_, left⟩
  · rw [List.length_cons, takenLength, rounds_start more]
  · have whole := wrote.cons linked start.inodeBound freeMiddle
      (full_continued (by omega) data (mem_freeInodes.1 nextMember).1)
    rw [pageData_savedContent_full (by omega) (by rw [data]; rfl)] at whole
    rw [writtenBytes_continue (show 512 < length + 0 from more) bound]
    exact whole

theorem Extends.last (start : Extends buf rest fs inode length) (fits : length ≤ 512)
    (linked : Linked fs middle inode page (savedContent memory header (buf.take length) 0))
    (notRoot : header.root = false) (last : header.eof = true) (size : header.size = length)
    (left : rest ≤ spare middle) : Extended buf rest fs inode length (.ok, middle) := by
  have bound := start.bound
  refine ⟨middle, [], page, [], rfl, (rounds_last (show length + 0 ≤ 512 from fits)).symm, ?_,
    left⟩
  rw [writtenBytes_last (show length + 0 ≤ 512 from fits) bound]
  exact linked.wrote_data start.inodeBound (by rw [List.length_take]; omega) fits notRoot last size

theorem Extends.room_last (start : Extends buf rest fs inode length) (fits : length ≤ 512) :
    rest + 3 ≤ spare fs := by
  have room := start.room
  rwa [rounds_last (show length + 0 ≤ 512 from fits)] at room

/-- Behind the end of the old file every round writes a page of its own. -/
theorem writeExisting_extend {oldPage fuel : Nat} (start : Extends buf rest fs inode length)
    (oldBound : oldPage < 4096) (oldCovered : Covered fs oldPage)
    (ends : (fs.header oldPage).eof = true) (enough : rounds 0 length ≤ fuel) :
    Extended buf rest fs inode length (writeExisting buf fuel fs inode oldPage true 0 length) := by
  induction fuel generalizing fs inode length with
  | zero => exact absurd enough (Nat.not_le_of_gt (rounds_pos 0 length))
  | succ fuel ih =>
      rcases Nat.lt_or_ge 512 length with more | fits
      · obtain ⟨room, next, others, split⟩ := start.split more
        obtain ⟨middle, page, step, linked, freeMiddle, left⟩ :=
          writeExisting_continue buf fuel true start.anchored room start.inodeBound oldBound
            oldCovered (show 512 < length + 0 from more) split
        have sameHeader : middle.header oldPage = fs.header oldPage :=
          header_congr (by
            rw [Nat.mod_eq_of_lt oldBound]
            exact linked.kept.flash oldPage oldBound oldCovered)
        rw [step, ends, if_pos rfl]
        exact start.cons more linked freeMiddle
          (ih (start.later more split linked.anchored freeMiddle left)
            (linked.kept.covered oldCovered) (by rw [sameHeader, ends]) (by
            rw [rounds_start more] at enough
            exact Nat.le_of_succ_le_succ enough))
      · obtain ⟨after, page, result, linked, left⟩ := writeExisting_last buf fuel true
          start.anchored (start.room_last fits) start.inodeBound oldBound oldCovered
          (show length + 0 ≤ 512 from fits)
        rw [result]
        exact start.last fits linked rfl (by simp [lastHeader]) (by simp [lastHeader]) left

/-- The loop for a file without content. -/
theorem writeFresh_spec {fuel : Nat} (header : PageHeader)
    (start : Extends buf rest fs inode length) (enough : rounds 0 length ≤ fuel) :
    Extended buf rest fs inode length (writeFresh buf fuel fs inode header length) := by
  induction fuel generalizing fs inode header length with
  | zero => exact absurd enough (Nat.not_le_of_gt (rounds_pos 0 length))
  | succ fuel ih =>
      rcases Nat.lt_or_ge 512 length with more | fits
      · obtain ⟨room, next, others, split⟩ := start.split more
        obtain ⟨middle, page, buffer, step, linked, freeMiddle, left⟩ :=
          writeFresh_continue buf fuel header start.anchored room start.inodeBound more split
        rw [step]
        exact start.cons more linked freeMiddle
          (ih (continuedHeader header next)
            (start.later more split linked.anchored freeMiddle left) (by
            rw [rounds_start more] at enough
            exact Nat.le_of_succ_le_succ enough))
      · obtain ⟨after, page, buffer, result, linked, left⟩ :=
          writeFresh_last buf fuel header start.anchored (start.room_last fits) start.inodeBound
            fits
        rw [result]
        exact start.last fits linked rfl rfl rfl left

end Extending

/-- The loop is at a page of the old chain, and there is room for what it writes. -/
structure Overwrites (buf : List UInt8) (rest : Nat) (fs : Fs) (inode oldPage offset length : Nat)
    (links : List (Nat × Nat)) : Prop where
  anchored : Anchored fs
  inodeBound : inode < 4096
  oldBound : oldPage < 4096
  chain : ChainFrom fs.toVolume oldPage links
  covered : ∀ other ∈ chainPages oldPage links, Covered fs other
  notMem : inode ∉ links.map Prod.fst
  inside : offset ≤ 512
  bound : length ≤ buf.length
  room : rest + 3 * rounds offset length ≤ spare fs
  free : rounds offset length ≤
    ((freeInodes fs.toVolume).filter fun other => other ≠ inode).length + 1

/-- The loop returns with the bytes written over the ones of the chain. -/
def Overwritten (buf : List UInt8) (rest fuel : Nat) (fs : Fs) (inode oldPage offset length : Nat)
    (links : List (Nat × Nat)) : Prop :=
  ∃ after taken page links' content,
    writeExisting buf fuel fs inode oldPage false offset length = (.ok, after) ∧
    taken.length + 1 = rounds offset length ∧
    Wrote fs after inode taken page links' content links ∧
    (offset ≤ (fs.header oldPage).size → content =
      overlay (chainBytes fs.toVolume oldPage links) offset (writtenBytes buf offset length)) ∧
    rest ≤ spare after ∧ (rounds offset length = 1 → links' = links)

section Overwriting

variable {buf : List UInt8} {rest fuel inode oldPage offset length : Nat} {fs : Fs}
  {links : List (Nat × Nat)}

/-- A round that is not the last one fills its page and takes the next inode. -/
theorem Overwrites.fill (start : Overwrites buf rest fs inode oldPage offset length links)
    (more : 512 < length + offset) (fuel : Nat) :
    ∃ middle next others page content,
      writeExisting buf (fuel + 1) fs inode oldPage false offset length =
        writeExisting buf fuel middle next
          (if (fs.header oldPage).eof then oldPage
            else fsPage middle.toVolume (fs.header oldPage).nextInode)
          (fs.header oldPage).eof 0 (length - (512 - offset)) ∧
      Linked fs middle inode page content ∧ freeInodes middle.toVolume = next :: others ∧
      ((pageHeader content).root = false ∧ (pageHeader content).eof = false ∧
        (pageHeader content).size = 512 ∧ (pageHeader content).nextInode = next) ∧
      pageData content =
        readPage (fs.flash (oldPage % 4096)) 15 offset ++ buf.take (512 - offset) ∧
      rest + 3 * rounds 0 (length - (512 - offset)) ≤ spare middle ∧
      rounds 0 (length - (512 - offset)) ≤
        ((freeInodes middle.toVolume).filter fun other => other ≠ next).length + 1 := by
  obtain ⟨anchored, inodeBound, oldBound, -, covered, -, inside, bound, room, free⟩ := start
  have count := rounds_continue more inside
  obtain ⟨next, others, split⟩ := exists_cons_of_rounds more free
  have roomHere : rest + 3 * rounds 0 (length - (512 - offset)) + 3 ≤ spare fs := by omega
  obtain ⟨middle, page, step, linked, freeMiddle, left⟩ :=
    writeExisting_continue buf fuel false anchored roomHere inodeBound oldBound
      (covered oldPage List.mem_cons_self) more split
  have data : (buf.take (512 - offset)).length = 512 - offset := by
    rw [List.length_take]
    omega
  have nextMember : next ∈ freeInodes middle.toVolume := by simp [freeMiddle]
  rw [split, List.length_cons] at free
  refine ⟨middle, next, others, page, _, step, linked, freeMiddle,
    full_continued inside data (mem_freeInodes.1 nextMember).1,
    pageData_savedContent_full (by omega) (by rw [data]; simp only [continuedHeader]; omega), left,
    ?_⟩
  rw [filter_freeInodes freeMiddle]
  omega

/-- At the last page of the old chain, the rounds behind the first one extend the file. -/
theorem Overwrites.extend (start : Overwrites buf rest fs inode oldPage offset length [])
    (more : 512 < length + offset) (enough : rounds offset length ≤ fuel + 1) :
    Overwritten buf rest (fuel + 1) fs inode oldPage offset length [] := by
  obtain ⟨middle, next, others, page, content, step, linked, freeMiddle, full, newData, left,
    free⟩ := start.fill more fuel
  have count := rounds_continue more start.inside
  have size := start.chain.size_le
  have ends := start.chain.2.1
  have bound := start.bound
  have oldCovered := start.covered oldPage List.mem_cons_self
  have nextMember : next ∈ freeInodes middle.toVolume := by simp [freeMiddle]
  have sameHeader : middle.header oldPage = fs.header oldPage :=
    header_congr (by
      rw [Nat.mod_eq_of_lt start.oldBound]
      exact linked.kept.flash oldPage start.oldBound oldCovered)
  obtain ⟨after, taken, nextPage, links, result, takenLength, wrote, left'⟩ :=
    writeExisting_extend (Extends.mk linked.anchored (mem_freeInodes.1 nextMember).1
        (by omega : length - (512 - offset) ≤ buf.length) left free)
      start.oldBound (linked.kept.covered oldCovered) (by rw [sameHeader, ends])
      (by omega : rounds 0 (length - (512 - offset)) ≤ fuel)
  refine ⟨after, next :: taken, page, (next, nextPage) :: links, _, ?_, ?_,
    wrote.cons linked start.inodeBound freeMiddle full, ?_, left', fun once => ?_⟩
  · rw [step, ends, if_pos rfl]
    exact result
  · rw [List.length_cons, takenLength, count]
  · intro filled
    rw [newData, ← take_data filled size, List.append_assoc, ← writtenBytes_continue more bound,
      chainBytes_nil, overlay_end (by rw [length_data, length_writtenBytes]; omega)]
  · have positive := rounds_pos 0 (length - (512 - offset))
    omega

/-- At another page, the round is followed by the ones from the next page on. -/
theorem Overwrites.next {second secondPage : Nat}
    (start : Overwrites buf rest fs inode oldPage offset length ((second, secondPage) :: links))
    (more : 512 < length + offset)
    (later : ∀ middle next,
      Overwrites buf rest middle next secondPage 0 (length - (512 - offset)) links →
        Overwritten buf rest fuel middle next secondPage 0 (length - (512 - offset)) links) :
    Overwritten buf rest (fuel + 1) fs inode oldPage offset length
      ((second, secondPage) :: links) := by
  obtain ⟨middle, next, others, page, content, step, linked, freeMiddle, full, newData, left,
    free⟩ := start.fill more fuel
  have count := rounds_continue more start.inside
  have chain := start.chain
  have size := chain.size_le
  have bound := start.bound
  have inside := start.inside
  have notMem := start.notMem
  rw [List.map_cons, List.mem_cons, not_or] at notMem
  have nextMember : next ∈ freeInodes middle.toVolume := by simp [freeMiddle]
  obtain ⟨nextBound, nextUnused⟩ := mem_freeInodes.1 nextMember
  have file : HasChain fs.toVolume second secondPage links :=
    ⟨chain.2.1.1, chain.2.1.2, chain.2.2⟩
  have secondBound := chain.inode_lt _ List.mem_cons_self
  have coveredRest : ∀ other ∈ chainPages secondPage links, Covered fs other :=
    fun other member => start.covered other (List.mem_cons_of_mem _ member)
  have pageBound := chain.page_lt start.oldBound secondPage (by simp [chainPages])
  obtain ⟨chainMiddle, bytesMiddle⟩ :=
    linked.chain_kept file.chain pageBound coveredRest notMem.2
  have entryMiddle : fsPage middle.toVolume second = secondPage := by
    rw [linked.fsPage second secondBound, if_neg (Ne.symm notMem.1), file.entry]
  have nextNotMem : next ∉ links.map Prod.fst := by
    intro member
    obtain ⟨link, linkMember, rfl⟩ := List.mem_map.1 member
    obtain ⟨entry, used⟩ := chainMiddle.fsPage_link link linkMember
    exact used (entry.symm.trans nextUnused)
  obtain ⟨after, taken, nextPage, links', content, result, takenLength, wrote, bytes, left', _⟩ :=
    later middle next ⟨linked.anchored, nextBound, pageBound, chainMiddle,
      fun other member => linked.kept.covered (coveredRest other member), nextNotMem,
      Nat.zero_le _, by omega, left, free⟩
  refine ⟨after, next :: taken, page, (next, nextPage) :: links', _, ?_, ?_,
    (wrote.mono (List.subset_cons_self (second, secondPage) links)).cons
      linked start.inodeBound freeMiddle full, ?_, left', fun once => ?_⟩
  · rw [step, chain.1.2.1, chain.1.2.2.2, entryMiddle]
    exact result
  · rw [List.length_cons, takenLength, count]
  · intro filled
    rw [newData, bytes (Nat.zero_le _), bytesMiddle, ← take_data filled size,
      chainBytes_cons, writtenBytes_continue more bound,
      overlay_across (by rw [length_data, chain.1.2.2.1, List.length_take]; omega)]
  · have positive := rounds_pos 0 (length - (512 - offset))
    omega

/-- The last round keeps the chain behind its page. -/
theorem Overwrites.last (start : Overwrites buf rest fs inode oldPage offset length links)
    (fits : length + offset ≤ 512) :
    Overwritten buf rest (fuel + 1) fs inode oldPage offset length links := by
  obtain ⟨anchored, inodeBound, oldBound, chain, covered, notMem, -, bound, room, -⟩ := start
  have count := rounds_last fits
  have size := chain.size_le
  have roomHere : rest + 3 ≤ spare fs := by omega
  obtain ⟨after, page, result, linked, left⟩ := writeExisting_last buf fuel false
    anchored roomHere inodeBound oldBound (covered oldPage List.mem_cons_self) fits
  have data : (buf.take length).length = length := by
    rw [List.length_take]
    omega
  have stored := pageHeader_savedContent (fs.flash (oldPage % 4096))
    (lastHeader (fs.header oldPage) false (length + offset))
    (by omega : offset + (buf.take length).length ≤ 512)
  have newData : offset ≤ (fs.header oldPage).size →
      pageData (savedContent (fs.flash (oldPage % 4096))
        (lastHeader (fs.header oldPage) false (length + offset)) (buf.take length) offset) =
      overlay (fs.data oldPage) offset (writtenBytes buf offset length) := by
    intro filled
    have whole := pageData_last filled size
      (by omega : (buf.take length).length + offset ≤ 512)
    rw [data] at whole
    rw [whole, writtenBytes_last fits bound]
  cases links with
  | nil =>
      refine ⟨after, [], page, [], _, result, count.symm,
        linked.wrote_end inodeBound (by rw [stored]; rfl)
          (by rw [stored]; simp [lastHeader, chain.2.1])
          (by rw [stored]; simp only [lastHeader]; split <;> omega) [], ?_, left, fun _ => rfl⟩
      rw [chainBytes_nil]
      exact newData
  | cons link links =>
      obtain ⟨second, secondPage⟩ := link
      have sizeFull := chain.1.2.2.1
      refine ⟨after, [], page, (second, secondPage) :: links, _, result, count.symm,
        linked.wrote_front inodeBound ⟨chain.2.1.1, chain.2.1.2, chain.2.2⟩ ?_
          (fun other member => covered other (List.mem_cons_of_mem _ member)) notMem,
        ?_, left, fun _ => rfl⟩
      · rw [stored]
        refine ⟨rfl, ?_, ?_, ?_⟩
        · simp [lastHeader, chain.1.2.1]
        · simp only [lastHeader, Bool.false_eq_true, false_or]
          rw [if_neg (by omega), sizeFull]
        · simp only [lastHeader]
          rw [Nat.mod_eq_of_lt (header_nextInode_lt _ _), chain.1.2.2.2]
      · intro filled
        rw [newData filled, chainBytes_cons, overlay_append
          (by rw [length_data, length_writtenBytes]; omega)]

/-- The loop from a page of the old chain on. -/
theorem writeExisting_spec (start : Overwrites buf rest fs inode oldPage offset length links)
    (enough : rounds offset length ≤ fuel) :
    Overwritten buf rest fuel fs inode oldPage offset length links := by
  induction fuel generalizing fs inode oldPage offset length links with
  | zero =>
      simp only [rounds] at enough
      omega
  | succ fuel ih =>
      rcases Nat.lt_or_ge 512 (length + offset) with more | fits
      · have count := rounds_continue more start.inside
        cases links with
        | nil => exact start.extend more enough
        | cons link links => exact start.next more fun _ _ later => ih later (by omega)
      · exact start.last fits

end Overwriting

end Ethersex.Dataflash

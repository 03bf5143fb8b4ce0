import Ethersex.ByteMemory
import Ethersex.GuardedRuns
import Mathlib.Data.UInt

/-!
# The TFTP bootloader

`services/tftp/tftp-bootload.c` writes the blocks of a TFTP transfer to the program flash.  The
address of a block is computed from its number in `flash_base_t`, which has 32 bits on a device
with more than 64 KiB of flash and 16 bits on the others.

A bootloader is built without `TFTP_UPLOAD_SUPPORT`, so it takes write requests and data
packets only.  The checksum files of `TFTP_CRC_SUPPORT` are left out.
-/

namespace Ethersex.TftpBootloader

open ByteMemory GuardedRuns

variable {device : Device} {state : Bootloader}

/-- `FLASHEND`, `SPM_PAGESIZE` and `BOOTLOADER_START_ADDRESS`.  A block is made of whole pages. -/
structure Device where
  flashEnd : Nat
  pageSize : Nat
  bootloaderStart : Nat
  wholePages : pageSize ∣ 512

/-- A page that was programmed with bytes of a block. -/
structure Programming where
  block : UInt16
  page : Nat
  bytes : List UInt8
  deriving DecidableEq

/-- The connection state, `bootload_delay`, the flash, and what was programmed since the
transfer began. -/
structure Bootloader where
  download : Bool
  transfered : UInt16
  finished : Bool
  bootloadDelay : Nat
  flash : Memory
  programmed : List Programming

inductive Packet where
  | writeRequest
  /-- The content has the length `uip_datalen() - 4`. -/
  | data (block : UInt16) (content : List UInt8)
  | other

inductive Reply where
  | ack (block : UInt16)
  | error
  deriving DecidableEq

/-- The address of a block, as a `flash_base_t`. -/
def flashBase (device : Device) (block : UInt16) : Nat :=
  if device.flashEnd > 65535 then 512 * (block - 1).toNat % 4294967296
  else 512 * (block - 1).toNat % 65536

/-- A page that is not below the bootloader, or has not changed, is left alone. -/
def flashPage (device : Device) (block : UInt16) (state : Bootloader) (page : Nat)
    (buf : List UInt8) : Bootloader :=
  if page + device.pageSize > device.bootloaderStart then state
  else if readBlock state.flash page device.pageSize = buf then state
  else
    { state with
      flash := writeBlock state.flash page buf
      programmed := state.programmed ++ [⟨block, page, buf⟩] }

/-- The pages of a block. -/
def flashPages (device : Device) (block : UInt16) (bytes : List UInt8) (state : Bootloader)
    (count : Nat) : Bootloader :=
  (List.range count).foldl (fun state i =>
    flashPage device block state (flashBase device block + i * device.pageSize)
      ((bytes.drop (i * device.pageSize)).take device.pageSize)) state

/-- The bytes of a block; a short one is filled up. -/
def blockBytes (content : List UInt8) : List UInt8 :=
  content.take 512 ++ List.replicate (512 - content.length) 0xff

/-- A data packet with the next block. -/
def acceptBlock (device : Device) (state : Bootloader) (block : UInt16) (content : List UInt8) :
    Bootloader :=
  let flashed := flashPages device block (blockBytes content) state (512 / device.pageSize)
  if content.length < 512 then
    { flashed with finished := true, bootloadDelay := 1, transfered := block }
  else { flashed with transfered := block }

def handlePacket (device : Device) (state : Bootloader) : Packet → Bootloader × Reply
  | .writeRequest =>
      ({ state with download := false, transfered := 0, finished := false, programmed := [] },
        .ack 0)
  | .data block content =>
      let state := { state with bootloadDelay := 0 }
      if state.download then (state, .error)
      else if block < state.transfered then (state, .error)
      else if block = state.transfered then (state, .ack block)
      else if block > state.transfered + 1 then (state, .error)
      else (acceptBlock device state block content, .ack block)
  | .other => (state, .error)

def step (device : Device) (state : Bootloader) (packet : Packet) : Bootloader :=
  (handlePacket device state packet).1

/-- The bytes of a block go to its own addresses, nothing is programmed at or above the
bootloader, and every page lies behind the pages programmed before. -/
structure RightlyProgrammed (device : Device) (programmed : List Programming) : Prop where
  confined : ∀ entry ∈ programmed, 512 * (entry.block.toNat - 1) ≤ entry.page ∧
    entry.page + device.pageSize ≤ 512 * entry.block.toNat
  below : ∀ entry ∈ programmed, entry.page + device.pageSize ≤ device.bootloaderStart
  once : programmed.Pairwise fun earlier later => earlier.page + device.pageSize ≤ later.page

/-- The address of the next block does not exceed `flash_base_t`. -/
def Addressable (device : Device) (state : Bootloader) : Packet → Prop
  | .data block _ => block = state.transfered + 1 → device.flashEnd > 65535 ∨ block.toNat ≤ 128
  | _ => True

section Pages

variable {device : Device} {block : UInt16} {bytes : List UInt8} {state : Bootloader}

/-- What is programmed for one page. -/
theorem flashPage_programmed (device : Device) (block : UInt16) (state : Bootloader) (page : Nat)
    (buf : List UInt8) :
    (flashPage device block state page buf).programmed = state.programmed ∨
      page + device.pageSize ≤ device.bootloaderStart ∧
        (flashPage device block state page buf).programmed =
          state.programmed ++ [⟨block, page, buf⟩] := by
  unfold flashPage
  split
  · exact Or.inl rfl
  next fits =>
    split
    · exact Or.inl rfl
    · exact Or.inr ⟨Nat.not_lt.mp fits, rfl⟩

/-- The pages of a block are programmed one behind the other. -/
structure BlockPages (device : Device) (block : UInt16) (count : Nat)
    (programmed : List Programming) : Prop where
  ofBlock : ∀ entry ∈ programmed, entry.block = block
  inBlock : ∀ entry ∈ programmed, flashBase device block ≤ entry.page ∧
    entry.page + device.pageSize ≤ flashBase device block + count * device.pageSize
  below : ∀ entry ∈ programmed, entry.page + device.pageSize ≤ device.bootloaderStart
  once : programmed.Pairwise fun earlier later => earlier.page + device.pageSize ≤ later.page

theorem BlockPages.succ {count : Nat} {programmed : List Programming}
    (pages : BlockPages device block count programmed) :
    BlockPages device block (count + 1) programmed where
  ofBlock := pages.ofBlock
  inBlock entry member := by
    obtain ⟨above, inside⟩ := pages.inBlock entry member
    rw [Nat.succ_mul]
    omega
  below := pages.below
  once := pages.once

theorem BlockPages.snoc {count : Nat} {programmed : List Programming} {buf : List UInt8}
    (pages : BlockPages device block count programmed)
    (fits : flashBase device block + count * device.pageSize + device.pageSize ≤
      device.bootloaderStart) :
    BlockPages device block (count + 1)
      (programmed ++ [⟨block, flashBase device block + count * device.pageSize, buf⟩]) where
  ofBlock entry member := by
    rcases List.mem_append.mp member with old | new
    · exact pages.ofBlock entry old
    · rw [List.mem_singleton.mp new]
  inBlock entry member := by
    rcases List.mem_append.mp member with old | new
    · exact pages.succ.inBlock entry old
    · rw [List.mem_singleton.mp new, Nat.succ_mul]
      dsimp only
      omega
  below entry member := by
    rcases List.mem_append.mp member with old | new
    · exact pages.below entry old
    · rw [List.mem_singleton.mp new]
      exact fits
  once := by
    rw [List.pairwise_append]
    refine ⟨pages.once, List.pairwise_singleton _ _, ?_⟩
    intro earlier old later new
    rw [List.mem_singleton.mp new]
    exact (pages.inBlock earlier old).2

theorem flashPages_programmed (device : Device) (block : UInt16) (bytes : List UInt8)
    (state : Bootloader) (count : Nat) :
    ∃ new, (flashPages device block bytes state count).programmed = state.programmed ++ new ∧
      BlockPages device block count new := by
  induction count with
  | zero =>
      refine ⟨[], by simp [flashPages], ?_⟩
      constructor <;> simp
  | succ count ih =>
      obtain ⟨new, programmed, pages⟩ := ih
      have last : flashPages device block bytes state (count + 1) =
          flashPage device block (flashPages device block bytes state count)
            (flashBase device block + count * device.pageSize)
            ((bytes.drop (count * device.pageSize)).take device.pageSize) := by
        rw [flashPages, List.range_succ, List.foldl_append]
        rfl
      rw [last]
      rcases flashPage_programmed device block (flashPages device block bytes state count)
          (flashBase device block + count * device.pageSize)
          ((bytes.drop (count * device.pageSize)).take device.pageSize) with same | ⟨fits, more⟩
      · exact ⟨new, same.trans programmed, pages.succ⟩
      · refine ⟨new ++ [⟨block, flashBase device block + count * device.pageSize,
          (bytes.drop (count * device.pageSize)).take device.pageSize⟩], ?_, pages.snoc fits⟩
        rw [more, programmed, List.append_assoc]

end Pages

/-- What was programmed belongs to the blocks transfered so far. -/
structure Kept (device : Device) (state : Bootloader) : Prop where
  right : RightlyProgrammed device state.programmed
  transfered : ∀ entry ∈ state.programmed, entry.block.toNat ≤ state.transfered.toNat

theorem kept_of_nothing (nothing : state.programmed = []) :
    Kept device state := by
  constructor
  · constructor <;> simp [nothing]
  · simp [nothing]

section Step

variable {device : Device} {state : Bootloader}

/-- Of the blocks only the next one gets past the checks. -/
theorem toNat_of_accepted {block transfered : UInt16} (notEarly : ¬ block < transfered)
    (notSame : block ≠ transfered) (notLate : ¬ block > transfered + 1) :
    block.toNat = transfered.toNat + 1 := by
  have different : block.toNat ≠ transfered.toNat := fun same => notSame (UInt16.toNat_inj.mp same)
  have small := block.toNat_lt
  rw [UInt16.lt_iff_toNat_lt] at notEarly
  rw [gt_iff_lt, UInt16.lt_iff_toNat_lt, UInt16.toNat_add, UInt16.toNat_one] at notLate
  omega

theorem eq_of_toNat {block transfered : UInt16} (next : block.toNat = transfered.toNat + 1) :
    block = transfered + 1 := by
  have small := block.toNat_lt
  apply UInt16.toNat_inj.mp
  rw [UInt16.toNat_add, UInt16.toNat_one]
  omega

/-- The next block is accepted, if it is addressable then at its own addresses. -/
theorem Kept.acceptBlock (kept : Kept device state) {block : UInt16} (content : List UInt8)
    (next : block.toNat = state.transfered.toNat + 1)
    (addressable : device.flashEnd > 65535 ∨ block.toNat ≤ 128) :
    Kept device (acceptBlock device state block content) := by
  have base : flashBase device block = 512 * state.transfered.toNat := by
    have small := block.toNat_lt
    have index : (block - 1).toNat = state.transfered.toNat := by
      rw [UInt16.toNat_sub_of_le _ _
        (UInt16.le_iff_toNat_le.mpr (by rw [next]; exact Nat.le_add_left 1 _)),
        next]
      rfl
    rw [flashBase, index]
    split <;> omega
  have blockPages : 512 / device.pageSize * device.pageSize = 512 :=
    Nat.div_mul_cancel device.wholePages
  obtain ⟨new, programmed, pages⟩ := flashPages_programmed device block (blockBytes content) state
    (512 / device.pageSize)
  have whole : (TftpBootloader.acceptBlock device state block content).programmed =
      state.programmed ++ new := by
    rw [← programmed, TftpBootloader.acceptBlock]
    split <;> rfl
  have counted : (TftpBootloader.acceptBlock device state block content).transfered = block := by
    rw [TftpBootloader.acceptBlock]
    split <;> rfl
  have located : ∀ entry ∈ new, 512 * state.transfered.toNat ≤ entry.page ∧
      entry.page + device.pageSize ≤ 512 * (state.transfered.toNat + 1) := by
    intro entry member
    have inBlock := pages.inBlock entry member
    rw [blockPages, base] at inBlock
    exact inBlock
  constructor
  · rw [whole]
    constructor
    · intro entry member
      rcases List.mem_append.mp member with old | fresh
      · exact kept.right.confined entry old
      · rw [pages.ofBlock entry fresh, next, Nat.add_sub_cancel]
        exact located entry fresh
    · intro entry member
      rcases List.mem_append.mp member with old | fresh
      · exact kept.right.below entry old
      · exact pages.below entry fresh
    · rw [List.pairwise_append]
      refine ⟨kept.right.once, pages.once, ?_⟩
      intro earlier old later fresh
      calc
        earlier.page + device.pageSize ≤ 512 * earlier.block.toNat :=
          (kept.right.confined earlier old).2
        _ ≤ 512 * state.transfered.toNat := Nat.mul_le_mul_left 512 (kept.transfered earlier old)
        _ ≤ later.page := (located later fresh).1
  · rw [whole, counted, next]
    intro entry member
    rcases List.mem_append.mp member with old | fresh
    · exact Nat.le_succ_of_le (kept.transfered entry old)
    · rw [pages.ofBlock entry fresh, next]

theorem Kept.step (kept : Kept device state) {packet : Packet}
    (addressable : Addressable device state packet) :
    Kept device (step device state packet) := by
  cases packet with
  | writeRequest => exact kept_of_nothing rfl
  | other => exact kept
  | data block content =>
      simp only [TftpBootloader.step, handlePacket]
      split
      · exact ⟨kept.right, kept.transfered⟩
      · split
        · exact ⟨kept.right, kept.transfered⟩
        next notEarly =>
          split
          · exact ⟨kept.right, kept.transfered⟩
          next notSame =>
            split
            · exact ⟨kept.right, kept.transfered⟩
            next notLate =>
              have next := toNat_of_accepted notEarly notSame notLate
              have same : Kept device { state with bootloadDelay := 0 } :=
                ⟨kept.right, kept.transfered⟩
              exact same.acceptBlock content next (addressable (eq_of_toNat next))

end Step

/-- In every run in which the addresses of the blocks do not exceed `flash_base_t`, the blocks
of a transfer are programmed at their own addresses, below the bootloader, and every page at
most once. -/
theorem programs_right_of_guarded_run {device : Device} {start : Bootloader}
    {packets : List Packet} (nothing : start.programmed = [])
    (guarded : Guarded (fun state packet => some (step device state packet)) (Addressable device)
      start packets) :
    ∃ last, run (fun state packet => some (step device state packet)) start packets = some last ∧
      RightlyProgrammed device last.programmed := by
  have progress : ∀ state packet, Kept device state → Addressable device state packet →
      ∃ next, some (step device state packet) = some next ∧ Kept device next :=
    fun state packet kept addressable => ⟨step device state packet, rfl, kept.step addressable⟩
  obtain ⟨last, reached, kept⟩ := guarded.exists_run progress (kept_of_nothing nothing)
  exact ⟨last, reached, kept.right⟩

/-- With 16 bits of address a block from the 129th on is programmed at wrong addresses, if
anything of it is programmed. -/
theorem not_right_of_wrapped {block : UInt16} {bytes : List UInt8}
    {new : List Programming} (narrow : device.flashEnd ≤ 65535) (late : 128 < block.toNat)
    (programmed : (flashPages device block bytes state (512 / device.pageSize)).programmed =
      state.programmed ++ new) (changed : new ≠ []) :
    ¬ RightlyProgrammed device (state.programmed ++ new) := by
  intro right
  obtain ⟨pages, same, located⟩ := flashPages_programmed device block bytes state
    (512 / device.pageSize)
  rw [programmed, List.append_cancel_left_eq] at same
  rw [← same] at located
  obtain ⟨entry, member⟩ := List.exists_mem_of_ne_nil new changed
  have inBlock := (located.inBlock entry member).2
  have confined := (right.confined entry (List.mem_append_right _ member)).1
  have positive := Nat.pos_of_dvd_of_pos device.wholePages (by decide)
  rw [Nat.div_mul_cancel device.wholePages, flashBase, if_neg (Nat.not_lt.mpr narrow)] at inBlock
  rw [located.ofBlock entry member] at confined
  omega

/-- A device with 64 KiB of flash, of which the bootloader takes 4 KiB. -/
def smallDevice : Device where
  flashEnd := 65535
  pageSize := 256
  bootloaderStart := 61440
  wholePages := by decide

/-- The bootloader with an erased flash. -/
def erased : Bootloader where
  download := false
  transfered := 0
  finished := false
  bootloadDelay := 250
  flash := fun _ => 0xff
  programmed := []

/-- A transfer of one block. -/
theorem programs_right_short :
    ∃ last, run (fun state packet => some (step smallDevice state packet)) erased
        [.writeRequest, .data 1 [0x0c, 0x94]] = some last ∧
      RightlyProgrammed smallDevice last.programmed :=
  programs_right_of_guarded_run rfl ⟨trivial, by
    intro next _
    exact ⟨fun _ => Or.inr (by decide), fun _ _ => trivial⟩⟩

/-- The first blocks of a transfer that leave the erased flash as it is. -/
def blankBlocks (count : Nat) : List Packet :=
  (List.range count).map fun index => .data (UInt16.ofNat (index + 1)) (List.replicate 512 0xff)

/-- The state after blank blocks. -/
structure Blank (transfered : Nat) (state : Bootloader) : Prop where
  download : state.download = false
  transfered : state.transfered = UInt16.ofNat transfered
  flash : state.flash = fun _ => 0xff
  programmed : state.programmed = []

/-- A page with erased bytes is not programmed on an erased flash. -/
theorem flashPage_blank {block : UInt16} (erased : state.flash = fun _ => 0xff) (page : Nat) :
    flashPage device block state page (List.replicate device.pageSize 0xff) = state := by
  have same : readBlock state.flash page device.pageSize = List.replicate device.pageSize 0xff := by
    simp [erased, readBlock]
  unfold flashPage
  rw [same]
  split
  · rfl
  · exact if_pos rfl

theorem flashPages_blank {device : Device} {block : UInt16} {state : Bootloader}
    (erased : state.flash = fun _ => 0xff) {count : Nat} (inside : count * device.pageSize ≤ 512) :
    flashPages device block (List.replicate 512 0xff) state count = state := by
  induction count with
  | zero => rfl
  | succ count ih =>
      rw [Nat.succ_mul] at inside
      have page : ((List.replicate 512 0xff).drop (count * device.pageSize)).take device.pageSize =
          List.replicate device.pageSize (0xff : UInt8) := by
        rw [List.drop_replicate, List.take_replicate, Nat.min_eq_left (by omega)]
      have before := ih (by omega)
      rw [flashPages] at before ⊢
      rw [List.range_succ, List.foldl_append, before, List.foldl_cons, List.foldl_nil, page]
      exact flashPage_blank erased _

theorem step_next {block : UInt16} {content : List UInt8}
    (download : state.download = false) (next : block.toNat = state.transfered.toNat + 1) :
    step device state (.data block content) =
      acceptBlock device { state with bootloadDelay := 0 } block content := by
  have notEarly : ¬ block < state.transfered := by
    rw [UInt16.lt_iff_toNat_lt]
    omega
  have notSame : block ≠ state.transfered := by
    intro same
    rw [same] at next
    omega
  have notLate : ¬ block > state.transfered + 1 := by
    rw [← eq_of_toNat next]
    exact fun beyond => Nat.lt_irrefl _ (UInt16.lt_iff_toNat_lt.mp beyond)
  simp [step, handlePacket, download, notEarly, notSame, notLate]

theorem Blank.step {count : Nat} (blank : Blank count state)
    (room : count < 65535) (device : Device) :
    Blank (count + 1) (step device state
      (.data (UInt16.ofNat (count + 1)) (List.replicate 512 0xff))) := by
  have next : (UInt16.ofNat (count + 1)).toNat = state.transfered.toNat + 1 := by
    rw [blank.transfered, UInt16.toNat_ofNat', UInt16.toNat_ofNat']
    omega
  have pages := @flashPages_blank device (UInt16.ofNat (count + 1))
    { state with bootloadDelay := 0 } blank.flash (512 / device.pageSize)
    (Nat.div_mul_le_self 512 device.pageSize)
  have bytes : blockBytes (List.replicate 512 0xff) = List.replicate 512 0xff := by
    simp only [blockBytes, List.take_replicate, List.length_replicate, Nat.min_self, Nat.sub_self,
      List.replicate_zero, List.append_nil]
  have long : ¬ (List.replicate 512 (0xff : UInt8)).length < 512 := by
    rw [List.length_replicate]
    exact Nat.lt_irrefl 512
  rw [step_next blank.download next, acceptBlock, bytes, pages, if_neg long]
  exact ⟨blank.download, rfl, blank.flash, blank.programmed⟩

/-- The blank blocks of a transfer, which leave the flash erased. -/
theorem blank_run (device : Device) {count : Nat} (room : count ≤ 65535) :
    ∃ last, run (fun state packet => some (step device state packet)) erased (blankBlocks count) =
      some last ∧ Blank count last := by
  induction count with
  | zero => exact ⟨erased, rfl, rfl, rfl, rfl, rfl⟩
  | succ count ih =>
      obtain ⟨last, reached, blank⟩ := ih (Nat.le_of_succ_le room)
      refine ⟨_, ?_, blank.step room device⟩
      rw [blankBlocks, List.range_succ, List.map_append, run_append]
      rw [blankBlocks] at reached
      rw [reached]
      rfl

/-- A page that is not erased is programmed on an erased flash. -/
theorem flashPage_first {device : Device} {block : UInt16} {state : Bootloader} {page : Nat}
    {buf : List UInt8} (erased : state.flash = fun _ => 0xff)
    (fits : page + device.pageSize ≤ device.bootloaderStart)
    (changed : buf ≠ List.replicate device.pageSize 0xff) :
    ⟨block, page, buf⟩ ∈ (flashPage device block state page buf).programmed := by
  have content : readBlock state.flash page device.pageSize ≠ buf := by
    rw [erased, readBlock, List.map_const', List.length_range]
    exact Ne.symm changed
  rw [flashPage, if_neg (Nat.not_lt.mpr fits), if_neg content]
  exact List.mem_append_right _ List.mem_cons_self

/-- What was programmed stays in the list. -/
theorem mem_flashPage {block : UInt16} {page : Nat}
    {buf : List UInt8} {entry : Programming} (member : entry ∈ state.programmed) :
    entry ∈ (flashPage device block state page buf).programmed := by
  rcases flashPage_programmed device block state page buf with same | ⟨-, more⟩
  · rwa [same]
  · rw [more]
    exact List.mem_append_left _ member

theorem mem_flashPages {block : UInt16} {bytes : List UInt8}
    {entry : Programming} {count : Nat} (positive : 0 < count)
    (member : entry ∈ (flashPage device block state
      (flashBase device block + 0 * device.pageSize)
      ((bytes.drop (0 * device.pageSize)).take device.pageSize)).programmed) :
    entry ∈ (flashPages device block bytes state count).programmed := by
  induction count with
  | zero => exact absurd positive (Nat.lt_irrefl 0)
  | succ count ih =>
      rw [flashPages, List.range_succ, List.foldl_append]
      cases count with
      | zero => exact member
      | succ count => exact mem_flashPage (ih (Nat.succ_pos count))

/-- With 16 bits of address the 129th block is programmed over the first one. -/
theorem wrapped_block_not_right :
    ¬ ∀ (device : Device) (start last : Bootloader) (packets : List Packet),
        start.programmed = [] →
          run (fun state packet => some (step device state packet)) start packets = some last →
            RightlyProgrammed device last.programmed := by
  intro claimed
  obtain ⟨before, reached, blank⟩ := blank_run smallDevice (show 128 ≤ 65535 by decide)
  have right := claimed smallDevice erased _
    (blankBlocks 128 ++ [.data 129 (List.replicate 512 0)]) rfl (by
      rw [run_append, reached]
      rfl)
  have next : (129 : UInt16).toNat = before.transfered.toNat + 1 := by
    rw [blank.transfered]
    rfl
  have changed : ((blockBytes (List.replicate 512 0)).drop (0 * smallDevice.pageSize)).take
      smallDevice.pageSize ≠ List.replicate smallDevice.pageSize 0xff := by
    intro same
    exact absurd (congrArg List.head? same) (by decide)
  have first := @flashPage_first smallDevice 129 { before with bootloadDelay := 0 }
    (flashBase smallDevice 129 + 0 * smallDevice.pageSize) _ blank.flash (by decide) changed
  have programmed : ⟨129, flashBase smallDevice 129 + 0 * smallDevice.pageSize,
      ((blockBytes (List.replicate 512 0)).drop (0 * smallDevice.pageSize)).take
        smallDevice.pageSize⟩ ∈
      (step smallDevice before (.data 129 (List.replicate 512 0))).programmed := by
    have long : ¬ (List.replicate 512 (0 : UInt8)).length < 512 := by
      rw [List.length_replicate]
      exact Nat.lt_irrefl 512
    rw [step_next blank.download next, acceptBlock, if_neg long]
    exact mem_flashPages (by decide) first
  exact absurd (right.confined _ programmed).1 (by decide)

end Ethersex.TftpBootloader

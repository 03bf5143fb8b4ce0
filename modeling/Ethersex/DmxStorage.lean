import Ethersex.LoggedStores
import Mathlib.Data.UInt
import Mathlib.Tactic.IntervalCases

/-!
# The channels of the DMX storage

`set_dmx_channels` of `services/dmx-storage/dmx_storage.c` over the data memory of the controller,
with 16 bit addresses.  The clipping of the block is done with 16 bit numbers.
-/

namespace Ethersex.DmxStorage

open LoggedStores

/-- The settings, and where `dmx_universes` lies behind the registers. -/
structure Storage where
  universes : Nat
  channels : Nat
  slots : Nat
  base : Nat
  slotCount : slots < 256
  behindRegisters : 0 < base
  inMemory : base + universes * (channels + 2 * slots + 2) ≤ 65536

/-- `dmx_slot_state`. -/
inductive SlotState
  | unchanged
  | newValues
  deriving DecidableEq

/-- The data memory, with the addresses that have been written. -/
abbrev Memory := Logged UInt16 UInt8

variable (storage : Storage)

/-- Where `channels` of a universe begins; `slots`, `universe_state` and `dimmer` are behind it. -/
def universeStart (dmxUniverse : UInt8) : Nat :=
  storage.base + dmxUniverse.toNat * (storage.channels + 2 * storage.slots + 2)

/-- The address of `dmx_universes[universe].channels[channel]`. -/
def channelAddress (dmxUniverse : UInt8) (channel : UInt16) : UInt16 :=
  UInt16.ofNat (universeStart storage dmxUniverse) + channel

/-- The address of `dmx_universes[universe].slots[slot].slot_state`. -/
def slotStateAddress (dmxUniverse : UInt8) (slot : Nat) : UInt16 :=
  UInt16.ofNat (universeStart storage dmxUniverse + storage.channels + 2 * slot)

/-- The length that remains of a block. -/
def clippedLength (startFromChannel len : UInt16) : UInt16 :=
  if storage.channels < (startFromChannel + len).toNat then
    UInt16.ofNat storage.channels - startFromChannel
  else len

/-- `set_dmx_channels`. -/
def setDmxChannels (channelData : Nat → UInt8) (dmxUniverse : UInt8) (startFromChannel len : UInt16)
    (memory : Memory) : Memory :=
  let len := clippedLength storage startFromChannel len
  if dmxUniverse.toNat < storage.universes then
    let memory := storeLoop memory
      (fun i => channelAddress storage dmxUniverse (startFromChannel + UInt16.ofNat i)) channelData
      len.toNat
    storeLoop memory (slotStateAddress storage dmxUniverse) (fun _ => 1) storage.slots
  else memory

/-- `get_dmx_slot_state`. -/
def getDmxSlotState (dmxUniverse : UInt8) (slot : Int8) (memory : Memory) : SlotState :=
  if dmxUniverse.toNat < storage.universes ∧ slot.toInt < storage.slots ∧ 0 ≤ slot.toInt then
    if memory.memory (slotStateAddress storage dmxUniverse slot.toInt.toNat) = 1 then .newValues
    else .unchanged
  else .unchanged

section Addresses

variable {storage} {dmxUniverse : UInt8}

theorem universe_inside (valid : dmxUniverse.toNat < storage.universes) :
    0 < universeStart storage dmxUniverse ∧
      universeStart storage dmxUniverse + (storage.channels + 2 * storage.slots + 2) ≤ 65536 := by
  have positive := storage.behindRegisters
  have inMemory := storage.inMemory
  have block := Nat.mul_le_mul_right (storage.channels + 2 * storage.slots + 2)
    (Nat.succ_le_of_lt valid)
  rw [Nat.succ_mul] at block
  rw [universeStart]
  omega

theorem toNat_slotStateAddress (valid : dmxUniverse.toNat < storage.universes) {slot : Nat}
    (inside : slot < storage.slots) : (slotStateAddress storage dmxUniverse slot).toNat =
      universeStart storage dmxUniverse + storage.channels + 2 * slot := by
  have bounds := universe_inside valid
  exact UInt16.toNat_ofNat_of_lt' (by simp only [UInt16.size]; omega)

/-- Inside of the array the address of a channel does not wrap. -/
theorem toNat_channelAddress (valid : dmxUniverse.toNat < storage.universes) {channel : UInt16}
    (inside : channel.toNat < storage.channels) :
      (channelAddress storage dmxUniverse channel).toNat =
      universeStart storage dmxUniverse + channel.toNat := by
  have bounds := universe_inside valid
  rw [channelAddress, UInt16.toNat_add, UInt16.toNat_ofNat_of_lt'
    (by simp only [UInt16.size]; omega),
    Nat.mod_eq_of_lt (by omega)]

/-- The last address of the wrapped array lies before it. -/
theorem toNat_channelAddress_last (valid : dmxUniverse.toNat < storage.universes) :
    (channelAddress storage dmxUniverse 65535).toNat = universeStart storage dmxUniverse - 1 := by
  have bounds := universe_inside valid
  have last : (65535 : UInt16).toNat = 65535 := rfl
  rw [channelAddress, UInt16.toNat_add, UInt16.toNat_ofNat_of_lt'
    (by simp only [UInt16.size]; omega),
    last]
  omega

end Addresses

/-- The channels of a block that the universe has. -/
def InBlock (startFromChannel len channel : UInt16) : Prop :=
  startFromChannel.toNat ≤ channel.toNat ∧
    channel.toNat < min (startFromChannel.toNat + len.toNat) storage.channels

/-- A block is written to its channels, and nothing else is touched but the states of the slots. -/
structure WritesBlock (channelData : Nat → UInt8) (dmxUniverse : UInt8)
    (startFromChannel len : UInt16) (before : UInt16 → UInt8) (after : Memory) : Prop where
  block : ∀ channel, InBlock storage startFromChannel len channel →
    after.memory (channelAddress storage dmxUniverse channel) =
      channelData (channel.toNat - startFromChannel.toNat)
  slots : ∀ slot : Int8, 0 ≤ slot.toInt → slot.toInt < storage.slots →
    getDmxSlotState storage dmxUniverse slot after = .newValues
  touched : ∀ address ∈ after.touched,
    (∃ channel, InBlock storage startFromChannel len channel ∧
      address = channelAddress storage dmxUniverse channel) ∨
    ∃ slot < storage.slots, address = slotStateAddress storage dmxUniverse slot
  unchanged : ∀ address, address ∉ after.touched → after.memory address = before address

section Block

variable {storage} {channelData : Nat → UInt8} {dmxUniverse : UInt8}
  {startFromChannel len : UInt16} {before : UInt16 → UInt8}

theorem channelCount_lt (valid : dmxUniverse.toNat < storage.universes) :
    storage.channels < 65536 := by
  have bounds := universe_inside valid
  omega

/-- Where the sum does not wrap the length is that of the part inside of the universe. -/
theorem toNat_clippedLength (few : storage.channels < 65536)
    (present : startFromChannel.toNat ≤ storage.channels)
    (fits : startFromChannel.toNat + len.toNat < 65536) :
    (clippedLength storage startFromChannel len).toNat =
      min (startFromChannel.toNat + len.toNat) storage.channels - startFromChannel.toNat := by
  have count : (UInt16.ofNat storage.channels).toNat = storage.channels :=
    UInt16.toNat_ofNat_of_lt' few
  rw [clippedLength, UInt16.toNat_add, Nat.mod_eq_of_lt fits]
  split_ifs with larger
  · rw [UInt16.toNat_sub_of_le _ _ (by rw [UInt16.le_iff_toNat_le, count]; exact present), count]
    omega
  · omega

/-- Otherwise the block goes through the whole memory behind its start. -/
theorem clippedLength_large (few : storage.channels < 65536)
    (outside : ¬(startFromChannel.toNat ≤ storage.channels ∧
      startFromChannel.toNat + len.toNat < 65536)) :
    65535 - startFromChannel.toNat < (clippedLength storage startFromChannel len).toNat := by
  have count : (UInt16.ofNat storage.channels).toNat = storage.channels :=
    UInt16.toNat_ofNat_of_lt' few
  have startSmall := startFromChannel.toNat_lt
  have lenSmall := len.toNat_lt
  rw [clippedLength, UInt16.toNat_add]
  split_ifs with larger
  · rw [UInt16.toNat_sub, count]
    omega
  · omega

theorem setDmxChannels_eq (valid : dmxUniverse.toNat < storage.universes) (memory : Memory) :
    setDmxChannels storage channelData dmxUniverse startFromChannel len memory =
      storeLoop
        (storeLoop memory
          (fun i => channelAddress storage dmxUniverse (startFromChannel + UInt16.ofNat i))
          channelData (clippedLength storage startFromChannel len).toNat)
        (slotStateAddress storage dmxUniverse) (fun _ => 1) storage.slots :=
  if_pos valid

/-- The state of a slot is behind the channels. -/
theorem slotStateAddress_ne (valid : dmxUniverse.toNat < storage.universes) {channel : UInt16}
    (inside : channel.toNat < storage.channels) {slot : Nat} (isSlot : slot < storage.slots) :
    slotStateAddress storage dmxUniverse slot ≠ channelAddress storage dmxUniverse channel := by
  intro same
  have numbers := congrArg UInt16.toNat same
  rw [toNat_slotStateAddress valid isSlot, toNat_channelAddress valid inside] at numbers
  omega

/-- The slots have new values, whatever has been written before. -/
theorem newValues_of_storeLoop (valid : dmxUniverse.toNat < storage.universes) (memory : Memory)
    {slot : Int8} (positive : 0 ≤ slot.toInt) (isSlot : slot.toInt < storage.slots) :
    getDmxSlotState storage dmxUniverse slot
      (storeLoop memory (slotStateAddress storage dmxUniverse) (fun _ => 1) storage.slots) =
        .newValues := by
  have inside : slot.toInt.toNat < storage.slots := by omega
  rw [getDmxSlotState, if_pos ⟨valid, isSlot, positive⟩, memory_storeLoop_of_unique inside,
    if_pos rfl]
  intro other isOther same
  have numbers := congrArg UInt16.toNat same
  rw [toNat_slotStateAddress valid isOther, toNat_slotStateAddress valid inside] at numbers
  omega

theorem writesBlock_of_fits (valid : dmxUniverse.toNat < storage.universes)
    (present : startFromChannel.toNat ≤ storage.channels)
    (fits : startFromChannel.toNat + len.toNat < 65536) :
    WritesBlock storage channelData dmxUniverse startFromChannel len before
      (setDmxChannels storage channelData dmxUniverse startFromChannel len ⟨before, []⟩) := by
  have clipped := toNat_clippedLength (channelCount_lt valid) present fits
  have number : ∀ i < (clippedLength storage startFromChannel len).toNat,
      (startFromChannel + UInt16.ofNat i).toNat = startFromChannel.toNat + i := by
    intro i inside
    rw [UInt16.toNat_add, UInt16.toNat_ofNat_of_lt' (by simp only [UInt16.size]; omega),
      Nat.mod_eq_of_lt (by omega)]
  have inBlock : ∀ i < (clippedLength storage startFromChannel len).toNat,
      InBlock storage startFromChannel len (startFromChannel + UInt16.ofNat i) := by
    intro i inside
    rw [InBlock, number i inside]
    omega
  rw [setDmxChannels_eq valid]
  constructor
  · intro channel ⟨above, below⟩
    have inside : channel.toNat - startFromChannel.toNat <
        (clippedLength storage startFromChannel len).toNat := by omega
    have position : channel =
        startFromChannel + UInt16.ofNat (channel.toNat - startFromChannel.toNat) := by
      apply UInt16.toNat_inj.mp
      rw [number _ inside]
      omega
    rw [memory_storeLoop_of_ne fun slot isSlot => slotStateAddress_ne valid (by omega) isSlot]
    conv_lhs => rw [position]
    apply memory_storeLoop_of_unique inside
    intro other isOther same
    have numbers := congrArg UInt16.toNat same
    have otherInside := (inBlock other isOther).2
    have thisInside := (inBlock _ inside).2
    rw [toNat_channelAddress valid (by omega), toNat_channelAddress valid (by omega),
      number _ isOther, number _ inside] at numbers
    omega
  · intro slot positive isSlot
    exact newValues_of_storeLoop valid _ positive isSlot
  · intro address member
    rw [mem_touched_storeLoop, mem_touched_storeLoop] at member
    rcases member with (none | ⟨i, inside, rfl⟩) | ⟨slot, isSlot, rfl⟩
    · cases none
    · exact Or.inl ⟨_, inBlock i inside, rfl⟩
    · exact Or.inr ⟨slot, isSlot, rfl⟩
  · intro address untouched
    rw [mem_touched_storeLoop, mem_touched_storeLoop, not_or, not_or] at untouched
    obtain ⟨⟨-, notInBlock⟩, notState⟩ := untouched
    rw [memory_storeLoop_of_ne fun slot isSlot same => notState ⟨slot, isSlot, same⟩,
      memory_storeLoop_of_ne fun i inside same => notInBlock ⟨i, inside, same⟩]

/-- `set_dmx_channels` writes its block and nothing else exactly for a block that begins at most
behind the last channel, when the sum of its start and its length does not wrap. -/
theorem setDmxChannels_writes_iff (valid : dmxUniverse.toNat < storage.universes)
    (before : UInt16 → UInt8) :
    WritesBlock storage channelData dmxUniverse startFromChannel len before
        (setDmxChannels storage channelData dmxUniverse startFromChannel len ⟨before, []⟩) ↔
      startFromChannel.toNat ≤ storage.channels ∧
        startFromChannel.toNat + len.toNat < 65536 := by
  constructor
  · intro writes
    by_contra outside
    -- The address in front of the universe has been written.
    have large := clippedLength_large (channelCount_lt valid) outside
    have last : startFromChannel + UInt16.ofNat (65535 - startFromChannel.toNat) = 65535 := by
      have small := startFromChannel.toNat_lt
      apply UInt16.toNat_inj.mp
      rw [UInt16.toNat_add, UInt16.toNat_ofNat_of_lt' (by simp only [UInt16.size]; omega),
        Nat.add_sub_cancel' (by omega)]
      rfl
    have member : channelAddress storage dmxUniverse 65535 ∈
        (setDmxChannels storage channelData dmxUniverse startFromChannel len
          ⟨before, []⟩).touched := by
      rw [setDmxChannels_eq valid, mem_touched_storeLoop, mem_touched_storeLoop]
      exact Or.inl (Or.inr ⟨_, large, by rw [last]⟩)
    have front := toNat_channelAddress_last valid
    have bounds := universe_inside valid
    rcases writes.touched _ member with ⟨channel, ⟨-, inside⟩, same⟩ | ⟨slot, isSlot, same⟩
    · rw [same, toNat_channelAddress valid (by omega)] at front
      omega
    · rw [same, toNat_slotStateAddress valid isSlot] at front
      omega
  · rintro ⟨present, fits⟩
    exact writesBlock_of_fits valid present fits

end Block

/-- The default settings, with the universes behind 256 registers. -/
def defaultStorage : Storage :=
  ⟨2, 64, 5, 256, by decide, by decide, by decide⟩

theorem setDmxChannels_writes_last :
    WritesBlock defaultStorage (fun _ => 7) 1 60 9 (fun _ => 0)
        (setDmxChannels defaultStorage (fun _ => 7) 1 60 9 ⟨fun _ => 0, []⟩) ↔
      (60 : UInt16).toNat ≤ 64 ∧ (60 : UInt16).toNat + (9 : UInt16).toNat < 65536 :=
  @setDmxChannels_writes_iff defaultStorage (fun _ => 7) 1 60 9 (by decide) (fun _ => 0)

/-- A block of one channel behind the last one is written over the slots. -/
theorem setDmxChannels_outside :
    ¬WritesBlock defaultStorage (fun _ => 7) 1 65 1 (fun _ => 0)
      (setDmxChannels defaultStorage (fun _ => 7) 1 65 1 ⟨fun _ => 0, []⟩) := by
  intro writes
  have valid : (1 : UInt8).toNat < defaultStorage.universes := by decide
  have member : channelAddress defaultStorage 1 65 ∈
      (setDmxChannels defaultStorage (fun _ => 7) 1 65 1 ⟨fun _ => 0, []⟩).touched := by
    rw [setDmxChannels_eq valid, mem_touched_storeLoop, mem_touched_storeLoop]
    exact Or.inl (Or.inr ⟨0, by decide, by decide⟩)
  rcases writes.touched _ member with ⟨channel, ⟨above, inside⟩, -⟩ | ⟨slot, isSlot, same⟩
  · have first : (65 : UInt16).toNat = 65 := rfl
    have count : defaultStorage.channels = 64 := rfl
    omega
  · have isSlot : slot < 5 := isSlot
    interval_cases slot <;> exact absurd same (by decide)

end Ethersex.DmxStorage

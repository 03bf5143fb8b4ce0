import Ethersex.BitTrie
import Mathlib.Data.Fin.VecNotation
import Mathlib.Data.Fintype.Basic
import Mathlib.Data.Nat.Bitwise
import Mathlib.Data.UInt

/-!
# The search for devices on a 1-wire bus

`ow_search_rom` of `hardware/onewire/onewire.c` with the devices of one bus.  The bus is a wired
and: it reads one when every device that still takes part sends one.  The time slots below the bits
are not modelled.
-/

namespace Ethersex.Onewire

/-- The bytes of `ow_rom_code_t`. -/
abbrev RomCode := Fin 8 → UInt8

/-- The byte of a bit. -/
def byteOf (idx : Nat) : Fin 8 :=
  Fin.ofNat 8 (idx / 8)

/-- `_BV`, for a bit of a byte. -/
def bitValue (idx : Nat) : UInt8 :=
  1 <<< UInt8.ofNat (idx % 8)

/-- A bit of a code, the lowest one of the first byte first. -/
def RomCode.bit (rom : RomCode) (idx : Nat) : Bool :=
  rom (byteOf idx) &&& bitValue idx ≠ 0

/-- The devices of the bus, those that still take part in the search, the bit that they have come
to, and whether its complement is next. -/
structure Bus where
  devices : List RomCode
  selected : List RomCode
  position : Nat
  complement : Bool

/-- `reset_onewire`: whether a device is present. -/
def resetOnewire (bus : Bus) : Bool :=
  bus.devices ≠ []

/-- The command `OW_ROM_SEARCH_ROM` after a reset: every device takes part. -/
def searchCommand (bus : Bus) : Bus :=
  { bus with selected := bus.devices, position := 0, complement := false }

/-- `ow_read`. -/
def owRead (bus : Bus) : UInt8 × Bus :=
  let sent := fun rom : RomCode => rom.bit bus.position != bus.complement
  (if bus.selected.all sent then 1 else 0, { bus with complement := true })

/-- `ow_write` after the two reads: only the devices with this bit go on. -/
def owWrite (bus : Bus) (value : UInt8) : Bus :=
  { bus with
    selected := bus.selected.filter fun rom => rom.bit bus.position == decide (0 < value)
    position := bus.position + 1
    complement := false }

/-- The search state in `ow_global`. -/
structure Global where
  lastDiscrepancy : Int8
  currentRom : RomCode

def owSetAddressBit (rom : RomCode) (idx : Nat) (val : UInt8) : RomCode :=
  let cleared := Function.update rom (byteOf idx) (rom (byteOf idx) &&& ~~~bitValue idx)
  if val ≠ 0 then
    Function.update cleared (byteOf idx) (cleared (byteOf idx) ||| bitValue idx)
  else cleared

/-- The local state of the loop. -/
structure Search where
  bus : Bus
  currentRom : RomCode
  discrepancy : Int8

/-- A round of the loop, or none when no device answers. -/
def searchRound (lastDiscrepancy : Int8) (i : Nat) (search : Search) : Option Search :=
  let (bit1, bus) := owRead search.bus
  let (bit2, bus) := owRead bus
  let bits := bit2 <<< 1 ||| bit1
  if bits = 3 then none
  else if bits = 0 then
    if (i : Int) = lastDiscrepancy.toInt then
      some ⟨owWrite bus 1, owSetAddressBit search.currentRom i 1, search.discrepancy⟩
    else if lastDiscrepancy.toInt < i then
      some ⟨owWrite bus bit1, owSetAddressBit search.currentRom i 0, Int8.ofNat i⟩
    else
      let romBit := search.currentRom (byteOf i) &&& bitValue i
      some ⟨owWrite bus romBit, search.currentRom,
        if romBit = 0 then Int8.ofNat i else search.discrepancy⟩
  else some ⟨owWrite bus bit1, owSetAddressBit search.currentRom i bit1, search.discrepancy⟩

/-- The loop over the bits from `i` on, and whether it came to its end. -/
def searchLoop (lastDiscrepancy : Int8) : Nat → Nat → Search → Bool × Search
  | 0, _, search => (true, search)
  | rounds + 1, i, search =>
      match searchRound lastDiscrepancy i search with
      | none => (false, search)
      | some next => searchLoop lastDiscrepancy rounds (i + 1) next

/-- `ow_search_rom`. -/
def owSearchRom (bus : Bus) (global : Global) (first : Bool) : Int8 × Bus × Global :=
  if !first && global.lastDiscrepancy.toInt < 0 then (0, bus, global)
  else
    let global := if first then ⟨-1, fun _ => 0⟩ else global
    if resetOnewire bus then
      let start : Search := ⟨searchCommand bus, global.currentRom, -1⟩
      let (finished, search) := searchLoop global.lastDiscrepancy 64 0 start
      if finished then (1, search.bus, ⟨search.discrepancy, search.currentRom⟩)
      else (0, search.bus, ⟨global.lastDiscrepancy, search.currentRom⟩)
    else (-1, bus, global)

/-- A number of calls, the first one with `first`: what each returns, and `current_rom` after
it. -/
def calls (bus : Bus) (global : Global) (first : Bool) : Nat → List (Int8 × RomCode)
  | 0 => []
  | count + 1 =>
      let result := owSearchRom bus global first
      (result.1, result.2.2.currentRom) :: calls result.2.1 result.2.2 false count

theorem toNat_bitValue (idx : Nat) : (bitValue idx).toNat = 2 ^ (idx % 8) := by
  have few : idx % 8 < 8 := Nat.mod_lt idx (by decide)
  rw [bitValue]
  generalize idx % 8 = position at few ⊢
  revert position
  decide

theorem bit_eq_testBit (rom : RomCode) (idx : Nat) :
    rom.bit idx = (rom (byteOf idx)).toNat.testBit (idx % 8) := by
  have value : (rom (byteOf idx) &&& bitValue idx).toNat =
      ((rom (byteOf idx)).toNat.testBit (idx % 8)).toNat * 2 ^ (idx % 8) := by
    rw [UInt8.toNat_and, toNat_bitValue, Nat.and_two_pow]
  have positive := Nat.two_pow_pos (idx % 8)
  rw [RomCode.bit]
  cases set : (rom (byteOf idx)).toNat.testBit (idx % 8) with
  | false =>
      rw [set, Bool.toNat_false, Nat.zero_mul] at value
      simpa using UInt8.toNat_inj.mp value
  | true =>
      rw [set, Bool.toNat_true, Nat.one_mul] at value
      have notZero : rom (byteOf idx) &&& bitValue idx ≠ 0 := by
        intro zero
        rw [zero] at value
        exact absurd value (Nat.ne_of_lt positive)
      simpa using notZero

theorem testBit_bitValue (idx position : Nat) :
    (bitValue idx).toNat.testBit position = decide (idx % 8 = position) := by
  rw [toNat_bitValue, Nat.testBit_two_pow]

theorem testBit_clear (byte : UInt8) (idx : Nat) {position : Nat} (inside : position < 8) :
    (byte &&& ~~~bitValue idx).toNat.testBit position =
      (byte.toNat.testBit position && !decide (idx % 8 = position)) := by
  rw [UInt8.toNat_and, Nat.testBit_and, ← testBit_bitValue]
  congr 1
  change (~~~bitValue idx).toBitVec.getLsbD position = _
  rw [UInt8.toBitVec_not, BitVec.getLsbD_not, decide_eq_true inside, Bool.true_and]
  rfl

theorem testBit_set (byte : UInt8) (idx position : Nat) :
    (byte ||| bitValue idx).toNat.testBit position =
      (byte.toNat.testBit position || decide (idx % 8 = position)) := by
  rw [UInt8.toNat_or, Nat.testBit_or, testBit_bitValue]

/-- `ow_set_address_bit` writes one bit. -/
theorem bit_owSetAddressBit (rom : RomCode) {idx other : Nat} (inside : idx < 64)
    (otherInside : other < 64) (val : UInt8) :
    (owSetAddressBit rom idx val).bit other =
      if other = idx then decide (val ≠ 0) else rom.bit other := by
  have few : other % 8 < 8 := Nat.mod_lt other (by decide)
  rw [bit_eq_testBit, bit_eq_testBit, owSetAddressBit]
  by_cases sameByte : byteOf other = byteOf idx
  · have position : other = idx ↔ idx % 8 = other % 8 := by
      have values := congrArg Fin.val sameByte
      simp only [byteOf, Fin.val_ofNat] at values
      omega
    rw [sameByte]
    split_ifs with set same same
    · rw [Function.update_self, Function.update_self, testBit_set,
        decide_eq_true (position.mp same), Bool.or_true, decide_eq_true set]
    · rw [Function.update_self, Function.update_self, testBit_set, testBit_clear _ _ few,
        decide_eq_false (mt position.mpr same)]
      simp
    · rw [Function.update_self, testBit_clear _ _ few, decide_eq_true (position.mp same),
        decide_eq_false set]
      simp
    · rw [Function.update_self, testBit_clear _ _ few, decide_eq_false (mt position.mpr same)]
      simp
  · have apart : other ≠ idx := fun same => sameByte (congrArg byteOf same)
    rw [if_neg apart]
    split_ifs
    · rw [Function.update_of_ne sameByte, Function.update_of_ne sameByte]
    · rw [Function.update_of_ne sameByte]

/-- A code is given by its bits. -/
theorem romCode_ext {first second : RomCode} (same : ∀ idx < 64, first.bit idx = second.bit idx) :
    first = second := by
  funext byte
  apply UInt8.toNat_inj.mp
  apply Nat.eq_of_testBit_eq
  intro position
  by_cases inside : position < 8
  · have bits := same (8 * byte.val + position) (by omega)
    have sameByte : byteOf (8 * byte.val + position) = byte := by
      apply Fin.ext
      simp only [byteOf, Fin.val_ofNat]
      omega
    rw [bit_eq_testBit, bit_eq_testBit, sameByte, Nat.mul_add_mod, Nat.mod_eq_of_lt inside] at bits
    exact bits
  · have large : 2 ^ 8 ≤ 2 ^ position := Nat.pow_le_pow_right (by decide) (Nat.not_lt.mp inside)
    have firstSmall := (first byte).toNat_lt
    have secondSmall := (second byte).toNat_lt
    rw [Nat.testBit_lt_two_pow (by omega), Nat.testBit_lt_two_pow (by omega)]

open BitTrie

/-- A number of bits from one on. -/
def restBits (rounds i : Nat) (rom : RomCode) : List Bool :=
  (List.range' i rounds).map rom.bit

theorem restBits_succ (rounds i : Nat) (rom : RomCode) :
    restBits (rounds + 1) i rom = rom.bit i :: restBits rounds (i + 1) rom := by
  rw [restBits, List.range'_succ, List.map_cons, restBits]

theorem restBits_congr {rounds i : Nat} {first second : RomCode}
    (same : ∀ idx, i ≤ idx → idx < i + rounds → first.bit idx = second.bit idx) :
    restBits rounds i first = restBits rounds i second := by
  apply List.map_congr_left
  intro idx member
  rw [List.mem_range'_1] at member
  exact same idx member.1 member.2

/-- The words of some devices. -/
def wordsOf (rounds i : Nat) (roms : List RomCode) : List (List Bool) :=
  roms.map (restBits rounds i)

/-- The devices with a bit go on. -/
theorem branch_wordsOf (bit : Bool) (rounds i : Nat) (roms : List RomCode) :
    branch bit (wordsOf (rounds + 1) i roms) =
      wordsOf rounds (i + 1) (roms.filter fun rom => rom.bit i == bit) := by
  induction roms with
  | nil => rfl
  | cons rom roms ih =>
      rw [wordsOf, List.map_cons, restBits_succ, branch, List.filterMap_cons]
      rw [wordsOf, branch] at ih
      by_cases same : rom.bit i = bit
      · rw [List.filter_cons_of_pos (by simpa using same), wordsOf, List.map_cons]
        simp only [same, if_true]
        rw [ih, wordsOf]
      · rw [List.filter_cons_of_neg (by simpa using same)]
        simp only [same, if_false]
        exact ih

theorem wordsOf_eq_nil_iff {rounds i : Nat} {roms : List RomCode} :
    wordsOf rounds i roms = [] ↔ roms = [] :=
  List.map_eq_nil_iff

theorem length_of_mem_wordsOf {rounds i : Nat} {roms : List RomCode} :
    ∀ word ∈ wordsOf rounds i roms, word.length = rounds := by
  intro word member
  obtain ⟨rom, -, rfl⟩ := List.mem_map.mp member
  rw [restBits, List.length_map, List.length_range']

/-- How many turns are repeated from a bit on. -/
def turnAt (lastDiscrepancy : Int8) (i : Nat) : Option Nat :=
  if (i : Int) ≤ lastDiscrepancy.toInt then some (lastDiscrepancy.toInt - i).toNat else none

theorem later_turnAt (lastDiscrepancy : Int8) (i : Nat) :
    later (turnAt lastDiscrepancy i) = turnAt lastDiscrepancy (i + 1) := by
  rw [turnAt, turnAt]
  rcases Int.lt_trichotomy (i : Int) lastDiscrepancy.toInt with before | at_ | behind
  · obtain ⟨more, gap⟩ : ∃ more : Nat, lastDiscrepancy.toInt = i + 1 + more :=
      ⟨(lastDiscrepancy.toInt - (i + 1)).toNat, by omega⟩
    rw [if_pos (by omega), if_pos (by omega), gap]
    have here : ((i : Int) + 1 + more - i).toNat = more + 1 := by omega
    have next : ((i : Int) + 1 + more - (i + 1 : Nat)).toNat = more := by omega
    rw [here, next]
    rfl
  · rw [if_pos (by omega), if_neg (by omega), at_, Int.sub_self]
    rfl
  · rw [if_neg (by omega), if_neg (by omega)]
    rfl

/-- What a round leaves: the devices with the chosen bit, the bit in `current_rom`, and the
discrepancy when a one was left out. -/
structure Chosen (choice : Bool × Bool) (i : Nat) (search next : Search) : Prop where
  devices : next.bus.devices = search.bus.devices
  selected : next.bus.selected =
    search.bus.selected.filter fun rom => rom.bit i == choice.1
  position : next.bus.position = i + 1
  complement : next.bus.complement = false
  bit : next.currentRom.bit i = choice.1
  others : ∀ idx < 64, idx ≠ i → next.currentRom.bit idx = search.currentRom.bit idx
  discrepancy : next.discrepancy = if choice.2 then Int8.ofNat i else search.discrepancy

/-- No device has sent a zero. -/
theorem all_sent_iff (bit : Bool) (rounds i : Nat) (roms : List RomCode) :
    (roms.all fun rom => rom.bit i != bit) = true ↔
      branch bit (wordsOf (rounds + 1) i roms) = [] := by
  rw [branch_wordsOf, wordsOf_eq_nil_iff, List.all_eq_true, List.filter_eq_nil_iff]
  simp

/-- Both reads of a round. -/
theorem owRead_twice (rounds : Nat) {i : Nat} {bus : Bus} (position : bus.position = i)
    (complement : bus.complement = false) :
    (owRead bus).1 = (if branch false (wordsOf (rounds + 1) i bus.selected) = [] then 1 else 0) ∧
      (owRead (owRead bus).2).1 =
        (if branch true (wordsOf (rounds + 1) i bus.selected) = [] then 1 else 0) ∧
      (owRead (owRead bus).2).2 = { bus with complement := true } := by
  refine ⟨?_, ?_, rfl⟩
  · simp only [owRead, position, complement, all_sent_iff false rounds]
  · simp only [owRead, position, all_sent_iff true rounds]

section Round

variable {choice : Bool × Bool} {i : Nat} {search : Search} {value : UInt8} {rom : RomCode}
  {discrepancy : Int8}

theorem chosen_of_write (position : search.bus.position = i)
    (sent : decide (0 < value) = choice.1) (bit : rom.bit i = choice.1)
    (others : ∀ idx < 64, idx ≠ i → rom.bit idx = search.currentRom.bit idx)
    (marked : discrepancy = if choice.2 then Int8.ofNat i else search.discrepancy) :
    Chosen choice i search
      ⟨owWrite { search.bus with complement := true } value, rom, discrepancy⟩ where
  devices := rfl
  selected := by simp only [owWrite, sent, position]
  position := by simp only [owWrite, position]
  complement := rfl
  bit := bit
  others := others
  discrepancy := marked

/-- A round that stores the bit it sends. -/
theorem chosen_of_set (inside : i < 64) (position : search.bus.position = i)
    (sent : decide (0 < value) = choice.1)
    (marked : discrepancy = if choice.2 then Int8.ofNat i else search.discrepancy) :
    Chosen choice i search
      ⟨owWrite { search.bus with complement := true } value,
        owSetAddressBit search.currentRom i value, discrepancy⟩ := by
  apply chosen_of_write position sent _ _ marked
  · have notZero : (value ≠ 0) = (0 < value) := by
      rw [UInt8.pos_iff_ne_zero]
    rw [bit_owSetAddressBit _ inside inside, if_pos rfl, ← sent]
    simp only [notZero]
  · intro idx idxInside apart
    rw [bit_owSetAddressBit _ inside idxInside, if_neg apart]

end Round

theorem searchRound_spec (lastDiscrepancy : Int8) {rounds i : Nat} (inside : i + (rounds + 1) = 64)
    {search : Search} (position : search.bus.position = i)
    (complement : search.bus.complement = false) (nonempty : search.bus.selected ≠ []) :
    ∃ next, searchRound lastDiscrepancy i search = some next ∧
      Chosen (choose (branch false (wordsOf (rounds + 1) i search.bus.selected))
        (branch true (wordsOf (rounds + 1) i search.bus.selected))
        (restBits (rounds + 1) i search.currentRom) (turnAt lastDiscrepancy i)) i search next := by
  obtain ⟨first, second, bus⟩ := owRead_twice rounds position complement
  have someDevice : wordsOf (rounds + 1) i search.bus.selected ≠ [] := by
    rwa [ne_eq, wordsOf_eq_nil_iff]
  have either :=
    branch_ne_nil (@length_of_mem_wordsOf (rounds + 1) i search.bus.selected) someDevice
  have short : i < 64 := by omega
  simp only [searchRound, bus, first, second]
  by_cases noOnes : branch true (wordsOf (rounds + 1) i search.bus.selected) = []
  · have someZero : branch false (wordsOf (rounds + 1) i search.bus.selected) ≠ [] :=
      either.resolve_right (not_not.mpr noOnes)
    rw [if_pos noOnes, if_neg someZero, noOnes, choose_of_no_ones]
    exact ⟨_, rfl, chosen_of_set short position rfl rfl⟩
  · by_cases noZeros : branch false (wordsOf (rounds + 1) i search.bus.selected) = []
    · rw [if_neg noOnes, if_pos noZeros, noZeros, choose_of_no_zeros noOnes]
      exact ⟨_, rfl, chosen_of_set short position rfl rfl⟩
    · -- Both bits are possible: the turn of the walk before decides.
      rw [if_neg noOnes, if_neg noZeros, if_neg (by decide), if_pos (by decide)]
      rcases Int.lt_trichotomy (i : Int) lastDiscrepancy.toInt with before | at_ | behind
      · obtain ⟨more, gap⟩ : ∃ more : Nat, lastDiscrepancy.toInt - i = more + 1 :=
          ⟨(lastDiscrepancy.toInt - (i + 1)).toNat, by omega⟩
        have turn : turnAt lastDiscrepancy i = some (more + 1) := by
          rw [turnAt, if_pos (by omega), gap]
          rfl
        have chosen : choose (branch false (wordsOf (rounds + 1) i search.bus.selected))
            (branch true (wordsOf (rounds + 1) i search.bus.selected))
            (restBits (rounds + 1) i search.currentRom) (turnAt lastDiscrepancy i) =
            (search.currentRom.bit i, !search.currentRom.bit i) := by
          simp only [choose, if_neg noOnes, if_neg noZeros, turn, restBits_succ, List.headD_cons]
        rw [if_neg (by omega), if_neg (by omega), chosen]
        refine ⟨_, rfl, chosen_of_write position ?_ rfl (fun _ _ _ => rfl) ?_⟩
        · simp only [RomCode.bit, UInt8.pos_iff_ne_zero]
        · simp [RomCode.bit]
      · have turn : turnAt lastDiscrepancy i = some 0 := by
          rw [turnAt, if_pos (by omega), at_, Int.sub_self]
          rfl
        have chosen : choose (branch false (wordsOf (rounds + 1) i search.bus.selected))
            (branch true (wordsOf (rounds + 1) i search.bus.selected))
            (restBits (rounds + 1) i search.currentRom) (turnAt lastDiscrepancy i) =
            (true, false) := by
          simp only [choose, if_neg noOnes, if_neg noZeros, turn]
        rw [if_pos at_, chosen]
        exact ⟨_, rfl, chosen_of_set short position rfl rfl⟩
      · have turn : turnAt lastDiscrepancy i = none := by
          rw [turnAt, if_neg (by omega)]
        have chosen : choose (branch false (wordsOf (rounds + 1) i search.bus.selected))
            (branch true (wordsOf (rounds + 1) i search.bus.selected))
            (restBits (rounds + 1) i search.currentRom) (turnAt lastDiscrepancy i) =
            (false, true) := by
          simp only [choose, if_neg noOnes, if_neg noZeros, turn]
        rw [if_neg (by omega), if_pos behind, chosen]
        exact ⟨_, rfl, chosen_of_set short position rfl rfl⟩

/-- What the loop leaves from a bit on, by the walk through the words of the devices. -/
structure Walked (walked : List Bool × Option Nat) (rounds i : Nat) (search last : Search) :
    Prop where
  devices : last.bus.devices = search.bus.devices
  rest : restBits rounds i last.currentRom = walked.1
  before : ∀ idx < i, last.currentRom.bit idx = search.currentRom.bit idx
  discrepancy : last.discrepancy =
    match walked.2 with
    | some turn => Int8.ofNat (i + turn)
    | none => search.discrepancy

theorem searchLoop_spec (lastDiscrepancy : Int8) {rounds i : Nat} (inside : i + rounds = 64)
    {search : Search} (position : search.bus.position = i)
    (complement : search.bus.complement = false) (nonempty : search.bus.selected ≠ []) :
    ∃ last, searchLoop lastDiscrepancy rounds i search = (true, last) ∧
      Walked (walk rounds (wordsOf rounds i search.bus.selected)
        (restBits rounds i search.currentRom) (turnAt lastDiscrepancy i)) rounds i search last := by
  induction rounds generalizing i search with
  | zero => exact ⟨search, rfl, rfl, rfl, fun _ _ => rfl, rfl⟩
  | succ rounds ih =>
      obtain ⟨next, ran, chosen⟩ :=
        searchRound_spec lastDiscrepancy inside position complement nonempty
      have someDevice : wordsOf (rounds + 1) i search.bus.selected ≠ [] := by
        rwa [ne_eq, wordsOf_eq_nil_iff]
      have possible := branch_choose_ne_nil
        (branch_ne_nil (@length_of_mem_wordsOf (rounds + 1) i search.bus.selected) someDevice)
        (restBits (rounds + 1) i search.currentRom) (turnAt lastDiscrepancy i)
      rw [walk]
      generalize choose _ _ _ _ = choice at chosen possible ⊢
      have below : branch choice.1 (wordsOf (rounds + 1) i search.bus.selected) =
          wordsOf rounds (i + 1) next.bus.selected := by
        rw [branch_wordsOf, chosen.selected]
      have someNext : next.bus.selected ≠ [] := by
        rwa [below, ne_eq, wordsOf_eq_nil_iff] at possible
      have tail : (restBits (rounds + 1) i search.currentRom).tail =
          restBits rounds (i + 1) next.currentRom := by
        rw [restBits_succ, List.tail_cons]
        apply restBits_congr
        intro idx above less
        exact (chosen.others idx (by omega) (by omega)).symm
      obtain ⟨last, rest, walked⟩ := @ih (i + 1) (by omega) next chosen.position chosen.complement
        someNext
      rw [below, tail, later_turnAt]
      generalize walk rounds _ _ _ = deeper at walked ⊢
      refine ⟨last, ?_, ?_⟩
      · rw [searchLoop, ran]
        exact rest
      · constructor
        · exact walked.devices.trans chosen.devices
        · rw [restBits_succ, walked.before i (Nat.lt_succ_self i), chosen.bit, walked.rest]
        · intro idx less
          rw [walked.before idx (by omega), chosen.others idx (by omega) (by omega)]
        · rw [walked.discrepancy, chosen.discrepancy]
          cases deeper.2 with
          | some turn => simp only [mark, Nat.add_assoc, Nat.add_comm 1]
          | none =>
              cases choice.2 with
              | false => rfl
              | true => rfl

theorem turnAt_ofNat {turn : Nat} (small : turn < 64) : turnAt (Int8.ofNat turn) 0 = some turn := by
  have value : (Int8.ofNat turn).toInt = turn := Int8.toInt_ofNat_of_lt (by omega)
  rw [turnAt, value, if_pos (by omega)]
  congr 1

/-- A search through the devices, from the code and the discrepancy of the one before. -/
theorem searchLoop_walk (global : Global) {bus : Bus} (present : bus.devices ≠ []) :
    ∃ last, searchLoop global.lastDiscrepancy 64 0 ⟨searchCommand bus, global.currentRom, -1⟩ =
        (true, last) ∧ last.bus.devices = bus.devices ∧
      (restBits 64 0 last.currentRom, turnAt last.discrepancy 0) =
        walk 64 (wordsOf 64 0 bus.devices) (restBits 64 0 global.currentRom)
          (turnAt global.lastDiscrepancy 0) := by
  obtain ⟨last, ran, walked⟩ := @searchLoop_spec global.lastDiscrepancy 64 0 rfl
    ⟨searchCommand bus, global.currentRom, -1⟩ rfl rfl present
  have devices := walked.devices
  have rest := walked.rest
  have discrepancy := walked.discrepancy
  have bound := @walk_turn_lt 64 (wordsOf 64 0 bus.devices) (restBits 64 0 global.currentRom)
    (turnAt global.lastDiscrepancy 0)
  simp only [searchCommand] at devices rest discrepancy
  refine ⟨last, ran, devices, Prod.ext rest ?_⟩
  generalize walk 64 _ _ _ = result at bound discrepancy ⊢
  cases found : result.2 with
  | some turn =>
      rw [found] at discrepancy
      simp only [Nat.zero_add] at discrepancy
      rw [discrepancy]
      exact turnAt_ofNat (bound turn found)
  | none =>
      rw [found] at discrepancy
      rw [discrepancy]
      rfl

/-- The code and the discrepancy are those of one of the words. -/
structure Visits (devices : List RomCode) (global : Global) (word : List Bool) : Prop where
  bits : restBits 64 0 global.currentRom = word
  turn : turnAt global.lastDiscrepancy 0 = turning 64 (wordsOf 64 0 devices) word

section Calls

variable {bus : Bus} (present : bus.devices ≠ [])
include present

theorem owSearchRom_first (global : Global) {word : List Bool}
    (first : word ∈ (enumerate 64 (wordsOf 64 0 bus.devices)).head?) :
    ∃ bus' global', owSearchRom bus global true = (1, bus', global') ∧
      bus'.devices = bus.devices ∧ Visits bus.devices global' word := by
  obtain ⟨last, ran, devices, walked⟩ := searchLoop_walk ⟨-1, fun _ => 0⟩ present
  have begun : turnAt (-1) 0 = none := by decide
  rw [begun, walk_first length_of_mem_wordsOf _ word first] at walked
  refine ⟨last.bus, ⟨last.discrepancy, last.currentRom⟩, ?_, devices,
    congrArg Prod.fst walked, congrArg Prod.snd walked⟩
  simp only [owSearchRom, Bool.not_true, Bool.false_and, Bool.false_eq_true, if_false, if_true,
    resetOnewire, present, ne_eq, not_false_eq_true, decide_true, ran]

theorem owSearchRom_next {global : Global} {word next : List Bool}
    (visits : Visits bus.devices global word)
    (following : Next 64 (wordsOf 64 0 bus.devices) word next) :
    ∃ bus' global', owSearchRom bus global false = (1, bus', global') ∧
      bus'.devices = bus.devices ∧ Visits bus.devices global' next := by
  obtain ⟨last, ran, devices, walked⟩ := searchLoop_walk global present
  obtain ⟨⟨turn, turns⟩, nextWalk⟩ := following
  rw [visits.bits, visits.turn, nextWalk] at walked
  refine ⟨last.bus, ⟨last.discrepancy, last.currentRom⟩, ?_, devices,
    congrArg Prod.fst walked, congrArg Prod.snd walked⟩
  have unfinished : ¬global.lastDiscrepancy.toInt < 0 := by
    have again := visits.turn
    rw [turns, turnAt] at again
    split_ifs at again with more
    · omega
  simp only [owSearchRom, Bool.not_false, Bool.true_and, unfinished, decide_false,
    Bool.false_eq_true, if_false, resetOnewire, present, ne_eq, not_false_eq_true, decide_true,
    if_true, ran]

omit present in
theorem owSearchRom_done {global : Global} {word : List Bool}
    (visits : Visits bus.devices global word)
    (last : turning 64 (wordsOf 64 0 bus.devices) word = none) :
    owSearchRom bus global false = (0, bus, global) := by
  have finished : global.lastDiscrepancy.toInt < 0 := by
    have again := visits.turn
    rw [last, turnAt] at again
    split_ifs at again with more
    · omega
  simp only [owSearchRom, Bool.not_false, Bool.true_and, finished, decide_true, if_true]

end Calls

/-- The calls behind the one that has visited a word visit the words behind it. -/
theorem calls_visits {devices : List RomCode} (present : devices ≠ []) {words : List (List Bool)}
    {word : List Bool} (chain : (word :: words).IsChain (Next 64 (wordsOf 64 0 devices)))
    (last : ∀ final ∈ (word :: words).getLast?, turning 64 (wordsOf 64 0 devices) final = none)
    {bus : Bus} (attached : bus.devices = devices) {global : Global}
    (visits : Visits devices global word) :
    ∃ (codes : List RomCode) (final : RomCode), codes.map (restBits 64 0) = words ∧
      calls bus global false (words.length + 1) =
        codes.map (fun rom => (1, rom)) ++ [(0, final)] := by
  subst attached
  induction words generalizing word bus global with
  | nil =>
      refine ⟨[], global.currentRom, rfl, ?_⟩
      rw [List.length_nil, calls, owSearchRom_done visits (last word rfl)]
      rfl
  | cons next words ih =>
      rw [List.isChain_cons_cons] at chain
      obtain ⟨bus', global', ran, attached, visitsNext⟩ :=
        owSearchRom_next present visits chain.1
      rw [← attached] at present chain last visitsNext
      obtain ⟨codes, final, bits, rest⟩ := ih present chain.2
        (fun _ member => last _ (by rwa [List.getLast?_cons_cons])) visitsNext
      refine ⟨global'.currentRom :: codes, final, ?_, ?_⟩
      · rw [List.map_cons, visitsNext.bits, bits]
      · rw [List.length_cons, calls, ran, rest]
        rfl

theorem restBits_injective : Function.Injective (restBits 64 0) := by
  intro first second same
  apply romCode_ext
  intro idx inside
  have bits := List.map_inj_left.mp same idx
  exact bits (List.mem_range'_1.mpr ⟨Nat.zero_le idx, by omega⟩)

theorem perm_wordsOf {devices : List RomCode} (distinct : devices.Nodup) :
    (enumerate 64 (wordsOf 64 0 devices)).Perm (devices.map (restBits 64 0)) :=
  perm_enumerate length_of_mem_wordsOf (distinct.map restBits_injective)

/-- A search returns one for each code of the bus, and zero behind the last one. -/
theorem search_visits_each_once {bus : Bus} (present : bus.devices ≠ [])
    (distinct : bus.devices.Nodup) (global : Global) :
    ∃ (codes : List RomCode) (final : RomCode), codes.Perm bus.devices ∧
      calls bus global true (bus.devices.length + 1) =
        codes.map (fun rom => (1, rom)) ++ [(0, final)] := by
  have every := perm_wordsOf distinct
  have chain := isChain_enumerate (@length_of_mem_wordsOf 64 0 bus.devices)
  have last := turning_last (@length_of_mem_wordsOf 64 0 bus.devices)
  have first := @owSearchRom_first bus present global
  have count := every.length_eq
  rw [List.length_map] at count
  have positive : 0 < (enumerate 64 (wordsOf 64 0 bus.devices)).length := by
    rw [count]
    exact List.length_pos_iff.mpr present
  obtain ⟨word, words, listed⟩ := List.exists_cons_of_length_pos positive
  rw [listed] at every chain last first count
  obtain ⟨bus', global', ran, attached, visits⟩ := first rfl
  obtain ⟨codes, final, bits, rest⟩ := calls_visits present chain last attached visits
  refine ⟨global'.currentRom :: codes, final, ?_, ?_⟩
  · rw [← List.map_perm_map_iff restBits_injective, List.map_cons, visits.bits, bits]
    exact every
  · rw [← count, List.length_cons, calls, ran, rest]
    rfl

/-- The codes of three devices. -/
def threeRoms : List RomCode :=
  [![0x28, 5, 0, 0, 0, 0, 0, 1], ![0x28, 4, 0, 0, 0, 0, 0, 2], ![0x10, 5, 0, 0, 0, 0, 0, 3]]

theorem search_visits_three :
    ∃ (codes : List RomCode) (final : RomCode), codes.Perm threeRoms ∧
      calls ⟨threeRoms, [], 0, false⟩ ⟨-1, fun _ => 0⟩ true 4 =
        codes.map (fun rom => (1, rom)) ++ [(0, final)] :=
  @search_visits_each_once ⟨threeRoms, [], 0, false⟩ (by decide) (by decide) ⟨-1, fun _ => 0⟩

end Ethersex.Onewire

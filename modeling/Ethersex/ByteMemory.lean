import Mathlib.Data.List.Basic
import Mathlib.Data.List.GetD
import Mathlib.Logic.Function.Basic
import Mathlib.Tactic.Common

/-!
# Byte memories and block transfers

A memory is a total function from offsets to bytes.  `readBlock` and
`writeBlock` copy consecutive bytes; the lemmas say when a write is visible to
a later read.
-/

namespace ByteMemory

abbrev Memory := Nat → UInt8

def readBlock (memory : Memory) (offset length : Nat) : List UInt8 :=
  (List.range length).map fun index => memory (offset + index)

def writeBlock (memory : Memory) (offset : Nat) (bytes : List UInt8) : Memory :=
  fun index =>
    if offset ≤ index ∧ index < offset + bytes.length then
      bytes.getD (index - offset) 0
    else
      memory index

/-- `memset`. -/
def fillBlock (memory : Memory) (offset length : Nat) (byte : UInt8) : Memory :=
  writeBlock memory offset (List.replicate length byte)

variable {memory memory' : Memory} {offset length : Nat} {bytes : List UInt8}

@[simp]
theorem length_readBlock (memory : Memory) (offset length : Nat) :
    (readBlock memory offset length).length = length := by
  simp [readBlock]

@[simp]
theorem readBlock_zero (memory : Memory) (offset : Nat) :
    readBlock memory offset 0 = [] :=
  rfl

theorem getElem_readBlock {index : Nat}
    (bound : index < (readBlock memory offset length).length) :
    (readBlock memory offset length)[index] = memory (offset + index) := by
  simp [readBlock]

theorem getD_readBlock {index : Nat} (bound : index < length) (default : UInt8) :
    (readBlock memory offset length).getD index default = memory (offset + index) := by
  have lengthBound : index < (readBlock memory offset length).length := by simpa using bound
  rw [List.getD_eq_getElem _ _ lengthBound, getElem_readBlock]

theorem readBlock_congr
    (agree : ∀ index, offset ≤ index → index < offset + length →
      memory index = memory' index) :
    readBlock memory offset length = readBlock memory' offset length := by
  apply List.map_congr_left
  intro index member
  rw [List.mem_range] at member
  exact agree _ (by omega) (by omega)

theorem readBlock_append (memory : Memory) (offset first second : Nat) :
    readBlock memory offset (first + second) =
      readBlock memory offset first ++ readBlock memory (offset + first) second := by
  simp only [readBlock, List.range_add, List.map_append, List.map_map]
  congr 1
  apply List.map_congr_left
  intro index _
  simp [Nat.add_assoc]

theorem readBlock_succ (memory : Memory) (offset length : Nat) :
    readBlock memory offset (length + 1) =
      memory offset :: readBlock memory (offset + 1) length := by
  rw [Nat.add_comm, readBlock_append]
  rfl

/-- A block that is stored in two parts. -/
theorem readBlock_append_iff {start : Nat} {first second : List UInt8} :
    readBlock memory start (first ++ second).length = first ++ second ↔
      readBlock memory start first.length = first ∧
        readBlock memory (start + first.length) second.length = second := by
  rw [List.length_append, readBlock_append]
  constructor
  · exact fun stored => List.append_inj stored (length_readBlock _ _ _)
  · rintro ⟨storedFirst, storedSecond⟩
    rw [storedFirst, storedSecond]

theorem take_readBlock {count : Nat} (bound : count ≤ length) :
    (readBlock memory offset length).take count = readBlock memory offset count := by
  obtain ⟨rest, rfl⟩ := Nat.exists_eq_add_of_le bound
  rw [readBlock_append, List.take_left' (length_readBlock ..)]

theorem drop_readBlock {count : Nat} (bound : count ≤ length) :
    (readBlock memory offset length).drop count =
      readBlock memory (offset + count) (length - count) := by
  obtain ⟨rest, rfl⟩ := Nat.exists_eq_add_of_le bound
  rw [readBlock_append, List.drop_left' (length_readBlock ..), Nat.add_sub_cancel_left]

theorem writeBlock_outside {index : Nat}
    (outside : index < offset ∨ offset + bytes.length ≤ index) :
    writeBlock memory offset bytes index = memory index :=
  if_neg (by omega)

theorem writeBlock_inside {index : Nat} (above : offset ≤ index)
    (below : index < offset + bytes.length) :
    writeBlock memory offset bytes index = bytes.getD (index - offset) 0 :=
  if_pos ⟨above, below⟩

@[simp]
theorem writeBlock_nil (memory : Memory) (offset : Nat) :
    writeBlock memory offset [] = memory := by
  funext index
  apply writeBlock_outside
  simp only [List.length_nil]
  omega

theorem writeBlock_append (memory : Memory) (offset : Nat) (first second : List UInt8) :
    writeBlock memory offset (first ++ second) =
      writeBlock (writeBlock memory offset first) (offset + first.length) second := by
  funext index
  by_cases inSecond : offset + first.length ≤ index ∧
      index < offset + first.length + second.length
  · rw [writeBlock_inside (by omega) (by rw [List.length_append]; omega),
      writeBlock_inside inSecond.1 inSecond.2,
      List.getD_append_right _ _ _ _ (by omega)]
    congr 1
    omega
  · have afterFirst : writeBlock (writeBlock memory offset first) (offset + first.length)
        second index = writeBlock memory offset first index :=
      writeBlock_outside (by omega)
    rw [afterFirst]
    by_cases inFirst : offset ≤ index ∧ index < offset + first.length
    · rw [writeBlock_inside (by omega) (by rw [List.length_append]; omega),
        writeBlock_inside inFirst.1 inFirst.2, List.getD_append _ _ _ _ (by omega)]
    · rw [writeBlock_outside (by rw [List.length_append]; omega),
        writeBlock_outside (by omega)]

theorem writeBlock_singleton (memory : Memory) (offset : Nat) (byte : UInt8) :
    writeBlock memory offset [byte] = Function.update memory offset byte := by
  funext index
  by_cases same : index = offset
  · subst same
    rw [writeBlock_inside (Nat.le_refl index) (by simp), Function.update_self]
    simp
  · rw [writeBlock_outside (by simp only [List.length_singleton]; omega),
      Function.update_of_ne same]

theorem writeBlock_cons (memory : Memory) (offset : Nat) (byte : UInt8)
    (bytes : List UInt8) :
    writeBlock memory offset (byte :: bytes) =
      writeBlock (Function.update memory offset byte) (offset + 1) bytes := by
  rw [← List.singleton_append, writeBlock_append, writeBlock_singleton]
  rfl

theorem update_writeBlock_comm {index : Nat} (byte : UInt8)
    (outside : index < offset ∨ offset + bytes.length ≤ index) :
    Function.update (writeBlock memory offset bytes) index byte =
      writeBlock (Function.update memory index byte) offset bytes := by
  funext other
  by_cases same : other = index
  · subst same
    rw [Function.update_self, writeBlock_outside outside, Function.update_self]
  · rw [Function.update_of_ne same]
    by_cases inside : offset ≤ other ∧ other < offset + bytes.length
    · rw [writeBlock_inside inside.1 inside.2, writeBlock_inside inside.1 inside.2]
    · rw [writeBlock_outside (by omega), writeBlock_outside (by omega),
        Function.update_of_ne same]

theorem readBlock_writeBlock_same (memory : Memory) (offset : Nat) (bytes : List UInt8) :
    readBlock (writeBlock memory offset bytes) offset bytes.length = bytes := by
  apply List.ext_getElem
  · simp
  · intro index readBound bytesBound
    rw [getElem_readBlock, writeBlock_inside (by omega) (by omega),
      Nat.add_sub_cancel_left, List.getD_eq_getElem _ _ bytesBound]

theorem readBlock_writeBlock_disjoint {start count : Nat}
    (disjoint : start + count ≤ offset ∨ offset + bytes.length ≤ start) :
    readBlock (writeBlock memory offset bytes) start count =
      readBlock memory start count := by
  apply readBlock_congr
  intro index above below
  apply writeBlock_outside
  omega

theorem readBlock_update {index start count : Nat} (byte : UInt8)
    (outside : index < start ∨ start + count ≤ index) :
    readBlock (Function.update memory index byte) start count = readBlock memory start count := by
  rw [← writeBlock_singleton]
  apply readBlock_writeBlock_disjoint
  rw [List.length_singleton]
  omega

/-- A block written inside a larger block shows up at its place. -/
theorem readBlock_writeBlock_inside {start count : Nat} (startLe : start ≤ offset)
    (endLe : offset + bytes.length ≤ start + count) :
    readBlock (writeBlock memory offset bytes) start count =
      readBlock memory start (offset - start) ++ bytes ++
        readBlock memory (offset + bytes.length)
          (start + count - (offset + bytes.length)) := by
  have split : count = (offset - start) + bytes.length +
      (start + count - (offset + bytes.length)) := by omega
  conv_lhs => rw [split]
  rw [readBlock_append, readBlock_append]
  have middle : start + (offset - start) = offset := by omega
  have finish : start + (offset - start + bytes.length) = offset + bytes.length := by omega
  rw [middle, finish, readBlock_writeBlock_same,
    readBlock_writeBlock_disjoint (by omega), readBlock_writeBlock_disjoint (by omega)]

end ByteMemory

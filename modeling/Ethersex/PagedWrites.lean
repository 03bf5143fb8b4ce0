import Mathlib.Algebra.GroupWithZero.Nat
import Ethersex.ByteMemory

/-!
# Writing by pages

A memory chip takes a block of bytes at a time and keeps within the page of its address: behind the
last cell of the page its address counter goes on with the first one.  Where the blocks end at the
borders of pages they are stored as one block.
-/

namespace PagedWrites

open ByteMemory

structure PageWrite where
  address : Nat
  bytes : List UInt8

/-- The address behind a cell of a page. -/
def nextInPage (pageSize address : Nat) : Nat :=
  if (address + 1) % pageSize = 0 then address + 1 - pageSize else address + 1

/-- What the chip stores. -/
def storeBytes (pageSize : Nat) (memory : Memory) : Nat → List UInt8 → Memory
  | _, [] => memory
  | address, byte :: bytes =>
      storeBytes pageSize (Function.update memory address byte) (nextInPage pageSize address) bytes

def storePages (pageSize : Nat) (memory : Memory) (writes : List PageWrite) : Memory :=
  writes.foldl (fun memory write => storeBytes pageSize memory write.address write.bytes) memory

/-- The number of bytes in these writes. -/
def totalLength (writes : List PageWrite) : Nat :=
  (writes.map fun write => write.bytes.length).sum

/-- These writes follow each other from an address on, hold the bytes in order, and none of them
crosses the border of a page. -/
def Covers (pageSize : Nat) : Nat → List PageWrite → List UInt8 → Prop
  | _, [], bytes => bytes = []
  | address, write :: writes, bytes =>
      write.address = address ∧ address % pageSize + write.bytes.length ≤ pageSize ∧
        ∃ rest, bytes = write.bytes ++ rest ∧
          Covers pageSize (address + write.bytes.length) writes rest

variable {pageSize address : Nat} {memory : Memory} {bytes : List UInt8} {writes : List PageWrite}

/-- Within its page a block is stored as it is. -/
theorem storeBytes_eq (inside : address % pageSize + bytes.length ≤ pageSize) :
    storeBytes pageSize memory address bytes = writeBlock memory address bytes := by
  induction bytes generalizing memory address with
  | nil => rw [storeBytes, writeBlock_nil]
  | cons byte bytes ih =>
      rw [List.length_cons] at inside
      rw [storeBytes, writeBlock_cons]
      cases bytes with
      | nil => rw [storeBytes, writeBlock_nil]
      | cons second bytes =>
          rw [List.length_cons] at inside
          have next : (address + 1) % pageSize = address % pageSize + 1 := by
            rw [← Nat.mod_add_mod]
            exact Nat.mod_eq_of_lt (by omega)
          rw [nextInPage, next, if_neg (Nat.succ_ne_zero _)]
          apply ih
          rw [next, List.length_cons]
          omega

/-- Writes that cover a block store it. -/
theorem Covers.storePages_eq (covers : Covers pageSize address writes bytes) :
    storePages pageSize memory writes = writeBlock memory address bytes := by
  induction writes generalizing memory address bytes with
  | nil =>
      obtain rfl : bytes = [] := covers
      rw [writeBlock_nil]
      rfl
  | cons write writes ih =>
      obtain ⟨sameAddress, inside, rest, rfl, covers⟩ := covers
      rw [storePages, List.foldl_cons, sameAddress, storeBytes_eq inside, writeBlock_append]
      exact ih covers

theorem totalLength_take_le (writes : List PageWrite) (count : Nat) :
    totalLength (writes.take count) ≤ totalLength writes := by
  conv_rhs => rw [← List.take_append_drop count writes]
  rw [totalLength, totalLength, List.map_append, List.sum_append]
  exact Nat.le_add_right _ _

theorem Covers.totalLength_eq (covers : Covers pageSize address writes bytes) :
    totalLength writes = bytes.length := by
  induction writes generalizing address bytes with
  | nil =>
      obtain rfl : bytes = [] := covers
      rfl
  | cons write writes ih =>
      obtain ⟨-, -, rest, rfl, covers⟩ := covers
      rw [List.length_append, ← ih covers]
      rfl

end PagedWrites

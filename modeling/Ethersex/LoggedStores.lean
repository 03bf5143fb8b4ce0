import Mathlib.Data.List.Basic
import Mathlib.Logic.Function.Basic
import Mathlib.Tactic.Common

/-!
# Stores with the cells that they touch

A memory from addresses to values together with the addresses that have been written.  A loop
writes a value to an address for each number below its bound.
-/

namespace LoggedStores

structure Logged (Address Value : Type*) where
  memory : Address → Value
  touched : List Address

variable {Address Value : Type*} [DecidableEq Address]

def store (logged : Logged Address Value) (address : Address) (value : Value) :
    Logged Address Value where
  memory := Function.update logged.memory address value
  touched := logged.touched ++ [address]

theorem memory_store (logged : Logged Address Value) (address : Address) (value : Value) :
    (store logged address value).memory = Function.update logged.memory address value :=
  rfl

/-- A store for each number below a count, from zero on. -/
def storeLoop (logged : Logged Address Value) (address : Nat → Address) (value : Nat → Value) :
    Nat → Logged Address Value
  | 0 => logged
  | count + 1 => store (storeLoop logged address value count) (address count) (value count)

variable {logged : Logged Address Value} {address : Nat → Address} {value : Nat → Value}
  {count : Nat}

theorem touched_storeLoop : (storeLoop logged address value count).touched =
    logged.touched ++ (List.range count).map address := by
  induction count with
  | zero => simp [storeLoop]
  | succ count ih => rw [storeLoop, store, ih, List.range_succ, List.map_append, List.append_assoc,
      List.map_singleton]

theorem mem_touched_storeLoop {cell : Address} :
    cell ∈ (storeLoop logged address value count).touched ↔
      cell ∈ logged.touched ∨ ∃ i < count, address i = cell := by
  simp only [touched_storeLoop, List.mem_append, List.mem_map, List.mem_range]

theorem memory_storeLoop_of_ne {cell : Address} (outside : ∀ i < count, address i ≠ cell) :
    (storeLoop logged address value count).memory cell = logged.memory cell := by
  induction count with
  | zero => rfl
  | succ count ih =>
      rw [storeLoop, memory_store, Function.update_of_ne
        (outside count (Nat.lt_succ_self count)).symm]
      exact ih fun i below => outside i (Nat.lt_succ_of_lt below)

/-- A cell that only one store writes. -/
theorem memory_storeLoop_of_unique {i : Nat} (inside : i < count)
    (unique : ∀ j < count, address j = address i → j = i) :
    (storeLoop logged address value count).memory (address i) = value i := by
  induction count with
  | zero => cases inside
  | succ count ih =>
      rw [storeLoop, memory_store]
      by_cases last : i = count
      · rw [last, Function.update_self]
      · have apart : address i ≠ address count := fun same =>
          last (unique count (Nat.lt_succ_self count) same.symm).symm
        rw [Function.update_of_ne apart]
        exact ih (Nat.lt_of_le_of_ne (Nat.lt_succ_iff.mp inside) last) fun j below =>
          unique j (Nat.lt_succ_of_lt below)

end LoggedStores

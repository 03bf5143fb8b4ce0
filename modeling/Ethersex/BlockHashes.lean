import Mathlib.Data.List.Basic
import Mathlib.Tactic.Common

/-!
# Hashes that absorb a message block by block

A message is completed with a mark, zeros and a field for its length, and the
blocks of the result go through a compression function one after another.
-/

namespace BlockHashes

variable {State Byte : Type*} (size : Nat) (compress : State → List Byte → State)

def absorb : Nat → State → List Byte → State
  | 0, state, _ => state
  | count + 1, state, message =>
      absorb count (compress state (message.take size)) (message.drop size)

/-- The whole blocks of a message. -/
def digest (state : State) (message : List Byte) : State :=
  absorb size compress (message.length / size) state message

/-- The number of zeros after the mark, with a length field of `field` bytes. -/
def zeros (field length : Nat) : Nat := (2 * size - 1 - field - length % size) % size

def completed (mark zero : Byte) (field : List Byte) (message : List Byte) : List Byte :=
  message ++ mark :: List.replicate (zeros size field.length message.length) zero ++ field

variable {size compress}

theorem absorb_append {count : Nat} {first : List Byte} (whole : first.length = count * size)
    (rest : Nat) (state : State) (second : List Byte) :
    absorb size compress (count + rest) state (first ++ second) =
      absorb size compress rest (absorb size compress count state first) second := by
  induction count generalizing state first with
  | zero =>
      rw [Nat.zero_mul, List.length_eq_zero_iff] at whole
      rw [whole, Nat.zero_add]
      rfl
  | succ count ih =>
      rw [Nat.succ_mul] at whole
      have long : size ≤ first.length := by omega
      have remaining : (first.drop size).length = count * size := by
        rw [List.length_drop]
        omega
      rw [show count + 1 + rest = count + rest + 1 by omega, absorb, absorb,
        List.take_append_of_le_length long, List.drop_append_of_le_length long, ih remaining]

theorem digest_append (positive : 0 < size) {count : Nat} {first : List Byte}
    (whole : first.length = count * size) (state : State) (second : List Byte) :
    digest size compress state (first ++ second) =
      digest size compress (absorb size compress count state first) second := by
  rw [digest, List.length_append, whole, Nat.add_comm, Nat.add_mul_div_right _ _ positive,
    Nat.add_comm, absorb_append whole]
  rfl

theorem digest_block (positive : 0 < size) {block : List Byte} (whole : block.length = size)
    (state : State) (rest : List Byte) :
    digest size compress state (block ++ rest) =
      digest size compress (compress state block) rest := by
  have once : block.length = 1 * size := by rw [Nat.one_mul, whole]
  rw [digest_append positive once, absorb, absorb, ← whole, List.take_length]

theorem digest_single (positive : 0 < size) {block : List Byte} (whole : block.length = size)
    (state : State) : digest size compress state block = compress state block := by
  rw [← List.append_nil block, digest_block positive whole, digest, List.length_nil, Nat.zero_div,
    absorb, List.append_nil]

/-- What was absorbed before does not change how the rest is completed. -/
theorem completed_append {count : Nat} {first : List Byte} (whole : first.length = count * size)
    (mark zero : Byte) (field second : List Byte) :
    completed size mark zero field (first ++ second) =
      first ++ completed size mark zero field second := by
  have residue : (first ++ second).length % size = second.length % size := by
    rw [List.length_append, whole, Nat.add_comm, Nat.add_mul_mod_self_right]
  rw [completed, completed, zeros, zeros, residue]
  simp only [List.append_assoc]

end BlockHashes

import Ethersex.ByteMemory
import Mathlib.Data.UInt

/-!
# Words of 32 bits in memory

The least significant byte has the lowest address.
-/

namespace LittleEndian

open ByteMemory

def ofBytes (b0 b1 b2 b3 : UInt8) : UInt32 :=
  UInt32.ofNat (b0.toNat + 256 * b1.toNat + 65536 * b2.toNat + 16777216 * b3.toNat)

/-- The byte with this offset in the word. -/
def byte (word : UInt32) (index : Nat) : UInt8 := UInt8.ofNat (word.toNat / 256 ^ index)

def bytes (word : UInt32) : List UInt8 := [byte word 0, byte word 1, byte word 2, byte word 3]

def load (memory : Memory) (address : Nat) : UInt32 :=
  ofBytes (memory address) (memory (address + 1)) (memory (address + 2)) (memory (address + 3))

def store (memory : Memory) (address : Nat) (word : UInt32) : Memory :=
  writeBlock memory address (bytes word)

theorem toNat_ofBytes (b0 b1 b2 b3 : UInt8) : (ofBytes b0 b1 b2 b3).toNat =
    b0.toNat + 256 * b1.toNat + 65536 * b2.toNat + 16777216 * b3.toNat := by
  have h0 := b0.toNat_lt
  have h1 := b1.toNat_lt
  have h2 := b2.toNat_lt
  have h3 := b3.toNat_lt
  rw [ofBytes, UInt32.toNat_ofNat']
  exact Nat.mod_eq_of_lt (by omega)

theorem toNat_byte (word : UInt32) (index : Nat) :
    (byte word index).toNat = word.toNat / 256 ^ index % 256 := by
  rw [byte, UInt8.toNat_ofNat']

theorem ofBytes_bytes (word : UInt32) :
    ofBytes (byte word 0) (byte word 1) (byte word 2) (byte word 3) = word := by
  have small := word.toNat_lt
  rw [← UInt32.toNat_inj, toNat_ofBytes, toNat_byte, toNat_byte, toNat_byte, toNat_byte]
  omega

theorem bytes_ofBytes (b0 b1 b2 b3 : UInt8) : bytes (ofBytes b0 b1 b2 b3) = [b0, b1, b2, b3] := by
  have h0 := b0.toNat_lt
  have h1 := b1.toNat_lt
  have h2 := b2.toNat_lt
  have h3 := b3.toNat_lt
  have same (index : Nat) (b : UInt8)
      (digit : (ofBytes b0 b1 b2 b3).toNat / 256 ^ index % 256 = b.toNat) :
      byte (ofBytes b0 b1 b2 b3) index = b := by
    rw [← UInt8.toNat_inj, toNat_byte]
    exact digit
  have number := toNat_ofBytes b0 b1 b2 b3
  rw [bytes, same 0 b0 (by omega), same 1 b1 (by omega), same 2 b2 (by omega),
    same 3 b3 (by omega)]

end LittleEndian

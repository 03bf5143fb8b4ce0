import Mathlib.Data.List.Basic
import Mathlib.Data.UInt
import Mathlib.Logic.Function.Iterate

/-!
# Modbus RTU frames

A frame on the bus is a message followed by the two bytes of its checksum, the low
byte first.  The buffers of `protocols/modbus` are arrays of `MODBUS_BUFFER_LEN`
bytes; here they are functions from the index, whose values behind the array stand
for the memory that follows it.
-/

namespace Ethersex.Modbus

def modbusBufferLen : Nat := 100

abbrev Buffer := Nat → UInt8

/-- The first bytes of a buffer. -/
def firstBytes (data : Buffer) (count : Nat) : List UInt8 :=
  (List.range count).map data

/-- One shift of `_crc16_update` of the AVR library. -/
def crc16Shift (crc : UInt16) : UInt16 :=
  if crc &&& 1 = 1 then crc >>> 1 ^^^ 0xa001 else crc >>> 1

def crc16Update (crc : UInt16) (byte : UInt8) : UInt16 :=
  crc16Shift^[8] (crc ^^^ byte.toUInt16)

def modbusCrcCalc (bytes : List UInt8) : UInt16 :=
  bytes.foldl crc16Update 0xffff

/-- The checksum bytes of a message, as they are sent. -/
def crcBytes (message : List UInt8) : List UInt8 :=
  let crc := (modbusCrcCalc message).toNat
  [UInt8.ofNat (crc % 256), UInt8.ofNat (crc / 256)]

/-- A message with its checksum. -/
def frameOf (message : List UInt8) : List UInt8 :=
  message ++ crcBytes message

/-- The check of the last two of `len` received bytes against the bytes before them. -/
def crcMatches (data : Buffer) (len : Nat) : Prop :=
  (modbusCrcCalc (firstBytes data (len - 2))).toNat =
    (data (len - 1)).toNat * 256 + (data (len - 2)).toNat

instance (data : Buffer) (len : Nat) : Decidable (crcMatches data len) :=
  inferInstanceAs (Decidable (_ = _))

@[simp]
theorem firstBytes_length (data : Buffer) (count : Nat) :
    (firstBytes data count).length = count := by
  simp [firstBytes]

@[simp]
theorem frameOf_length (message : List UInt8) :
    (frameOf message).length = message.length + 2 := by
  simp [frameOf, crcBytes]

/-- A buffer starts with the given bytes. -/
def StartsWith (data : Buffer) (bytes : List UInt8) : Prop :=
  firstBytes data bytes.length = bytes

theorem startsWith_nil (data : Buffer) : StartsWith data [] :=
  rfl

theorem firstBytes_succ (data : Buffer) (count : Nat) :
    firstBytes data (count + 1) = firstBytes data count ++ [data count] := by
  simp [firstBytes, List.range_succ]

theorem firstBytes_update_of_le (data : Buffer) {count index : Nat} (later : count ≤ index)
    (byte : UInt8) :
    firstBytes (Function.update data index byte) count = firstBytes data count := by
  induction count with
  | zero => rfl
  | succ count ih =>
      rw [firstBytes_succ, firstBytes_succ, ih (by omega), Function.update_of_ne (by omega)]

/-- Storing the next byte. -/
theorem StartsWith.snoc {data : Buffer} {bytes : List UInt8} (starts : StartsWith data bytes)
    (byte : UInt8) :
    StartsWith (Function.update data bytes.length byte) (bytes ++ [byte]) := by
  unfold StartsWith at *
  rw [List.length_append, List.length_singleton, firstBytes_succ,
    firstBytes_update_of_le data le_rfl, starts, Function.update_self]

theorem StartsWith.firstBytes_eq {data : Buffer} {bytes : List UInt8}
    (starts : StartsWith data bytes) {count : Nat} (within : count ≤ bytes.length) :
    firstBytes data count = bytes.take count := by
  have shorter := congrArg (List.take count) starts
  rw [← shorter]
  simp [firstBytes, ← List.map_take, List.take_range, within]

theorem StartsWith.of_append {data : Buffer} {first second : List UInt8}
    (starts : StartsWith data (first ++ second)) : StartsWith data first := by
  rw [StartsWith, starts.firstBytes_eq (by simp), List.take_left]

theorem StartsWith.get {data : Buffer} {bytes : List UInt8} (starts : StartsWith data bytes)
    (index : Nat) (inside : index < bytes.length) : data index = bytes[index] := by
  have same : (firstBytes data bytes.length)[index]? = bytes[index]? := by
    rw [starts]
  simpa [firstBytes, inside] using same

/-- The checksum of a received frame is right. -/
theorem crcMatches_frameOf {data : Buffer} {message : List UInt8}
    (starts : StartsWith data (frameOf message)) :
    crcMatches data (message.length + 2) := by
  have low := starts.get message.length (by simp)
  have high := starts.get (message.length + 1) (by simp)
  have bound := (modbusCrcCalc message).toNat_lt
  have first : firstBytes data message.length = message := starts.of_append
  unfold crcMatches
  rw [Nat.add_sub_cancel, show message.length + 2 - 1 = message.length + 1 from rfl, first, low,
    high]
  simp [frameOf, crcBytes]
  omega

end Ethersex.Modbus

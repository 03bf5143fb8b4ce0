import Ethersex.ByteMemory
import Mathlib.Data.UInt

/-!
# Messages on the boiler bus

The layout of a message, from `protocols/bsbport/bsbport.h`, and its checksum.
-/

namespace Ethersex.Bsbport

open ByteMemory

/-- `SOT_BYTE`. -/
abbrev sotByte : UInt8 := 0xDC

abbrev posSrc : Nat := 1
abbrev posDest : Nat := 2
abbrev posLen : Nat := 3
abbrev posType : Nat := 4
abbrev posP1 : Nat := 5
abbrev posP2 : Nat := 6
abbrev posP3 : Nat := 7
abbrev posP4 : Nat := 8
abbrev posData : Nat := 9

abbrev typeInfo : UInt8 := 2
abbrev typeSet : UInt8 := 3
abbrev typeAck : UInt8 := 4
abbrev typeQuery : UInt8 := 6
abbrev typeAnswer : UInt8 := 7

/-- The settings of the service. -/
structure Config where
  bufferLen : Nat
  messageBufferLen : Nat
  messageMaxLen : Nat
  ownAddress : Nat
  lenFits : bufferLen < 65536
  someMessage : 0 < messageBufferLen
  messagesFit : messageBufferLen < 256
  /-- The member `data` of a stored message has `BSBPORT_MESSAGE_MAX_LEN - 11` bytes. -/
  dataFits : 11 ≤ messageMaxLen

/-- `_crc_xmodem_update`. -/
def crcXmodemUpdate (crc : UInt16) (data : UInt8) : UInt16 :=
  (List.range 8).foldl
    (fun crc _ => if crc &&& 0x8000 ≠ 0 then (crc <<< 1) ^^^ 0x1021 else crc <<< 1)
    (crc ^^^ (data.toUInt16 <<< 8))

/-- `bsbport_crc`. -/
def bsbportCrc (buffer : Memory) (length : Nat) : UInt16 :=
  (readBlock buffer 0 length).foldl crcXmodemUpdate 0

end Ethersex.Bsbport

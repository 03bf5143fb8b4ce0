import Ethersex.ByteMemory

/-!
# A ZBus station

`protocols/zbus/zbus.c` sends and receives frames over one half-duplex line.  A frame is
enclosed in a start and a stop condition, each an escape character with a code, and an
escape character among its bytes is doubled.  Sender and receiver share the buffer of
uIP, which the receive interrupt locks at the start condition.

The lengths are natural numbers, since the index never passes the length of a frame or of
the buffer.  The counters for `ZBUS_ECMD` and the LEDs are left out.
-/

namespace Ethersex.Zbus

open ByteMemory

/-- The character that introduces start and stop conditions. -/
def escapeCharacter : UInt8 := 0x5c

def zbusStart : UInt8 := 0x30

def zbusStop : UInt8 := 0x31

/-- What `UCSRB` enables. -/
inductive Usart where
  | off
  | receiver
  | transmitter
  deriving DecidableEq

structure Station where
  sendEscapeData : UInt8
  recvEscapeData : Bool
  busBlocked : Nat
  index : Nat
  txlen : Nat
  rxlen : Nat
  buf : Memory
  bufLocked : Bool
  usart : Usart
  /-- The byte the transmitter sends. -/
  udr : Option UInt8

/-- `__zbus_txstart`. -/
def startTransmitter (station : Station) : Station :=
  { station with
    busBlocked := 3
    usart := .transmitter
    sendEscapeData := zbusStart
    udr := some escapeCharacter }

def zbusTxstart (station : Station) (size : Nat) : Station :=
  if station.txlen ≠ 0 ∨ station.rxlen ≠ 0 ∨ station.busBlocked ≠ 0 then station
  -- the second check of `bus_blocked` in the source has the same result as the first
  else startTransmitter { station with index := 0, txlen := size }

def zbusRxstart (station : Station) : Station :=
  if 0 < station.txlen then station else { station with rxlen := 0, usart := .receiver }

def zbusRxstop (station : Station) : Station :=
  { station with usart := .off }

/-- The state after `zbus_core_init`, with any content of the buffer. -/
def zbusCoreInit (buf : Memory) : Station :=
  zbusRxstart ⟨0, false, 0, 0, 0, 0, buf, false, .off, none⟩

def zbusCorePeriodic (station : Station) : Station :=
  if station.busBlocked = 0 then station
  else
    let station := { station with busBlocked := station.busBlocked - 1 }
    if station.busBlocked = 0 ∧ 0 < station.txlen then startTransmitter station else station

def uipBufUnlock (station : Station) : Station :=
  if 0 < station.txlen then station else { station with bufLocked := false }

/-- The interrupt after the transmission of a byte. -/
def txInterrupt (sent : Station) : Station :=
  let station := { sent with udr := none }
  if station.sendEscapeData ≠ 0 then
    { station with udr := some station.sendEscapeData, sendEscapeData := 0 }
  else if station.txlen ≠ 0 ∧ station.index < station.txlen then
    let byte := station.buf station.index
    let station :=
      if byte = escapeCharacter then
        { station with sendEscapeData := byte, udr := some escapeCharacter }
      else { station with udr := some byte }
    { station with index := station.index + 1, busBlocked := 3 }
  else if station.txlen ≠ 0 then
    { uipBufUnlock { station with txlen := 0 } with
      sendEscapeData := zbusStop
      udr := some escapeCharacter }
  else zbusRxstart { station with busBlocked := 0, txlen := 0 }

section Transmitter

variable {station : Station}

theorem txInterrupt_carry (carry : station.sendEscapeData ≠ 0) :
    txInterrupt station =
      { station with udr := some station.sendEscapeData, sendEscapeData := 0 } := by
  simp [txInterrupt, carry]

/-- The next byte of the buffer is sent, or the escape character in front of it. -/
theorem txInterrupt_byte (carry : station.sendEscapeData = 0)
    (more : station.index < station.txlen) :
    txInterrupt station =
      { station with
        udr := some (station.buf station.index)
        sendEscapeData :=
          if station.buf station.index = escapeCharacter then escapeCharacter else 0
        index := station.index + 1
        busBlocked := 3 } := by
  have nonempty : station.txlen ≠ 0 := by omega
  by_cases quoted : station.buf station.index = escapeCharacter
  · simp [txInterrupt, carry, nonempty, more, quoted]
  · simp [txInterrupt, carry, nonempty, more, quoted]

theorem txInterrupt_stop (carry : station.sendEscapeData = 0) (nonempty : station.txlen ≠ 0)
    (ended : station.txlen ≤ station.index) :
    txInterrupt station =
      { station with
        txlen := 0
        bufLocked := false
        sendEscapeData := zbusStop
        udr := some escapeCharacter } := by
  have none : ¬ station.index < station.txlen := by omega
  simp [txInterrupt, uipBufUnlock, carry, nonempty, none]

theorem txInterrupt_end (carry : station.sendEscapeData = 0) (silent : station.txlen = 0) :
    txInterrupt station =
      { station with udr := none, busBlocked := 0, rxlen := 0, usart := .receiver } := by
  simp [txInterrupt, zbusRxstart, carry, silent]

end Transmitter

/-- The code at `append_data`. -/
def appendData (bufferLen : Nat) (station : Station) (data : UInt8) : Station :=
  if bufferLen ≤ station.index then station
  else if station.busBlocked = 0 then station
  else
    { station with
      busBlocked := 3
      buf := Function.update station.buf station.index data
      index := station.index + 1 }

/-- A start condition takes the lock of the buffer. -/
def startCondition (station : Station) : Station :=
  if station.bufLocked then station
  else { station with bufLocked := true, index := 0, busBlocked := 3 }

def stopCondition (station : Station) : Station :=
  let stopped :=
    if station.busBlocked ≠ 0 then { zbusRxstop station with rxlen := station.index }
    else station
  let stopped := { stopped with busBlocked := 0 }
  if 0 < stopped.txlen then startTransmitter stopped else stopped

/-- The interrupt after the reception of a byte. -/
def rxInterrupt (bufferLen : Nat) (station : Station) (lineError : Bool) (data : UInt8) :
    Station :=
  if lineError then station
  else if station.rxlen ≠ 0 then station
  else if station.txlen ≠ 0 then station
  else if station.recvEscapeData then
    let station := { station with recvEscapeData := false }
    if data = zbusStart then startCondition station
    else if data = zbusStop then stopCondition station
    else if data = escapeCharacter then appendData bufferLen station data
    else station
  else if data = escapeCharacter then { station with recvEscapeData := true }
  else appendData bufferLen station data

/-- The stop condition of a frame that is under way. -/
theorem stopCondition_of_blocked (station : Station) (txlen : station.txlen = 0)
    (blocked : station.busBlocked ≠ 0) :
    stopCondition station =
      { station with usart := .off, rxlen := station.index, busBlocked := 0 } := by
  simp [stopCondition, zbusRxstop, txlen, blocked]

theorem stopCondition_of_free (station : Station) (txlen : station.txlen = 0)
    (free : station.busBlocked = 0) : stopCondition station = station := by
  have unchanged : { station with busBlocked := 0 } = station := by
    rw [← free]
  have silent : ¬ 0 < station.txlen := by omega
  simp only [stopCondition, free, ne_eq, not_true_eq_false, if_false, unchanged, silent]

section Interrupt

variable {bufferLen : Nat} {station : Station} (rxlen : station.rxlen = 0)
  (txlen : station.txlen = 0)

include rxlen txlen

theorem rxInterrupt_escape (escape : station.recvEscapeData = false) :
    rxInterrupt bufferLen station false escapeCharacter =
      { station with recvEscapeData := true } := by
  simp [rxInterrupt, rxlen, txlen, escape]

theorem rxInterrupt_data (escape : station.recvEscapeData = false) {data : UInt8}
    (plain : data ≠ escapeCharacter) :
    rxInterrupt bufferLen station false data = appendData bufferLen station data := by
  simp [rxInterrupt, rxlen, txlen, escape, plain]

theorem rxInterrupt_start (escape : station.recvEscapeData = true) :
    rxInterrupt bufferLen station false zbusStart =
      startCondition { station with recvEscapeData := false } := by
  simp [rxInterrupt, rxlen, txlen, escape]

theorem rxInterrupt_stop (escape : station.recvEscapeData = true) :
    rxInterrupt bufferLen station false zbusStop =
      stopCondition { station with recvEscapeData := false } := by
  simp [rxInterrupt, rxlen, txlen, escape, zbusStart, zbusStop]

theorem rxInterrupt_quoted (escape : station.recvEscapeData = true) :
    rxInterrupt bufferLen station false escapeCharacter =
      appendData bufferLen { station with recvEscapeData := false } escapeCharacter := by
  simp [rxInterrupt, rxlen, txlen, escape, zbusStart, zbusStop, escapeCharacter]

end Interrupt

/-- A tick of the timer between two bytes. -/
def tick (ticked : Bool) (station : Station) : Station :=
  if ticked then zbusCorePeriodic station else station

def escapeByte (byte : UInt8) : List UInt8 :=
  if byte = escapeCharacter then [escapeCharacter, escapeCharacter] else [byte]

/-- A frame with its doubled escape characters and its stop condition. -/
def frameEnd (frame : List UInt8) : List UInt8 :=
  frame.flatMap escapeByte ++ [escapeCharacter, zbusStop]

/-- The bytes of a frame from its start condition to its stop condition. -/
def wire (frame : List UInt8) : List UInt8 :=
  [escapeCharacter, zbusStart] ++ frameEnd frame

@[simp]
theorem frameEnd_nil : frameEnd [] = [escapeCharacter, zbusStop] :=
  rfl

theorem frameEnd_cons (byte : UInt8) (frame : List UInt8) :
    frameEnd (byte :: frame) = escapeByte byte ++ frameEnd frame := by
  simp [frameEnd]

theorem two_le_frameEnd_length (frame : List UInt8) : 2 ≤ (frameEnd frame).length := by
  simp [frameEnd]

/-- A tick that does not start the transmitter again only counts down. -/
theorem tick_counts (ticked : Bool) (station : Station)
    (quiet : station.txlen = 0 ∨ 2 ≤ station.busBlocked) :
    ∃ busBlocked, station.busBlocked ≤ busBlocked + 1 ∧ busBlocked ≤ station.busBlocked ∧
      tick ticked station = { station with busBlocked := busBlocked } := by
  unfold tick zbusCorePeriodic
  split_ifs with ticks free
  · exact ⟨station.busBlocked, by omega, Nat.le_refl _, rfl⟩
  · have counts : ¬ (station.busBlocked - 1 = 0 ∧ 0 < station.txlen) := by omega
    exact ⟨station.busBlocked - 1, by omega, by omega, if_neg counts⟩
  · exact ⟨station.busBlocked, by omega, Nat.le_refl _, rfl⟩

end Ethersex.Zbus

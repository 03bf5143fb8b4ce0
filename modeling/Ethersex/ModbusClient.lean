import Ethersex.ByteMemory
import Ethersex.ModbusFrame
import Mathlib.Data.Nat.Bitwise

/-!
# The request processing of the Modbus slave

`modbus_client_process` of `protocols/modbus/modbus_client.c` reads a request from a buffer
and leaves the answer with its checksum there.  The registers are the example registers of
`modbus_client_cb.c`.  The start address and the number of registers are 16-bit numbers in the
request, but two of the four commands keep only their low bytes.
-/

namespace Ethersex.Modbus

open ByteMemory

def cmdReadHolding : UInt8 := 0x03

def cmdReadInputs : UInt8 := 0x04

def cmdWriteHolding : UInt8 := 0x06

def cmdWriteMultipleHolding : UInt8 := 0x10

def modbusHoldRegisters : Nat := 11

def modbusInputRegisters : Nat := 7

/-- The addresses of the device, which are different. -/
structure ClientConfig where
  modbusAddress : UInt8
  modbusBroadcast : UInt8
  distinct : modbusAddress ≠ modbusBroadcast

/-- The array `holding`, with the memory behind it. -/
abbrev Registers := Nat → UInt16

/-- A call of a register function. -/
inductive Access where
  | readHolding (address : Nat)
  | readInput (address : Nat)
  | writeHolding (address : Nat) (value : UInt16)
  deriving DecidableEq

def modbusReadHolding (holding : Registers) (address : UInt8) : UInt16 :=
  holding address.toNat

def modbusWriteHolding (holding : Registers) (address : UInt8) (value : UInt16) : Registers :=
  Function.update holding address.toNat value

def modbusReadInput (_address : UInt8) : UInt16 :=
  0xf0f0

/-- `ntohs` of the two bytes at an offset. -/
def wordAt (data : Buffer) (offset : Nat) : UInt16 :=
  UInt16.ofNat ((data offset).toNat * 256 + (data (offset + 1)).toNat)

/-- A register as it is sent. -/
def wordBytes (value : UInt16) : List UInt8 :=
  [(value >>> 8).toUInt8, value.toUInt8]

/-- The buffer and `*recv_len` after the processing, the registers, and the calls of the
register functions. -/
structure Processed where
  data : Buffer
  recvLen : Int
  holding : Registers
  accesses : List Access

/-- The code at `send_message`, with an answer of the given length in the buffer. -/
def sendMessage (config : ClientConfig) (holding : Registers) (accesses : List Access)
    (data : Buffer) (length : Nat) : Processed :=
  if data 0 = config.modbusBroadcast then ⟨data, -1, holding, accesses⟩
  else ⟨writeBlock data length (crcBytes (firstBytes data length)), length + 2, holding, accesses⟩

/-- The code at `send_error`. -/
def sendError (config : ClientConfig) (holding : Registers) (data : Buffer) (code : UInt8) :
    Processed :=
  sendMessage config holding [] (writeBlock data 0 [config.modbusAddress, data 1 ||| 0x80, code]) 3

/-- The array `answer` for the registers that were read. -/
def readAnswer (config : ClientConfig) (command : UInt8) (values : List UInt16) : List UInt8 :=
  config.modbusAddress :: command :: UInt8.ofNat (values.length * 2) :: values.flatMap wordBytes

/-- The values of the registers from `ptr` on. -/
def readRegisters (holding : Registers) (isHolding : Bool) (ptr : UInt8) (len : Nat) :
    List UInt16 :=
  (List.range len).map fun i =>
    if isHolding then modbusReadHolding holding (ptr + UInt8.ofNat i)
    else modbusReadInput (ptr + UInt8.ofNat i)

def readAccesses (isHolding : Bool) (ptr : UInt8) (len : Nat) : List Access :=
  (List.range len).map fun i =>
    if isHolding then .readHolding (ptr + UInt8.ofNat i).toNat
    else .readInput (ptr + UInt8.ofNat i).toNat

/-- Read holding or input registers. -/
def processRead (config : ClientConfig) (holding : Registers) (data : Buffer) : Processed :=
  let isHolding : Bool := data 1 = cmdReadHolding
  let ptr := (wordAt data 2).toUInt8
  let len := (wordAt data 4).toUInt8
  if ptr.toNat + len.toNat > (if isHolding then modbusHoldRegisters else modbusInputRegisters) then
    sendError config holding data 2
  else
    let answer :=
      readAnswer config (data 1) (readRegisters holding isHolding ptr len.toNat)
    sendMessage config holding (readAccesses isHolding ptr len.toNat) (writeBlock data 0 answer)
      answer.length

/-- Write a single register; the request is the answer. -/
def processWrite (config : ClientConfig) (holding : Registers) (data : Buffer) (length : UInt8) :
    Processed :=
  if (wordAt data 2).toNat ≥ modbusHoldRegisters then sendError config holding data 2
  else
    sendMessage config (modbusWriteHolding holding (wordAt data 2).toUInt8 (wordAt data 4))
      [.writeHolding (wordAt data 2).toUInt8.toNat (wordAt data 4)] data length.toNat

/-- Write multiple registers. -/
def processWriteMultiple (config : ClientConfig) (holding : Registers) (data : Buffer) :
    Processed :=
  let ptr := (wordAt data 2).toUInt8
  let len := (wordAt data 4).toUInt8
  if ptr.toNat + len.toNat ≥ modbusHoldRegisters then sendError config holding data 2
  else
    let written := (List.range len.toNat).foldl (fun holding i =>
      modbusWriteHolding holding (ptr + UInt8.ofNat i) (wordAt data (7 + 2 * i))) holding
    let accesses := (List.range len.toNat).map fun i =>
      Access.writeHolding (ptr + UInt8.ofNat i).toNat (wordAt data (7 + 2 * i))
    sendMessage config written accesses
      (writeBlock data 0 [config.modbusAddress, cmdWriteHolding, 0, ptr, 0, len]) 6

def modbusClientProcess (config : ClientConfig) (holding : Registers) (data : Buffer)
    (length : UInt8) : Processed :=
  if data 1 = cmdReadHolding ∨ data 1 = cmdReadInputs then processRead config holding data
  else if data 1 = cmdWriteHolding then processWrite config holding data length
  else if data 1 = cmdWriteMultipleHolding then processWriteMultiple config holding data
  else sendError config holding data 1

/-- A request for this slave in the buffer, without its checksum. -/
structure RegisterRequest (config : ClientConfig) (data : Buffer) (length : UInt8) : Prop where
  addressed : data 0 = config.modbusAddress
  command : data 1 = cmdReadHolding ∨ data 1 = cmdReadInputs ∨ data 1 = cmdWriteHolding ∨
    data 1 = cmdWriteMultipleHolding
  complete : 6 ≤ length.toNat

def registerArea (data : Buffer) : Nat :=
  if data 1 = cmdReadInputs then modbusInputRegisters else modbusHoldRegisters

def startAddress (data : Buffer) : Nat :=
  (wordAt data 2).toNat

def registerCount (data : Buffer) : Nat :=
  if data 1 = cmdWriteHolding then 1 else (wordAt data 4).toNat

/-- The range addressed lies inside the register area. -/
def Inside (data : Buffer) : Prop :=
  startAddress data + registerCount data ≤ registerArea data

def IsWrite (data : Buffer) : Prop :=
  data 1 = cmdWriteHolding ∨ data 1 = cmdWriteMultipleHolding

instance (data : Buffer) : Decidable (Inside data) :=
  inferInstanceAs (Decidable (_ ≤ _))

instance (data : Buffer) : Decidable (IsWrite data) :=
  inferInstanceAs (Decidable (_ ∨ _))

/-- The value that a request carries for a register of its range. -/
def carriedValue (data : Buffer) (index : Nat) : UInt16 :=
  if data 1 = cmdWriteHolding then wordAt data 4 else wordAt data (7 + 2 * index)

def requestedAccess (data : Buffer) (index : Nat) : Access :=
  if data 1 = cmdReadHolding then .readHolding (startAddress data + index)
  else if data 1 = cmdReadInputs then .readInput (startAddress data + index)
  else .writeHolding (startAddress data + index) (carriedValue data index)

/-- The values of the registers of the range. -/
def requestedValues (holding : Registers) (data : Buffer) : List UInt16 :=
  (List.range (registerCount data)).map fun index =>
    if data 1 = cmdReadHolding then holding (startAddress data + index)
    else modbusReadInput (UInt8.ofNat (startAddress data + index))

/-- The answer in the buffer, with its checksum. -/
structure Answers (processed : Processed) (message : List UInt8) : Prop where
  stored : StartsWith processed.data (frameOf message)
  counted : processed.recvLen = (frameOf message).length

/-- A request is answered with its function code exactly if its range lies inside the
register area; then its registers, and no others, are read or written with the values of the
request.  Else it is answered with an exception and no register changes. -/
structure ProcessedRight (config : ClientConfig) (holding : Registers) (data : Buffer)
    (processed : Processed) : Prop where
  functionCode : 0 < processed.recvLen ∧ processed.data 1 = data 1 ↔ Inside data
  accessed : Inside data →
    processed.accesses = (List.range (registerCount data)).map (requestedAccess data)
  written : Inside data → ∀ address, processed.holding address =
    if IsWrite data ∧ startAddress data ≤ address ∧
        address < startAddress data + registerCount data then
      carriedValue data (address - startAddress data)
    else holding address
  read : Inside data → ¬ IsWrite data →
    Answers processed (readAnswer config (data 1) (requestedValues holding data))
  refused : ¬ Inside data →
    Answers processed [config.modbusAddress, data 1 ||| 0x80, 2] ∧
      processed.accesses = [] ∧ processed.holding = holding

/-- The low bytes of the start address and of the number of registers give the same
decision as the numbers, and no answer of the function that writes multiple registers is
one with its function code. -/
def DecidedRight (data : Buffer) : Prop :=
  (data 1 = cmdReadHolding ∨ data 1 = cmdReadInputs → Inside data ∨
    registerArea data < startAddress data % 256 + registerCount data % 256) ∧
  (data 1 = cmdWriteMultipleHolding → ¬ Inside data ∧
    modbusHoldRegisters ≤ startAddress data % 256 + registerCount data % 256)

theorem firstBytes_eq_readBlock (data : Buffer) (count : Nat) :
    firstBytes data count = readBlock data 0 count := by
  simp [firstBytes, readBlock]

theorem startsWith_writeBlock (data : Buffer) (bytes : List UInt8) :
    StartsWith (writeBlock data 0 bytes) bytes := by
  rw [StartsWith, firstBytes_eq_readBlock]
  exact readBlock_writeBlock_same data 0 bytes

theorem StartsWith.append {data : Buffer} {first : List UInt8} (starts : StartsWith data first)
    (second : List UInt8) :
    StartsWith (writeBlock data first.length second) (first ++ second) := by
  rw [StartsWith, firstBytes_eq_readBlock] at *
  apply readBlock_append_iff.mpr
  constructor
  · rw [readBlock_writeBlock_disjoint (Or.inl (by simp)), starts]
  · rw [Nat.zero_add]
    exact readBlock_writeBlock_same data first.length second

section Send

variable {config : ClientConfig} {holding : Registers} {accesses : List Access} {data : Buffer}
  {length : Nat}

@[simp]
theorem sendMessage_holding :
    (sendMessage config holding accesses data length).holding = holding := by
  unfold sendMessage
  split <;> rfl

@[simp]
theorem sendMessage_accesses :
    (sendMessage config holding accesses data length).accesses = accesses := by
  unfold sendMessage
  split <;> rfl

/-- An answer that does not begin with the broadcast address is sent. -/
theorem sendMessage_answers {message : List UInt8} (starts : StartsWith data message)
    (own : data 0 = config.modbusAddress) :
    Answers (sendMessage config holding accesses data message.length) message := by
  have other : data 0 ≠ config.modbusBroadcast := by
    rw [own]
    exact config.distinct
  rw [sendMessage, if_neg other, show firstBytes data message.length = message from starts]
  constructor
  · exact starts.append (crcBytes message)
  · simp

theorem Answers.functionCode {processed : Processed} {message : List UInt8}
    (answers : Answers processed message) (long : 1 < message.length) :
    0 < processed.recvLen ∧ processed.data 1 = message[1] := by
  constructor
  · rw [answers.counted, frameOf_length]
    omega
  · rw [answers.stored.get 1 (by simp)]
    exact List.getElem_append_left long

theorem sendError_answers (holding : Registers) (data : Buffer) (code : UInt8) :
    Answers (sendError config holding data code)
      [config.modbusAddress, data 1 ||| 0x80, code] := by
  have starts := startsWith_writeBlock data [config.modbusAddress, data 1 ||| 0x80, code]
  exact sendMessage_answers starts (starts.get 0 (by simp))

end Send

section Commands

variable {config : ClientConfig} {holding : Registers} {data : Buffer} {length : UInt8}

/-- An exception does not have the function code of the request. -/
theorem RegisterRequest.exception_ne (request : RegisterRequest config data length) :
    data 1 ||| 0x80 ≠ data 1 := by
  rcases request.command with command | command | command | command <;> rw [command] <;> decide

theorem sendError_right_iff (request : RegisterRequest config data length) :
    ProcessedRight config holding data (sendError config holding data 2) ↔ ¬ Inside data := by
  have answers := @sendError_answers config holding data 2
  constructor
  · intro right inside
    exact request.exception_ne
      ((answers.functionCode (by simp)).2.symm.trans (right.functionCode.mpr inside).2)
  · intro outside
    constructor
    · exact iff_of_false
        (fun both => request.exception_ne ((answers.functionCode (by simp)).2.symm.trans both.2))
        outside
    · exact fun inside => absurd inside outside
    · exact fun inside => absurd inside outside
    · exact fun inside => absurd inside outside
    · exact fun _ => ⟨answers, sendMessage_accesses, sendMessage_holding⟩

/-- A request outside its register area must not be answered with another code. -/
theorem inside_of_right {processed : Processed} {address command : UInt8} {rest : List UInt8}
    (right : ProcessedRight config holding data processed)
    (answers : Answers processed (address :: command :: rest))
    (plain : command ≠ data 1 ||| 0x80) : Inside data := by
  by_contra outside
  obtain ⟨exception, -, -⟩ := right.refused outside
  exact plain
    ((answers.functionCode (by simp)).2.symm.trans (exception.functionCode (by simp)).2)

/-- Inside the register area the low bytes are the numbers. -/
theorem lowBytes_of_inside (inside : Inside data) :
    startAddress data % 256 = startAddress data ∧
      registerCount data % 256 = registerCount data := by
  have small : registerArea data ≤ 11 := by
    unfold registerArea
    split <;> decide
  unfold Inside at inside
  constructor <;> apply Nat.mod_eq_of_lt <;> omega

/-- The sum of the low bytes is at most the sum of the numbers. -/
theorem area_of_inside (inside : Inside data) :
    startAddress data % 256 + registerCount data % 256 ≤ registerArea data := by
  rw [(lowBytes_of_inside inside).1, (lowBytes_of_inside inside).2]
  exact inside

/-- The address of a register that is inside the area, computed from the low bytes. -/
theorem toNat_register {index : Nat} (inside : Inside data) (within : index < registerCount data) :
    ((wordAt data 2).toUInt8 + UInt8.ofNat index).toNat = startAddress data + index := by
  have small : registerArea data ≤ 11 := by
    unfold registerArea
    split <;> decide
  have lowByte : (wordAt data 2).toUInt8.toNat = startAddress data % 256 := UInt16.toNat_toUInt8 _
  unfold Inside at inside
  rw [UInt8.toNat_add, lowByte, UInt8.toNat_ofNat']
  omega

/-- Inside the area the registers read are those of the range. -/
theorem readRegisters_eq (inside : Inside data) :
    readRegisters holding (decide (data 1 = cmdReadHolding)) (wordAt data 2).toUInt8
      (registerCount data) = requestedValues holding data := by
  apply List.map_congr_left
  intro index member
  have address := toNat_register inside (List.mem_range.mp member)
  simp only [decide_eq_true_eq, modbusReadHolding, address]
  rfl

section Read

variable (request : RegisterRequest config data length)
  (isRead : data 1 = cmdReadHolding ∨ data 1 = cmdReadInputs)

include isRead

theorem not_isWrite_of_read : ¬ IsWrite data := by
  unfold IsWrite
  rcases isRead with command | command <;> rw [command] <;> decide

theorem registerCount_of_read : registerCount data = (wordAt data 4).toNat :=
  if_neg fun command => not_isWrite_of_read isRead (Or.inl command)

theorem processRead_eq :
    processRead config holding data =
      if registerArea data < startAddress data % 256 + registerCount data % 256 then
        sendError config holding data 2
      else
        let answer := readAnswer config (data 1) (readRegisters holding
          (decide (data 1 = cmdReadHolding)) (wordAt data 2).toUInt8 (registerCount data % 256))
        sendMessage config holding (readAccesses (decide (data 1 = cmdReadHolding))
          (wordAt data 2).toUInt8 (registerCount data % 256)) (writeBlock data 0 answer)
          answer.length := by
  have area : (if decide (data 1 = cmdReadHolding) then modbusHoldRegisters
      else modbusInputRegisters) = registerArea data := by
    unfold registerArea
    rcases isRead with command | command <;> rw [command] <;> decide
  rw [registerCount_of_read isRead, startAddress, ← UInt16.toNat_toUInt8, ← UInt16.toNat_toUInt8,
    ← area]
  rfl

theorem readAccesses_eq (inside : Inside data) :
    readAccesses (decide (data 1 = cmdReadHolding)) (wordAt data 2).toUInt8 (registerCount data) =
      (List.range (registerCount data)).map (requestedAccess data) := by
  apply List.map_congr_left
  intro index member
  have address := toNat_register inside (List.mem_range.mp member)
  simp only [decide_eq_true_eq, address]
  unfold requestedAccess
  rcases isRead with command | command <;> simp [command]

include request

theorem processRead_right_iff :
    ProcessedRight config holding data (processRead config holding data) ↔
      Inside data ∨
        registerArea data < startAddress data % 256 + registerCount data % 256 := by
  rw [processRead_eq isRead]
  split
  next beyond =>
    rw [sendError_right_iff request]
    constructor
    · exact fun _ => Or.inr beyond
    · exact fun _ inside => absurd (area_of_inside inside) (Nat.not_le.mpr beyond)
  next within =>
    rw [or_iff_left within]
    dsimp only
    generalize valuesEq : readRegisters holding (decide (data 1 = cmdReadHolding))
      (wordAt data 2).toUInt8 (registerCount data % 256) = values
    have starts := startsWith_writeBlock data (readAnswer config (data 1) values)
    have answers := fun accesses => @sendMessage_answers config holding accesses _ _ starts
      (starts.get 0 (by simp [readAnswer]))
    constructor
    · exact fun right => inside_of_right right (answers _) request.exception_ne.symm
    · intro inside
      rw [(lowBytes_of_inside inside).2] at valuesEq ⊢
      constructor
      · exact iff_of_true ((answers _).functionCode (by simp [readAnswer])) inside
      · intro _
        rw [sendMessage_accesses, readAccesses_eq isRead inside]
      · intro _ address
        rw [sendMessage_holding, if_neg fun both => not_isWrite_of_read isRead both.1]
      · intro _ _
        rw [← readRegisters_eq inside, valuesEq]
        exact answers _
      · exact fun outside => absurd inside outside

end Read

theorem processWrite_right (request : RegisterRequest config data length)
    (isWrite : data 1 = cmdWriteHolding) :
    ProcessedRight config holding data (processWrite config holding data length) := by
  have one : registerCount data = 1 := if_pos isWrite
  have area : registerArea data = modbusHoldRegisters := by
    rw [registerArea, isWrite]
    rfl
  unfold processWrite
  split
  next beyond =>
    rw [sendError_right_iff request, Inside, one, area]
    exact Nat.not_le.mpr (Nat.lt_succ_of_le beyond)
  next within =>
    have small : startAddress data < modbusHoldRegisters := Nat.not_le.mp within
    have inside : Inside data := by
      rw [Inside, one, area]
      exact small
    have lowByte : (wordAt data 2).toUInt8.toNat = startAddress data := by
      rw [← (lowBytes_of_inside inside).1]
      exact UInt16.toNat_toUInt8 _
    have starts : StartsWith data (firstBytes data length.toNat) := by
      rw [StartsWith, firstBytes_length]
    have answers := fun accesses written =>
      @sendMessage_answers config written accesses _ _ starts request.addressed
    rw [firstBytes_length] at answers
    constructor
    · refine iff_of_true ?_ inside
      obtain ⟨positive, code⟩ :=
        (answers _ _).functionCode (by rw [firstBytes_length]; have := request.complete; omega)
      exact ⟨positive, code.trans (by simp [firstBytes])⟩
    · intro _
      have notRead : cmdWriteHolding ≠ cmdReadHolding ∧ cmdWriteHolding ≠ cmdReadInputs := by
        decide
      simp [one, requestedAccess, carriedValue, isWrite, lowByte, notRead.1, notRead.2]
    · intro _ address
      rw [sendMessage_holding, modbusWriteHolding, lowByte, Function.update_apply]
      have chosen : address = startAddress data ↔ IsWrite data ∧ startAddress data ≤ address ∧
          address < startAddress data + registerCount data := by
        rw [and_iff_right (show IsWrite data from Or.inl isWrite), one]
        omega
      simp only [← chosen, carriedValue, isWrite, if_true]
    · exact fun _ notWrite => absurd (Or.inl isWrite) notWrite
    · exact fun outside => absurd inside outside

theorem processWriteMultiple_eq (isWrite : data 1 = cmdWriteMultipleHolding) :
    (modbusHoldRegisters ≤ startAddress data % 256 + registerCount data % 256 ∧
      processWriteMultiple config holding data = sendError config holding data 2) ∨
    (startAddress data % 256 + registerCount data % 256 < modbusHoldRegisters ∧
      ∃ rest, Answers (processWriteMultiple config holding data)
        (config.modbusAddress :: cmdWriteHolding :: rest)) := by
  have count : registerCount data = (wordAt data 4).toNat :=
    if_neg (by rw [isWrite]; decide)
  rw [count, startAddress, ← UInt16.toNat_toUInt8, ← UInt16.toNat_toUInt8]
  unfold processWriteMultiple
  by_cases beyond : modbusHoldRegisters ≤
      (wordAt data 2).toUInt8.toNat + (wordAt data 4).toUInt8.toNat
  · exact Or.inl ⟨beyond, if_pos beyond⟩
  · right
    refine ⟨Nat.not_le.mp beyond, [0, (wordAt data 2).toUInt8, 0, (wordAt data 4).toUInt8], ?_⟩
    dsimp only
    rw [if_neg beyond]
    have starts := startsWith_writeBlock data [config.modbusAddress, cmdWriteHolding, 0,
      (wordAt data 2).toUInt8, 0, (wordAt data 4).toUInt8]
    exact sendMessage_answers starts (starts.get 0 (by simp))

/-- The range that ends with the area is refused, and any other answer has the function code
of another command. -/
theorem processWriteMultiple_right_iff (request : RegisterRequest config data length)
    (isWrite : data 1 = cmdWriteMultipleHolding) :
    ProcessedRight config holding data (processWriteMultiple config holding data) ↔
      ¬ Inside data ∧
        modbusHoldRegisters ≤ startAddress data % 256 + registerCount data % 256 := by
  rcases @processWriteMultiple_eq config holding data isWrite with
    ⟨beyond, refused⟩ | ⟨within, rest, answers⟩
  · rw [refused, sendError_right_iff request]
    exact (and_iff_left beyond).symm
  · refine iff_of_false ?_ fun both => absurd both.2 (Nat.not_le.mpr within)
    intro right
    have inside := inside_of_right right answers (by rw [isWrite]; decide)
    have code := (right.functionCode.mpr inside).2
    have answered : cmdWriteHolding = cmdWriteMultipleHolding :=
      (answers.functionCode (by simp)).2.symm.trans (code.trans isWrite)
    exact absurd answered (by decide)

end Commands

/-- A request is processed right exactly if the low bytes of its numbers decide as the
numbers do, and if it does not write multiple registers of the area. -/
theorem modbusClientProcess_right_iff {config : ClientConfig} {data : Buffer} {length : UInt8}
    (request : RegisterRequest config data length) (holding : Registers) :
    ProcessedRight config holding data (modbusClientProcess config holding data length) ↔
      DecidedRight data := by
  unfold modbusClientProcess DecidedRight
  rcases request.command with command | command | command | command
  · have isRead : data 1 = cmdReadHolding ∨ data 1 = cmdReadInputs := Or.inl command
    rw [if_pos isRead, processRead_right_iff request isRead]
    simp [command, cmdReadHolding, cmdWriteMultipleHolding]
  · have isRead : data 1 = cmdReadHolding ∨ data 1 = cmdReadInputs := Or.inr command
    rw [if_pos isRead, processRead_right_iff request isRead]
    simp [command, cmdReadInputs, cmdWriteMultipleHolding]
  · rw [if_neg (by rw [command]; decide), if_pos command]
    refine iff_of_true (processWrite_right request command) ?_
    simp [command, cmdWriteHolding, cmdReadHolding, cmdReadInputs, cmdWriteMultipleHolding]
  · rw [if_neg (by rw [command]; decide), if_neg (by rw [command]; decide), if_pos command,
      processWriteMultiple_right_iff request command]
    simp [command, cmdReadHolding, cmdReadInputs, cmdWriteMultipleHolding]

/-- The default addresses. -/
def defaultClient : ClientConfig where
  modbusAddress := 240
  modbusBroadcast := 255
  distinct := by decide

def bufferOf (bytes : List UInt8) : Buffer :=
  fun index => bytes.getD index 0

/-- A request for the two holding registers from 9 on. -/
theorem readHolding_right_iff :
    ProcessedRight defaultClient (fun _ => 0) (bufferOf [240, 3, 0, 9, 0, 2])
        (modbusClientProcess defaultClient (fun _ => 0) (bufferOf [240, 3, 0, 9, 0, 2]) 6) ↔
      DecidedRight (bufferOf [240, 3, 0, 9, 0, 2]) :=
  modbusClientProcess_right_iff ⟨by decide, by decide, by decide⟩ fun _ => 0

/-- A request for the holding register at 256 is answered with the register at 0. -/
theorem highAddress_not_right :
    ¬ ∀ (config : ClientConfig) (data : Buffer) (length : UInt8) (holding : Registers),
        RegisterRequest config data length →
          ProcessedRight config holding data (modbusClientProcess config holding data length) := by
  intro claimed
  have right := claimed defaultClient (bufferOf [240, 3, 1, 0, 0, 1]) 6 (fun _ => 0)
    ⟨by decide, by decide, by decide⟩
  have inside := right.functionCode.mp (by decide)
  exact absurd inside (by decide)

end Ethersex.Modbus

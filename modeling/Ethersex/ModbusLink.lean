import Ethersex.ModbusSlave

/-!
# The Modbus link

The sender of `protocols/modbus/modbus.c`: `modbus_rxstart` puts the first byte of a request
on the bus, and every transmit interrupt the next one, then the two bytes of the checksum.
What is sent this way reaches `modbus_client_process` of the slave it is addressed to.
-/

namespace Ethersex.Modbus

/-- The fields of `modbus_data`, the transmit interrupt enable, and the bytes written to the
data register of the USART so far. -/
structure Transmitter where
  data : Buffer
  sent : UInt8
  len : UInt8
  crc : UInt16
  crcLen : UInt8
  enabled : Bool
  udr : List UInt8

/-- The device with the variables of a request: `modbus_last_address`, whether
`modbus_recv_len_ptr` is set, and the gap timer. -/
structure Master where
  transmitter : Transmitter
  lastAddress : UInt8
  waiting : Bool
  recvTimer : UInt8

/-- Enable the transmit interrupt and send the first byte. -/
def Transmitter.start (transmitter : Transmitter) (data : Buffer) (len : UInt8) : Transmitter :=
  { transmitter with
    data := data
    len := len
    sent := 1
    enabled := true
    udr := transmitter.udr ++ [data 0] }

/-- The own slave processes a request first, if there is one; a request to its own address
is then done. -/
def processOwn (client : Option SlaveConfig) (data : Buffer) (len : UInt8) : Buffer × Bool :=
  match client with
  | none => (data, false)
  | some config =>
      if data 0 = config.modbusAddress ∨ data 0 = config.modbusBroadcast then
        let data := config.modbusClientProcess data len
        (data, data 0 = config.modbusAddress)
      else (data, false)

/-- `modbus_rxstart`, with its result. -/
def Master.rxstart (client : Option SlaveConfig) (master : Master) (data : Buffer) (len : UInt8) :
    Master × Bool :=
  let (data, done) := processOwn client data len
  if done then (master, true)
  else if master.transmitter.crcLen ≠ 0 then (master, false)
  else
    ({ master with
      lastAddress := data 0
      waiting := true
      transmitter :=
        { master.transmitter with
          crc := modbusCrcCalc (firstBytes data len.toNat)
          crcLen := 2 }.start data len }, true)

/-- The transmit interrupt, while it is enabled. -/
def Master.txInterrupt (master : Master) : Master :=
  let transmitter := master.transmitter
  if transmitter.enabled = false then master
  else if transmitter.sent < transmitter.len then
    { master with
      transmitter :=
        { transmitter with
          sent := transmitter.sent + 1
          udr := transmitter.udr ++ [transmitter.data transmitter.sent.toNat] } }
  else if transmitter.crcLen ≠ 0 then
    let crcLen := transmitter.crcLen - 1
    let shift := UInt16.ofNat ((1 - crcLen.toNat) * 8)
    { master with
      transmitter :=
        { transmitter with
          crcLen := crcLen
          udr := transmitter.udr ++ [(transmitter.crc >>> shift).toUInt8] } }
  else if master.waiting then
    { master with
      transmitter := { transmitter with enabled := false, len := 0 }
      recvTimer := 4 }
  else { master with transmitter := { transmitter with enabled := false } }

def Master.transmit (master : Master) : Nat → Master
  | 0 => master
  | count + 1 => (master.transmit count).txInterrupt

/-- The given number of bytes of the frame are on the bus. -/
structure Sending (before message : List UInt8) (count : Nat) (master : Master) : Prop where
  onBus : master.transmitter.udr = before ++ (frameOf message).take count
  stored : StartsWith master.transmitter.data message
  length : master.transmitter.len.toNat = message.length
  crc : master.transmitter.crc = modbusCrcCalc message
  sent : master.transmitter.sent.toNat = min count message.length
  crcLen : master.transmitter.crcLen.toNat = 2 - (count - message.length)
  enabled : master.transmitter.enabled = true

/-- The frame is on the bus, and the transmit interrupt is disabled. -/
structure Sent (before message : List UInt8) (master : Master) : Prop where
  onBus : master.transmitter.udr = before ++ frameOf message
  disabled : master.transmitter.enabled = false

section Transmission

variable {before message : List UInt8} {count : Nat} {master : Master}

theorem take_snoc {bytes : List UInt8} (inside : count < bytes.length) :
    bytes.take (count + 1) = bytes.take count ++ [bytes[count]] :=
  (List.take_concat_get' bytes count inside).symm

theorem Sending.message_byte (sending : Sending before message count master)
    (inside : count < message.length) : Sending before message (count + 1) master.txInterrupt := by
  have index : master.transmitter.sent.toNat = count := by
    rw [sending.sent]
    omega
  have more : master.transmitter.sent < master.transmitter.len := by
    rw [UInt8.lt_iff_toNat_lt, index, sending.length]
    exact inside
  have bound : count < (frameOf message).length := by
    rw [frameOf_length]
    omega
  have byte : master.transmitter.data count = (frameOf message)[count] := by
    rw [sending.stored.get count inside]
    exact (List.getElem_append_left inside).symm
  have stepped : master.txInterrupt =
      { master with
        transmitter :=
          { master.transmitter with
            sent := master.transmitter.sent + 1
            udr := master.transmitter.udr ++ [master.transmitter.data count] } } := by
    simp [Master.txInterrupt, sending.enabled, more, index]
  have small := master.transmitter.len.toNat_lt
  rw [sending.length] at small
  rw [stepped]
  constructor
  · rw [take_snoc bound, ← List.append_assoc, ← sending.onBus, byte]
  · exact sending.stored
  · exact sending.length
  · exact sending.crc
  · simp only [UInt8.toNat_add, index, UInt8.reduceToNat]
    omega
  · rw [sending.crcLen]
    omega
  · exact sending.enabled

theorem crcBytes_shift (message : List UInt8) {index : Nat}
    (inside : index < (crcBytes message).length) :
    (crcBytes message)[index] =
      (modbusCrcCalc message >>> UInt16.ofNat (index * 8)).toUInt8 := by
  apply UInt8.toNat_inj.mp
  have cases : index = 0 ∨ index = 1 := by
    change index < 2 at inside
    omega
  rcases cases with rfl | rfl <;>
    simp [crcBytes, UInt16.toNat_shiftRight, Nat.shiftRight_eq_div_pow]

theorem Sending.crc_byte (sending : Sending before message count master)
    (behind : message.length ≤ count) (inside : count < message.length + 2) :
    Sending before message (count + 1) master.txInterrupt := by
  have all : ¬ master.transmitter.sent < master.transmitter.len := by
    rw [UInt8.lt_iff_toNat_lt, sending.sent, sending.length]
    omega
  have left : master.transmitter.crcLen ≠ 0 := by
    intro none
    have crcLen := sending.crcLen
    rw [none, UInt8.toNat_zero] at crcLen
    omega
  have next : (master.transmitter.crcLen - 1).toNat = 1 - (count - message.length) := by
    have one : (1 : UInt8) ≤ master.transmitter.crcLen := by
      rw [UInt8.le_iff_toNat_le, sending.crcLen, UInt8.toNat_one]
      omega
    rw [UInt8.toNat_sub_of_le _ _ one, sending.crcLen, UInt8.toNat_one]
    omega
  have shift : 1 - (1 - (count - message.length)) = count - message.length := by
    omega
  have bound : count < (frameOf message).length := by
    rwa [frameOf_length]
  have byte : (frameOf message)[count] =
      (master.transmitter.crc >>> UInt16.ofNat ((count - message.length) * 8)).toUInt8 := by
    rw [sending.crc, ← crcBytes_shift message (show count - message.length < 2 by omega)]
    exact List.getElem_append_right behind
  have stepped : master.txInterrupt =
      { master with
        transmitter :=
          { master.transmitter with
            crcLen := master.transmitter.crcLen - 1
            udr := master.transmitter.udr ++ [(frameOf message)[count]] } } := by
    simp [Master.txInterrupt, sending.enabled, all, left, next, shift, byte]
  rw [stepped]
  constructor
  · rw [take_snoc bound, ← List.append_assoc, ← sending.onBus]
  · exact sending.stored
  · exact sending.length
  · exact sending.crc
  · rw [sending.sent]
    omega
  · rw [next]
    omega
  · exact sending.enabled

theorem Sending.done (sending : Sending before message count master)
    (finished : message.length + 2 ≤ count) : Sent before message master.txInterrupt := by
  have all : ¬ master.transmitter.sent < master.transmitter.len := by
    rw [UInt8.lt_iff_toNat_lt, sending.sent, sending.length]
    omega
  have none : master.transmitter.crcLen = 0 := by
    apply UInt8.toNat_inj.mp
    rw [sending.crcLen, UInt8.toNat_zero]
    omega
  have whole : master.transmitter.udr = before ++ frameOf message := by
    rw [sending.onBus, List.take_of_length_le (by simpa using finished)]
  have stepped : master.txInterrupt.transmitter.udr = master.transmitter.udr ∧
      master.txInterrupt.transmitter.enabled = false := by
    unfold Master.txInterrupt
    rw [if_neg (by simp [sending.enabled]), if_neg all, if_neg (not_not.mpr none)]
    split <;> exact ⟨rfl, rfl⟩
  exact ⟨stepped.1.trans whole, stepped.2⟩

theorem Sent.txInterrupt (sent : Sent before message master) :
    Sent before message master.txInterrupt := by
  rw [show master.txInterrupt = master from if_pos sent.disabled]
  exact sent

/-- The transmission after any number of interrupts. -/
theorem Sending.transmit (sending : Sending before message count master)
    (started : count ≤ message.length + 2) (further : Nat) :
    (count + further ≤ message.length + 2 ∧
      Sending before message (count + further) (master.transmit further)) ∨
    (message.length + 2 < count + further ∧ Sent before message (master.transmit further)) := by
  induction further with
  | zero => exact Or.inl ⟨started, sending⟩
  | succ further ih =>
      rcases ih with ⟨_, running⟩ | ⟨finished, sent⟩
      · rw [← Nat.add_assoc]
        by_cases inMessage : count + further < message.length
        · exact Or.inl ⟨by omega, running.message_byte inMessage⟩
        · by_cases inCrc : count + further < message.length + 2
          · exact Or.inl ⟨inCrc, running.crc_byte (Nat.not_lt.mp inMessage) inCrc⟩
          · exact Or.inr ⟨by omega, running.done (Nat.not_lt.mp inCrc)⟩
      · exact Or.inr ⟨by omega, sent.txInterrupt⟩

/-- A request that is sent to another device is not for the own slave. -/
def Remote (client : Option SlaveConfig) (data : Buffer) : Prop :=
  ∀ config ∈ client, data 0 ≠ config.modbusAddress ∧ data 0 ≠ config.modbusBroadcast

theorem processOwn_of_remote {client : Option SlaveConfig} {data : Buffer}
    (remote : Remote client data) (len : UInt8) : processOwn client data len = (data, false) := by
  cases client with
  | none => rfl
  | some config =>
      obtain ⟨notOwn, notBroadcast⟩ := remote config rfl
      simp [processOwn, notOwn, notBroadcast]

theorem rxstart_sending {client : Option SlaveConfig} {data : Buffer} {len : UInt8}
    (remote : Remote client data) (free : master.transmitter.crcLen = 0)
    (stored : StartsWith data message) (length : len.toNat = message.length)
    (nonempty : message ≠ []) :
    (master.rxstart client data len).2 = true ∧
      Sending master.transmitter.udr message 1 (master.rxstart client data len).1 := by
  have positive := List.length_pos_iff.mpr nonempty
  have bound : 0 < (frameOf message).length := by
    rw [frameOf_length]
    omega
  have first : data 0 = (frameOf message)[0] := by
    rw [stored.get 0 positive]
    exact (List.getElem_append_left positive).symm
  unfold Master.rxstart
  simp only [processOwn_of_remote remote len, free, ne_eq, not_true_eq_false, if_false,
    Bool.false_eq_true]
  refine ⟨trivial, ?_⟩
  constructor
  · rw [take_snoc bound, List.take_zero, List.nil_append, ← first]
    rfl
  · exact stored
  · exact length
  · have whole : firstBytes data len.toNat = message := by
      rw [length]
      exact stored
    exact congrArg modbusCrcCalc whole
  · simp only [Transmitter.start, UInt8.reduceToNat]
    omega
  · simp only [Transmitter.start, UInt8.reduceToNat]
    omega
  · rfl

end Transmission

theorem modbusPeriodic_idle (config : SlaveConfig) {slave : Slave} (idle : slave.recvTimer = 0)
    (stray : Bool) : modbusPeriodic config slave stray = slave :=
  if_pos idle

/-- The check of a frame is due. -/
structure CheckDue (processed : List (List UInt8)) (message : List UInt8) (slave : Slave) :
    Prop where
  stored : StartsWith slave.data (frameOf message)
  counted : slave.len.toNat = message.length + 2
  unprocessed : slave.processed = processed

namespace CheckDue

variable {config : SlaveConfig} {processed : List (List UInt8)} {message : List UInt8}
  {slave : Slave}

theorem accepted (due : CheckDue processed message slave) (stray : Bool) :
    crcAccepted slave stray = true := by
  simp [crcAccepted, due.counted, crcMatches_frameOf due.stored]

/-- A frame is processed if it is for this slave. -/
theorem processed_checkFrame (due : CheckDue processed message slave) (nonempty : message ≠ [])
    (config : SlaveConfig) (stray : Bool) :
    (checkFrame config slave stray).processed =
      if message.head? = some config.modbusAddress ∨ message.head? = some config.modbusBroadcast
      then processed ++ [message] else processed := by
  split
  next isAddressed =>
    rw [Collected.checkFrame_eq due.stored due.counted isAddressed stray, ← due.unprocessed]
  next foreign =>
    have positive := List.length_pos_iff.mpr nonempty
    have first : message.head? = some (slave.data 0) := by
      rw [due.stored.of_append.get 0 positive, List.head?_eq_getElem?,
        List.getElem?_eq_getElem positive]
    rw [first, Option.some.injEq, Option.some.injEq] at foreign
    have notAddressed : addressed config slave = false := by
      simpa [addressed] using foreign
    simp [checkFrame, due.accepted stray, notAddressed, due.unprocessed]

end CheckDue

/-- In the gap behind a frame it is checked once. -/
theorem Collected.checked {processed : List (List UInt8)} {message : List UInt8} {slave : Slave}
    (collected : Collected processed (frameOf message) slave) (config : SlaveConfig)
    (first second : Bool) :
    ∃ received stray, CheckDue processed message received ∧
      busRun config slave [.periodic first, .periodic second] =
        checkFrame config received stray := by
  have counted := collected.counted
  rw [frameOf_length] at counted
  have nonempty : frameOf message ≠ [] := by
    intro empty
    simpa [empty] using frameOf_length message
  have due : CheckDue processed message { slave with recvTimer := 0 } :=
    ⟨collected.stored, counted, collected.unprocessed⟩
  have stopped (stray : Bool) :
      (checkFrame config { slave with recvTimer := 0 } stray).recvTimer = 0 := by
    unfold checkFrame
    split
    · rfl
    · split <;> rfl
  rcases collected.timed nonempty with last | restarted
  · refine ⟨_, first, due, ?_⟩
    have idle := modbusPeriodic_idle config (stopped first) second
    simpa [busRun, busStep, modbusPeriodic, last] using idle
  · refine ⟨_, second, due, ?_⟩
    simp [busRun, busStep, modbusPeriodic, restarted]

/-- The slave checks the frame successfully, and its processing is called for the message, if
it is for this slave, and for nothing else. -/
structure Delivered (config : SlaveConfig) (slave : Slave) (message : List UInt8)
    (events : List BusEvent) : Prop where
  checked : ∃ received stray, received.processed = slave.processed ∧
    crcAccepted received stray = true ∧
    busRun config slave events = checkFrame config received stray
  processed : (busRun config slave events).processed =
    if message.head? = some config.modbusAddress ∨ message.head? = some config.modbusBroadcast
    then slave.processed ++ [message] else slave.processed

theorem delivered_of_idle {config : SlaveConfig} {slave : Slave} {message : List UInt8}
    (idle : slave.len = 0) (nonempty : message ≠ []) (fits : message.length + 2 ≤ modbusBufferLen)
    (spaced : List (UInt8 × Option Bool)) (bytes : spaced.map Prod.fst = frameOf message)
    (first second : Bool) :
    Delivered config slave message (deliveryEvents spaced first second) := by
  have start : Collected slave.processed [] slave :=
    ⟨startsWith_nil _, by rw [idle]; rfl, by simp, rfl⟩
  have collected := start.frameEvents_run config spaced (by simpa [bytes] using fits)
  rw [List.nil_append, bytes] at collected
  obtain ⟨received, stray, due, ended⟩ := collected.checked config first second
  have whole : busRun config slave (deliveryEvents spaced first second) =
      checkFrame config received stray := by
    rw [← ended, deliveryEvents, busRun, List.foldl_append]
    rfl
  constructor
  · exact ⟨received, stray, due.unprocessed, due.accepted stray, whole⟩
  · rw [whole]
    exact due.processed_checkFrame nonempty config stray

/-- A request for a remote slave is put on the bus with its checksum behind it, and the
slave it is addressed to processes exactly this request. -/
theorem link_roundTrip {client : Option SlaveConfig} {master : Master} {data : Buffer}
    {len : UInt8} {message : List UInt8} (remote : Remote client data)
    (free : master.transmitter.crcLen = 0) (stored : StartsWith data message)
    (length : len.toNat = message.length) (nonempty : message ≠ [])
    (fits : message.length + 2 ≤ modbusBufferLen) :
    (∀ interrupts,
      ((master.rxstart client data len).1.transmit interrupts).transmitter.udr =
        master.transmitter.udr ++ (frameOf message).take (interrupts + 1)) ∧
    ∀ config slave spaced first second, slave.len = 0 → spaced.map Prod.fst = frameOf message →
      Delivered config slave message (deliveryEvents spaced first second) := by
  constructor
  · intro interrupts
    have started := (rxstart_sending remote free stored length nonempty).2
    rcases started.transmit (by omega) interrupts with ⟨-, sending⟩ | ⟨finished, sent⟩
    · rw [sending.onBus, Nat.add_comm]
    · rw [sent.onBus, List.take_of_length_le (by rw [frameOf_length]; omega)]
  · intro config slave spaced first second idle bytes
    exact delivered_of_idle idle nonempty fits spaced bytes first second

/-- A request of a device without a slave of its own. -/
theorem link_roundTrip_read :
    (∀ interrupts,
      ((Master.rxstart none ⟨⟨fun _ => 0, 0, 0, 0, 0, false, []⟩, 0, false, 0⟩
        (fun index => [240, 3, 0, 0, 0, 1].getD index 0) 6).1.transmit interrupts).transmitter.udr =
          [] ++ (frameOf [240, 3, 0, 0, 0, 1]).take (interrupts + 1)) ∧
    ∀ config slave spaced first second, slave.len = 0 →
      spaced.map Prod.fst = frameOf [240, 3, 0, 0, 0, 1] →
        Delivered config slave [240, 3, 0, 0, 0, 1] (deliveryEvents spaced first second) :=
  link_roundTrip (by simp [Remote]) rfl rfl rfl (by decide) (by decide)

end Ethersex.Modbus

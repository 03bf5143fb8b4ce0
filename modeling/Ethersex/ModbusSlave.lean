import Ethersex.GuardedRuns
import Ethersex.ModbusFrame

/-!
# The receiver of the Modbus slave

The receive interrupt of `protocols/modbus/modbus.c` appends every byte to the buffer
of `modbus_client_state` and restarts the gap timer; `modbus_periodic` counts the
timer down and, when it runs out, checks the frame received and hands it to
`modbus_client_process`.  This file embeds both for a device that is a slave only,
with no request of its own on the bus (`modbus_recv_len_ptr` is null).
-/

namespace Ethersex.Modbus

open GuardedRuns

/-- The addresses a slave answers to and what `modbus_client_process` leaves in the buffer
it is given. -/
structure SlaveConfig where
  modbusAddress : UInt8
  modbusBroadcast : UInt8
  modbusClientProcess : Buffer → UInt8 → Buffer

/-- The buffer and length of `modbus_client_state`, the gap timer `modbus_recv_timer`, and
the messages handed to `modbus_client_process` so far. -/
structure Slave where
  data : Buffer
  len : UInt8
  recvTimer : UInt8
  processed : List (List UInt8)

def Slave.init (data : Buffer) : Slave :=
  ⟨data, 0, 0, []⟩

inductive BusEvent where
  | byte (value : UInt8)
  /-- A byte with an overrun or framing error. -/
  | lineError
  /-- A call of `modbus_periodic`.  With fewer than two bytes received the checksum is
  compared outside the buffer, with the given outcome. -/
  | periodic (stray : Bool)

/-- The receive interrupt. -/
def receiveByte (slave : Slave) (value : UInt8) : Slave :=
  { slave with
    data := Function.update slave.data slave.len.toNat value
    len := slave.len + 1
    recvTimer := 2 }

/-- The outcome of the checksum comparison. -/
def crcAccepted (slave : Slave) (stray : Bool) : Bool :=
  if slave.len.toNat < 2 then stray else decide (crcMatches slave.data slave.len.toNat)

def addressed (config : SlaveConfig) (slave : Slave) : Bool :=
  slave.data 0 = config.modbusAddress ∨ slave.data 0 = config.modbusBroadcast

/-- The frame check of `modbus_periodic` when the gap timer has run out. -/
def checkFrame (config : SlaveConfig) (slave : Slave) (stray : Bool) : Slave :=
  if crcAccepted slave stray = false then { slave with len := 0 }
  else if addressed config slave = false then slave
  else
    let len := slave.len - 2
    { slave with
      data := config.modbusClientProcess slave.data len
      len := 0
      processed := slave.processed ++ [firstBytes slave.data len.toNat] }

def modbusPeriodic (config : SlaveConfig) (slave : Slave) (stray : Bool) : Slave :=
  if slave.recvTimer = 0 then slave
  else
    let slave := { slave with recvTimer := slave.recvTimer - 1 }
    if slave.recvTimer = 0 then checkFrame config slave stray else slave

def busStep (config : SlaveConfig) (slave : Slave) : BusEvent → Slave
  | .byte value => receiveByte slave value
  | .lineError => slave
  | .periodic stray => modbusPeriodic config slave stray

def busRun (config : SlaveConfig) (slave : Slave) (events : List BusEvent) : Slave :=
  events.foldl (busStep config) slave

/-- The bytes of a frame, each followed by at most one call of `modbus_periodic`. -/
def frameEvents (spaced : List (UInt8 × Option Bool)) : List BusEvent :=
  spaced.flatMap fun item => .byte item.1 :: item.2.toList.map .periodic

/-- The frame is followed by a gap of two calls of `modbus_periodic`. -/
def deliveryEvents (spaced : List (UInt8 × Option Bool)) (first second : Bool) : List BusEvent :=
  frameEvents spaced ++ [.periodic first, .periodic second]

/-- The bytes of a frame under way have been collected from the start of the buffer on. -/
structure Collected (processed : List (List UInt8)) (bytes : List UInt8) (slave : Slave) :
    Prop where
  stored : StartsWith slave.data bytes
  counted : slave.len.toNat = bytes.length
  timed : bytes ≠ [] → slave.recvTimer = 1 ∨ slave.recvTimer = 2
  unprocessed : slave.processed = processed

namespace Collected

variable {config : SlaveConfig} {processed : List (List UInt8)} {bytes : List UInt8}
  {slave : Slave}

theorem byte (collected : Collected processed bytes slave) (room : bytes.length < modbusBufferLen)
    (value : UInt8) : Collected processed (bytes ++ [value]) (receiveByte slave value) where
  stored := by
    have stored := collected.stored.snoc value
    rw [← collected.counted] at stored
    exact stored
  counted := by
    have counted := collected.counted
    unfold modbusBufferLen at room
    simp only [receiveByte, UInt8.toNat_add, UInt8.reduceToNat, List.length_append,
      List.length_singleton]
    omega
  timed _ := Or.inr rfl
  unprocessed := collected.unprocessed

/-- One call of `modbus_periodic` within the frame does not end it. -/
theorem tick (collected : Collected processed bytes slave) (restarted : slave.recvTimer = 2)
    (config : SlaveConfig) (stray : Bool) :
    Collected processed bytes (modbusPeriodic config slave stray) where
  stored := by simpa [modbusPeriodic, restarted] using collected.stored
  counted := by simpa [modbusPeriodic, restarted] using collected.counted
  timed _ := Or.inl (by simp [modbusPeriodic, restarted])
  unprocessed := by simpa [modbusPeriodic, restarted] using collected.unprocessed

theorem frameEvents_run (collected : Collected processed bytes slave) (config : SlaveConfig)
    (spaced : List (UInt8 × Option Bool))
    (room : (bytes ++ spaced.map Prod.fst).length ≤ modbusBufferLen) :
    Collected processed (bytes ++ spaced.map Prod.fst)
      (busRun config slave (frameEvents spaced)) := by
  induction spaced generalizing bytes slave with
  | nil => simpa [frameEvents, busRun] using collected
  | cons item spaced ih =>
      obtain ⟨value, pause⟩ := item
      have received := collected.byte (by simp at room; omega) value
      cases pause with
      | none =>
          have rest := ih received (by simpa using room)
          simpa [frameEvents, busRun, busStep] using rest
      | some stray =>
          have rest := ih (received.tick rfl config stray) (by simpa using room)
          simpa [frameEvents, busRun, busStep] using rest

theorem checkFrame_eq {message : List UInt8} (stored : StartsWith slave.data (frameOf message))
    (counted : slave.len.toNat = message.length + 2)
    (isAddressed : message.head? = some config.modbusAddress ∨
      message.head? = some config.modbusBroadcast) (stray : Bool) :
    checkFrame config slave stray =
      { slave with
        data := config.modbusClientProcess slave.data (slave.len - 2)
        len := 0
        processed := slave.processed ++ [message] } := by
  have accepted : crcAccepted slave stray = true := by
    simp [crcAccepted, counted, crcMatches_frameOf stored]
  have forUs : addressed config slave = true := by
    cases message with
    | nil => simp at isAddressed
    | cons address rest =>
        have first := stored.get 0 (by simp)
        simp only [List.head?_cons, Option.some.injEq] at isAddressed
        simp only [addressed, first, frameOf, List.cons_append, List.getElem_cons_zero]
        simpa using isAddressed
  have messageLength : (slave.len - 2).toNat = message.length := by
    rw [UInt8.toNat_sub_of_le slave.len 2 (UInt8.le_iff_toNat_le.2 (by simp [counted]))]
    simp [counted]
  have message : firstBytes slave.data (slave.len - 2).toNat = message := by
    rw [messageLength]
    exact stored.of_append
  simp [checkFrame, accepted, forUs, message]

/-- The gap after a frame for this slave ends it. -/
theorem gap {message : List UInt8} (collected : Collected processed (frameOf message) slave)
    (isAddressed : message.head? = some config.modbusAddress ∨
      message.head? = some config.modbusBroadcast) (first second : Bool) :
    (busRun config slave [.periodic first, .periodic second]).processed =
      processed ++ [message] := by
  have counted := collected.counted
  rw [frameOf_length] at counted
  have nonempty : frameOf message ≠ [] := by
    intro empty
    simpa [empty] using frameOf_length message
  have ended (stray : Bool) := @checkFrame_eq config { slave with recvTimer := 0 } message
    collected.stored counted isAddressed stray
  rw [← collected.unprocessed]
  rcases collected.timed nonempty with last | restarted
  · simp [busRun, busStep, modbusPeriodic, last, ended]
  · simp [busRun, busStep, modbusPeriodic, restarted, ended]

end Collected

/-- Between two frames the buffer is empty. -/
structure Synchronised (slave : Slave) : Prop where
  bounded : slave.len.toNat ≤ modbusBufferLen
  handed : ∀ message ∈ slave.processed, message.length ≤ modbusBufferLen
  empty : slave.recvTimer = 0 → slave.len = 0

/-- The events that leave the receiver synchronised: a byte that fits into the buffer, and
a gap after which the buffer is emptied.  It is not emptied after a frame for another
address; and a single byte whose checksum happens to match what is read outside the
buffer makes the length wrap around. -/
def Harmless (config : SlaveConfig) (slave : Slave) : BusEvent → Prop
  | .byte _ => slave.len.toNat < modbusBufferLen
  | .lineError => True
  | .periodic stray =>
      ¬ (slave.recvTimer = 1 ∧ crcAccepted slave stray = true ∧
        (slave.len.toNat < 2 ∨ addressed config slave = false))

instance (config : SlaveConfig) (slave : Slave) :
    ∀ event, Decidable (Harmless config slave event)
  | .byte _ => inferInstanceAs (Decidable (_ < _))
  | .lineError => inferInstanceAs (Decidable True)
  | .periodic _ => inferInstanceAs (Decidable (¬ (_ ∧ _ ∧ (_ ∨ _))))

theorem Synchronised.checkFrame {config : SlaveConfig} {slave : Slave}
    (synchronised : Synchronised slave) (last : slave.recvTimer = 1) {stray : Bool}
    (harmless : Harmless config slave (.periodic stray)) :
    Synchronised (checkFrame config { slave with recvTimer := 0 } stray) := by
  have sameCheck : crcAccepted { slave with recvTimer := 0 } stray = crcAccepted slave stray := rfl
  have sameAddress : addressed config { slave with recvTimer := 0 } = addressed config slave := rfl
  simp only [Modbus.checkFrame, sameCheck, sameAddress]
  split
  · exact ⟨Nat.zero_le _, synchronised.handed, fun _ => rfl⟩
  · rename_i accepted
    have forUs : ¬ addressed config slave = false := fun foreign =>
      harmless ⟨last, by simpa using accepted, Or.inr foreign⟩
    have long : 2 ≤ slave.len.toNat := by
      by_contra short
      exact harmless ⟨last, by simpa using accepted, Or.inl (by omega)⟩
    have messageLength := UInt8.toNat_sub_of_le slave.len 2 (UInt8.le_iff_toNat_le.2 long)
    rw [if_neg forUs]
    refine ⟨Nat.zero_le _, fun message member => ?_, fun _ => rfl⟩
    rcases List.mem_append.1 member with old | new
    · exact synchronised.handed message old
    · have bounded := synchronised.bounded
      rw [List.mem_singleton.1 new, firstBytes_length, messageLength]
      omega

theorem Synchronised.step {config : SlaveConfig} {slave : Slave}
    (synchronised : Synchronised slave) {event : BusEvent}
    (harmless : Harmless config slave event) : Synchronised (busStep config slave event) := by
  cases event with
  | byte value =>
      refine ⟨?_, synchronised.handed, ?_⟩
      · simp only [Harmless, modbusBufferLen] at harmless
        simp only [busStep, receiveByte, modbusBufferLen, UInt8.toNat_add, UInt8.reduceToNat]
        omega
      · simp [busStep, receiveByte]
  | lineError => exact synchronised
  | periodic stray =>
      simp only [busStep]
      by_cases idle : slave.recvTimer = 0
      · simpa [modbusPeriodic, idle] using synchronised
      · by_cases last : slave.recvTimer = 1
        · simp only [modbusPeriodic, last, UInt8.sub_self, if_true]
          exact synchronised.checkFrame last harmless
        · have running : slave.recvTimer - 1 ≠ 0 := by
            intro zero
            exact last (by rw [← UInt8.sub_add_cancel slave.recvTimer 1, zero]; rfl)
          simp only [modbusPeriodic, idle, running, if_false]
          exact ⟨synchronised.bounded, synchronised.handed, fun zero => absurd zero running⟩

end Ethersex.Modbus

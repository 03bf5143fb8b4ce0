import Ethersex.ModbusClient
import Ethersex.ModbusLink

/-!
# Broadcast requests of the Modbus slave

The whole slave: the receiver, the processing of its requests, and the start of the answer's
transmission in `modbus_periodic`.  Nobody answers a broadcast request on a Modbus, but this
slave does.
-/

namespace Ethersex.Modbus

/-- The receiver of the slave, its registers and the transmitter. -/
structure Station where
  slave : Slave
  holding : Registers
  transmitter : Transmitter

/-- The slave's addresses and its processing, with the given register contents. -/
def ClientConfig.slaveConfig (config : ClientConfig) (holding : Registers) : SlaveConfig where
  modbusAddress := config.modbusAddress
  modbusBroadcast := config.modbusBroadcast
  modbusClientProcess data len := (modbusClientProcess config holding data len).data

/-- The frame check of `modbus_periodic` with the answer. -/
def Station.checkFrame (config : ClientConfig) (station : Station) (stray : Bool) : Station :=
  let slave := station.slave
  if crcAccepted slave stray = false then { station with slave := { slave with len := 0 } }
  else if addressed (config.slaveConfig station.holding) slave = false then station
  else
    let len := slave.len - 2
    let processed := modbusClientProcess config station.holding slave.data len
    { slave :=
        { slave with
          data := processed.data
          len := 0
          processed := slave.processed ++ [firstBytes slave.data len.toNat] }
      holding := processed.holding
      transmitter :=
        if processed.recvLen ≠ 0 then
          station.transmitter.start processed.data (UInt8.ofInt processed.recvLen)
        else station.transmitter }

def Station.periodic (config : ClientConfig) (station : Station) (stray : Bool) : Station :=
  if station.slave.recvTimer = 0 then station
  else
    let station :=
      { station with slave := { station.slave with recvTimer := station.slave.recvTimer - 1 } }
    if station.slave.recvTimer = 0 then station.checkFrame config stray else station

def Station.step (config : ClientConfig) (station : Station) : BusEvent → Station
  | .byte value => { station with slave := receiveByte station.slave value }
  | .lineError => station
  | .periodic stray => station.periodic config stray

def Station.run (config : ClientConfig) (station : Station) (events : List BusEvent) : Station :=
  events.foldl (Station.step config) station

/-- No byte is put on the bus. -/
def Silent (config : ClientConfig) (station : Station) (events : List BusEvent) : Prop :=
  (station.run config events).transmitter.udr = station.transmitter.udr

section Receiver

variable (config : ClientConfig) (station : Station)

theorem Station.checkFrame_slave (stray : Bool) :
    (station.checkFrame config stray).slave =
      Modbus.checkFrame (config.slaveConfig station.holding) station.slave stray := by
  unfold Station.checkFrame Modbus.checkFrame
  dsimp only
  split
  · rfl
  · split <;> rfl

/-- The receiver is that of a device which is a slave only. -/
theorem Station.step_slave (event : BusEvent) :
    (station.step config event).slave =
      busStep (config.slaveConfig station.holding) station.slave event := by
  cases event with
  | byte value => rfl
  | lineError => rfl
  | periodic stray =>
      simp only [Station.step, busStep, Station.periodic, modbusPeriodic]
      split
      · rfl
      · split
        · exact Station.checkFrame_slave config _ stray
        · rfl

end Receiver

section Answer

variable {config : ClientConfig} {holding : Registers} {data : Buffer}

theorem sendMessage_recvLen_ne {accesses : List Access} {length : Nat} :
    (sendMessage config holding accesses data length).recvLen ≠ 0 := by
  unfold sendMessage
  split
  · exact Int.neg_ne_zero.mpr Int.one_ne_zero
  · dsimp only
    omega

/-- Whatever a request is, the length of its answer is not zero. -/
theorem modbusClientProcess_recvLen_ne (length : UInt8) :
    (modbusClientProcess config holding data length).recvLen ≠ 0 := by
  unfold modbusClientProcess processRead processWrite processWriteMultiple sendError
  dsimp only
  split_ifs <;> exact sendMessage_recvLen_ne

end Answer

/-- A frame with a valid checksum and the broadcast address is about to be checked. -/
structure BroadcastDue (config : ClientConfig) (station : Station) : Prop where
  timer : station.slave.recvTimer = 1
  length : 2 ≤ station.slave.len.toNat
  checksum : crcMatches station.slave.data station.slave.len.toNat
  address : station.slave.data 0 = config.modbusBroadcast

/-- A broadcast frame makes the slave put a byte on the bus and enable the transmit
interrupt. -/
theorem BroadcastDue.transmits {config : ClientConfig} {station : Station}
    (due : BroadcastDue config station) (stray : Bool) :
    ∃ byte, (station.periodic config stray).transmitter.udr = station.transmitter.udr ++ [byte] ∧
      (station.periodic config stray).transmitter.enabled = true := by
  have accepted : ¬ crcAccepted { station.slave with recvTimer := 0 } stray = false := by
    simp [crcAccepted, Nat.not_lt.mpr due.length, due.checksum]
  have forUs : ¬ addressed (config.slaveConfig station.holding)
      { station.slave with recvTimer := 0 } = false := by
    simp [addressed, due.address, ClientConfig.slaveConfig]
  have answered := @modbusClientProcess_recvLen_ne config station.holding station.slave.data
    (station.slave.len - 2)
  refine ⟨(modbusClientProcess config station.holding station.slave.data
    (station.slave.len - 2)).data 0, ?_⟩
  simp [Station.periodic, due.timer, Station.checkFrame, accepted, forUs, answered,
    Transmitter.start]

/-- What has been put on the bus stays there. -/
theorem Station.step_udr (config : ClientConfig) (station : Station) (event : BusEvent) :
    station.transmitter.udr <+: (station.step config event).transmitter.udr := by
  cases event with
  | byte value => exact List.prefix_rfl
  | lineError => exact List.prefix_rfl
  | periodic stray =>
      simp only [Station.step, Station.periodic, Station.checkFrame, Transmitter.start]
      split
      · exact List.prefix_rfl
      · split
        · split
          · exact List.prefix_rfl
          · split
            · exact List.prefix_rfl
            · split
              · exact List.prefix_append _ _
              · exact List.prefix_rfl
        · exact List.prefix_rfl

theorem Station.run_udr (config : ClientConfig) (station : Station) (events : List BusEvent) :
    station.transmitter.udr <+: (station.run config events).transmitter.udr := by
  induction events generalizing station with
  | nil => exact List.prefix_rfl
  | cons event events ih => exact (station.step_udr config event).trans (ih _)

theorem BroadcastDue.longer {config : ClientConfig} {station : Station}
    (due : BroadcastDue config station) (stray : Bool) (events : List BusEvent) :
    station.transmitter.udr.length <
      (station.run config (.periodic stray :: events)).transmitter.udr.length := by
  obtain ⟨byte, started, -⟩ := due.transmits stray
  have kept := ((station.periodic config stray).run_udr config events).length_le
  rw [started, List.length_append, List.length_singleton] at kept
  exact kept

/-- The slave is silent after no broadcast frame, whatever the frame is and whatever comes
after it. -/
theorem broadcast_not_silent {config : ClientConfig} {station : Station}
    (due : BroadcastDue config station) (stray : Bool) (events : List BusEvent) :
    ¬ Silent config station (.periodic stray :: events) := by
  intro silent
  have longer := due.longer stray events
  rw [show _ = _ from silent] at longer
  exact Nat.lt_irrefl _ longer

/-- The slave with a broadcast frame in its buffer, at the end of the gap behind the frame. -/
def broadcastStation (message : List UInt8) : Station where
  slave := ⟨bufferOf (frameOf message), UInt8.ofNat (message.length + 2), 1, []⟩
  holding := fun _ => 0
  transmitter := ⟨fun _ => 0, 0, 0, 0, 0, false, []⟩

/-- A broadcast request that writes a register. -/
theorem broadcast_write_not_silent :
    ¬ Silent defaultClient (broadcastStation [255, 6, 0, 1, 0, 5]) [.periodic false] :=
  broadcast_not_silent ⟨rfl, by decide, by decide +kernel, by decide⟩ false []

section Delivery

variable {config : ClientConfig} {processed : List (List UInt8)} {bytes : List UInt8}
  {station : Station}

theorem Collected.station_run (collected : Collected processed bytes station.slave)
    (config : ClientConfig) (spaced : List (UInt8 × Option Bool))
    (room : (bytes ++ spaced.map Prod.fst).length ≤ modbusBufferLen) :
    Collected processed (bytes ++ spaced.map Prod.fst)
      (station.run config (frameEvents spaced)).slave := by
  induction spaced generalizing bytes station with
  | nil => simpa [frameEvents, Station.run] using collected
  | cons item spaced ih =>
      obtain ⟨value, pause⟩ := item
      have received := collected.byte (by simp at room; omega) value
      have whole : bytes ++ (value :: spaced.map Prod.fst) =
          bytes ++ [value] ++ spaced.map Prod.fst := by simp
      rw [List.map_cons, whole] at room ⊢
      cases pause with
      | none => exact @ih _ (station.step config (.byte value)) received room
      | some stray =>
          apply @ih _ ((station.step config (.byte value)).step config (.periodic stray)) _ room
          rw [Station.step_slave]
          exact received.tick rfl _ stray

/-- The frame in the buffer of the slave at the end of the gap. -/
theorem Collected.broadcastDue {message : List UInt8}
    (collected : Collected processed (frameOf message) station.slave)
    (timer : station.slave.recvTimer = 1) (address : message.head? = some config.modbusBroadcast) :
    BroadcastDue config station := by
  have counted := collected.counted
  rw [frameOf_length] at counted
  refine ⟨timer, by omega, ?_, ?_⟩
  · rw [counted]
    exact crcMatches_frameOf collected.stored
  · cases message with
    | nil => simp at address
    | cons first rest =>
        rw [collected.stored.get 0 (by simp)]
        exact Option.some.inj address

/-- An idle slave to which a broadcast frame is delivered puts a byte on the bus. -/
theorem delivered_not_silent {message : List UInt8} (idle : station.slave.len = 0)
    (address : message.head? = some config.modbusBroadcast)
    (fits : (frameOf message).length ≤ modbusBufferLen) (spaced : List (UInt8 × Option Bool))
    (arrives : spaced.map Prod.fst = frameOf message) (first second : Bool) :
    ¬ Silent config station (deliveryEvents spaced first second) := by
  have start : Collected station.slave.processed [] station.slave :=
    ⟨startsWith_nil _, by rw [idle]; rfl, by simp, rfl⟩
  have collected := start.station_run config spaced (by simpa [arrives] using fits)
  rw [List.nil_append, arrives] at collected
  have nonempty : frameOf message ≠ [] := by
    intro empty
    simpa [empty] using frameOf_length message
  have grown := (station.run_udr config (frameEvents spaced)).length_le
  have longer : (station.run config (frameEvents spaced)).transmitter.udr.length <
      ((station.run config (frameEvents spaced)).run config
        [.periodic first, .periodic second]).transmitter.udr.length := by
    rcases collected.timed nonempty with last | restarted
    · exact (collected.broadcastDue last address).longer first [.periodic second]
    · have ticked := collected.tick restarted
        (config.slaveConfig (station.run config (frameEvents spaced)).holding) first
      rw [show modbusPeriodic _ _ first = _ from
        (Station.step_slave config _ (.periodic first)).symm]
        at ticked
      have timer : ((station.run config (frameEvents spaced)).step config
          (.periodic first)).slave.recvTimer = 1 := by
        simp [Station.step_slave, busStep, modbusPeriodic, restarted]
      exact Nat.lt_of_le_of_lt (Station.step_udr config _ (.periodic first)).length_le
        ((ticked.broadcastDue timer address).longer second [])
  intro silent
  unfold Silent at silent
  rw [deliveryEvents, Station.run, List.foldl_append] at silent
  rw [← silent] at grown
  exact absurd longer (Nat.not_lt.mpr grown)

end Delivery

/-- A broadcast request is delivered to an idle slave, which begins to send. -/
theorem not_always_silent :
    ¬ ∀ (config : ClientConfig) (station : Station) (message : List UInt8)
        (spaced : List (UInt8 × Option Bool)) (first second : Bool),
        station.slave.len = 0 → message.head? = some config.modbusBroadcast →
          spaced.map Prod.fst = frameOf message →
            Silent config station (deliveryEvents spaced first second) := by
  intro claimed
  have silent := claimed defaultClient ⟨Slave.init fun _ => 0, fun _ => 0,
    ⟨fun _ => 0, 0, 0, 0, 0, false, []⟩⟩ [255, 6, 0, 1, 0, 5]
    ((frameOf [255, 6, 0, 1, 0, 5]).map fun byte => (byte, none)) false false rfl rfl
    (by simp [Function.comp_def])
  revert silent
  unfold Silent
  decide +kernel

end Ethersex.Modbus

import Ethersex.GuardedRuns
import Ethersex.ModbusFrame
import Mathlib.Data.List.FinRange

/-!
# The Modbus/TCP gateway

`protocols/modbus/modbus_net.c` forwards the requests of any number of TCP connections
to the bus and the bus answers back.  All connections share the bus, the variable
`recv_len` and the buffer uIP hands to the application; each has a buffer of its own,
which holds its request and then takes the bytes of the bus answer.  This file
embeds `modbus_net_main`, `modbus_rxstart`, the receive interrupt and the end of the
receive timer in `modbus_periodic`, for a device without a slave of its own.

uIP sends what the application leaves in the buffer on the connection the
application was called for.  The sending of a request on the bus is one step.
-/

namespace Ethersex.Modbus

open GuardedRuns

inductive Phase where
  | idle
  | mustSend
  | waitAnswer
  | mustAnswer
  deriving DecidableEq

/-- A slot of `uip_conns` with its `modbus_connection_state_t`.  It is open when it belongs
to this application and is not closed. -/
structure Connection where
  isOpen : Bool
  phase : Phase
  transactionId : Nat
  len : UInt8
  data : Buffer

/-- The connections and the bus: `recv_len`, whether `modbus_recv_len_ptr` is set, the
connection whose buffer `modbus_data.data` points to, and `modbus_data.len`. -/
structure Gateway (n : Nat) where
  conns : Fin n → Connection
  recvLen : Int
  busy : Bool
  owner : Option (Fin n)
  received : Nat
  lastAddress : UInt8

/-- A call of the application by uIP, with the content of the application buffer. -/
structure Call where
  connected : Bool
  acked : Bool
  rexmit : Bool
  newdata : Bool
  appdata : Buffer

section

variable {n : Nat}

def Gateway.setConn (gateway : Gateway n) (index : Fin n) (conn : Connection) : Gateway n :=
  { gateway with conns := Function.update gateway.conns index conn }

def Gateway.setPhase (gateway : Gateway n) (index : Fin n) (phase : Phase) : Gateway n :=
  gateway.setConn index { gateway.conns index with phase := phase }

/-- `modbus_rxstart` with the buffer of a connection. -/
def modbusRxstart (gateway : Gateway n) (index : Fin n) : Gateway n :=
  { gateway with
    busy := true
    owner := some index
    received := 0
    lastAddress := (gateway.conns index).data 0 }

/-- Start the transmission of a connection's request. -/
def startTransmission (gateway : Gateway n) (index : Fin n) : Gateway n :=
  (modbusRxstart { gateway with recvLen := 0 } index).setPhase index .waitAnswer

/-- The bytes of a transaction id as they stand in a packet. -/
def transactionBytes (transactionId : Nat) : List UInt8 :=
  [UInt8.ofNat (transactionId % 256), UInt8.ofNat (transactionId / 256)]

/-- The code at `send_new_data`: an error code, or the answer of a connection.  A length below
two would make it read outside the buffer. -/
def composeAnswer (conn : Connection) (recvLen : Int) : Option (Except UInt8 (List UInt8)) :=
  if recvLen = -1 then some (.error 0x05)
  else if recvLen < 2 then none
  else if crcMatches conn.data recvLen.toNat then
    some (.ok (transactionBytes conn.transactionId ++
      [0, 0, 0, UInt8.ofNat (recvLen.toNat - 2)] ++ firstBytes conn.data (recvLen.toNat - 2)))
  else some (.error 0x0b)

/-- The code at `error_response`, in the application buffer as it is. -/
def errorResponse (appdata : Buffer) (code : UInt8) : List UInt8 :=
  [appdata 0, appdata 1, appdata 2, appdata 3, 0, 3, appdata 6, appdata 7 ||| 0x80, code]

/-- What a call does besides changing the gateway: the packet it sends and the connection
whose transmission it starts. -/
structure Effects (n : Nat) where
  answer : Option (List UInt8)
  started : Option (Fin n)

/-- The search for a connection with something to send, from the given slots on. -/
def scan (gateway : Gateway n) (appdata : Buffer) (answer : Option (List UInt8)) :
    List (Fin n) → Option (Gateway n × Effects n)
  | [] => some (gateway, ⟨answer, none⟩)
  | index :: indices =>
      let conn := gateway.conns index
      if conn.isOpen = false then scan gateway appdata answer indices
      else if conn.phase = .mustSend then
        some (startTransmission gateway index, ⟨answer, some index⟩)
      else if conn.phase = .waitAnswer ∧ gateway.recvLen ≠ 0 then
        let gateway := gateway.setPhase index .mustAnswer
        match composeAnswer conn gateway.recvLen with
        | none => none
        | some (.error code) => some (gateway, ⟨some (errorResponse appdata code), none⟩)
        | some (.ok bytes) =>
            scan gateway (fun position => bytes.getD position (appdata position)) (some bytes)
              indices
      else scan gateway appdata answer indices

/-- The event flags other than new data. -/
def prepare (gateway : Gateway n) (current : Fin n) (call : Call) : Gateway n :=
  if call.connected then gateway.setConn current ⟨true, .idle, 0, 0, fun _ => 0⟩
  else if call.acked then gateway.setPhase current .idle
  else gateway

/-- The jump to `send_new_data`. -/
def resends (gateway : Gateway n) (current : Fin n) (call : Call) : Bool :=
  !call.connected && !call.acked && call.rexmit &&
    decide ((gateway.conns current).phase = .mustAnswer)

/-- Store a request in the buffer of its connection. -/
def storeRequest (gateway : Gateway n) (current : Fin n) (appdata : Buffer) : Gateway n :=
  let conn := gateway.conns current
  gateway.setConn current
    { conn with
      data := fun position =>
        if position < (appdata 5).toNat then appdata (6 + position) else conn.data position
      len := appdata 5
      transactionId := (appdata 0).toNat + 256 * (appdata 1).toNat
      phase := .mustSend }

/-- The bus is idle or has answered. -/
def search (gateway : Gateway n) (appdata : Buffer) : Option (Gateway n × Effects n) :=
  if gateway.recvLen ≠ 0 ∨ gateway.busy = false then
    scan gateway appdata none (List.finRange n)
  else some (gateway, ⟨none, none⟩)

def modbusNetMain (gateway : Gateway n) (current : Fin n) (call : Call) :
    Option (Gateway n × Effects n) :=
  let gateway := prepare gateway current call
  if resends gateway current call then
    match composeAnswer (gateway.conns current) gateway.recvLen with
    | none => none
    | some (.error code) => some (gateway, ⟨some (errorResponse call.appdata code), none⟩)
    | some (.ok bytes) =>
        -- the loop goes on behind its first slot
        scan gateway (fun position => bytes.getD position (call.appdata position)) (some bytes)
          ((List.finRange n).drop 1)
  else if call.newdata then
    if (gateway.conns current).phase ≠ .idle then
      some (gateway, ⟨some (errorResponse call.appdata 0x06), none⟩)
    else if (call.appdata 5).toNat > modbusBufferLen then
      some (gateway, ⟨some (errorResponse call.appdata 0x04), none⟩)
    else search (storeRequest gateway current call.appdata) call.appdata
  else search gateway call.appdata

/-- The receive interrupt while an answer is expected. -/
def receiveAnswer (gateway : Gateway n) (byte : UInt8) : Gateway n :=
  match gateway.busy, gateway.owner with
  | true, some index =>
      if modbusBufferLen ≤ gateway.received then gateway
      else
        let conn := gateway.conns index
        { gateway.setConn index
            { conn with data := Function.update conn.data gateway.received byte }
          with received := gateway.received + 1 }
  | _, _ => gateway

/-- The end of the receive timer in `modbus_periodic`. -/
def finishReceive (gateway : Gateway n) : Gateway n :=
  match gateway.busy, gateway.owner with
  | true, some index =>
      { gateway with
        busy := false
        recvLen :=
          if gateway.received < 2 ∨ (gateway.conns index).data 0 ≠ gateway.lastAddress then -1
          else gateway.received }
  | _, _ => gateway

end

end Ethersex.Modbus

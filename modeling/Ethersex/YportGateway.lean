import Ethersex.GuardedRuns
import Ethersex.UipConnections

/-!
# The YPORT gateway between a serial port and TCP

`protocols/yport` gives one TCP client at a time the serial port.  Bytes from the
port are stored by the receive interrupt and sent from there; what the client
sends is copied into a second buffer, which the transmit interrupt drains.  This
file embeds both interrupts and `yport_net_main`, as a system with the connections
of uIP.
-/

namespace Ethersex.Yport

open ByteMemory SegmentStreams Uip

/-- `YPORT_BUFFER_LEN` and `CONF_YPORT_FLUSH`. -/
structure Config where
  bufferLen : Nat
  flush : Nat
  bufferLen_lt : bufferLen < 65536

/-- The variables of both files.  `txcie` is the enable bit of the transmit interrupt, and
`udr` holds every byte that was written to the data register. -/
structure YportState where
  sendBuffer : Buffer
  recvBuffer : Buffer
  lf : Bool
  conn : Option Nat
  lastservice : UInt8
  txcie : Bool
  udr : List UInt8

/-- `start_sending` -/
def startSending (state : YportState) (len : Nat) (data : Memory) : YportState :=
  { state with sendBuffer := ⟨len, 1, data⟩, txcie := true, udr := state.udr ++ [data 0] }

/-- The number of bytes that wait to be transmitted. -/
def pending (state : YportState) : Nat :=
  (state.sendBuffer.len + 65536 - state.sendBuffer.sent) % 65536

def yportRxstart (config : Config) (state : YportState) (data : List UInt8) :
    Bool × YportState :=
  let buffer := state.sendBuffer
  let diff := pending state
  if diff = 0 then
    (true, startSending state data.length (writeBlock buffer.data 0 data))
  else if (diff + data.length) % 65536 < config.bufferLen then
    let moved := writeBlock buffer.data 0 (readBlock buffer.data buffer.sent diff)
    (true, startSending state (diff + data.length) (writeBlock moved diff data))
  else
    (false, state)

/-- The transmit interrupt. -/
def txVect (state : YportState) : YportState :=
  let buffer := state.sendBuffer
  if buffer.sent < buffer.len then
    { state with
      sendBuffer := ⟨buffer.len, buffer.sent + 1, buffer.data⟩
      udr := state.udr ++ [buffer.data buffer.sent] }
  else
    { state with txcie := false }

/-- The receive interrupt stores a byte, if it arrived without an error and there is room. -/
def stores (config : Config) (state : YportState) (error : Bool) : Bool :=
  !error && decide (state.recvBuffer.len < config.bufferLen)

/-- One round of the receive interrupt. -/
def rxVect (config : Config) (state : YportState) (byte : UInt8) (error : Bool) : YportState :=
  { state with
    recvBuffer :=
      if stores config state error then state.recvBuffer.push [byte] else state.recvBuffer
    lf := state.lf || (!error && decide (0 < config.flush) && byte == 0x0a) }

/-- `"ERROR: connection blocked\n"` with its terminating zero. -/
def blockedText : List UInt8 :=
  [69, 82, 82, 79, 82, 58, 32, 99, 111, 110, 110, 101, 99, 116, 105, 111, 110, 32, 98, 108, 111, 99,
    107, 101, 100, 10, 0]

def countService (config : Config) (state : YportState) : YportState :=
  { state with
    lastservice := if 0 < config.flush then state.lastservice + 1 else state.lastservice }

/-- The buffered bytes are worth a segment. -/
def due (config : Config) (state : YportState) : Prop :=
  config.flush = 0 ∨ config.bufferLen / 4 < state.recvBuffer.len ∨
    config.flush ≤ state.lastservice.toNat ∨ state.lf = true

instance (config : Config) (state : YportState) : Decidable (due config state) :=
  inferInstanceAs (Decidable (_ ∨ _))

/-- The data that uIP received for the owner of the port. -/
def serveNewdata (config : Config) (state : YportState) (call : UipCall) (stopped : Bool) :
    YportState × Bool :=
  if call.payload ≠ [] ∧ call.payload.length ≤ config.bufferLen then
    let started := yportRxstart config state call.payload
    (started.2, started.1 || stopped)
  else
    (state, stopped)

/-- The data for the owner of the port. -/
def serveSend (config : Config) (state : YportState) (call : UipCall) (offered : List UInt8) :
    YportState × List UInt8 :=
  let offered :=
    if call.rexmit then
      uipSend offered (readBlock state.recvBuffer.data 0 state.recvBuffer.sent)
    else offered
  if (call.poll ∨ call.acked) ∧ due config state then
    ({ state with
        recvBuffer := state.recvBuffer.markSent
        lastservice := if 0 < config.flush then 0 else state.lastservice
        lf := if 0 < config.flush then false else state.lf },
      uipSend offered state.recvBuffer.contents)
  else
    (state, offered)

/-- The second half of `yport_net_main`, for the owner of the port. -/
def serveOwner (config : Config) (state : YportState) (call : UipCall) (stopped : Bool)
    (offered : List UInt8) : YportState × Reaction :=
  let received := serveNewdata config state call stopped
  let buffer := received.1.sendBuffer
  let restart := call.poll ∧ received.2 ∧ buffer.sent = buffer.len
  let sending := serveSend config received.1 call offered
  (sending.1, ⟨sending.2, if restart then false else received.2, false⟩)

/-- The first half of `yport_net_main`: the state, the data to send, and whether to close. -/
def serveFlags (state : YportState) (call : UipCall) : YportState × List UInt8 × Bool :=
  if call.connected then
    match state.conn with
    | none =>
        ({ state with
            conn := some call.connection
            recvBuffer := ⟨0, state.recvBuffer.sent, state.recvBuffer.data⟩ }, [], false)
    | some _ => (state, blockedText, false)
  else if call.closed then
    (state, [], false)
  else if call.acked then
    if state.conn ≠ some call.connection then
      (state, [], true)
    else
      ({ state with recvBuffer := state.recvBuffer.dropSent }, [], false)
  else
    (state, [], false)

def yportNetMain (config : Config) (state : YportState) (call : UipCall) (stopped : Bool) :
    YportState × Reaction :=
  let state := countService config state
  if call.connected = false ∧ call.closed ∧ state.conn = some call.connection then
    ({ state with conn := none }, ⟨[], stopped, false⟩)
  else
    let served := serveFlags state call
    if served.1.conn ≠ some call.connection then
      (served.1, ⟨served.2.1, stopped, served.2.2⟩)
    else
      serveOwner config served.1 call stopped served.2.1

/-- The gateway and its connections, with the data that was delivered for the port. -/
structure System where
  yport : YportState
  connections : Nat → Connection
  delivered : List UInt8

/-- The connection has the port when its data is delivered. -/
def Owns (state : YportState) (call : UipCall) : Prop :=
  state.conn = some call.connection ∨ call.connected = true ∧ state.conn = none

instance (state : YportState) (call : UipCall) : Decidable (Owns state call) :=
  inferInstanceAs (Decidable (_ ∨ _))

def uipCall (config : Config) (system : System) (call : UipCall) : System :=
  let owned := system.yport.conn.isNone
  let connection := (system.connections call.connection).beforeCall owned call
  let reacted := yportNetMain config system.yport call connection.stopped
  { yport := reacted.1
    connections := called system.connections owned call reacted.2
    delivered :=
      if Owns system.yport call then system.delivered ++ call.payload else system.delivered }

inductive Event where
  | receive (byte : UInt8) (error : Bool)
  | transmitted
  | call (call : UipCall)

/-- One interrupt or one call.  The transmit interrupt comes only while it is enabled, and a
call only when uIP makes it. -/
def systemStep (config : Config) (system : System) : Event → Option System
  | .receive byte error =>
      some { system with
        yport := rxVect config system.yport byte error
        connections :=
          if stores config system.yport error then
            storeFor system.yport.conn system.connections [byte]
          else system.connections }
  | .transmitted =>
      if system.yport.txcie then some { system with yport := txVect system.yport } else none
  | .call call =>
      if Possible (system.connections call.connection) call then
        some (uipCall config system call)
      else
        none

/-- The static variables before the first event, and no connections. -/
def poweredSystem : System where
  yport := ⟨⟨0, 0, fun _ => 0⟩, ⟨0, 0, fun _ => 0⟩, false, none, 0, false, []⟩
  connections := fun _ => closedConnection
  delivered := []

end Ethersex.Yport

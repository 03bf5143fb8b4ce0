import Ethersex.GuardedRuns
import Ethersex.MqttSendQueueRuns
import Ethersex.MqttParser

/-!
# The MQTT client on the uIP stack

`mqtt_main` is called by uIP for each event of a connection, `mqtt_periodic` by
the timer.  A run of the client takes one such call at a time; the loop of
`mqtt_parse` takes a step for each iteration, so that every packet of a segment
can be looked at by itself.  Connections are numbered as they are opened, and a
trace records which connection each action belongs to.
-/

namespace Ethersex.Mqtt

open ByteMemory

/-- `TIMER_TICKS_PER_SECOND` -/
def timerTicksPerSecond : UInt16 := 50

/-- `MQTT_KEEPALIVE * TIMER_TICKS_PER_SECOND` ticks have passed since then. -/
def keepaliveOver (state : MqttState) (since : UInt16) : Bool :=
  decide (keepalive * timerTicksPerSecond < state.timerCounter - since)

def awaitPingresp (state : MqttState) : MqttState :=
  { state with lastInActivity := state.timerCounter, pingOutstanding := true }

/-- The poll callbacks construct packets. -/
def mqttFirePollCallback (state : MqttState) (requests : List PacketRequest) : MqttState :=
  requests.foldl (fun state request => (request.construct state).2) state

def mqttPoll (env : MqttEnv) (state : MqttState) (requests : List PacketRequest) : MqttState :=
  if keepaliveOver state state.lastInActivity || keepaliveOver state state.lastOutActivity then
    if state.pingOutstanding then
      mqttAbortConnection env state
    else
      mqttFirePollCallback
        (awaitPingresp (mqttConstructZerolengthPacket state mqttPingreq).2) requests
  else
    mqttFirePollCallback state requests

/-- A call of `mqtt_main`: the flags of uIP, the received data, the segment size
and the packets that the poll callbacks are going to construct. -/
structure UipCall where
  aborted : Bool
  timedout : Bool
  closed : Bool
  connected : Bool
  acked : Bool
  rexmit : Bool
  newdata : Bool
  poll : Bool
  segment : List UInt8
  mss : UInt16
  requests : List PacketRequest

def UipCall.closing (call : UipCall) : Bool := call.aborted || call.timedout || call.closed

/-- `uip_newdata() && uip_len` -/
def UipCall.received (call : UipCall) : Bool := call.newdata && !call.segment.isEmpty

def MqttState.dropConnection (state : MqttState) : MqttState :=
  { state with connection := false }

/-- The first two branches of `mqtt_main`. -/
def mqttMainClosing (env : MqttEnv) (state : MqttState) (call : UipCall) : MqttState :=
  if call.aborted || call.timedout then
    mqttFireCloseCallback env state.dropConnection
  else
    state.dropConnection

def awaitConnack (state : MqttState) : MqttState :=
  { state with nextMsgId := 1, stage := .connect }

/-- The branches of `mqtt_main` in front of the parser. -/
def mqttMainSending (env : MqttEnv) (state : MqttState) (call : UipCall) : MqttState :=
  let state :=
    if call.connected then
      mqttFlushBuffer (awaitConnack (mqttConstructConnectPacket state env.config).2) call.mss
    else state
  let state := if call.acked then mqttReceivedAck state else state
  if call.rexmit then mqttRetransmit state else state

/-- The branch of `mqtt_main` behind the parser. -/
def mqttMainPoll (env : MqttEnv) (state : MqttState) (call : UipCall) : MqttState :=
  if call.poll then
    if state.stage = .connected then
      mqttFlushBuffer (mqttPoll env state call.requests) call.mss
    else if state.stage = .connect then
      if keepaliveOver state state.lastInActivity then mqttAbortConnection env state else state
    else
      state
  else
    state

/-- All of `mqtt_main`.  The poll flag is never set together with another one. -/
def mqttMain (env : MqttEnv) (fuel : Nat) (state : MqttState) (call : UipCall) :
    Option MqttState :=
  if call.closing then
    some (mqttMainClosing env state call)
  else if call.received then
    mqttParse env fuel (mqttMainSending env state call) call.segment
  else
    some (mqttMainPoll env (mqttMainSending env state call) call)

/-- `mqtt_init`: nothing happens without a configuration, and `uip_connect` may
have no connection left. -/
def mqttInit (state : MqttState) (configured granted : Bool) : MqttState :=
  if configured then { mqttResetState state with connection := granted } else state

def MqttState.tick (state : MqttState) : MqttState :=
  { state with timerCounter := state.timerCounter + 1 }

def mqttPeriodic (state : MqttState) (configured granted : Bool) : MqttState :=
  if state.connection then state.tick else mqttInit state.tick configured granted

/-- What uIP knows about a connection. -/
inductive Phase where
  | unused
  | synSent
  | established
  | lastAck
  | closed
deriving DecidableEq, Repr

/-- The calls uIP makes for a connection in a phase, and the phase it is in
afterwards unless the application aborts it. -/
def Phase.next (phase : Phase) (call : UipCall) : Option Phase :=
  if call.poll && (call.connected || call.acked || call.rexmit || call.newdata) then
    none
  else match phase with
    | .synSent =>
        if call.closing then some .closed
        else if call.connected then some .established
        else none
    | .established =>
        if call.aborted || call.timedout then some .closed
        else if call.closed then some .lastAck
        else if call.connected then none
        else some .established
    | .lastAck => if call.closing then some .closed else none
    | .unused => none
    | .closed => none

/-- The trace: an action on behalf of a connection, a new connection, or the
stage becoming `MQTT_STATE_CONNECTED`. -/
inductive Entry where
  | action (connection : Nat) (event : MqttEvent)
  | initiated (connection : Nat)
  | stageConnected
deriving DecidableEq, Repr

/-- A call of `mqtt_parse` that has not returned yet. -/
structure Parsing where
  connection : Nat
  segment : List UInt8
  bytesRead : Nat

/-- The client with the connections opened so far, `initiated` of them. -/
structure Client where
  mqtt : MqttState
  phase : Nat → Phase
  initiated : Nat
  parsing : Option Parsing
  trace : List Entry

inductive ClientStep where
  | call (connection : Nat) (call : UipCall)
  | iterate
  | periodic (configured granted : Bool)

/-- What the client did since an earlier state. -/
def emittedSince (before after : MqttState) : List MqttEvent :=
  after.events.drop before.events.length

def becameConnected (before after : MqttState) : List Entry :=
  if before.stage ≠ .connected ∧ after.stage = .connected then [.stageConnected] else []

/-- A connection is closed when the application has called `uip_abort`. -/
def phaseAfter (events : List MqttEvent) (phase : Phase) : Phase :=
  if .uipAbort ∈ events then .closed else phase

/-- Go on with the client in a new state that was reached on behalf of a
connection. -/
def Client.advance (client : Client) (connection : Nat) (phase : Phase) (after : MqttState)
    (parsing : Option Parsing) : Client :=
  let events := emittedSince client.mqtt after
  { client with
    mqtt := after
    phase := Function.update client.phase connection (phaseAfter events phase)
    parsing := parsing
    trace := client.trace ++
      (events.map (Entry.action connection) ++ becameConnected client.mqtt after) }

/-- A call by uIP, up to the loop of the parser. -/
def Client.onCall (env : MqttEnv) (client : Client) (connection : Nat) (call : UipCall)
    (phase : Phase) : Client :=
  if call.closing then
    client.advance connection phase (mqttMainClosing env client.mqtt call) none
  else if call.received then
    client.advance connection phase (mqttMainSending env client.mqtt call)
      (some ⟨connection, call.segment, 0⟩)
  else
    client.advance connection phase
      (mqttMainPoll env (mqttMainSending env client.mqtt call) call) none

/-- One iteration of the loop of `mqtt_parse`, or its end. -/
def Client.onIterate (env : MqttEnv) (client : Client) (parsing : Parsing) : Option Client :=
  if parsing.bytesRead < parsing.segment.length then
    (parseStep env client.mqtt parsing.segment parsing.bytesRead).map fun
      | .continue after bytesRead =>
          client.advance parsing.connection (client.phase parsing.connection) after
            (some ⟨parsing.connection, parsing.segment, bytesRead⟩)
      | .done after =>
          client.advance parsing.connection (client.phase parsing.connection) after none
  else
    some { client with parsing := none }

def Client.onPeriodic (client : Client) (configured granted : Bool) : Client :=
  let after := mqttPeriodic client.mqtt configured granted
  if !client.mqtt.connection && configured && granted then
    { client with
      mqtt := after
      phase := Function.update client.phase client.initiated .synSent
      initiated := client.initiated + 1
      trace := client.trace ++ [.initiated client.initiated] }
  else
    { client with mqtt := after }

def clientStep (env : MqttEnv) (client : Client) : ClientStep → Option Client
  | .call connection call =>
      if client.parsing.isSome then none
      else ((client.phase connection).next call).map (client.onCall env connection call)
  | .iterate => client.parsing.bind (client.onIterate env)
  | .periodic configured granted =>
      if client.parsing.isSome then none else some (client.onPeriodic configured granted)

/-- The client before any connection. -/
def Client.start (mqtt : MqttState) : Client where
  mqtt := mqtt.dropConnection
  phase := fun _ => .unused
  initiated := 0
  parsing := none
  trace := []

section WholeCalls

open GuardedRuns

variable {env : MqttEnv} {client : Client}

/-- The iterations of the loop, and its end, give the state that `mqtt_parse` returns
with. -/
theorem run_iterate_parseLoop {parsing : Parsing} (active : client.parsing = some parsing)
    {fuel : Nat} {after : MqttState}
    (parsed : parseLoop env parsing.segment fuel client.mqtt parsing.bytesRead = some after) :
    ∃ count last, run (clientStep env) client (List.replicate count .iterate) = some last ∧
      last.mqtt = after ∧ last.parsing = none := by
  induction fuel generalizing client parsing with
  | zero => cases parsed
  | succ fuel ih =>
      rw [parseLoop] at parsed
      split at parsed
      next inside =>
        rw [Option.bind_eq_some_iff] at parsed
        obtain ⟨step, stepped, continued⟩ := parsed
        have iterated : clientStep env client .iterate = client.onIterate env parsing := by
          rw [clientStep, active]
          rfl
        rw [Client.onIterate, if_pos inside, stepped] at iterated
        cases step with
        | «continue» middle bytesRead =>
            have advanced : (client.advance parsing.connection (client.phase parsing.connection)
                middle (some ⟨parsing.connection, parsing.segment, bytesRead⟩)).parsing =
              some ⟨parsing.connection, parsing.segment, bytesRead⟩ := rfl
            obtain ⟨count, last, rest, lastEq, finished⟩ := ih advanced continued
            refine ⟨count + 1, last, ?_, lastEq, finished⟩
            rw [List.replicate_succ, run, iterated]
            exact rest
        | done middle =>
            cases continued
            refine ⟨1, client.advance parsing.connection (client.phase parsing.connection) after
              none, ?_, rfl, rfl⟩
            rw [List.replicate_one, run, iterated]
            rfl
      next outside =>
        cases parsed
        refine ⟨1, { client with parsing := none }, ?_, rfl, rfl⟩
        rw [List.replicate_one, run, clientStep, active]
        simp only [Option.bind_some, Client.onIterate, if_neg outside, run]

/-- A call by uIP and the iterations that follow it are a call of `mqtt_main`. -/
theorem run_call_mqttMain {connection : Nat} {call : UipCall} {phase : Phase} {fuel : Nat}
    {after : MqttState} (idle : client.parsing = none)
    (called : (client.phase connection).next call = some phase)
    (returned : mqttMain env fuel client.mqtt call = some after) :
    ∃ count last, run (clientStep env) client
        (.call connection call :: List.replicate count .iterate) = some last ∧
      last.mqtt = after ∧ last.parsing = none := by
  have stepped : clientStep env client (.call connection call) =
      some (client.onCall env connection call phase) := by
    rw [clientStep, idle, called]
    rfl
  simp only [run, stepped, Option.bind_some]
  rw [mqttMain] at returned
  rw [Client.onCall]
  split at returned
  next closing =>
    cases returned
    exact ⟨0, _, rfl, by rw [if_pos closing]; rfl, by rw [if_pos closing]; rfl⟩
  next opened =>
    rw [if_neg opened]
    split at returned
    next received =>
      rw [if_pos received]
      have advanced : (client.advance connection phase (mqttMainSending env client.mqtt call)
          (some ⟨connection, call.segment, 0⟩)).parsing = some ⟨connection, call.segment, 0⟩ := rfl
      exact run_iterate_parseLoop advanced returned
    next nothing =>
      rw [if_neg nothing]
      cases returned
      exact ⟨0, _, rfl, rfl, rfl⟩

end WholeCalls

end Ethersex.Mqtt

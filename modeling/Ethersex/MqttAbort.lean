import Ethersex.GuardedRuns
import Ethersex.MqttClient

/-!
# After the MQTT client aborted a connection

`mqtt_abort_connection` is meant to end everything that happens on a connection.
It does when the rejected packet is the last one of its segment: the loop of
`mqtt_parse` does not notice that the connection is gone, and `mqtt_main` does
not compare the connection it is called for with `mqtt_uip_conn`.
-/

namespace Ethersex.Mqtt

open ByteMemory GuardedRuns

def MqttEvent.isCallback : MqttEvent → Bool
  | .connackCallback _ => true
  | .closeCallback _ => true
  | .publishCallback _ _ _ _ => true
  | _ => false

/-- The callbacks that are invoked on behalf of a connection. -/
def Entry.callbackOf (connection : Nat) : Entry → Option MqttEvent
  | .action acting event => if acting = connection ∧ event.isCallback then some event else none
  | _ => none

def callbacksOf (connection : Nat) (trace : List Entry) : List MqttEvent :=
  trace.filterMap (Entry.callbackOf connection)

/-- The callbacks of one call of `mqtt_fire_close_callback`. -/
def closeNotification (env : MqttEnv) : List MqttEvent :=
  env.slots.flatMap fun (config, slot) =>
    if config.closeCallback then [.closeCallback slot] else []

/-- Behind every abort stand the close notification of the abort itself and no other
callback for that connection, and the stage does not become connected before there is a
new connection. -/
def SilentAfterAbort (env : MqttEnv) (trace : List Entry) : Prop :=
  ∀ before connection after, trace = before ++ .action connection .uipAbort :: after →
    callbacksOf connection after = closeNotification env ∧
      ((∀ opened, .initiated opened ∉ after) → .stageConnected ∉ after)

/-- No connection was initiated since the last abort. -/
def AbortedLast (trace : List Entry) : Prop :=
  ∃ before connection after, trace = before ++ .action connection .uipAbort :: after ∧
    ∀ opened, .initiated opened ∉ after

/-- `mqtt_handle_packet` aborts the connection on this packet. -/
def rejects (stage : Stage) (data : Memory) (packet : Nat) (packetLength : UInt16) : Bool :=
  let kind := data 0 &&& 0xf0
  let qos := (data 0 &&& 0x06) >>> 1
  match stage with
  | .connect => kind ≠ mqttConnack || packetLength < 2 || data (packet + 1) ≠ 0
  | .connected =>
      if kind = mqttPublish then
        packetLength < 2 + messageIdSize qos ||
          packetLength < 2 + messageIdSize qos + readWord data packet
      else
        (kind = mqttPubrec || kind = mqttPubrel) && packetLength < 2
  | _ => false

/-- A packet that the loop of `mqtt_parse` hands to `mqtt_handle_packet`, and the number
of bytes it has read behind it. -/
structure Handover where
  data : Memory
  llen : UInt8
  packetLength : UInt16
  bytesRead : Nat

/-- A complete packet in the uIP buffer. -/
def handoverFresh (env : MqttEnv) (segment : List UInt8) (bytesRead : Nat) : Option Handover :=
  let remaining := segment.length - bytesRead
  (mqttParseLengthField (appdata env segment (bytesRead + 1)) (remaining - 1)).bind
    fun (llen, packetLength) =>
      let size := (packetLength.toNat + llen.toNat + 1) % 65536
      if llen = 0 then none
      else if size ≤ remaining then
        some ⟨appdata env segment bytesRead, llen, packetLength, bytesRead + size⟩
      else none

/-- A packet that this segment completes. -/
def handoverKnown (env : MqttEnv) (state : MqttState) (segment : List UInt8) (bytesRead : Nat) :
    Option Handover :=
  let remaining := segment.length - bytesRead
  let fragment := state.receivePacketLength - state.receiveBufferLength.toUInt16
  if state.receivePacketLength.toNat ≤ (state.receiveBufferLength.toNat + remaining) % 65536 then
    (mqttWriteToReceiveBuffer state (appdata env segment bytesRead) fragment).bind
      fun (stored, state) =>
        if stored then
          some ⟨receivedData state, UInt8.ofNat (mqttLfLength state.receivePacketLength).toNat,
            state.receivePacketLength, (bytesRead + fragment.toNat) % 65536⟩
        else none
  else none

/-- The packet that the next iteration hands over. -/
def handover (env : MqttEnv) (state : MqttState) (segment : List UInt8) (bytesRead : Nat) :
    Option Handover :=
  if state.receiveBufferLength = 0 then handoverFresh env segment bytesRead
  else if state.receivePacketLength ≠ 0 then handoverKnown env state segment bytesRead
  else none

/-- If the packet is rejected, then nothing follows it in its segment. -/
def Handover.Last (found : Handover) (stage : Stage) (segment : List UInt8) : Prop :=
  rejects stage found.data (found.llen.toNat + 1) found.packetLength = true →
    segment.length ≤ found.bytesRead

/-- A rejected packet ends its segment, and a connection is closed or lost only while it
is the one that the client uses, or while it uses none. -/
def ClientStep.EndsItsSegment (env : MqttEnv) (client : Client) : ClientStep → Prop
  | .call connection uipCall =>
      uipCall.closing = true → client.mqtt.connection = false ∨ connection + 1 = client.initiated
  | .iterate =>
      ∀ parsing ∈ client.parsing, ∀ found ∈ handover env client.mqtt parsing.segment
        parsing.bytesRead, found.Last client.mqtt.stage parsing.segment
  | .periodic _ _ => True

/-- These events were added, and the stage and the connection are as before. -/
structure Emits (before after : MqttState) (emitted : List MqttEvent) : Prop where
  events : after.events = before.events ++ emitted
  stage : after.stage = before.stage
  connection : after.connection = before.connection

section Emission

variable {first second third state : MqttState} {left right : List MqttEvent}

theorem Emits.refl (state : MqttState) : Emits state state [] :=
  ⟨(List.append_nil _).symm, rfl, rfl⟩

theorem Emits.trans (earlier : Emits first second left) (later : Emits second third right) :
    Emits first third (left ++ right) where
  events := by rw [later.events, earlier.events, List.append_assoc]
  stage := later.stage.trans earlier.stage
  connection := later.connection.trans earlier.connection

theorem Emits.silent_trans (earlier : Emits first second left) (later : Emits second third []) :
    Emits first third left := by
  have joined := earlier.trans later
  rwa [List.append_nil] at joined

theorem emits_foldl {Item : Type*} {step : MqttState → Item → MqttState}
    {emitted : Item → List MqttEvent} (items : List Item)
    (each : ∀ state, ∀ item ∈ items, Emits state (step state item) (emitted item))
    (state : MqttState) : Emits state (items.foldl step state) (items.flatMap emitted) := by
  induction items generalizing state with
  | nil => exact .refl state
  | cons item items ih =>
      rw [List.foldl_cons, List.flatMap_cons]
      apply (each state item List.mem_cons_self).trans
      exact ih (fun state other member => each state other (List.mem_cons_of_mem _ member)) _

theorem emits_foldl_silent {Item : Type*} {step : MqttState → Item → MqttState}
    (each : ∀ state item, Emits state (step state item) []) (items : List Item)
    (state : MqttState) : Emits state (items.foldl step state) [] := by
  have folded := emits_foldl items (fun state item _ => each state item) state
  rwa [List.flatMap_eq_nil_iff.mpr fun _ _ => rfl] at folded

theorem emits_writePiece (state : MqttState) (piece : Piece) :
    Emits state (writePiece state piece) [] := by
  rw [writePiece_eq]
  exact ⟨(List.append_nil _).symm, rfl, rfl⟩

theorem emits_construct (state : MqttState) (request : PacketRequest) :
    Emits state (request.construct state).2 [] := by
  cases free : mqttBufferFree state request.estimate with
  | false =>
      rw [request.construct_refused free]
      exact .refl state
  | true =>
      obtain ⟨nextMsgId, accepted⟩ := request.construct_accepted free
      rw [accepted]
      have written := emits_foldl_silent emits_writePiece
        (request.pieces state.nextMsgId) state
      exact ⟨written.events, written.stage, written.connection⟩

theorem emits_constructs (requests : List PacketRequest) (state : MqttState) :
    Emits state (requests.foldl (fun state request => (request.construct state).2) state) [] :=
  emits_foldl_silent emits_construct requests state

theorem emits_emit (state : MqttState) (event : MqttEvent) :
    Emits state (state.emit event) [event] :=
  ⟨rfl, rfl, rfl⟩

variable (env : MqttEnv)

theorem emits_fireCallback (state : MqttState) (event : MqttEvent) :
    Emits state (fireCallback env state event) [event] :=
  (emits_emit state event).silent_trans (emits_constructs _ _)

/-- The three loops over the registered callbacks. -/
theorem emits_slots {asked : CallbackConfig × Nat → Bool} {event : CallbackConfig × Nat → MqttEvent}
    (state : MqttState) :
    Emits state
      (env.slots.foldl (fun state entry =>
        if asked entry then fireCallback env state (event entry) else state) state)
      (env.slots.flatMap fun entry => if asked entry then [event entry] else []) := by
  apply emits_foldl
  intro state entry _
  split
  · exact emits_fireCallback env state _
  · exact .refl state

theorem emits_closeCallback (state : MqttState) :
    Emits state (mqttFireCloseCallback env state) (closeNotification env) :=
  emits_slots env state

theorem emits_connackCallback (state : MqttState) :
    ∃ emitted, Emits state (mqttFireConnackCallback env state) emitted ∧ .uipAbort ∉ emitted := by
  refine ⟨_, emits_slots env state, ?_⟩
  simp

theorem emits_publishCallback (state : MqttState) (data : Memory) (slices : PublishSlices)
    (retained : Bool) :
    ∃ emitted, Emits state (mqttFirePublishCallback env state data slices retained) emitted ∧
      .uipAbort ∉ emitted := by
  refine ⟨_, emits_slots env state, ?_⟩
  simp

end Emission

/-- Neither a callback nor an abort. -/
def Silent (events : List MqttEvent) : Prop :=
  ∀ event ∈ events, event.isCallback = false ∧ event ≠ .uipAbort

/-- The connection was not aborted. -/
structure Kept (before after : MqttState) : Prop where
  connection : after.connection = before.connection
  emitted : ∃ emitted, after.events = before.events ++ emitted ∧ .uipAbort ∉ emitted

/-- The connection was aborted once, with the close notification right behind. -/
structure Aborted (env : MqttEnv) (before after : MqttState) : Prop where
  connection : after.connection = false
  stage : after.stage = before.stage
  emitted : ∃ first last, Silent first ∧ Silent last ∧ after.events =
    before.events ++ (first ++ .uipAbort :: (closeNotification env ++ last))

section Outcomes

variable {before middle after state : MqttState} {emitted : List MqttEvent}

theorem silent_nil : Silent [] := by simp [Silent]

theorem Silent.append {left right : List MqttEvent} (silentLeft : Silent left)
    (silentRight : Silent right) : Silent (left ++ right) := by
  intro event member
  rcases List.mem_append.mp member with here | there
  · exact silentLeft event here
  · exact silentRight event there

theorem Emits.kept (emits : Emits before after emitted) (noAbort : .uipAbort ∉ emitted) :
    Kept before after :=
  ⟨emits.connection, emitted, emits.events, noAbort⟩

theorem Emits.keptSilent (emits : Emits before after []) : Kept before after :=
  emits.kept List.not_mem_nil

theorem Kept.trans (earlier : Kept before middle) (later : Kept middle after) :
    Kept before after := by
  obtain ⟨left, leftEvents, leftNoAbort⟩ := earlier.emitted
  obtain ⟨right, rightEvents, rightNoAbort⟩ := later.emitted
  refine ⟨later.connection.trans earlier.connection, left ++ right, ?_, ?_⟩
  · rw [rightEvents, leftEvents, List.append_assoc]
  · rw [List.mem_append, not_or]
    exact ⟨leftNoAbort, rightNoAbort⟩

variable (env : MqttEnv)

theorem aborted_abort (state : MqttState) : Aborted env state (mqttAbortConnection env state) := by
  have notified := emits_closeCallback env (state.emit .uipAbort).dropConnection
  refine ⟨notified.connection, notified.stage, [], [], silent_nil, silent_nil, ?_⟩
  rw [List.nil_append, List.append_nil]
  exact notified.events.trans (List.append_assoc _ _ _)

variable {env}

theorem Aborted.after_emits (aborted : Aborted env middle after)
    (emits : Emits before middle emitted) (silent : Silent emitted) :
    Aborted env before after := by
  obtain ⟨first, last, silentFirst, silentLast, events⟩ := aborted.emitted
  refine ⟨aborted.connection, aborted.stage.trans emits.stage, emitted ++ first, last,
    silent.append silentFirst, silentLast, ?_⟩
  rw [events, emits.events]
  simp only [List.append_assoc]

theorem Aborted.then_emits (aborted : Aborted env before middle)
    (emits : Emits middle after emitted) (silent : Silent emitted) :
    Aborted env before after := by
  obtain ⟨first, last, silentFirst, silentLast, events⟩ := aborted.emitted
  refine ⟨emits.connection.trans aborted.connection, emits.stage.trans aborted.stage, first,
    last ++ emitted, silentFirst, silentLast.append silent, ?_⟩
  rw [emits.events, events]
  simp only [List.append_assoc, List.cons_append]

end Outcomes

/-- The connection was aborted exactly when the packet was to be rejected. -/
structure Decided (env : MqttEnv) (rejected : Bool) (before after : MqttState) : Prop where
  aborted : rejected = true → Aborted env before after
  kept : rejected = false → Kept before after

section HandlePacket

variable {env : MqttEnv} {state : MqttState} {data : Memory} {packet : Nat}
  {packetLength : UInt16}

theorem decided_abort (env : MqttEnv) (state : MqttState) {rejected : Bool}
    (rejection : rejected = true) :
    Decided env rejected state (mqttAbortConnection env state) :=
  ⟨fun _ => aborted_abort env state, fun accepted => by simp [rejection] at accepted⟩

theorem Kept.decided {after : MqttState} (kept : Kept state after) {rejected : Bool}
    (accepted : rejected = false) : Decided env rejected state after :=
  ⟨fun rejection => by simp [accepted] at rejection, fun _ => kept⟩

theorem kept_connected (state : MqttState) :
    Kept state (mqttFireConnackCallback env (env.config.autoSubscribeTopics.foldl
      (fun state topic => (mqttConstructSubscribePacket state topic).2)
      { state with stage := .connected })) := by
  have staged : Kept state { state with stage := .connected } :=
    ⟨rfl, [], (List.append_nil _).symm, List.not_mem_nil⟩
  have subscribed := emits_foldl_silent
    (fun state topic => emits_construct state (.subscribe topic))
    env.config.autoSubscribeTopics { state with stage := .connected }
  obtain ⟨emitted, notified, noAbort⟩ := emits_connackCallback env _
  exact (staged.trans subscribed.keptSilent).trans (notified.kept noAbort)

theorem decided_handleConnack :
    Decided env (rejects .connect data packet packetLength) state
      (handleConnack env state data packet packetLength) := by
  rw [handleConnack]
  split
  next other => exact decided_abort env state (by simp [rejects, other])
  next connack =>
    split
    next short => exact decided_abort env state (by simp [rejects, short])
    next long =>
      split
      next refused => exact decided_abort env state (by simp [rejects, refused])
      next granted =>
        have accepted : rejects .connect data packet packetLength = false := by
          rw [not_not] at connack granted
          simp [rejects, connack, granted, UInt16.not_lt.mp long]
        exact (kept_connected state).decided accepted

theorem kept_acknowledge (state : MqttState) (qos : UInt8) (messageId : UInt16) :
    Kept state (acknowledgePublish state qos messageId) := by
  rw [acknowledgePublish]
  split
  · exact (emits_construct state (.ack mqttPuback messageId)).keptSilent
  · split
    · exact (emits_construct state (.ack mqttPubrec messageId)).keptSilent
    · exact (Emits.refl state).keptSilent

theorem decided_handlePublish (publish : data 0 &&& 0xf0 = mqttPublish) :
    Decided env (rejects .connected data packet packetLength) state
      (handlePublish env state data packet packetLength) := by
  rw [handlePublish]
  dsimp only
  split
  next short => exact decided_abort env state (by simp [rejects, publish, short])
  next long =>
    split
    next short => exact decided_abort env state (by simp [rejects, publish, short])
    next enough =>
      have accepted : rejects .connected data packet packetLength = false := by
        simp [rejects, publish, UInt16.not_lt.mp long, UInt16.not_lt.mp enough]
      obtain ⟨emitted, notified, noAbort⟩ := emits_publishCallback env state data
        (publishSlices packet (readWord data packet) packetLength ((data 0 &&& 0x06) >>> 1))
        (data 0 &&& 0x01 ≠ 0)
      exact ((notified.kept noAbort).trans (kept_acknowledge _ _ _)).decided accepted

theorem decided_handleReleased (answer : UInt8) :
    Decided env (packetLength < 2) state
      (handleReleased env state data packet packetLength answer) := by
  rw [handleReleased]
  split
  next short => exact decided_abort env state (decide_eq_true short)
  next long =>
    exact (emits_construct state (.ack answer _)).keptSilent.decided (decide_eq_false long)

theorem decided_handleConnected :
    Decided env (rejects .connected data packet packetLength) state
      (handleConnected env state data packet packetLength) := by
  rw [handleConnected]
  split
  next publish => exact decided_handlePublish publish
  next notPublish =>
    have checked : rejects .connected data packet packetLength =
        ((data 0 &&& 0xf0 = mqttPubrec || data 0 &&& 0xf0 = mqttPubrel) && packetLength < 2) := by
      rw [rejects, if_neg notPublish]
    rw [checked]
    split
    next pubrec =>
      simp only [pubrec, decide_true, Bool.true_or, Bool.true_and]
      exact decided_handleReleased mqttPubrel
    next notPubrec =>
      split
      next pubrel =>
        simp only [pubrel, decide_true, Bool.or_true, Bool.true_and]
        exact decided_handleReleased mqttPubcomp
      next notPubrel =>
        have accepted : ((data 0 &&& 0xf0 = mqttPubrec || data 0 &&& 0xf0 = mqttPubrel) &&
            packetLength < 2) = false := by
          simp [notPubrec, notPubrel]
        apply Kept.decided _ accepted
        split
        · exact (emits_construct state (.zerolength mqttPingresp)).keptSilent
        · split
          · exact ⟨rfl, [], (List.append_nil _).symm, List.not_mem_nil⟩
          · exact (Emits.refl state).keptSilent

theorem emits_beginPacket (state : MqttState) (call : HandleCall) :
    Emits state (beginPacket state call) [.handlePacket call] :=
  ⟨rfl, rfl, rfl⟩

theorem silent_handlePacket (call : HandleCall) : Silent [.handlePacket call] := by
  simp [Silent, MqttEvent.isCallback]

/-- `mqtt_handle_packet` aborts the connection on the packets it rejects and on no
others. -/
theorem decided_handlePacket (available : Nat) (llen : UInt8) :
    Decided env (rejects state.stage data (llen.toNat + 1) packetLength) state
      (mqttHandlePacket env state data available llen packetLength) := by
  let call := recordedCall data available llen packetLength
  have begun := emits_beginPacket state call
  have dispatched : Decided env (rejects state.stage data (llen.toNat + 1) packetLength)
      (beginPacket state call) (mqttHandlePacket env state data available llen packetLength) := by
    rw [mqttHandlePacket, ← begun.stage]
    split
    next connect =>
      rw [connect]
      exact decided_handleConnack
    next connected =>
      rw [connected]
      exact decided_handleConnected
    next notConnect notConnected =>
      apply (Emits.refl _).keptSilent.decided
      cases stage : (beginPacket state call).stage with
      | connect => exact absurd stage notConnect
      | connected => exact absurd stage notConnected
      | disconnected => rfl
      | subscribed => rfl
  constructor
  · intro rejected
    exact (dispatched.aborted rejected).after_emits begun (silent_handlePacket call)
  · intro accepted
    exact (begun.kept (by simp)).trans (dispatched.kept accepted)

end HandlePacket

/-- The three ways an iteration of the loop of `mqtt_parse` can go. -/
inductive Iteration (env : MqttEnv) (state : MqttState) (segment : List UInt8) (bytesRead : Nat) :
    ParseStep → Prop where
  | buffered {after : MqttState} {next : Nat} (emits : Emits state after []) :
      Iteration env state segment bytesRead (.continue after next)
  | handled (found : Handover) (stored : MqttState) (available : Nat)
      (next : handover env state segment bytesRead = some found)
      (emits : Emits state stored []) :
      Iteration env state segment bytesRead
        (.continue (mqttHandlePacket env stored found.data available found.llen
          found.packetLength) found.bytesRead)
  | full {stored : MqttState} (emits : Emits state stored []) :
      Iteration env state segment bytesRead (.done (mqttAbortConnection env stored))

section Iterations

variable {env : MqttEnv} {state : MqttState} {segment : List UInt8} {bytesRead : Nat}

theorem emits_writeToReceiveBuffer {data : Memory} {length : UInt16} {stored : Bool}
    {after : MqttState}
    (written : mqttWriteToReceiveBuffer state data length = some (stored, after)) :
    Emits state after [] := by
  rw [mqttWriteToReceiveBuffer] at written
  split at written
  · dsimp only at written
    split at written
    · cases written
      exact ⟨(List.append_nil _).symm, rfl, rfl⟩
    · cases written
  · cases written
    exact .refl state

theorem bufferFragment_eq_some {length : UInt16} {stored : Bool} {after : MqttState}
    (buffered : bufferFragment env state segment bytesRead length = some (stored, after)) :
    ∃ written, mqttWriteToReceiveBuffer state (appdata env segment bytesRead) length =
        some (stored, written) ∧
      after = if stored then written else mqttAbortConnection env written := by
  rw [bufferFragment, Option.map_eq_some_iff] at buffered
  obtain ⟨⟨storedBefore, written⟩, writing, result⟩ := buffered
  obtain ⟨rfl, rfl⟩ := Prod.mk.inj result
  exact ⟨written, writing, rfl⟩

/-- The two results of storing data: it is stored, or the connection is aborted. -/
theorem bufferFragment_cases {length : UInt16} {stored : Bool} {after : MqttState}
    (buffered : bufferFragment env state segment bytesRead length = some (stored, after)) :
    (stored = true ∧ Emits state after [] ∧
      mqttWriteToReceiveBuffer state (appdata env segment bytesRead) length = some (true, after)) ∨
    (stored = false ∧ ∃ written, Emits state written [] ∧
      after = mqttAbortConnection env written) := by
  obtain ⟨written, writing, rfl⟩ := bufferFragment_eq_some buffered
  have emits := emits_writeToReceiveBuffer writing
  cases stored with
  | true => exact .inl ⟨rfl, emits, writing⟩
  | false => exact .inr ⟨rfl, written, emits, rfl⟩

theorem iteration_rest {before : MqttState} {step : ParseStep} (silent : Emits state before [])
    (stepped : bufferRest env before segment bytesRead = some step) :
    Iteration env state segment bytesRead step := by
  rw [bufferRest, Option.map_eq_some_iff] at stepped
  obtain ⟨⟨stored, after⟩, buffered, rfl⟩ := stepped
  rcases bufferFragment_cases buffered with ⟨rfl, emits, _⟩ | ⟨rfl, written, emits, rfl⟩
  · exact .buffered (silent.trans emits)
  · exact .full (silent.trans emits)

theorem iteration_fresh {step : ParseStep} (empty : state.receiveBufferLength = 0)
    (stepped : parseFresh env state segment bytesRead = some step) :
    Iteration env state segment bytesRead step := by
  rw [parseFresh, Option.bind_eq_some_iff] at stepped
  obtain ⟨⟨llen, packetLength⟩, parsed, continued⟩ := stepped
  dsimp only at continued
  split at continued
  · exact iteration_rest (.refl state) continued
  next complete =>
    split at continued
    next inside =>
      cases continued
      have found : handover env state segment bytesRead =
          some ⟨appdata env segment bytesRead, llen, packetLength,
            bytesRead + (packetLength.toNat + llen.toNat + 1) % 65536⟩ := by
        rw [handover, if_pos empty, handoverFresh, parsed]
        simp only [Option.bind_some, if_neg complete, if_pos inside]
      have handled := Iteration.handled _ state (segment.length - bytesRead) found (.refl state)
      exact handled
    next outside =>
      have noted : Emits state { state with receivePacketLength := packetLength } [] :=
        ⟨(List.append_nil _).symm, rfl, rfl⟩
      exact iteration_rest noted continued

theorem iteration_known {step : ParseStep} (waiting : state.receiveBufferLength ≠ 0)
    (known : state.receivePacketLength ≠ 0)
    (stepped : parseKnown env state segment bytesRead = some step) :
    Iteration env state segment bytesRead step := by
  rw [parseKnown] at stepped
  dsimp only at stepped
  split at stepped
  next enough =>
    rw [Option.map_eq_some_iff] at stepped
    obtain ⟨⟨stored, after⟩, buffered, rfl⟩ := stepped
    rcases bufferFragment_cases buffered with ⟨rfl, emits, writing⟩ | ⟨rfl, written, emits, rfl⟩
    · have found : handover env state segment bytesRead =
          some ⟨receivedData after, UInt8.ofNat (mqttLfLength after.receivePacketLength).toNat,
            after.receivePacketLength, (bytesRead + (state.receivePacketLength -
              state.receiveBufferLength.toUInt16).toNat) % 65536⟩ := by
        rw [handover, if_neg waiting, if_pos known, handoverKnown]
        simp only [if_pos enough, writing, Option.bind_some, if_true]
      have handled := Iteration.handled _ after after.receiveBufferLength.toNat found emits
      exact handled
    · exact .full emits
  next short => exact iteration_rest (.refl state) stepped

theorem iteration_unknown {step : ParseStep}
    (stepped : parseUnknown env state segment bytesRead = some step) :
    Iteration env state segment bytesRead step := by
  rw [parseUnknown, Option.bind_eq_some_iff] at stepped
  obtain ⟨⟨stored, after⟩, buffered, continued⟩ := stepped
  rcases bufferFragment_cases buffered with ⟨rfl, emits, _⟩ | ⟨rfl, written, emits, rfl⟩
  · dsimp only at continued
    rw [if_pos rfl, Option.map_eq_some_iff] at continued
    obtain ⟨⟨llen, packetLength⟩, _, rfl⟩ := continued
    apply Iteration.buffered
    dsimp only
    split
    · exact ⟨emits.events, emits.stage, emits.connection⟩
    · exact emits
  · cases continued
    exact .full emits

theorem iteration_parseStep {step : ParseStep}
    (stepped : parseStep env state segment bytesRead = some step) :
    Iteration env state segment bytesRead step := by
  rw [parseStep] at stepped
  split at stepped
  next empty => exact iteration_fresh empty stepped
  next waiting =>
    split at stepped
    next known => exact iteration_known waiting known stepped
    next unknown => exact iteration_unknown stepped

end Iterations

section Calls

variable {env : MqttEnv}

theorem silent_uipSend (bytes : List UInt8) : Silent [.uipSend bytes] := by
  simp [Silent, MqttEvent.isCallback]

theorem emits_flushBuffer (state : MqttState) (mss : UInt16) :
    ∃ emitted, Emits state (mqttFlushBuffer state mss) emitted ∧ Silent emitted := by
  rw [mqttFlushBuffer]
  split
  · exact ⟨_, ⟨rfl, rfl, rfl⟩, silent_uipSend _⟩
  · exact ⟨[], .refl state, silent_nil⟩

theorem Silent.kept {before after : MqttState} {emitted : List MqttEvent}
    (silent : Silent emitted) (emits : Emits before after emitted) : Kept before after :=
  emits.kept fun member => (silent _ member).2 rfl

theorem kept_flushBuffer (state : MqttState) (mss : UInt16) :
    Kept state (mqttFlushBuffer state mss) := by
  obtain ⟨emitted, emits, silent⟩ := emits_flushBuffer state mss
  exact silent.kept emits

theorem kept_connectSent (state : MqttState) (mss : UInt16) :
    Kept state
      (mqttFlushBuffer (awaitConnack (mqttConstructConnectPacket state env.config).2) mss) := by
  have constructed := (emits_construct state (.connect env.config)).keptSilent
  have staged (state : MqttState) : Kept state (awaitConnack state) :=
    ⟨rfl, [], (List.append_nil _).symm, List.not_mem_nil⟩
  exact (constructed.trans (staged _)).trans (kept_flushBuffer _ mss)

theorem kept_receivedAck (state : MqttState) : Kept state (mqttReceivedAck state) := by
  rw [mqttReceivedAck]
  split
  · exact ⟨rfl, [], (List.append_nil _).symm, List.not_mem_nil⟩
  · exact (Emits.refl state).keptSilent

theorem kept_retransmit (state : MqttState) : Kept state (mqttRetransmit state) := by
  rw [mqttRetransmit]
  split
  · exact (silent_uipSend _).kept (emits_emit state _)
  · exact (Emits.refl state).keptSilent

theorem kept_mainSending (state : MqttState) (call : UipCall) :
    Kept state (mqttMainSending env state call) := by
  have refl (state : MqttState) : Kept state state := (Emits.refl state).keptSilent
  rw [mqttMainSending]
  have connected : Kept state (if call.connected then
      mqttFlushBuffer (awaitConnack (mqttConstructConnectPacket state env.config).2) call.mss
      else state) := by
    split
    · exact kept_connectSent state call.mss
    · exact refl state
  have acked (state : MqttState) :
      Kept state (if call.acked then mqttReceivedAck state else state) := by
    split
    · exact kept_receivedAck state
    · exact refl state
  have resent (state : MqttState) :
      Kept state (if call.rexmit then mqttRetransmit state else state) := by
    split
    · exact kept_retransmit state
    · exact refl state
  exact (connected.trans (acked _)).trans (resent _)

theorem emits_pollCallback (state : MqttState) (requests : List PacketRequest) :
    Emits state (mqttFirePollCallback state requests) [] :=
  emits_constructs requests state

theorem mqttPoll_cases (state : MqttState) (requests : List PacketRequest) :
    Emits state (mqttPoll env state requests) [] ∨
      Aborted env state (mqttPoll env state requests) := by
  rw [mqttPoll]
  split
  · split
    · exact .inr (aborted_abort env state)
    · have constructed := emits_construct state (.zerolength mqttPingreq)
      have waiting : Emits state (awaitPingresp (mqttConstructZerolengthPacket state mqttPingreq).2)
          [] :=
        ⟨constructed.events, constructed.stage, constructed.connection⟩
      exact .inl (waiting.trans (emits_pollCallback _ requests))
  · exact .inl (emits_pollCallback state requests)

theorem mqttMainPoll_cases (state : MqttState) (call : UipCall) :
    Kept state (mqttMainPoll env state call) ∨ Aborted env state (mqttMainPoll env state call) := by
  have refl : Kept state state := (Emits.refl state).keptSilent
  rw [mqttMainPoll]
  split
  · split
    · obtain ⟨emitted, emits, silent⟩ :=
        emits_flushBuffer (mqttPoll env state call.requests) call.mss
      rcases mqttPoll_cases state call.requests with polled | aborted
      · exact .inl (polled.keptSilent.trans (silent.kept emits))
      · exact .inr (aborted.then_emits emits silent)
    · split
      · split
        · exact .inr (aborted_abort env state)
        · exact .inl refl
      · exact .inl refl
  · exact .inl refl

/-- The poll flag comes alone. -/
theorem mqttMain_open_cases {phase next : Phase} {call : UipCall} (state : MqttState)
    (called : phase.next call = some next) :
    Kept state (mqttMainPoll env (mqttMainSending env state call) call) ∨
      Aborted env state (mqttMainPoll env (mqttMainSending env state call) call) := by
  cases polled : call.poll with
  | false =>
      rw [mqttMainPoll, polled]
      exact .inl (kept_mainSending state call)
  | true =>
      have alone : call.connected = false ∧ call.acked = false ∧ call.rexmit = false := by
        unfold Phase.next at called
        rw [polled] at called
        split at called
        · cases called
        · simp_all
      have idle : mqttMainSending env state call = state := by
        rw [mqttMainSending, alone.1, alone.2.1, alone.2.2]
        rfl
      rw [idle]
      exact mqttMainPoll_cases state call

theorem emits_mainClosing (env : MqttEnv) (state : MqttState) (call : UipCall) :
    ∃ emitted, Emits state.dropConnection (mqttMainClosing env state call) emitted ∧
      .uipAbort ∉ emitted := by
  rw [mqttMainClosing]
  split
  · exact ⟨_, emits_closeCallback env state.dropConnection, by simp [closeNotification]⟩
  · exact ⟨[], .refl _, List.not_mem_nil⟩

end Calls

theorem append_eq_split {Item : Type*} {trace added before after : List Item} {entry : Item}
    (equal : trace ++ added = before ++ entry :: after) :
    (∃ rest, trace = before ++ entry :: rest ∧ after = rest ++ added) ∨
      ∃ front, before = trace ++ front ∧ added = front ++ entry :: after := by
  rcases List.append_eq_append_iff.mp equal with ⟨front, beforeEq, addedEq⟩ | ⟨rest, traceEq, split⟩
  · exact .inr ⟨front, beforeEq, addedEq⟩
  · cases rest with
    | nil =>
        rw [List.append_nil] at traceEq
        exact .inr ⟨[], by rw [traceEq, List.append_nil], split.symm⟩
    | cons first rest =>
        obtain ⟨rfl, rfl⟩ := List.cons.inj split
        exact .inl ⟨rest, traceEq, rfl⟩

/-- An item that stands in a list once splits it in one way. -/
theorem split_unique {Item : Type*} {first rest before after : List Item} {item : Item}
    (equal : first ++ item :: rest = before ++ item :: after) (notFirst : item ∉ first)
    (notRest : item ∉ rest) : after = rest := by
  rcases append_eq_split equal with ⟨middle, firstEq, _⟩ | ⟨front, _, restEq⟩
  · exact absurd (by simp [firstEq]) notFirst
  · cases front with
    | nil => exact (List.cons.inj restEq).2.symm
    | cons head front =>
        have split := (List.cons.inj restEq).2
        exact absurd (by simp [split]) notRest

section Traces

variable {env : MqttEnv} {trace added : List Entry} {connection : Nat} {events : List MqttEvent}

theorem callbacksOf_append (connection : Nat) (left right : List Entry) :
    callbacksOf connection (left ++ right) =
      callbacksOf connection left ++ callbacksOf connection right :=
  List.filterMap_append

theorem callbacksOf_actions_other {acting : Nat} (other : acting ≠ connection)
    (events : List MqttEvent) : callbacksOf connection (events.map (Entry.action acting)) = [] := by
  simp [callbacksOf, Entry.callbackOf, other]

theorem callbacksOf_actions (connection : Nat) (events : List MqttEvent) :
    callbacksOf connection (events.map (Entry.action connection)) =
      events.filter MqttEvent.isCallback := by
  induction events with
  | nil => rfl
  | cons event events ih =>
      rw [callbacksOf] at ih ⊢
      rw [List.map_cons, List.filterMap_cons, ih, List.filter_cons]
      cases called : event.isCallback with
      | false => simp [Entry.callbackOf, called]
      | true => simp [Entry.callbackOf, called]

/-- Entries that leave the property: nothing for an aborted connection, no abort, and no
connected stage as long as the last abort is not followed by a new connection. -/
theorem SilentAfterAbort.append (silent : SilentAfterAbort env trace)
    (others : ∀ connection, .action connection .uipAbort ∈ trace →
      callbacksOf connection added = [])
    (noAbort : ∀ connection, .action connection .uipAbort ∉ added)
    (staged : AbortedLast trace → .stageConnected ∉ added) :
    SilentAfterAbort env (trace ++ added) := by
  intro before connection after split
  rcases append_eq_split split with ⟨rest, traceEq, rfl⟩ | ⟨front, _, addedEq⟩
  · obtain ⟨notified, unconnected⟩ := silent before connection rest traceEq
    have aborted : .action connection .uipAbort ∈ trace := by simp [traceEq]
    constructor
    · rw [callbacksOf_append, others connection aborted, List.append_nil, notified]
    · intro noneOpened
      have noneBefore : ∀ opened, .initiated opened ∉ rest := fun opened member =>
        noneOpened opened (List.mem_append_left _ member)
      rw [List.mem_append, not_or]
      exact ⟨unconnected noneBefore, staged ⟨before, connection, rest, traceEq, noneBefore⟩⟩
  · exact absurd (by simp [addedEq]) (noAbort connection)

theorem AbortedLast.of_append (last : AbortedLast (trace ++ added))
    (noAbort : ∀ connection, .action connection .uipAbort ∉ added) : AbortedLast trace := by
  obtain ⟨before, connection, after, split, noneOpened⟩ := last
  rcases append_eq_split split with ⟨rest, traceEq, rfl⟩ | ⟨front, _, addedEq⟩
  · exact ⟨before, connection, rest, traceEq,
      fun opened member => noneOpened opened (List.mem_append_left _ member)⟩
  · exact absurd (by simp [addedEq]) (noAbort connection)

theorem isCallback_closeNotification (env : MqttEnv) :
    ∀ event ∈ closeNotification env, event.isCallback = true := by
  intro event member
  rw [closeNotification, List.mem_flatMap] at member
  obtain ⟨⟨config, slot⟩, _, listed⟩ := member
  dsimp only at listed
  split at listed
  · rw [List.mem_singleton.mp listed]
    rfl
  · cases listed

/-- The entries of an abort with its close notification. -/
theorem SilentAfterAbort.append_abort (silent : SilentAfterAbort env trace)
    (fresh : .action connection .uipAbort ∉ trace) {first last : List MqttEvent}
    (silentFirst : Silent first) (silentLast : Silent last) :
    SilentAfterAbort env (trace ++
      (first ++ .uipAbort :: (closeNotification env ++ last)).map (Entry.action connection)) := by
  intro before aborted after split
  rcases append_eq_split split with ⟨rest, traceEq, rfl⟩ | ⟨front, _, addedEq⟩
  · obtain ⟨notified, unconnected⟩ := silent before aborted rest traceEq
    have other : connection ≠ aborted := by
      rintro rfl
      exact fresh (by simp [traceEq])
    constructor
    · rw [callbacksOf_append, callbacksOf_actions_other other, List.append_nil, notified]
    · intro noneOpened
      rw [List.mem_append, not_or]
      refine ⟨unconnected fun opened member => noneOpened opened (List.mem_append_left _ member),
        ?_⟩
      simp
  · have same : aborted = connection := by
      have member : Entry.action aborted .uipAbort ∈
          (first ++ .uipAbort :: (closeNotification env ++ last)).map
            (Entry.action connection) := by
        simp [addedEq]
      obtain ⟨event, _, eventEq⟩ := List.mem_map.mp member
      exact (Entry.action.inj eventEq).1.symm
    subst same
    rw [List.map_append, List.map_cons] at addedEq
    have notFirst : Entry.action aborted .uipAbort ∉ first.map (Entry.action aborted) := by
      simpa using fun member => (silentFirst .uipAbort member).2 rfl
    have notRest : Entry.action aborted .uipAbort ∉
        (closeNotification env ++ last).map (Entry.action aborted) := by
      have notLast : .uipAbort ∉ last := fun member => (silentLast .uipAbort member).2 rfl
      simp [closeNotification, notLast]
    rw [split_unique addedEq notFirst notRest]
    constructor
    · rw [callbacksOf_actions, List.filter_append]
      have quiet : last.filter MqttEvent.isCallback = [] := by
        simpa using fun event member => (silentLast event member).1
      rw [quiet, List.append_nil, List.filter_eq_self]
      exact isCallback_closeNotification env
    · simp

end Traces

/-- uIP may still call the client for the connection, other than to close it again. -/
def Phase.live : Phase → Bool
  | .synSent => true
  | .established => true
  | _ => false

structure AbortInvariant (env : MqttEnv) (client : Client) : Prop where
  silent : SilentAfterAbort env client.trace
  closed : ∀ connection, .action connection .uipAbort ∈ client.trace →
    client.phase connection = .closed
  owned : ∀ connection, (client.phase connection).live = true →
    client.mqtt.connection = true ∧ connection + 1 = client.initiated
  unused : ∀ connection, client.initiated ≤ connection → client.phase connection = .unused
  dropped : AbortedLast client.trace → client.mqtt.connection = false
  reading : ∀ parsing, client.parsing = some parsing →
    parsing.bytesRead < parsing.segment.length → client.phase parsing.connection = .established

section Invariant

variable {env : MqttEnv} {client : Client} {connection : Nat} {after : MqttState}
  {parsing : Option Parsing}

theorem emittedSince_eq {before : MqttState} {emitted : List MqttEvent}
    (events : after.events = before.events ++ emitted) : emittedSince before after = emitted := by
  rw [emittedSince, events, List.drop_left]

theorem phaseAfter_noAbort {emitted : List MqttEvent} (noAbort : .uipAbort ∉ emitted)
    (phase : Phase) : phaseAfter emitted phase = phase :=
  if_neg noAbort

theorem abort_not_mem_entries (before after : MqttState) {emitted : List MqttEvent}
    (noAbort : .uipAbort ∉ emitted) (acting aborted : Nat) :
    .action aborted .uipAbort ∉
      emitted.map (Entry.action acting) ++ becameConnected before after := by
  rw [List.mem_append, not_or]
  constructor
  · intro member
    obtain ⟨event, eventMember, eventEq⟩ := List.mem_map.mp member
    rw [(Entry.action.inj eventEq).2] at eventMember
    exact noAbort eventMember
  · rw [becameConnected]
    split <;> simp

theorem callbacksOf_entries {before : MqttState} {acting : Nat} (other : acting ≠ connection)
    (emitted : List MqttEvent) :
    callbacksOf connection (emitted.map (Entry.action acting) ++ becameConnected before after) =
      [] := by
  rw [callbacksOf_append, callbacksOf_actions_other other, becameConnected]
  split <;> rfl

/-- A connection that uIP may still call for was not aborted. -/
theorem AbortInvariant.not_aborted (invariant : AbortInvariant env client)
    (notClosed : client.phase connection ≠ .closed) :
    .action connection .uipAbort ∉ client.trace :=
  fun member => notClosed (invariant.closed connection member)

/-- Entries for a connection that was not aborted, without an abort. -/
theorem AbortInvariant.silent_entries (invariant : AbortInvariant env client)
    (fresh : .action connection .uipAbort ∉ client.trace) {emitted : List MqttEvent}
    (noAbort : .uipAbort ∉ emitted)
    (unstaged : AbortedLast client.trace → becameConnected client.mqtt after = []) :
    SilentAfterAbort env (client.trace ++
      (emitted.map (Entry.action connection) ++ becameConnected client.mqtt after)) := by
  apply invariant.silent.append
  · intro aborted member
    apply callbacksOf_entries
    rintro rfl
    exact fresh member
  · exact abort_not_mem_entries client.mqtt after noAbort connection
  · intro last
    rw [unstaged last, List.append_nil]
    simp

theorem AbortInvariant.closed_update (invariant : AbortInvariant env client)
    (fresh : .action connection .uipAbort ∉ client.trace) {added : List Entry}
    (noEntry : ∀ aborted, .action aborted .uipAbort ∉ added) (phase : Phase) :
    ∀ aborted, .action aborted .uipAbort ∈ client.trace ++ added →
      Function.update client.phase connection phase aborted = .closed := by
  intro aborted member
  have earlier := (List.mem_append.mp member).resolve_right (noEntry aborted)
  rw [Function.update_of_ne]
  · exact invariant.closed aborted earlier
  · rintro rfl
    exact fresh earlier

theorem AbortInvariant.unused_update (invariant : AbortInvariant env client)
    (opened : connection < client.initiated) (phase : Phase) :
    ∀ other, client.initiated ≤ other →
      Function.update client.phase connection phase other = .unused := by
  intro other large
  rw [Function.update_of_ne (by omega)]
  exact invariant.unused other large

theorem ne_closed_of_live {phase : Phase} (live : phase.live = true) : phase ≠ .closed := by
  rintro rfl
  cases live

/-- Go on without an abort. -/
theorem AbortInvariant.advance_kept (invariant : AbortInvariant env client)
    (live : (client.phase connection).live = true) (kept : Kept client.mqtt after)
    (reading : ∀ found, parsing = some found → found.connection = connection) :
    AbortInvariant env (client.advance connection .established after parsing) := by
  obtain ⟨emitted, events, noAbort⟩ := kept.emitted
  have fresh := invariant.not_aborted (ne_closed_of_live live)
  have owner := invariant.owned connection live
  have noEntry := abort_not_mem_entries client.mqtt after noAbort connection
  rw [Client.advance, emittedSince_eq events, phaseAfter_noAbort noAbort]
  refine ⟨?_, ?_, ?_, ?_, ?_, ?_⟩ <;> dsimp only
  · apply invariant.silent_entries fresh noAbort
    intro last
    rw [invariant.dropped last] at owner
    exact absurd owner.1 Bool.false_ne_true
  · exact invariant.closed_update fresh noEntry _
  · intro other otherLive
    rw [kept.connection]
    by_cases same : other = connection
    · rw [same]
      exact owner
    · rw [Function.update_of_ne same] at otherLive
      exact invariant.owned other otherLive
  · exact invariant.unused_update (by omega) _
  · intro last
    rw [kept.connection]
    exact invariant.dropped (last.of_append noEntry)
  · intro found foundEq _
    rw [reading found foundEq]
    exact Function.update_self ..

/-- Abort the connection. -/
theorem AbortInvariant.advance_aborted (invariant : AbortInvariant env client)
    (live : (client.phase connection).live = true) (aborted : Aborted env client.mqtt after)
    (phase : Phase)
    (finished : ∀ found, parsing = some found → found.segment.length ≤ found.bytesRead) :
    AbortInvariant env (client.advance connection phase after parsing) := by
  obtain ⟨first, last, silentFirst, silentLast, events⟩ := aborted.emitted
  have fresh := invariant.not_aborted (ne_closed_of_live live)
  have owner := invariant.owned connection live
  have unstaged : becameConnected client.mqtt after = [] := by
    rw [becameConnected, aborted.stage, if_neg (fun both => both.1 both.2)]
  have ended : phaseAfter (first ++ .uipAbort :: (closeNotification env ++ last)) phase =
      .closed := if_pos (by simp)
  rw [Client.advance, emittedSince_eq events, unstaged, List.append_nil, ended]
  refine ⟨invariant.silent.append_abort fresh silentFirst silentLast, ?_, ?_, ?_, ?_, ?_⟩ <;>
    dsimp only
  · intro other member
    by_cases same : other = connection
    · rw [same]
      exact Function.update_self ..
    · rw [Function.update_of_ne same]
      apply invariant.closed
      apply (List.mem_append.mp member).resolve_right
      intro acted
      obtain ⟨event, _, eventEq⟩ := List.mem_map.mp acted
      exact same (Entry.action.inj eventEq).1.symm
  · intro other otherLive
    by_cases same : other = connection
    · rw [same, Function.update_self] at otherLive
      cases otherLive
    · rw [Function.update_of_ne same] at otherLive
      have otherOwner := invariant.owned other otherLive
      omega
  · exact invariant.unused_update (by omega) _
  · intro _
    exact aborted.connection
  · intro found foundEq inside
    exact absurd (finished found foundEq) (by omega)

/-- uIP reports that the connection is closed or lost. -/
theorem AbortInvariant.advance_closing (invariant : AbortInvariant env client)
    (notClosed : client.phase connection ≠ .closed) (notUnused : connection < client.initiated)
    {emitted : List MqttEvent} (emits : Emits client.mqtt.dropConnection after emitted)
    (noAbort : .uipAbort ∉ emitted) {phase : Phase} (dead : phase.live = false)
    (own : client.mqtt.connection = false ∨ connection + 1 = client.initiated) :
    AbortInvariant env (client.advance connection phase after none) := by
  have fresh := invariant.not_aborted notClosed
  have noEntry := abort_not_mem_entries client.mqtt after noAbort connection
  have unstaged : becameConnected client.mqtt after = [] := by
    rw [becameConnected, emits.stage]
    exact if_neg (fun both => both.1 both.2)
  have events : after.events = client.mqtt.events ++ emitted := emits.events
  rw [Client.advance, emittedSince_eq events, phaseAfter_noAbort noAbort]
  refine ⟨?_, ?_, ?_, ?_, ?_, ?_⟩ <;> dsimp only
  · exact invariant.silent_entries fresh noAbort fun _ => unstaged
  · exact invariant.closed_update fresh noEntry _
  · intro other otherLive
    by_cases same : other = connection
    · rw [same, Function.update_self, dead] at otherLive
      cases otherLive
    · rw [Function.update_of_ne same] at otherLive
      have owner := invariant.owned other otherLive
      rcases own with unowned | latest
      · rw [unowned] at owner
        exact absurd owner.1 Bool.false_ne_true
      · omega
  · exact invariant.unused_update notUnused _
  · intro _
    exact emits.connection
  · intro found foundEq
    cases foundEq

end Invariant

section Steps

variable {env : MqttEnv} {client next : Client}

theorem Phase.next_closing {phase after : Phase} {call : UipCall}
    (called : phase.next call = some after) (closing : call.closing = true) :
    phase ≠ .closed ∧ phase ≠ .unused ∧ after.live = false := by
  unfold Phase.next at called
  split at called
  · cases called
  · cases phase with
    | unused => cases called
    | closed => cases called
    | synSent =>
        cases called
        exact ⟨by decide, by decide, rfl⟩
    | lastAck =>
        cases called
        exact ⟨by decide, by decide, rfl⟩
    | established =>
        rw [UipCall.closing] at closing
        dsimp only at called
        split at called
        · cases called
          exact ⟨by decide, by decide, rfl⟩
        · split at called
          · cases called
            exact ⟨by decide, by decide, rfl⟩
          · simp_all

theorem Phase.next_open {phase after : Phase} {call : UipCall}
    (called : phase.next call = some after) (opened : call.closing = false) :
    phase.live = true ∧ after = .established := by
  have notAborted : (call.aborted || call.timedout) = false := (Bool.or_eq_false_iff.mp opened).1
  have notClosed : call.closed = false := (Bool.or_eq_false_iff.mp opened).2
  unfold Phase.next at called
  split at called
  · cases called
  · cases phase with
    | unused => cases called
    | closed => cases called
    | synSent =>
        dsimp only at called
        rw [opened, if_neg Bool.false_ne_true] at called
        split at called
        · cases called
          exact ⟨rfl, rfl⟩
        · cases called
    | lastAck =>
        dsimp only at called
        rw [opened] at called
        cases called
    | established =>
        dsimp only at called
        rw [notAborted, notClosed, if_neg Bool.false_ne_true, if_neg Bool.false_ne_true] at called
        split at called
        · cases called
        · cases called
          exact ⟨rfl, rfl⟩

theorem AbortInvariant.call (invariant : AbortInvariant env client) {connection : Nat}
    {call : UipCall} {phase : Phase} (called : (client.phase connection).next call = some phase)
    (own : call.closing = true →
      client.mqtt.connection = false ∨ connection + 1 = client.initiated) :
    AbortInvariant env (client.onCall env connection call phase) := by
  rw [Client.onCall]
  split
  next closing =>
    obtain ⟨notClosed, notUnused, dead⟩ := Phase.next_closing called closing
    obtain ⟨emitted, emits, noAbort⟩ := emits_mainClosing env client.mqtt call
    apply invariant.advance_closing notClosed _ emits noAbort dead (own closing)
    by_contra large
    exact notUnused (invariant.unused connection (by omega))
  next opened =>
    obtain ⟨live, rfl⟩ := Phase.next_open called (Bool.eq_false_iff.mpr opened)
    split
    · apply invariant.advance_kept live (kept_mainSending client.mqtt call)
      rintro found ⟨⟩
      rfl
    · rcases mqttMain_open_cases client.mqtt called with kept | aborted
      · apply invariant.advance_kept live kept
        rintro found ⟨⟩
      · apply invariant.advance_aborted live aborted
        rintro found ⟨⟩

theorem AbortInvariant.iterate (invariant : AbortInvariant env client) {parsing : Parsing}
    (active : client.parsing = some parsing)
    (last : ∀ found ∈ handover env client.mqtt parsing.segment parsing.bytesRead,
      found.Last client.mqtt.stage parsing.segment)
    (stepped : client.onIterate env parsing = some next) : AbortInvariant env next := by
  rw [Client.onIterate] at stepped
  split at stepped
  next inside =>
    have established := invariant.reading parsing active inside
    have live : (client.phase parsing.connection).live = true := by rw [established]; rfl
    rw [established, Option.map_eq_some_iff] at stepped
    obtain ⟨step, parsed, rfl⟩ := stepped
    cases iteration_parseStep parsed with
    | buffered emits =>
        apply invariant.advance_kept live emits.keptSilent
        rintro found ⟨⟩
        rfl
    | handled found stored available handed emits =>
        have decided : Decided env
            (rejects stored.stage found.data (found.llen.toNat + 1) found.packetLength) stored
            (mqttHandlePacket env stored found.data available found.llen found.packetLength) :=
          decided_handlePacket available found.llen
        cases rejected : rejects stored.stage found.data (found.llen.toNat + 1)
            found.packetLength with
        | false =>
            apply invariant.advance_kept live (emits.keptSilent.trans (decided.kept rejected))
            rintro found ⟨⟩
            rfl
        | true =>
            apply invariant.advance_aborted live
              ((decided.aborted rejected).after_emits emits silent_nil)
            rintro found ⟨⟩
            rw [emits.stage] at rejected
            exact last _ handed rejected
    | full emits =>
        apply invariant.advance_aborted live
          ((aborted_abort env _).after_emits emits silent_nil)
        rintro found ⟨⟩
  next finished =>
    cases stepped
    refine ⟨invariant.silent, invariant.closed, invariant.owned, invariant.unused,
      invariant.dropped, ?_⟩
    rintro found ⟨⟩

theorem mqttPeriodic_opened {state : MqttState} {configured granted : Bool}
    (opened : (!state.connection && configured && granted) = true) :
    (mqttPeriodic state configured granted).connection = true := by
  simp only [Bool.and_eq_true, Bool.not_eq_true'] at opened
  rw [mqttPeriodic, opened.1.1, mqttInit, opened.1.2, opened.2]
  rfl

theorem mqttPeriodic_kept {state : MqttState} {configured granted : Bool}
    (kept : ¬(!state.connection && configured && granted) = true) :
    (mqttPeriodic state configured granted).connection = state.connection := by
  rw [mqttPeriodic]
  split
  · rfl
  next dropped =>
    rw [mqttInit]
    split
    · simp_all
    · rfl

theorem AbortInvariant.periodic (invariant : AbortInvariant env client)
    (idle : client.parsing = none) (configured granted : Bool) :
    AbortInvariant env (client.onPeriodic configured granted) := by
  rw [Client.onPeriodic]
  split
  next opened =>
    have unowned : client.mqtt.connection = false := by
      simp only [Bool.and_eq_true, Bool.not_eq_true'] at opened
      exact opened.1.1
    have noEntry (connection : Nat) :
        .action connection .uipAbort ∉ [Entry.initiated client.initiated] := by simp
    refine ⟨?_, ?_, ?_, ?_, ?_, ?_⟩ <;> dsimp only
    · apply invariant.silent.append _ noEntry (fun _ => by simp)
      intro _ _
      rfl
    · apply invariant.closed_update _ noEntry
      apply invariant.not_aborted
      rw [invariant.unused _ (Nat.le_refl _)]
      decide
    · intro other otherLive
      by_cases same : other = client.initiated
      · rw [same]
        exact ⟨mqttPeriodic_opened opened, rfl⟩
      · rw [Function.update_of_ne same] at otherLive
        have owned := (invariant.owned other otherLive).1
        rw [unowned] at owned
        cases owned
    · intro other large
      rw [Function.update_of_ne (by omega)]
      exact invariant.unused other (by omega)
    · rintro ⟨before, connection, after, split, noneOpened⟩
      rcases append_eq_split split with ⟨rest, _, rfl⟩ | ⟨front, _, addedEq⟩
      · exact absurd (by simp) (noneOpened client.initiated)
      · exact absurd (by simp [addedEq]) (noEntry connection)
    · intro found foundEq
      rw [idle] at foundEq
      cases foundEq
  next kept =>
    have same := mqttPeriodic_kept kept
    refine ⟨invariant.silent, invariant.closed, ?_, invariant.unused, ?_, invariant.reading⟩
    · intro connection live
      rw [same]
      exact invariant.owned connection live
    · intro last
      rw [same]
      exact invariant.dropped last

theorem clientStep_invariant (step : ClientStep) (invariant : AbortInvariant env client)
    (condition : step.EndsItsSegment env client)
    (stepped : clientStep env client step = some next) :
    AbortInvariant env next := by
  cases step with
  | call connection call =>
      rw [clientStep] at stepped
      split at stepped
      · cases stepped
      · rw [Option.map_eq_some_iff] at stepped
        obtain ⟨phase, called, rfl⟩ := stepped
        exact invariant.call called condition
  | iterate =>
      rw [clientStep, Option.bind_eq_some_iff] at stepped
      obtain ⟨parsing, active, iterated⟩ := stepped
      exact invariant.iterate active (condition parsing active) iterated
  | periodic configured granted =>
      rw [clientStep] at stepped
      split at stepped
      · cases stepped
      next idle =>
        cases stepped
        exact invariant.periodic (Option.not_isSome_iff_eq_none.mp idle) configured granted

theorem abortInvariant_start (env : MqttEnv) (mqtt : MqttState) :
    AbortInvariant env (.start mqtt) := by
  have none (before after : List Entry) (entry : Entry) : [] ≠ before ++ entry :: after := by simp
  refine ⟨?_, ?_, ?_, ?_, ?_, ?_⟩
  · intro before connection after split
    exact absurd split (none before after _)
  · intro connection member
    cases member
  · intro connection live
    cases live
  · intro connection _
    rfl
  · rintro ⟨before, connection, after, split, _⟩
    exact absurd split (none before after _)
  · intro parsing active
    cases active

end Steps

/-- In every run whose rejected packets end their segments, an abort is the end: no
callback but its own close notification follows for that connection, and the stage does not
become connected before a new connection is initiated. -/
theorem silentAfterAbort_of_endsItsSegment (env : MqttEnv) (mqtt : MqttState)
    (steps : List ClientStep) (last : Client)
    (guarded : Guarded (clientStep env) (fun client step => step.EndsItsSegment env client)
      (.start mqtt) steps)
    (reached : run (clientStep env) (.start mqtt) steps = some last) :
    SilentAfterAbort env last.trace := by
  have invariant : AbortInvariant env last :=
    guarded.invariant (fun _ step _ invariant condition stepped =>
      clientStep_invariant step invariant condition stepped) (abortInvariant_start env mqtt) reached
  exact invariant.silent

instance (env : MqttEnv) (client : Client) : ∀ step : ClientStep,
    Decidable (step.EndsItsSegment env client)
  | .call connection call => inferInstanceAs (Decidable (call.closing = true →
      client.mqtt.connection = false ∨ connection + 1 = client.initiated))
  | .iterate => inferInstanceAs (Decidable (∀ parsing ∈ client.parsing,
      ∀ found ∈ handover env client.mqtt parsing.segment parsing.bytesRead,
        rejects client.mqtt.stage found.data (found.llen.toNat + 1) found.packetLength = true →
          parsing.segment.length ≤ found.bytesRead))
  | .periodic _ _ => isTrue trivial

/-- One module with a connack and a close callback. -/
def watchingEnv : MqttEnv where
  config := ⟨topicA, none, none, none, 0, false, zeroBlock 0 (by decide), []⟩
  callbacks := [⟨none, true, true, false⟩]
  reaction := fun _ => []
  staleBytes := fun _ => 0

def idleCall : UipCall :=
  ⟨false, false, false, false, false, false, false, false, [], 500, []⟩

/-- Open a connection and receive a segment in answer to the connect packet. -/
def answeredSteps (segment : List UInt8) : List ClientStep :=
  [.periodic true true, .call 0 { idleCall with connected := true },
    .call 0 { idleCall with newdata := true, segment := segment }, .iterate, .iterate]

/-- A ping response instead of the connack, and the next connection. -/
theorem silentAfterAbort_pingresp :
    ∃ last, run (clientStep watchingEnv) (.start poweredMqtt)
        (answeredSteps [0xd0, 0] ++ [.periodic true true]) = some last ∧
      .action 0 .uipAbort ∈ last.trace ∧ SilentAfterAbort watchingEnv last.trace := by
  have ended : (run (clientStep watchingEnv) (.start poweredMqtt)
      (answeredSteps [0xd0, 0] ++ [.periodic true true])).map
        (fun last => decide (.action 0 .uipAbort ∈ last.trace)) = some true := by
    decide +kernel
  obtain ⟨last, reached, aborted⟩ := Option.map_eq_some_iff.mp ended
  exact ⟨last, reached, of_decide_eq_true aborted,
    silentAfterAbort_of_endsItsSegment watchingEnv poweredMqtt
      (answeredSteps [0xd0, 0] ++ [.periodic true true]) last (by decide +kernel) reached⟩

/-- A ping response and the connack behind it: the connack callback is invoked on the
aborted connection, and the stage becomes connected. -/
theorem connack_after_abort :
    ¬∀ (env : MqttEnv) (mqtt : MqttState) (steps : List ClientStep) (last : Client),
      run (clientStep env) (.start mqtt) steps = some last → SilentAfterAbort env last.trace := by
  intro silent
  have ended : (run (clientStep watchingEnv) (.start poweredMqtt)
      (answeredSteps [0xd0, 0, 0x20, 2, 0, 0])).map
        (fun last => (last.trace.take 3, last.trace.drop 3)) =
      some ([.initiated 0,
          .action 0 (.uipSend [16, 15, 0, 6, 77, 81, 73, 115, 100, 112, 3, 2, 0, 60, 0, 1, 97]),
          .action 0 (.handlePacket ⟨[208, 0], 1, 0⟩)],
        [.action 0 .uipAbort, .action 0 (.closeCallback 0),
          .action 0 (.handlePacket ⟨[32, 2, 0, 0], 1, 2⟩), .action 0 (.connackCallback 0),
          .stageConnected]) := by
    decide +kernel
  obtain ⟨last, reached, view⟩ := Option.map_eq_some_iff.mp ended
  rw [Prod.mk.injEq] at view
  have split := (List.take_append_drop 3 last.trace).symm
  rw [view.1, view.2] at split
  have quiet := silent watchingEnv poweredMqtt _ last reached _ 0 _ split
  exact absurd quiet.1 (by decide)

end Ethersex.Mqtt

import Ethersex.GuardedRuns
import Ethersex.MqttSendBuffer

/-!
# The send queue of the MQTT client

Along any interleaving of packet construction, received fragments, flushes,
acknowledgements and retransmissions the bytes handed to uIP have to be a prefix
of the constructed packets.  The construct functions estimate the size of the
length field with powers of 256 instead of 128 and accept a packet that fills
the buffer to its last byte, which the 8-bit head cannot express.  As long as
no accepted packet exceeds the free space by its real size, the queue works.
-/

namespace Ethersex.Mqtt

open ByteMemory GuardedRuns

section Pieces

variable {state : MqttState}

theorem writeByte_eq (state : MqttState) (byte : UInt8) :
    writeByte state byte = mqttBufferWriteData state [byte] := by
  rw [writeByte, mqttBufferWriteData, writeBlock_singleton]
  rfl

theorem mqttBufferWriteString_eq (state : MqttState) (text : CString) :
    mqttBufferWriteString state text =
      mqttBufferWriteData state (Piece.string text).bytes := by
  have countEq : 2 + text.bytes.length = (Piece.string text).bytes.length := by
    simp only [Piece.bytes, List.length_cons]
    omega
  rw [mqttBufferWriteString, mqttBufferWriteData, Piece.bytes, writeBlock_cons, writeBlock_cons,
    update_writeBlock_comm _ (Or.inl (by omega)), update_writeBlock_comm _ (Or.inl (by omega)),
    countEq]
  rfl

theorem writePiece_eq (state : MqttState) (piece : Piece) :
    writePiece state piece = mqttBufferWriteData state piece.bytes := by
  cases piece with
  | byte value => exact writeByte_eq state value
  | lengthField length => rfl
  | data bytes => rfl
  | string text => exact mqttBufferWriteString_eq state text

theorem mqttBufferWriteData_append {first second : List UInt8}
    (fits : state.currentHead.toNat + first.length < 256) :
    mqttBufferWriteData (mqttBufferWriteData state first) second =
      mqttBufferWriteData state (first ++ second) := by
  have headEq : (state.currentHead + UInt8.ofNat first.length).toNat =
      state.currentHead.toNat + first.length := by
    rw [UInt8.toNat_add, UInt8.toNat_ofNat']
    omega
  have countEq : state.currentHead + UInt8.ofNat first.length + UInt8.ofNat second.length =
      state.currentHead + UInt8.ofNat (first ++ second).length := by
    rw [List.length_append, UInt8.ofNat_add, UInt8.add_assoc]
  simp only [mqttBufferWriteData, headEq, countEq, writeBlock_append]

theorem foldl_writePiece {pieces : List Piece}
    (fits : state.currentHead.toNat + (pieces.flatMap Piece.bytes).length < 256) :
    pieces.foldl writePiece state = mqttBufferWriteData state (pieces.flatMap Piece.bytes) := by
  induction pieces generalizing state with
  | nil => simp [mqttBufferWriteData]
  | cons piece pieces ih =>
      rw [List.flatMap_cons, List.length_append] at fits
      have headEq : (mqttBufferWriteData state piece.bytes).currentHead.toNat =
          state.currentHead.toNat + piece.bytes.length := by
        rw [mqttBufferWriteData, UInt8.toNat_add, UInt8.toNat_ofNat']
        omega
      rw [List.foldl_cons, writePiece_eq, ih (by omega), mqttBufferWriteData_append (by omega),
        List.flatMap_cons]

end Pieces

/-- The size a construct function compares with the free space. -/
def PacketRequest.estimate : PacketRequest → UInt16
  | .connect config => estimatedSize (connectLength config)
  | .publish topic payload _ => estimatedSize (publishLength topic payload)
  | .publishP topic payload _ => estimatedSize (publishLength topic payload)
  | .subscribe topic => estimatedSize (subscribeLength topic)
  | .subscribeP topic => estimatedSize (subscribeLength topic)
  | .unsubscribe topic => estimatedSize (unsubscribeLength topic)
  | .unsubscribeP topic => estimatedSize (unsubscribeLength topic)
  | .zerolength _ => 2
  | .ack _ _ => 4

def PacketRequest.pieces (messageId : UInt16) : PacketRequest → List Piece
  | .connect config => connectPieces config
  | .publish topic payload retain =>
      publishPieces (publishLength topic payload) topic payload retain
  | .publishP topic payload retain =>
      publishPieces (publishLength topic payload) topic payload retain
  | .subscribe topic => subscribePieces messageId (subscribeLength topic) topic
  | .subscribeP topic => subscribePieces messageId (subscribeLength topic) topic
  | .unsubscribe topic => unsubscribePieces messageId (unsubscribeLength topic) topic
  | .unsubscribeP topic => unsubscribePieces messageId (unsubscribeLength topic) topic
  | .zerolength messageType => zerolengthPieces messageType
  | .ack messageType acknowledged => ackPieces messageType acknowledged

/-- The packet as it is encoded. -/
def PacketRequest.encoded (request : PacketRequest) (messageId : UInt16) : List UInt8 :=
  (request.pieces messageId).flatMap Piece.bytes

section Requests

variable {state : MqttState} {estimate : UInt16}

theorem constructPacket_refused (full : mqttBufferFree state estimate = false)
    (pieces : List Piece) : constructPacket state estimate pieces = (false, state) := by
  rw [constructPacket, full]
  rfl

theorem constructNumberedPacket_refused (full : mqttBufferFree state estimate = false)
    (pieces : List Piece) : constructNumberedPacket state estimate pieces = (false, state) := by
  rw [constructNumberedPacket, constructPacket_refused full]
  rfl

theorem constructPacket_accepted (free : mqttBufferFree state estimate = true)
    (pieces : List Piece) :
    ∃ nextMsgId, constructPacket state estimate pieces =
      (true, { pieces.foldl writePiece state with nextMsgId := nextMsgId }) := by
  rw [constructPacket, if_pos free]
  exact ⟨(pieces.foldl writePiece state).nextMsgId, rfl⟩

theorem constructNumberedPacket_accepted (free : mqttBufferFree state estimate = true)
    (pieces : List Piece) :
    ∃ nextMsgId, constructNumberedPacket state estimate pieces =
      (true, { pieces.foldl writePiece state with nextMsgId := nextMsgId }) := by
  rw [constructNumberedPacket, constructPacket, if_pos free]
  exact ⟨(makeNewMessageId (pieces.foldl writePiece state)).nextMsgId, rfl⟩

theorem PacketRequest.construct_refused (request : PacketRequest)
    (full : mqttBufferFree state request.estimate = false) :
    request.construct state = (false, state) := by
  cases request with
  | connect config => exact constructPacket_refused full _
  | publish topic payload retain => exact constructPacket_refused full _
  | publishP topic payload retain => exact constructPacket_refused full _
  | subscribe topic => exact constructNumberedPacket_refused full _
  | subscribeP topic => exact constructNumberedPacket_refused full _
  | unsubscribe topic => exact constructNumberedPacket_refused full _
  | unsubscribeP topic => exact constructNumberedPacket_refused full _
  | zerolength messageType => exact constructPacket_refused full _
  | ack messageType messageId => exact constructPacket_refused full _

/-- An accepted packet is written piece by piece; apart from that only the
message counter may change. -/
theorem PacketRequest.construct_accepted (request : PacketRequest)
    (free : mqttBufferFree state request.estimate = true) :
    ∃ nextMsgId, request.construct state =
      (true, { (request.pieces state.nextMsgId).foldl writePiece state with
        nextMsgId := nextMsgId }) := by
  cases request with
  | connect config => exact constructPacket_accepted free _
  | publish topic payload retain => exact constructPacket_accepted free _
  | publishP topic payload retain => exact constructPacket_accepted free _
  | subscribe topic => exact constructNumberedPacket_accepted free _
  | subscribeP topic => exact constructNumberedPacket_accepted free _
  | unsubscribe topic => exact constructNumberedPacket_accepted free _
  | unsubscribeP topic => exact constructNumberedPacket_accepted free _
  | zerolength messageType => exact constructPacket_accepted free _
  | ack messageType messageId => exact constructPacket_accepted free _

end Requests

/-- No received segment is larger than the uIP buffer. -/
def uipBufferSize : Nat := 1500

/-- A piece of a received segment. -/
structure Fragment where
  bytes : List UInt8
  inSegment : bytes.length ≤ uipBufferSize

inductive QueueStep where
  | construct (request : PacketRequest)
  | fragment (data : Fragment)
  | flush (mss : UInt16)
  | ack
  | retransmit

/-- The client with three records of what happened: the packets whose
construction succeeded, the sent bytes that have been acknowledged, and the
bytes handed to uIP since then. -/
structure QueueState where
  mqtt : MqttState
  queued : List UInt8
  acked : List UInt8
  lastSent : List UInt8

/-- The bytes handed to `uip_send` between two states. -/
def handedOver (before after : MqttState) : Option (List UInt8) :=
  (after.events.drop before.events.length).findSome? fun
    | .uipSend bytes => some bytes
    | _ => none

def QueueState.send (state : QueueState) (after : MqttState) : QueueState :=
  { state with
    mqtt := after
    lastSent := (handedOver state.mqtt after).getD state.lastSent }

def queueStep (state : QueueState) : QueueStep → Option QueueState
  | .construct request =>
      let result := request.construct state.mqtt
      some { state with
        mqtt := result.2
        queued := if result.1 then state.queued ++ request.encoded state.mqtt.nextMsgId
          else state.queued }
  | .fragment data =>
      (mqttWriteToReceiveBuffer state.mqtt (fun index => data.bytes.getD index 0)
        (UInt16.ofNat data.bytes.length)).map fun result => { state with mqtt := result.2 }
  | .flush mss => some (state.send (mqttFlushBuffer state.mqtt mss))
  | .ack =>
      some { state with
        mqtt := mqttReceivedAck state.mqtt
        acked := state.acked ++ state.lastSent
        lastSent := [] }
  | .retransmit => some (state.send (mqttRetransmit state.mqtt))

/-- What the queue promises in every state. -/
structure QueueSound (state : QueueState) : Prop where
  lastLength_le : state.mqtt.lastLength.toNat ≤ state.mqtt.currentHead.toNat
  disjoint : state.mqtt.currentHead.toNat + state.mqtt.receiveBufferLength.toNat ≤
    sendbufferLength
  sent_prefix : state.acked ++ state.lastSent <+: state.queued
  refused : ∀ request : PacketRequest, (request.construct state.mqtt).1 = false →
    (request.construct state.mqtt).2 = state.mqtt

/-- A packet that passes the check fits in front of the received data, and the
head stays an 8-bit number. -/
def QueueStep.Fits (state : QueueState) : QueueStep → Prop
  | .construct request =>
      mqttBufferFree state.mqtt request.estimate = true →
        state.mqtt.currentHead.toNat + (request.encoded state.mqtt.nextMsgId).length +
            state.mqtt.receiveBufferLength.toNat ≤ sendbufferLength ∧
          state.mqtt.currentHead.toNat + (request.encoded state.mqtt.nextMsgId).length < 256
  | _ => True

instance (state : QueueState) : ∀ step : QueueStep, Decidable (step.Fits state)
  | .construct _ => inferInstanceAs (Decidable (_ → _ ∧ _))
  | .fragment _ => inferInstanceAs (Decidable True)
  | .flush _ => inferInstanceAs (Decidable True)
  | .ack => inferInstanceAs (Decidable True)
  | .retransmit => inferInstanceAs (Decidable True)

/-- The front of the buffer holds the queued bytes that are not acknowledged
yet, beginning with those handed over last. -/
structure QueueInvariant (state : QueueState) : Prop where
  lastLength_le : state.mqtt.lastLength.toNat ≤ state.mqtt.currentHead.toNat
  disjoint : state.mqtt.currentHead.toNat + state.mqtt.receiveBufferLength.toNat ≤
    sendbufferLength
  queued_eq : state.queued =
    state.acked ++ readBlock state.mqtt.sendBuffer 0 state.mqtt.currentHead.toNat
  lastSent_eq : state.lastSent =
    readBlock state.mqtt.sendBuffer 0 state.mqtt.lastLength.toNat

theorem QueueInvariant.sound {state : QueueState} (invariant : QueueInvariant state) :
    QueueSound state := by
  constructor
  · exact invariant.lastLength_le
  · exact invariant.disjoint
  · rw [invariant.queued_eq, invariant.lastSent_eq, List.prefix_append_right_inj,
      ← take_readBlock invariant.lastLength_le]
    exact List.take_prefix _ _
  · intro request refused
    cases free : mqttBufferFree state.mqtt request.estimate with
    | false => rw [request.construct_refused free]
    | true =>
        obtain ⟨nextMsgId, accepted⟩ := request.construct_accepted free
        rw [accepted] at refused
        cases refused

section Steps

variable {state : QueueState}

theorem QueueInvariant.construct (invariant : QueueInvariant state) {request : PacketRequest}
    (fits : (QueueStep.construct request).Fits state) :
    ∃ next, queueStep state (.construct request) = some next ∧ QueueInvariant next := by
  refine ⟨_, rfl, ?_⟩
  cases free : mqttBufferFree state.mqtt request.estimate with
  | false =>
      rw [request.construct_refused free]
      exact invariant
  | true =>
      obtain ⟨nextMsgId, accepted⟩ := request.construct_accepted free
      obtain ⟨room, short⟩ := fits free
      have written : (request.pieces state.mqtt.nextMsgId).foldl writePiece state.mqtt =
          mqttBufferWriteData state.mqtt (request.encoded state.mqtt.nextMsgId) :=
        foldl_writePiece short
      have headEq : (mqttBufferWriteData state.mqtt
          (request.encoded state.mqtt.nextMsgId)).currentHead.toNat =
            state.mqtt.currentHead.toNat + (request.encoded state.mqtt.nextMsgId).length := by
        rw [mqttBufferWriteData, UInt8.toNat_add, UInt8.toNat_ofNat']
        omega
      have lastLe := invariant.lastLength_le
      rw [accepted, if_pos rfl, written]
      constructor
      · dsimp only
        rw [headEq]
        exact Nat.le_add_right_of_le lastLe
      · dsimp only
        rw [headEq]
        exact room
      · dsimp only
        rw [headEq, invariant.queued_eq, List.append_assoc, readBlock_append, Nat.zero_add,
          mqttBufferWriteData, readBlock_writeBlock_same,
          readBlock_writeBlock_disjoint (Or.inl (by omega))]
      · dsimp only
        rw [invariant.lastSent_eq, mqttBufferWriteData,
          readBlock_writeBlock_disjoint (Or.inl ((Nat.zero_add _).symm ▸ lastLe))]

/-- A fragment is written behind the send part, because the sizes are too small
for the 16-bit sum to wrap. -/
theorem QueueInvariant.fragment (invariant : QueueInvariant state) (data : Fragment) :
    ∃ next, queueStep state (.fragment data) = some next ∧ QueueInvariant next := by
  have inSegment := data.inSegment
  have lengthEq : (UInt16.ofNat data.bytes.length).toNat = data.bytes.length := by
    rw [UInt16.toNat_ofNat']
    rw [uipBufferSize] at inSegment
    omega
  have headLt := state.mqtt.currentHead.toNat_lt
  have receivedLt := state.mqtt.receiveBufferLength.toNat_lt
  have disjoint := invariant.disjoint
  have lastLe := invariant.lastLength_le
  rw [uipBufferSize] at inSegment
  rw [sendbufferLength] at disjoint
  rw [queueStep, mqttWriteToReceiveBuffer, lengthEq]
  split
  next free =>
    rw [mqttBufferFree, decide_eq_true_eq, lengthEq, sendbufferLength] at free
    have room : state.mqtt.receiveBufferLength.toNat + data.bytes.length +
        state.mqtt.currentHead.toNat ≤ 256 := by omega
    dsimp only
    rw [if_pos (by rw [sendbufferLength]; omega), Option.map_some]
    refine ⟨_, rfl, ?_⟩
    have kept : ∀ count, count ≤ state.mqtt.currentHead.toNat →
        readBlock (writeBlock (writeBlock state.mqtt.sendBuffer
          (sendbufferLength - state.mqtt.receiveBufferLength.toNat - data.bytes.length)
          (readBlock state.mqtt.sendBuffer
            (sendbufferLength - state.mqtt.receiveBufferLength.toNat)
            state.mqtt.receiveBufferLength.toNat)) (sendbufferLength - data.bytes.length)
          (readBlock (fun index => data.bytes.getD index 0) 0 data.bytes.length)) 0 count =
          readBlock state.mqtt.sendBuffer 0 count := by
      intro count countLe
      rw [readBlock_writeBlock_disjoint (Or.inl (by rw [sendbufferLength]; omega)),
        readBlock_writeBlock_disjoint (Or.inl (by rw [sendbufferLength]; omega))]
    constructor
    · exact lastLe
    · dsimp only
      rw [UInt8.toNat_add, UInt8.toNat_ofNat', sendbufferLength]
      omega
    · exact invariant.queued_eq.trans (congrArg _ (kept _ (Nat.le_refl _)).symm)
    · exact invariant.lastSent_eq.trans (kept _ lastLe).symm
  next => exact ⟨state, rfl, invariant⟩

theorem handedOver_emit (before after : MqttState) (bytes : List UInt8)
    (eventsEq : after.events = before.events ++ [.uipSend bytes]) :
    handedOver before after = some bytes := by
  rw [handedOver, eventsEq, List.drop_left]
  rfl

theorem handedOver_self (state : MqttState) : handedOver state state = none := by
  rw [handedOver, List.drop_length]
  rfl

theorem QueueState.send_self (state : QueueState) : state.send state.mqtt = state := by
  rw [QueueState.send, handedOver_self]
  rfl

theorem flushLength_le (state : MqttState) (mss : UInt16) :
    (flushLength state mss).toNat ≤ state.currentHead.toNat := by
  have headLt := state.currentHead.toNat_lt
  rw [flushLength]
  split
  · exact Nat.le_refl _
  · rw [UInt8.toNat_ofNat']
    omega

theorem QueueInvariant.flush (invariant : QueueInvariant state) (mss : UInt16) :
    ∃ next, queueStep state (.flush mss) = some next ∧ QueueInvariant next := by
  refine ⟨_, rfl, ?_⟩
  rw [mqttFlushBuffer]
  split
  · constructor
    · exact flushLength_le state.mqtt mss
    · exact invariant.disjoint
    · exact invariant.queued_eq
    · dsimp only [QueueState.send]
      rw [handedOver_emit state.mqtt _ _ rfl]
      rfl
  · rw [QueueState.send_self]
    exact invariant

theorem QueueInvariant.retransmit (invariant : QueueInvariant state) :
    ∃ next, queueStep state .retransmit = some next ∧ QueueInvariant next := by
  refine ⟨_, rfl, ?_⟩
  rw [mqttRetransmit]
  split
  · constructor
    · exact invariant.lastLength_le
    · exact invariant.disjoint
    · exact invariant.queued_eq
    · dsimp only [QueueState.send]
      rw [handedOver_emit state.mqtt _ _ rfl]
      rfl
  · rw [QueueState.send_self]
    exact invariant

/-- An acknowledgement moves the bytes behind the acknowledged ones to the
front. -/
theorem QueueInvariant.ack (invariant : QueueInvariant state) :
    ∃ next, queueStep state .ack = some next ∧ QueueInvariant next := by
  refine ⟨_, rfl, ?_⟩
  have lastLe := invariant.lastLength_le
  have headLt := state.mqtt.currentHead.toNat_lt
  have disjoint := invariant.disjoint
  rw [mqttReceivedAck]
  split
  next sent =>
    have headEq : (state.mqtt.currentHead - state.mqtt.lastLength).toNat =
        state.mqtt.currentHead.toNat - state.mqtt.lastLength.toNat := by
      rw [UInt8.toNat_sub]
      omega
    have restEq : (state.mqtt.currentHead.toNat + 65536 - state.mqtt.lastLength.toNat) % 65536 =
        state.mqtt.currentHead.toNat - state.mqtt.lastLength.toNat := by
      omega
    constructor
    · dsimp only
      rw [headEq]
      exact Nat.zero_le _
    · dsimp only
      rw [headEq]
      omega
    · dsimp only
      have frontEq := readBlock_writeBlock_same state.mqtt.sendBuffer 0
        (readBlock state.mqtt.sendBuffer state.mqtt.lastLength.toNat
          (state.mqtt.currentHead.toNat - state.mqtt.lastLength.toNat))
      rw [length_readBlock] at frontEq
      rw [headEq, restEq, frontEq, invariant.queued_eq, invariant.lastSent_eq, List.append_assoc]
      congr 1
      have split := readBlock_append state.mqtt.sendBuffer 0 state.mqtt.lastLength.toNat
        (state.mqtt.currentHead.toNat - state.mqtt.lastLength.toNat)
      rw [Nat.add_sub_cancel' lastLe, Nat.zero_add] at split
      exact split
    · rfl
  next unsent =>
    have lastZero : state.mqtt.lastLength.toNat = 0 := by
      rw [UInt8.lt_iff_toNat_lt] at unsent
      simpa using unsent
    have sentNone : state.lastSent = [] := by
      rw [invariant.lastSent_eq, lastZero]
      rfl
    constructor
    · exact lastLe
    · exact disjoint
    · dsimp only
      rw [sentNone, List.append_nil]
      exact invariant.queued_eq
    · dsimp only
      rw [lastZero]
      rfl

end Steps

theorem queueStep_invariant (state : QueueState) (step : QueueStep)
    (invariant : QueueInvariant state) (fits : step.Fits state) :
    ∃ next, queueStep state step = some next ∧ QueueInvariant next := by
  cases step with
  | construct request => exact invariant.construct fits
  | fragment data => exact invariant.fragment data
  | flush mss => exact invariant.flush mss
  | ack => exact invariant.ack
  | retransmit => exact invariant.retransmit

/-- The client after `mqtt_reset_state`, with nothing recorded. -/
def QueueState.reset (mqtt : MqttState) : QueueState :=
  ⟨mqttResetState mqtt, [], [], []⟩

theorem queueInvariant_reset (mqtt : MqttState) : QueueInvariant (.reset mqtt) := by
  constructor
  · exact Nat.le_refl _
  · exact Nat.zero_le sendbufferLength
  · rfl
  · rfl

/-- Along every run in which each packet that passes the free-space check fits
by its real size, every step has a result and the queue is sound. -/
theorem mqtt_queue_sound_of_fits (mqtt : MqttState) (steps : List QueueStep)
    (fits : Guarded queueStep (fun state step => step.Fits state) (.reset mqtt) steps) :
    ∃ last, run queueStep (.reset mqtt) steps = some last ∧ QueueSound last := by
  obtain ⟨last, reached, invariant⟩ :=
    fits.exists_run queueStep_invariant (queueInvariant_reset mqtt)
  exact ⟨last, reached, invariant.sound⟩

def poweredMqtt : MqttState where
  sendBuffer := fun _ => 0
  lastLength := 0
  currentHead := 0
  receiveBufferLength := 0
  receivePacketLength := 0
  nextMsgId := 0
  pingOutstanding := false
  timerCounter := 0
  lastInActivity := 0
  lastOutActivity := 0
  stage := .disconnected
  connection := true
  events := []

/-- The topic `"a"`. -/
def topicA : CString := ⟨[97], by decide, by decide⟩

def zeroBlock (length : Nat) (short : length < 65536) : Block :=
  ⟨List.replicate length 0, by rw [List.length_replicate]; exact short⟩

def tenByteFragment : Fragment := ⟨List.replicate 10 0, by decide⟩

def publishRun : List QueueStep :=
  [.fragment tenByteFragment, .construct (.publish topicA (zeroBlock 2 (by decide)) false),
    .flush 100, .retransmit, .construct (.subscribe topicA), .ack, .flush 100]

/-- A publish packet with 244 bytes behind its length field, next to ten
received bytes. -/
def overlapRun : List QueueStep :=
  [.fragment tenByteFragment, .construct (.publish topicA (zeroBlock 241 (by decide)) false)]

theorem mqtt_queue_sound_publishRun :
    ∃ last, run queueStep (.reset poweredMqtt) publishRun = some last ∧ QueueSound last :=
  mqtt_queue_sound_of_fits poweredMqtt publishRun (by decide +kernel)

/-- The length field takes two bytes where the check reserved one, so the last
byte of the packet lands on the first received byte. -/
theorem mqtt_queue_overlaps :
    ¬∀ (mqtt : MqttState) (steps : List QueueStep) (last : QueueState),
      run queueStep (.reset mqtt) steps = some last → QueueSound last := by
  intro sound
  have ended : (run queueStep (.reset poweredMqtt) overlapRun).map (fun last =>
      (last.mqtt.currentHead.toNat, last.mqtt.receiveBufferLength.toNat)) = some (247, 10) := by
    decide +kernel
  obtain ⟨last, reached, view⟩ := Option.map_eq_some_iff.mp ended
  have disjoint := (sound poweredMqtt overlapRun last reached).disjoint
  rw [Prod.mk.injEq] at view
  rw [view.1, view.2] at disjoint
  exact absurd disjoint (by decide)

end Ethersex.Mqtt

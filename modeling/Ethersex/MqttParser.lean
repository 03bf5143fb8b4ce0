import Mathlib.Algebra.Group.Nat.Defs
import Ethersex.MqttSendBuffer

/-!
# Receiving MQTT packets

`mqtt_parse` cuts the received segments into packets and hands each one to
`mqtt_handle_packet`, either directly from the uIP buffer or, when it arrived in
pieces, from the back of the send buffer.  Callbacks are code outside of
`mqtt.c`; what they may do here is to construct packets, as a function of
everything that happened before.
-/

namespace Ethersex.Mqtt

open ByteMemory

/-- `mqtt_callback_config_t`: which callbacks a module registers, and the topic
its publish callback asks for. -/
structure CallbackConfig where
  topic : Option CString
  connackCallback : Bool
  closeCallback : Bool
  publishCallback : Bool

structure MqttEnv where
  config : ConnectionConfig
  callbacks : List CallbackConfig
  reaction : List MqttEvent → List PacketRequest
  staleBytes : Memory

/-- Run a callback: its packets are constructed in order, whether or not they
still fit. -/
def fireCallback (env : MqttEnv) (state : MqttState) (event : MqttEvent) : MqttState :=
  let state := state.emit event
  (env.reaction state.events).foldl (fun state request => (request.construct state).2) state

/-- The registered callbacks with their slot numbers. -/
def MqttEnv.slots (env : MqttEnv) : List (CallbackConfig × Nat) := env.callbacks.zipIdx

def mqttFireConnackCallback (env : MqttEnv) (state : MqttState) : MqttState :=
  env.slots.foldl (fun state (config, slot) =>
    if config.connackCallback then fireCallback env state (.connackCallback slot) else state)
    state

def mqttFireCloseCallback (env : MqttEnv) (state : MqttState) : MqttState :=
  env.slots.foldl (fun state (config, slot) =>
    if config.closeCallback then fireCallback env state (.closeCallback slot) else state)
    state

/-- `strstr_P(topic, modul_topic) == topic` -/
def topicMatches (data : Memory) (start : Nat) : Option CString → Bool
  | none => true
  | some topic => readBlock data start topic.bytes.length == topic.bytes

/-- The parts of a publish packet, as offsets from its data pointer. -/
structure PublishSlices where
  topicStart : Nat
  topicLength : UInt16
  payloadStart : Nat
  payloadLength : UInt16

def mqttFirePublishCallback (env : MqttEnv) (state : MqttState) (data : Memory)
    (slices : PublishSlices) (retained : Bool) : MqttState :=
  env.slots.foldl (fun state (config, slot) =>
    if config.publishCallback && topicMatches data slices.topicStart config.topic then
      fireCallback env state (.publishCallback slot
        (readBlock data slices.topicStart slices.topicLength.toNat)
        (readBlock data slices.payloadStart slices.payloadLength.toNat) retained)
    else
      state)
    state

def mqttAbortConnection (env : MqttEnv) (state : MqttState) : MqttState :=
  mqttFireCloseCallback env { state.emit .uipAbort with connection := false }

/-- A big-endian 16-bit number in a packet. -/
def readWord (data : Memory) (start : Nat) : UInt16 :=
  UInt16.ofNat ((data start).toNat * 256 + (data (start + 1)).toNat)

def handleConnack (env : MqttEnv) (state : MqttState) (data : Memory) (packet : Nat)
    (packetLength : UInt16) : MqttState :=
  if data 0 &&& 0xf0 ≠ mqttConnack then
    mqttAbortConnection env state
  else if packetLength < 2 then
    mqttAbortConnection env state
  else if data (packet + 1) ≠ 0 then
    mqttAbortConnection env state
  else
    let state := { state with stage := .connected }
    let state := env.config.autoSubscribeTopics.foldl
      (fun state topic => (mqttConstructSubscribePacket state topic).2) state
    mqttFireConnackCallback env state

/-- The size of the message id, if the packet has one. -/
def messageIdSize (qos : UInt8) : UInt16 := if qos ≠ 0 then 2 else 0

def publishSlices (packet : Nat) (topicLength packetLength : UInt16) (qos : UInt8) :
    PublishSlices where
  topicStart := packet + 2
  topicLength := topicLength
  payloadStart := packet + (2 + topicLength + messageIdSize qos).toNat
  payloadLength := packetLength - (2 + topicLength) - messageIdSize qos

/-- The message id of a publish packet; its offsets are numbers of 16 bits. -/
def publishMessageId (data : Memory) (packet : Nat) (topicLength : UInt16) : UInt16 :=
  UInt16.ofNat ((data (packet + (2 + topicLength).toNat)).toNat * 256 +
    (data (packet + (2 + topicLength + 1).toNat)).toNat)

/-- The acknowledgement of a received publish packet. -/
def acknowledgePublish (state : MqttState) (qos : UInt8) (messageId : UInt16) : MqttState :=
  if qos = 1 then (mqttConstructAckPacket state mqttPuback messageId).2
  else if qos = 2 then (mqttConstructAckPacket state mqttPubrec messageId).2
  else state

def handlePublish (env : MqttEnv) (state : MqttState) (data : Memory) (packet : Nat)
    (packetLength : UInt16) : MqttState :=
  let qos := (data 0 &&& 0x06) >>> 1
  let topicLength := readWord data packet
  if packetLength < 2 + messageIdSize qos then
    mqttAbortConnection env state
  else if packetLength < 2 + messageIdSize qos + topicLength then
    mqttAbortConnection env state
  else
    let slices := publishSlices packet topicLength packetLength qos
    let state := mqttFirePublishCallback env state data slices (data 0 &&& 0x01 ≠ 0)
    acknowledgePublish state qos (publishMessageId data packet topicLength)

/-- The answer to the packets of the second and third kind of delivery. -/
def handleReleased (env : MqttEnv) (state : MqttState) (data : Memory) (packet : Nat)
    (packetLength : UInt16) (answer : UInt8) : MqttState :=
  if packetLength < 2 then
    mqttAbortConnection env state
  else
    (mqttConstructAckPacket state answer (readWord data packet)).2

def handleConnected (env : MqttEnv) (state : MqttState) (data : Memory) (packet : Nat)
    (packetLength : UInt16) : MqttState :=
  let kind := data 0 &&& 0xf0
  if kind = mqttPublish then
    handlePublish env state data packet packetLength
  else if kind = mqttPubrec then
    handleReleased env state data packet packetLength mqttPubrel
  else if kind = mqttPubrel then
    handleReleased env state data packet packetLength mqttPubcomp
  else if kind = mqttPingreq then
    (mqttConstructZerolengthPacket state mqttPingresp).2
  else if kind = mqttPingresp then
    { state with pingOutstanding := false }
  else
    state

/-- The record of a call holds the bytes of the packet that lie inside the array
the data pointer points into; `available` of them follow the pointer. -/
def recordedCall (data : Memory) (available : Nat) (llen : UInt8) (packetLength : UInt16) :
    HandleCall :=
  ⟨readBlock data 0 (min (llen.toNat + 1 + packetLength.toNat) available), llen, packetLength⟩

def beginPacket (state : MqttState) (call : HandleCall) : MqttState :=
  { state.emit (.handlePacket call) with lastInActivity := state.timerCounter }

def mqttHandlePacket (env : MqttEnv) (state : MqttState) (data : Memory) (available : Nat)
    (llen : UInt8) (packetLength : UInt16) : MqttState :=
  let state := beginPacket state (recordedCall data available llen packetLength)
  match state.stage with
  | .connect => handleConnack env state data (llen.toNat + 1) packetLength
  | .connected => handleConnected env state data (llen.toNat + 1) packetLength
  | _ => state

/-- The loop from digit `i` on, for at most `fuel` further digits. -/
def parseDigits (buffer : Memory) (maxRead : Nat) : Nat → Nat → Nat → Option (UInt8 × UInt16)
  | 0, _, _ => none
  | fuel + 1, i, l =>
      if i < maxRead then
        let byte := (buffer i).toNat
        let l := (l + byte % 128 * 2 ^ (i * 7)) % 65536
        if byte < 128 then
          some (UInt8.ofNat (i + 1), UInt16.ofNat l)
        else
          parseDigits buffer maxRead fuel (i + 1) l
      else
        some (0, 0)

/-- The number of bytes read, zero when the field is not complete, and the
length.  The loop counter has 8 bits: when 256 digits in a row are continued and
more may be read, the counter starts again and the loop does not end. -/
def mqttParseLengthField (buffer : Memory) (maxRead : Nat) : Option (UInt8 × UInt16) :=
  parseDigits buffer maxRead 256 0 0

/-- The segment in the uIP buffer, read from `bytesRead` on. -/
def appdata (env : MqttEnv) (segment : List UInt8) (bytesRead : Nat) : Memory := fun index =>
  if bytesRead + index < segment.length then segment.getD (bytesRead + index) 0
  else env.staleBytes (bytesRead + index)

/-- How the loop of `mqtt_parse` goes on. -/
inductive ParseStep where
  | continue (state : MqttState) (bytesRead : Nat)
  | done (state : MqttState)

/-- Store received data and go on, or abort when there is no room. -/
def bufferFragment (env : MqttEnv) (state : MqttState) (segment : List UInt8) (bytesRead : Nat)
    (length : UInt16) : Option (Bool × MqttState) :=
  (mqttWriteToReceiveBuffer state (appdata env segment bytesRead) length).map
    fun (stored, state) => (stored, if stored then state else mqttAbortConnection env state)

/-- Store the rest of the segment. -/
def bufferRest (env : MqttEnv) (state : MqttState) (segment : List UInt8) (bytesRead : Nat) :
    Option ParseStep :=
  let remaining := segment.length - bytesRead
  (bufferFragment env state segment bytesRead (UInt16.ofNat remaining)).map
    fun (stored, state) =>
      if stored then .continue state (bytesRead + remaining) else .done state

/-- No data of an earlier segment is waiting. -/
def parseFresh (env : MqttEnv) (state : MqttState) (segment : List UInt8) (bytesRead : Nat) :
    Option ParseStep :=
  let remaining := segment.length - bytesRead
  (mqttParseLengthField (appdata env segment (bytesRead + 1)) (remaining - 1)).bind
    fun (llen, packetLength) =>
      let size := (packetLength.toNat + llen.toNat + 1) % 65536
      if llen = 0 then
        bufferRest env state segment bytesRead
      else if size ≤ remaining then
        let state := mqttHandlePacket env state (appdata env segment bytesRead) remaining llen
          packetLength
        some (.continue state (bytesRead + size))
      else
        bufferRest env { state with receivePacketLength := packetLength } segment bytesRead

/-- The received data, at the back of the send buffer. -/
def receivedData (state : MqttState) : Memory := fun index =>
  state.sendBuffer (sendbufferLength - state.receiveBufferLength.toNat + index)

/-- The length of the waiting packet is known. -/
def parseKnown (env : MqttEnv) (state : MqttState) (segment : List UInt8) (bytesRead : Nat) :
    Option ParseStep :=
  let remaining := segment.length - bytesRead
  if state.receivePacketLength.toNat ≤
      (state.receiveBufferLength.toNat + remaining) % 65536 then
    let fragment := state.receivePacketLength - state.receiveBufferLength.toUInt16
    (bufferFragment env state segment bytesRead fragment).map fun (stored, state) =>
      if stored then
        let state := mqttHandlePacket env state (receivedData state)
          state.receiveBufferLength.toNat
          (UInt8.ofNat (mqttLfLength state.receivePacketLength).toNat)
          state.receivePacketLength
        .continue state ((bytesRead + fragment.toNat) % 65536)
      else
        .done state
  else
    bufferRest env state segment bytesRead

/-- The length of the waiting packet is not known: take one more byte. -/
def parseUnknown (env : MqttEnv) (state : MqttState) (segment : List UInt8) (bytesRead : Nat) :
    Option ParseStep :=
  (bufferFragment env state segment bytesRead 1).bind fun (stored, state) =>
    if stored then
      (mqttParseLengthField (fun index => receivedData state (index + 1))
        ((state.receiveBufferLength.toNat + 65535) % 65536)).map fun (llen, packetLength) =>
          let state :=
            if llen ≠ 0 then { state with receivePacketLength := packetLength } else state
          .continue state (bytesRead + 1)
    else
      some (.done state)

def parseStep (env : MqttEnv) (state : MqttState) (segment : List UInt8) (bytesRead : Nat) :
    Option ParseStep :=
  if state.receiveBufferLength = 0 then
    parseFresh env state segment bytesRead
  else if state.receivePacketLength ≠ 0 then
    parseKnown env state segment bytesRead
  else
    parseUnknown env state segment bytesRead

/-- The loop of `mqtt_parse`; without fuel there is no result. -/
def parseLoop (env : MqttEnv) (segment : List UInt8) : Nat → MqttState → Nat → Option MqttState
  | 0, _, _ => none
  | fuel + 1, state, bytesRead =>
      if bytesRead < segment.length then
        (parseStep env state segment bytesRead).bind fun
          | .continue state bytesRead => parseLoop env segment fuel state bytesRead
          | .done state => some state
      else
        some state

def mqttParse (env : MqttEnv) (fuel : Nat) (state : MqttState) (segment : List UInt8) :
    Option MqttState :=
  parseLoop env segment fuel state 0

/-- Hand segments to `mqtt_parse` one after the other. -/
def deliver (env : MqttEnv) (fuel : Nat) : MqttState → List (List UInt8) → Option MqttState
  | state, [] => some state
  | state, segment :: segments =>
      (mqttParse env fuel state segment).bind fun state => deliver env fuel state segments

end Ethersex.Mqtt

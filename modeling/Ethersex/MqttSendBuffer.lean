import Ethersex.ByteMemory

/-!
# The send buffer of the MQTT client

`protocols/mqtt/mqtt.c` keeps one array of 256 bytes.  Its front holds the data
waiting to be sent or acknowledged, its back the fragments of an incomplete
received packet.  All positions in it are 8-bit counters; the sizes that the
construct functions compare with the free space are 16-bit numbers.  Offsets
from `sendbufferLength` on are the bytes behind the array.
-/

namespace Ethersex.Mqtt

open ByteMemory

def sendbufferLength : Nat := 256
def keepalive : UInt16 := 60
def protocolVersion : UInt8 := 3

def mqttConnect : UInt8 := 0x10
def mqttConnack : UInt8 := 0x20
def mqttPublish : UInt8 := 0x30
def mqttPuback : UInt8 := 0x40
def mqttPubrec : UInt8 := 0x50
def mqttPubrel : UInt8 := 0x60
def mqttPubcomp : UInt8 := 0x70
def mqttSubscribe : UInt8 := 0x80
def mqttUnsubscribe : UInt8 := 0xa0
def mqttPingreq : UInt8 := 0xc0
def mqttPingresp : UInt8 := 0xd0
def mqttQos1 : UInt8 := 0x02

def hi8 (value : UInt16) : UInt8 := UInt8.ofNat (value.toNat / 256)
def lo8 (value : UInt16) : UInt8 := UInt8.ofNat value.toNat

/-- A C string: no byte of it is zero, and it fits into the address space. -/
structure CString where
  bytes : List UInt8
  noNul : 0 ∉ bytes
  short : bytes.length < 65536
deriving DecidableEq, Repr

def CString.strlen (text : CString) : UInt16 := UInt16.ofNat text.bytes.length

/-- A buffer with a 16-bit length. -/
structure Block where
  bytes : List UInt8
  short : bytes.length < 65536
deriving DecidableEq, Repr

def Block.length (block : Block) : UInt16 := UInt16.ofNat block.bytes.length

/-- `mqtt_connection_config_t` -/
structure ConnectionConfig where
  clientId : CString
  user : Option CString
  pass : Option CString
  willTopic : Option CString
  willQos : UInt8
  willRetain : Bool
  willMessage : Block
  autoSubscribeTopics : List CString
deriving DecidableEq, Repr

inductive Stage where
  | disconnected
  | connect
  | connected
  | subscribed
deriving DecidableEq, Repr

/-- A call of `mqtt_handle_packet`: the bytes of the packet that its data
pointer gives access to, and the two lengths it is told. -/
structure HandleCall where
  bytes : List UInt8
  llen : UInt8
  packetLength : UInt16
deriving DecidableEq, Repr

/-- What the client does to its environment, in order. -/
inductive MqttEvent where
  | uipSend (bytes : List UInt8)
  | uipAbort
  | handlePacket (call : HandleCall)
  | connackCallback (slot : Nat)
  | closeCallback (slot : Nat)
  | publishCallback (slot : Nat) (topic payload : List UInt8) (retained : Bool)
deriving DecidableEq, Repr

/-- The static variables of `mqtt.c`; `connection` says whether `mqtt_uip_conn`
is set. -/
structure MqttState where
  sendBuffer : Memory
  lastLength : UInt8
  currentHead : UInt8
  receiveBufferLength : UInt8
  receivePacketLength : UInt16
  nextMsgId : UInt16
  pingOutstanding : Bool
  timerCounter : UInt16
  lastInActivity : UInt16
  lastOutActivity : UInt16
  stage : Stage
  connection : Bool
  events : List MqttEvent

def MqttState.emit (state : MqttState) (event : MqttEvent) : MqttState :=
  { state with events := state.events ++ [event] }

/-- The length that `MQTT_LF_LENGTH` reserves for a length field. -/
def mqttLfLength (length : UInt16) : UInt16 :=
  if length.toNat < 256 then 1 else if length.toNat < 32768 then 2 else 3

def mqttResetState (state : MqttState) : MqttState :=
  { state with
    lastLength := 0
    currentHead := 0
    receiveBufferLength := 0
    receivePacketLength := 0
    nextMsgId := 0
    pingOutstanding := false
    lastInActivity := state.timerCounter
    lastOutActivity := state.timerCounter
    stage := .disconnected }

def makeNewMessageId (state : MqttState) : MqttState :=
  { state with nextMsgId := if state.nextMsgId + 1 = 0 then 1 else state.nextMsgId + 1 }

/-- `mqtt_send_buffer[mqtt_send_buffer_current_head++] = byte` -/
def writeByte (state : MqttState) (byte : UInt8) : MqttState :=
  { state with
    sendBuffer := Function.update state.sendBuffer state.currentHead.toNat byte
    currentHead := state.currentHead + 1 }

def mqttBufferWriteData (state : MqttState) (data : List UInt8) : MqttState :=
  { state with
    sendBuffer := writeBlock state.sendBuffer state.currentHead.toNat data
    currentHead := state.currentHead + UInt8.ofNat data.length }

/-- The characters are copied first, then the length is put in front. -/
def mqttBufferWriteString (state : MqttState) (text : CString) : MqttState :=
  let head := state.currentHead.toNat
  let buffer := writeBlock state.sendBuffer (head + 2) text.bytes
  let buffer := Function.update buffer head (hi8 text.strlen)
  let buffer := Function.update buffer (head + 1) (lo8 text.strlen)
  { state with
    sendBuffer := buffer
    currentHead := state.currentHead + UInt8.ofNat (2 + text.bytes.length) }

/-- The digits of a variable length field, seven bits each. -/
def lengthDigits : Nat → Nat → List UInt8
  | 0, length => [UInt8.ofNat (length % 128)]
  | fuel + 1, length =>
      if 0 < length / 128 then
        UInt8.ofNat (length % 128 + 128) :: lengthDigits fuel (length / 128)
      else
        [UInt8.ofNat (length % 128)]

/-- What `mqtt_buffer_write_length_field` stores: at most three digits for a
16-bit length. -/
def lengthField (length : UInt16) : List UInt8 := lengthDigits 2 length.toNat

def mqttBufferWriteLengthField (state : MqttState) (length : UInt16) : MqttState :=
  mqttBufferWriteData state (lengthField length)

def mqttBufferFree (state : MqttState) (length : UInt16) : Bool :=
  decide ((state.currentHead.toNat + length.toNat + state.receiveBufferLength.toNat) % 65536 ≤
    sendbufferLength)

/-- `MIN(mqtt_send_buffer_current_head, uip_mss())` -/
def flushLength (state : MqttState) (mss : UInt16) : UInt8 :=
  if state.currentHead.toNat ≤ mss.toNat then state.currentHead else UInt8.ofNat mss.toNat

def mqttFlushBuffer (state : MqttState) (mss : UInt16) : MqttState :=
  if state.lastLength = 0 ∧ 0 < state.currentHead then
    let length := flushLength state mss
    let state := state.emit (.uipSend (readBlock state.sendBuffer 0 length.toNat))
    { state with lastLength := length, lastOutActivity := state.timerCounter }
  else
    state

def mqttRetransmit (state : MqttState) : MqttState :=
  if 0 < state.lastLength then
    state.emit (.uipSend (readBlock state.sendBuffer 0 state.lastLength.toNat))
  else
    state

def mqttReceivedAck (state : MqttState) : MqttState :=
  if 0 < state.lastLength then
    let rest := (state.currentHead.toNat + 65536 - state.lastLength.toNat) % 65536
    { state with
      sendBuffer := writeBlock state.sendBuffer 0
        (readBlock state.sendBuffer state.lastLength.toNat rest)
      currentHead := state.currentHead - state.lastLength
      lastLength := 0 }
  else
    state

/-- Append a fragment to the received data.  The data is followed by stale
bytes.  There is no result when the copy would begin in front of the array. -/
def mqttWriteToReceiveBuffer (state : MqttState) (data : Memory) (length : UInt16) :
    Option (Bool × MqttState) :=
  if mqttBufferFree state length then
    let received := state.receiveBufferLength.toNat
    if received + length.toNat ≤ sendbufferLength then
      let buffer := writeBlock state.sendBuffer (sendbufferLength - received - length.toNat)
        (readBlock state.sendBuffer (sendbufferLength - received) received)
      let buffer := writeBlock buffer (sendbufferLength - length.toNat)
        (readBlock data 0 length.toNat)
      some (true, { state with
        sendBuffer := buffer
        receiveBufferLength := state.receiveBufferLength + UInt8.ofNat length.toNat })
    else
      none
  else
    some (false, state)

/-- The unit that a construct function writes in one go. -/
inductive Piece where
  | byte (value : UInt8)
  | lengthField (length : UInt16)
  | data (bytes : List UInt8)
  | string (text : CString)

def writePiece (state : MqttState) : Piece → MqttState
  | .byte value => writeByte state value
  | .lengthField length => mqttBufferWriteLengthField state length
  | .data bytes => mqttBufferWriteData state bytes
  | .string text => mqttBufferWriteString state text

def Piece.bytes : Piece → List UInt8
  | .byte value => [value]
  | .lengthField length => Mqtt.lengthField length
  | .data bytes => bytes
  | .string text => hi8 text.strlen :: lo8 text.strlen :: text.bytes

/-- The common shape of the construct functions: compare the estimated size
with the free space, then write the pieces. -/
def constructPacket (state : MqttState) (estimate : UInt16) (pieces : List Piece) :
    Bool × MqttState :=
  if mqttBufferFree state estimate then
    (true, pieces.foldl writePiece state)
  else
    (false, state)

/-- The estimate for a packet with a variable length field. -/
def estimatedSize (length : UInt16) : UInt16 := length + mqttLfLength length + 1

def messageIdPieces (messageId : UInt16) : List Piece :=
  [.byte (hi8 messageId), .byte (lo8 messageId)]

/-- A packet that carries a fresh message id. -/
def constructNumberedPacket (state : MqttState) (estimate : UInt16) (pieces : List Piece) :
    Bool × MqttState :=
  let (success, state) := constructPacket state estimate pieces
  (success, if success then makeNewMessageId state else state)

def connectLength (config : ConnectionConfig) : UInt16 :=
  9 + 1 + config.clientId.strlen + 2 + 2 +
    (match config.willTopic with
      | some topic => topic.strlen + config.willMessage.length + 4
      | none => 0) +
    (match config.user with
      | some user => user.strlen + 2
      | none => 0) +
    (match config.pass with
      | some pass => pass.strlen + 2
      | none => 0)

def willFlags (config : ConnectionConfig) : UInt8 :=
  if config.willTopic.isSome then
    let retainFlag : UInt8 := if config.willRetain then 1 else 0
    (0x06 : UInt8) ||| config.willQos <<< (3 : UInt8) ||| retainFlag <<< (5 : UInt8)
  else
    0x02

def connectFlags (config : ConnectionConfig) : UInt8 :=
  if config.user.isSome then
    willFlags config ||| 0x80 ||| (if config.pass.isSome then 0x40 else 0)
  else
    willFlags config

/-- `"MQIsdp"` with its length, and the version. -/
def protocolString : List UInt8 :=
  [0x00, 0x06, 77, 81, 73, 115, 100, 112, protocolVersion]

def willPieces (config : ConnectionConfig) : List Piece :=
  match config.willTopic with
  | some topic =>
      [.string topic, .byte (hi8 config.willMessage.length),
        .byte (lo8 config.willMessage.length), .data config.willMessage.bytes]
  | none => []

/-- The password is written behind a user name only, although the length counts
it in any case. -/
def credentialPieces (config : ConnectionConfig) : List Piece :=
  match config.user with
  | some user => .string user :: (config.pass.toList.map Piece.string)
  | none => []

def connectPieces (config : ConnectionConfig) : List Piece :=
  [.byte mqttConnect, .lengthField (connectLength config)] ++
    protocolString.map Piece.byte ++
    [.byte (connectFlags config), .byte (hi8 keepalive), .byte (lo8 keepalive),
      .string config.clientId] ++
    willPieces config ++ credentialPieces config

def mqttConstructConnectPacket (state : MqttState) (config : ConnectionConfig) :
    Bool × MqttState :=
  constructPacket state (estimatedSize (connectLength config)) (connectPieces config)

/-- The quality of service is fixed to zero, so there is no message id. -/
def publishPieces (length : UInt16) (topic : CString) (payload : Block) (retain : Bool) :
    List Piece :=
  [.byte (mqttPublish ||| (if retain then 1 else 0)), .lengthField length, .string topic,
    .data payload.bytes]

def publishLength (topic : CString) (payload : Block) : UInt16 :=
  topic.strlen + 2 + payload.length

def mqttConstructPublishPacket (state : MqttState) (topic : CString) (payload : Block)
    (retain : Bool) : Bool × MqttState :=
  let length := publishLength topic payload
  constructPacket state (estimatedSize length) (publishPieces length topic payload retain)

/-- The topic is in program memory; everything else is as above. -/
def mqttConstructPublishPacketP (state : MqttState) (topic : CString) (payload : Block)
    (retain : Bool) : Bool × MqttState :=
  let length := publishLength topic payload
  constructPacket state (estimatedSize length) (publishPieces length topic payload retain)

def subscribeLength (topic : CString) : UInt16 := 2 + (topic.strlen + 2) + 1

def subscribePieces (messageId length : UInt16) (topic : CString) : List Piece :=
  [.byte (mqttSubscribe ||| mqttQos1), .lengthField length] ++ messageIdPieces messageId ++
    [.string topic, .byte 0]

def mqttConstructSubscribePacket (state : MqttState) (topic : CString) : Bool × MqttState :=
  let length := subscribeLength topic
  constructNumberedPacket state (estimatedSize length)
    (subscribePieces state.nextMsgId length topic)

def mqttConstructSubscribePacketP (state : MqttState) (topic : CString) : Bool × MqttState :=
  let length := subscribeLength topic
  constructNumberedPacket state (estimatedSize length)
    (subscribePieces state.nextMsgId length topic)

def unsubscribeLength (topic : CString) : UInt16 := 2 + (topic.strlen + 2)

def unsubscribePieces (messageId length : UInt16) (topic : CString) : List Piece :=
  [.byte (mqttUnsubscribe ||| mqttQos1), .lengthField length] ++ messageIdPieces messageId ++
    [.string topic]

def mqttConstructUnsubscribePacket (state : MqttState) (topic : CString) : Bool × MqttState :=
  let length := unsubscribeLength topic
  constructNumberedPacket state (estimatedSize length)
    (unsubscribePieces state.nextMsgId length topic)

def mqttConstructUnsubscribePacketP (state : MqttState) (topic : CString) : Bool × MqttState :=
  let length := unsubscribeLength topic
  constructNumberedPacket state (estimatedSize length)
    (unsubscribePieces state.nextMsgId length topic)

def zerolengthPieces (messageType : UInt8) : List Piece := [.byte messageType, .byte 0]

def mqttConstructZerolengthPacket (state : MqttState) (messageType : UInt8) :
    Bool × MqttState :=
  constructPacket state 2 (zerolengthPieces messageType)

def ackPieces (messageType : UInt8) (messageId : UInt16) : List Piece :=
  [.byte (if messageType = mqttPubrel then messageType ||| mqttQos1 else messageType),
    .byte 2] ++ messageIdPieces messageId

def mqttConstructAckPacket (state : MqttState) (messageType : UInt8) (messageId : UInt16) :
    Bool × MqttState :=
  constructPacket state 4 (ackPieces messageType messageId)

/-- The calls of the construct functions. -/
inductive PacketRequest where
  | connect (config : ConnectionConfig)
  | publish (topic : CString) (payload : Block) (retain : Bool)
  | publishP (topic : CString) (payload : Block) (retain : Bool)
  | subscribe (topic : CString)
  | subscribeP (topic : CString)
  | unsubscribe (topic : CString)
  | unsubscribeP (topic : CString)
  | zerolength (messageType : UInt8)
  | ack (messageType : UInt8) (messageId : UInt16)
deriving DecidableEq, Repr

def PacketRequest.construct (state : MqttState) : PacketRequest → Bool × MqttState
  | .connect config => mqttConstructConnectPacket state config
  | .publish topic payload retain => mqttConstructPublishPacket state topic payload retain
  | .publishP topic payload retain => mqttConstructPublishPacketP state topic payload retain
  | .subscribe topic => mqttConstructSubscribePacket state topic
  | .subscribeP topic => mqttConstructSubscribePacketP state topic
  | .unsubscribe topic => mqttConstructUnsubscribePacket state topic
  | .unsubscribeP topic => mqttConstructUnsubscribePacketP state topic
  | .zerolength messageType => mqttConstructZerolengthPacket state messageType
  | .ack messageType messageId => mqttConstructAckPacket state messageType messageId

end Ethersex.Mqtt

import Ethersex.MqttAbort
import Ethersex.MqttSegmentation

/-!
# From one MQTT client to another

What `mqtt_construct_publish_packet` puts into an empty send buffer is a packet
that `mqtt_parse` takes as a whole and whose topic, payload and retain flag it
hands to the publish callbacks.
-/

namespace Ethersex.Mqtt

open ByteMemory

section Sending

variable {sender : MqttState} {topic : CString} {payload : Block} {retain : Bool}

/-- The encoding of a publish packet does not depend on the message counter. -/
def publishEncoded (topic : CString) (payload : Block) (retain : Bool) : List UInt8 :=
  (publishPieces (publishLength topic payload) topic payload retain).flatMap Piece.bytes

def publishHeader (retain : Bool) : UInt8 := mqttPublish ||| (if retain then 1 else 0)

theorem publishEncoded_eq (topic : CString) (payload : Block) (retain : Bool) :
    publishEncoded topic payload retain =
      publishHeader retain :: (lengthField (publishLength topic payload) ++
        (hi8 topic.strlen :: lo8 topic.strlen :: (topic.bytes ++ payload.bytes))) := by
  simp [publishEncoded, publishPieces, Piece.bytes, publishHeader]

theorem length_publishEncoded (topic : CString) (payload : Block) (retain : Bool) :
    (publishEncoded topic payload retain).length =
      1 + (lengthField (publishLength topic payload)).length + 2 + topic.bytes.length +
        payload.bytes.length := by
  rw [publishEncoded_eq, List.length_cons, List.length_append, List.length_cons,
    List.length_cons, List.length_append]
  omega

theorem toNat_publishLength (topic : CString) (payload : Block) (retain : Bool)
    (fits : (publishEncoded topic payload retain).length ≤ 255) :
    (publishLength topic payload).toNat = topic.bytes.length + 2 + payload.bytes.length := by
  rw [length_publishEncoded] at fits
  have two : (2 : UInt16).toNat = 2 := rfl
  rw [publishLength, CString.strlen, Block.length, UInt16.toNat_add, UInt16.toNat_add,
    UInt16.toNat_ofNat', UInt16.toNat_ofNat', two]
  omega

/-- The free-space check reserves one byte for the length field, which is never
more than the field takes. -/
theorem mqttBufferFree_publish (empty : sender.currentHead = 0)
    (fits : (publishEncoded topic payload retain).length + sender.receiveBufferLength.toNat ≤
      255) :
    mqttBufferFree sender (estimatedSize (publishLength topic payload)) = true := by
  have lengthEq := toNat_publishLength topic payload retain (by omega)
  have positive : 0 < (lengthField (publishLength topic payload)).length :=
    length_lengthDigits_pos 2 _
  rw [length_publishEncoded] at fits
  have estimateEq : (estimatedSize (publishLength topic payload)).toNat =
      topic.bytes.length + 2 + payload.bytes.length + 2 := by
    rw [estimatedSize, mqttLfLength, if_pos (by omega), UInt16.toNat_add, UInt16.toNat_add,
      lengthEq, UInt16.toNat_one]
    omega
  rw [mqttBufferFree, decide_eq_true_eq, estimateEq, empty, UInt8.toNat_zero, sendbufferLength]
  omega

/-- The packet is accepted, and it is all that the buffer holds in front of the
head. -/
theorem mqttConstructPublishPacket_empty (empty : sender.currentHead = 0)
    (fits : (publishEncoded topic payload retain).length + sender.receiveBufferLength.toNat ≤
      255) :
    ∃ after, mqttConstructPublishPacket sender topic payload retain = (true, after) ∧
      readBlock after.sendBuffer 0 after.currentHead.toNat =
        publishEncoded topic payload retain := by
  have short : sender.currentHead.toNat + (publishEncoded topic payload retain).length < 256 := by
    rw [empty, UInt8.toNat_zero]
    omega
  refine ⟨mqttBufferWriteData sender (publishEncoded topic payload retain), ?_, ?_⟩
  · rw [mqttConstructPublishPacket, constructPacket, if_pos (mqttBufferFree_publish empty fits)]
    exact congrArg _ (foldl_writePiece short)
  · have headEq : (mqttBufferWriteData sender
        (publishEncoded topic payload retain)).currentHead.toNat =
          (publishEncoded topic payload retain).length := by
      rw [mqttBufferWriteData, UInt8.toNat_add, UInt8.toNat_ofNat', empty, UInt8.toNat_zero]
      omega
    rw [headEq, mqttBufferWriteData, empty, UInt8.toNat_zero]
    exact readBlock_writeBlock_same ..

end Sending

/-- The modules whose publish callback is called for a topic at `start`. -/
def askedSlots (env : MqttEnv) (data : Memory) (start : Nat) : List Nat :=
  (env.slots.filter fun (config, _) =>
    config.publishCallback && topicMatches data start config.topic).map Prod.snd

/-- A module with a publish callback that wants every topic or those with a
certain beginning. -/
def CallbackConfig.AsksFor (config : CallbackConfig) (topic : CString) : Prop :=
  config.publishCallback = true ∧ ∀ wanted ∈ config.topic, wanted.bytes <+: topic.bytes

section Receiving

variable {env : MqttEnv} {state : MqttState} {data : Memory}

theorem emits_publishCallbacks (env : MqttEnv) (state : MqttState) (data : Memory)
    (slices : PublishSlices) (retained : Bool) :
    Emits state (mqttFirePublishCallback env state data slices retained)
      ((askedSlots env data slices.topicStart).map fun slot =>
        .publishCallback slot (readBlock data slices.topicStart slices.topicLength.toNat)
          (readBlock data slices.payloadStart slices.payloadLength.toNat) retained) := by
  have oneEach : ∀ (asked : CallbackConfig × Nat → Bool) (event : Nat → MqttEvent)
      (entries : List (CallbackConfig × Nat)),
      (entries.flatMap fun entry => if asked entry then [event entry.2] else []) =
        ((entries.filter asked).map Prod.snd).map event := by
    intro asked event entries
    induction entries with
    | nil => rfl
    | cons entry entries ih =>
        rw [List.flatMap_cons, List.filter_cons, ih]
        split <;> rfl
  rw [askedSlots, ← oneEach]
  exact emits_slots env state

theorem nodup_askedSlots (env : MqttEnv) (data : Memory) (start : Nat) :
    (askedSlots env data start).Nodup := by
  have numbered : (env.slots.map Prod.snd).Nodup := by
    rw [MqttEnv.slots, List.zipIdx_map_snd]
    exact List.nodup_range'
  exact numbered.sublist (List.filter_sublist.map Prod.snd)

theorem mem_askedSlots {start slot : Nat} :
    slot ∈ askedSlots env data start ↔ ∃ config, env.callbacks[slot]? = some config ∧
      (config.publishCallback && topicMatches data start config.topic) = true := by
  rw [askedSlots, List.mem_map]
  constructor
  · rintro ⟨⟨config, _⟩, member, rfl⟩
    rw [List.mem_filter, MqttEnv.slots, List.mk_mem_zipIdx_iff_getElem?] at member
    exact ⟨config, member⟩
  · rintro ⟨config, member⟩
    refine ⟨(config, slot), ?_, rfl⟩
    rw [List.mem_filter, MqttEnv.slots, List.mk_mem_zipIdx_iff_getElem?]
    exact member

/-- A packet whose beginning is the topic also has every beginning of it. -/
theorem CallbackConfig.AsksFor.topicMatches {config : CallbackConfig} {topic : CString}
    (asks : config.AsksFor topic) {start : Nat}
    (stored : readBlock data start topic.bytes.length = topic.bytes) :
    (config.publishCallback && topicMatches data start config.topic) = true := by
  obtain ⟨registered, beginnings⟩ := asks
  rw [registered, Bool.true_and]
  cases wantedEq : config.topic with
  | none => rfl
  | some wanted =>
      have beginning := beginnings wanted wantedEq
      have taken := List.prefix_iff_eq_take.mp beginning
      rw [Mqtt.topicMatches, beq_iff_eq, ← take_readBlock beginning.length_le, stored, ← taken]

/-- A word written by `HI8` and `LO8` is read back. -/
theorem readWord_strlen (topic : CString) {packet : Nat} (high : data packet = hi8 topic.strlen)
    (low : data (packet + 1) = lo8 topic.strlen) : readWord data packet = topic.strlen := by
  have bound := topic.strlen.toNat_lt
  apply UInt16.toNat_inj.mp
  rw [readWord, high, low, hi8, lo8, UInt16.toNat_ofNat', UInt8.toNat_ofNat', UInt8.toNat_ofNat']
  omega

theorem publishHeader_flags (retain : Bool) :
    publishHeader retain &&& 0xf0 = mqttPublish ∧ (publishHeader retain &&& 0x06) >>> 1 = 0 ∧
      decide (publishHeader retain &&& 0x01 ≠ 0) = retain := by
  cases retain <;> decide

variable {topic : CString} {payload : Block} {retain : Bool} {packet : Nat}

/-- The slices of a packet without message id are its topic and its payload. -/
theorem emits_handleConnected_publish (fits : (publishEncoded topic payload retain).length ≤ 255)
    (header : data 0 = publishHeader retain)
    (content : readBlock data packet (2 + (topic.bytes.length + payload.bytes.length)) =
      hi8 topic.strlen :: lo8 topic.strlen :: (topic.bytes ++ payload.bytes)) :
    Emits state (handleConnected env state data packet (publishLength topic payload))
      ((askedSlots env data (packet + 2)).map fun slot =>
        .publishCallback slot topic.bytes payload.bytes retain) := by
  obtain ⟨kind, noQos, retained⟩ := publishHeader_flags retain
  have lengthEq := toNat_publishLength topic payload retain fits
  rw [length_publishEncoded] at fits
  have strlenEq : topic.strlen.toNat = topic.bytes.length := by
    rw [CString.strlen, UInt16.toNat_ofNat', Nat.mod_eq_of_lt topic.short]
  rw [Nat.add_comm 2, readBlock_succ, readBlock_succ, List.cons.injEq, List.cons.injEq] at content
  obtain ⟨high, low, texts⟩ := content
  rw [← List.length_append, readBlock_append_iff] at texts
  obtain ⟨topicStored, payloadStored⟩ := texts
  have noIdSize : messageIdSize 0 = 0 := rfl
  have sizeEq : (2 + topic.strlen : UInt16).toNat = 2 + topic.bytes.length := by
    have two : (2 : UInt16).toNat = 2 := rfl
    rw [UInt16.toNat_add, strlenEq, two]
    omega
  have longEnough : ¬publishLength topic payload < 2 := by
    have two : (2 : UInt16).toNat = 2 := rfl
    rw [UInt16.lt_iff_toNat_lt, lengthEq, two]
    omega
  have roomForTopic : ¬publishLength topic payload < 2 + topic.strlen := by
    rw [UInt16.lt_iff_toNat_lt, lengthEq, sizeEq]
    omega
  have payloadLength : (publishLength topic payload - (2 + topic.strlen)).toNat =
      payload.bytes.length := by
    have le : (2 + topic.strlen) ≤ publishLength topic payload := by
      rw [UInt16.le_iff_toNat_le, lengthEq, sizeEq]
      omega
    rw [UInt16.toNat_sub_of_le _ _ le, lengthEq, sizeEq]
    omega
  have slicesEq : publishSlices packet topic.strlen (publishLength topic payload) 0 =
      ⟨packet + 2, topic.strlen, packet + 2 + topic.bytes.length,
        publishLength topic payload - (2 + topic.strlen)⟩ := by
    rw [publishSlices, noIdSize, UInt16.add_zero, UInt16.sub_zero, sizeEq, ← Nat.add_assoc]
  have emitted := emits_publishCallbacks env state data
    ⟨packet + 2, topic.strlen, packet + 2 + topic.bytes.length,
      publishLength topic payload - (2 + topic.strlen)⟩ retain
  dsimp only at emitted
  rw [payloadLength, strlenEq, topicStored, payloadStored] at emitted
  rw [handleConnected, header, kind, if_pos rfl, handlePublish, header, noQos,
    readWord_strlen topic high low, noIdSize, UInt16.add_zero]
  dsimp only
  rw [if_neg longEnough, if_neg roomForTopic, retained, slicesEq]
  exact emitted

/-- The packet as the parser sees it. -/
def publishPacket (topic : CString) (payload : Block) (retain : Bool)
    (fits : (publishEncoded topic payload retain).length ≤ 255) : MqttPacket where
  header := publishHeader retain
  content :=
    { bytes := hi8 topic.strlen :: lo8 topic.strlen :: (topic.bytes ++ payload.bytes)
      short := by
        rw [length_publishEncoded] at fits
        rw [List.length_cons, List.length_cons, List.length_append]
        omega }

theorem length_publishPacket (fits : (publishEncoded topic payload retain).length ≤ 255) :
    (publishPacket topic payload retain fits).content.length = publishLength topic payload := by
  apply UInt16.toNat_inj.mp
  rw [MqttPacket.toNat_length, toNat_publishLength topic payload retain fits, publishPacket,
    List.length_cons, List.length_cons, List.length_append]
  omega

theorem bytes_publishPacket (fits : (publishEncoded topic payload retain).length ≤ 255) :
    (publishPacket topic payload retain fits).bytes = publishEncoded topic payload retain := by
  rw [publishEncoded_eq, MqttPacket.bytes, MqttPacket.lengthBytes, length_publishPacket fits]
  rfl

end Receiving

/-- `mqtt_parse` returns with nothing left in the receive buffer, its only
iteration takes the whole segment, and each publish callback that is called gets
the topic, the payload and the flag. -/
structure Arrives (env : MqttEnv) (receiver : MqttState) (segment : List UInt8)
    (topic : CString) (payload : Block) (retain : Bool) (last : MqttState) (slots : List Nat) :
    Prop where
  parsed : ∀ fuel, mqttParse env (fuel + 2) receiver segment = some last
  consumed : parseStep env receiver segment 0 = some (.continue last segment.length)
  idle : last.receiveBufferLength = 0
  called : ∃ call, last.events = receiver.events ++ .handlePacket call ::
    slots.map fun slot => .publishCallback slot topic.bytes payload.bytes retain
  once : slots.Nodup
  registered : ∀ slot ∈ slots, ∃ config, env.callbacks[slot]? = some config ∧
    config.publishCallback = true
  asked : ∀ slot config, env.callbacks[slot]? = some config → config.AsksFor topic → slot ∈ slots
  single : ∀ config, env.callbacks = [config] → config.AsksFor topic → slots = [0]

section RoundTrip

variable {env : MqttEnv} {receiver last : MqttState} {topic : CString} {payload : Block}
  {retain : Bool}

theorem emits_mqttHandlePacket {state : MqttState} (connected : state.stage = .connected)
    (data : Memory) (available : Nat) (llen : UInt8) (packetLength : UInt16)
    {emitted : List MqttEvent}
    (handled : ∀ state, Emits state
      (handleConnected env state data (llen.toNat + 1) packetLength) emitted) :
    Emits state (mqttHandlePacket env state data available llen packetLength)
      (.handlePacket (recordedCall data available llen packetLength) :: emitted) := by
  have begun : Emits state (beginPacket state (recordedCall data available llen packetLength))
      [.handlePacket (recordedCall data available llen packetLength)] := ⟨rfl, rfl, rfl⟩
  rw [mqttHandlePacket]
  simp only [begun.stage, connected]
  exact begun.trans (handled _)

/-- Where the parts of the packet are in the segment. -/
theorem readBlock_publishEncoded (env : MqttEnv) (topic : CString) (payload : Block)
    (retain : Bool) :
    appdata env (publishEncoded topic payload retain) 0 0 = publishHeader retain ∧
      readBlock (appdata env (publishEncoded topic payload retain) 0)
          ((lengthField (publishLength topic payload)).length + 1)
          (2 + (topic.bytes.length + payload.bytes.length)) =
        hi8 topic.strlen :: lo8 topic.strlen :: (topic.bytes ++ payload.bytes) := by
  have sizeEq := length_publishEncoded topic payload retain
  constructor
  · rw [appdata, if_pos (by omega), publishEncoded_eq]
    rfl
  · rw [readBlock_appdata (by omega), publishEncoded_eq, Nat.zero_add, List.drop_succ_cons,
      List.drop_left]
    apply List.take_of_length_le
    rw [List.length_cons, List.length_cons, List.length_append]
    omega

theorem mqttParse_publish (env : MqttEnv)
    (stepped : parseStep env receiver (publishEncoded topic payload retain) 0 =
      some (.continue last (publishEncoded topic payload retain).length)) (fuel : Nat) :
    mqttParse env (fuel + 2) receiver (publishEncoded topic payload retain) = some last := by
  have sizeEq := length_publishEncoded topic payload retain
  rw [mqttParse, parseLoop, if_pos (by omega), stepped]
  dsimp only [Option.bind_some]
  rw [parseLoop, if_neg (Nat.lt_irrefl _)]

/-- The only registered module is called once. -/
theorem askedSlots_single {config : CallbackConfig} {data : Memory} {start : Nat}
    (only : env.callbacks = [config])
    (asked : (config.publishCallback && topicMatches data start config.topic) = true) :
    askedSlots env data start = [0] := by
  have slotsEq : env.slots = [(config, 0)] := by
    rw [MqttEnv.slots, only]
    rfl
  rw [askedSlots, slotsEq, List.filter_cons, if_pos asked]
  rfl

theorem arrives_publish (env : MqttEnv) (connected : receiver.stage = .connected)
    (idle : receiver.receiveBufferLength = 0)
    (fits : (publishEncoded topic payload retain).length ≤ 255) :
    ∃ last slots,
      Arrives env receiver (publishEncoded topic payload retain)
        topic payload retain last slots := by
  have bytesEq := bytes_publishPacket fits
  have lengthEq := length_publishPacket fits
  have lengthBytesEq : (publishPacket topic payload retain fits).lengthBytes =
      lengthField (publishLength topic payload) := by
    rw [MqttPacket.lengthBytes, lengthEq]
  have llenEq := (publishPacket topic payload retain fits).llen.1
  rw [lengthBytesEq] at llenEq
  have ahead : (publishEncoded topic payload retain).drop 0 =
      (publishPacket topic payload retain fits).bytes ++ [] := by
    rw [bytesEq, List.append_nil, List.drop_zero]
  have stepped := parseStep_packet_eq env idle ahead (by rw [bytesEq]; omega)
  rw [lengthEq, bytesEq, Nat.zero_add, lengthBytesEq] at stepped
  obtain ⟨headerStored, contentStored⟩ := readBlock_publishEncoded env topic payload retain
  have handled : ∀ state, Emits state (handleConnected env state
      (appdata env (publishEncoded topic payload retain) 0)
      ((UInt8.ofNat (lengthField (publishLength topic payload)).length).toNat + 1)
      (publishLength topic payload))
      ((askedSlots env (appdata env (publishEncoded topic payload retain) 0)
        ((lengthField (publishLength topic payload)).length + 1 + 2)).map fun slot =>
          .publishCallback slot topic.bytes payload.bytes retain) := by
    intro state
    rw [llenEq]
    exact emits_handleConnected_publish fits headerStored contentStored
  have emitted := emits_mqttHandlePacket connected
    (appdata env (publishEncoded topic payload retain) 0)
    ((publishEncoded topic payload retain).length - 0)
    (UInt8.ofNat (lengthField (publishLength topic payload)).length)
    (publishLength topic payload) handled
  have buffered := (mqttHandlePacket_calls env (appdata env (publishEncoded topic payload retain) 0)
    (publishLength topic payload) receiver ((publishEncoded topic payload retain).length - 0)
    (UInt8.ofNat (lengthField (publishLength topic payload)).length)).1
  have topicStored : readBlock (appdata env (publishEncoded topic payload retain) 0)
      ((lengthField (publishLength topic payload)).length + 1 + 2) topic.bytes.length =
        topic.bytes := by
    rw [Nat.add_comm 2, readBlock_succ, readBlock_succ, List.cons.injEq, List.cons.injEq,
      ← List.length_append, readBlock_append_iff] at contentStored
    exact contentStored.2.2.1
  refine ⟨_, _, mqttParse_publish env stepped, stepped, buffered.trans idle,
    ⟨_, emitted.events⟩, nodup_askedSlots _ _ _, ?_, ?_, ?_⟩
  · intro slot member
    obtain ⟨config, found, asked⟩ := mem_askedSlots.mp member
    rw [Bool.and_eq_true] at asked
    exact ⟨config, found, asked.1⟩
  · intro slot config found asks
    exact mem_askedSlots.mpr ⟨config, found, asks.topicMatches topicStored⟩
  · intro config only asks
    exact askedSlots_single only (asks.topicMatches topicStored)

/-- A publish packet that fits into an empty send buffer is constructed, and every client
that gets its bytes as one segment takes it as it was published. -/
theorem publish_arrives (sender : MqttState) (empty : sender.currentHead = 0) (topic : CString)
    (payload : Block) (retain : Bool)
    (fits : (publishEncoded topic payload retain).length + sender.receiveBufferLength.toNat ≤ 255) :
    ∃ after, mqttConstructPublishPacket sender topic payload retain = (true, after) ∧
      ∀ (env : MqttEnv) (receiver : MqttState), receiver.stage = .connected →
        receiver.receiveBufferLength = 0 →
        ∃ last slots, Arrives env receiver (readBlock after.sendBuffer 0 after.currentHead.toNat)
          topic payload retain last slots := by
  obtain ⟨after, constructed, stored⟩ := mqttConstructPublishPacket_empty empty fits
  refine ⟨after, constructed, ?_⟩
  intro env receiver connected idle
  rw [stored]
  exact arrives_publish env connected idle (by omega)

theorem publish_arrives_topicA :
    poweredMqtt.currentHead = 0 ∧
      ∃ after, mqttConstructPublishPacket poweredMqtt topicA (zeroBlock 200 (by decide)) true =
          (true, after) ∧
        ∀ (env : MqttEnv) (receiver : MqttState), receiver.stage = .connected →
          receiver.receiveBufferLength = 0 →
          ∃ last slots, Arrives env receiver
            (readBlock after.sendBuffer 0 after.currentHead.toNat) topicA
            (zeroBlock 200 (by decide)) true last slots :=
  ⟨rfl, publish_arrives poweredMqtt rfl topicA (zeroBlock 200 (by decide)) true
    (by decide +kernel)⟩

end RoundTrip

end Ethersex.Mqtt

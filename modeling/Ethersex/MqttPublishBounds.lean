import Ethersex.MqttSegmentation

/-!
# The parts of a packet that leave the MQTT parser

`mqtt_handle_packet` hands the topic and the payload of a publish packet to the
callbacks, and it reads the message ids that it acknowledges.  This file repeats
the handler with a log of these parts, shows that the log changes nothing, and
says for which packets all of them lie inside the content of the packet.
-/

namespace Ethersex.Mqtt

open ByteMemory

/-- A part of the content of a packet; offsets and lengths have 16 bits. -/
structure Part where
  start : UInt16
  length : UInt16

def Part.Inside (part : Part) (packetLength : UInt16) : Prop :=
  part.start.toNat + part.length.toNat ≤ packetLength.toNat

instance (part : Part) (packetLength : UInt16) : Decidable (part.Inside packetLength) :=
  inferInstanceAs (Decidable (_ ≤ _))

/-- The parts of a publish packet, as the callbacks get them. -/
def partSlices (packet : Nat) (topic payload : Part) : PublishSlices where
  topicStart := packet + topic.start.toNat
  topicLength := topic.length
  payloadStart := packet + payload.start.toNat
  payloadLength := payload.length

/-- The two bytes of a message id. -/
def messageIdParts (start : UInt16) : List Part := [⟨start, 1⟩, ⟨start + 1, 1⟩]

def loggedPublish (env : MqttEnv) (state : MqttState) (data : Memory) (packet : Nat)
    (packetLength : UInt16) : MqttState × List Part :=
  let qos := (data 0 &&& 0x06) >>> 1
  let topicLength := readWord data packet
  if packetLength < 2 + messageIdSize qos then
    (mqttAbortConnection env state, [])
  else if packetLength < 2 + messageIdSize qos + topicLength then
    (mqttAbortConnection env state, [])
  else
    let topic : Part := ⟨2, topicLength⟩
    let payload : Part :=
      ⟨2 + topicLength + messageIdSize qos, packetLength - (2 + topicLength) - messageIdSize qos⟩
    let state := mqttFirePublishCallback env state data (partSlices packet topic payload)
      (data 0 &&& 0x01 ≠ 0)
    (acknowledgePublish state qos (publishMessageId data packet topicLength),
      topic :: payload :: if qos ≠ 0 then messageIdParts (2 + topicLength) else [])

def loggedReleased (env : MqttEnv) (state : MqttState) (data : Memory) (packet : Nat)
    (packetLength : UInt16) (answer : UInt8) : MqttState × List Part :=
  if packetLength < 2 then
    (mqttAbortConnection env state, [])
  else
    ((mqttConstructAckPacket state answer (readWord data packet)).2, messageIdParts 0)

def loggedConnected (env : MqttEnv) (state : MqttState) (data : Memory) (packet : Nat)
    (packetLength : UInt16) : MqttState × List Part :=
  let kind := data 0 &&& 0xf0
  if kind = mqttPublish then
    loggedPublish env state data packet packetLength
  else if kind = mqttPubrec then
    loggedReleased env state data packet packetLength mqttPubrel
  else if kind = mqttPubrel then
    loggedReleased env state data packet packetLength mqttPubcomp
  else
    (handleConnected env state data packet packetLength, [])

/-- `mqtt_handle_packet`, with the parts that it hands to the publish callbacks and the
bytes of the message ids that it reads. -/
def loggedHandlePacket (env : MqttEnv) (state : MqttState) (data : Memory) (available : Nat)
    (llen : UInt8) (packetLength : UInt16) : MqttState × List Part :=
  let state := beginPacket state (recordedCall data available llen packetLength)
  match state.stage with
  | .connect => (handleConnack env state data (llen.toNat + 1) packetLength, [])
  | .connected => loggedConnected env state data (llen.toNat + 1) packetLength
  | _ => (state, [])

section Log

variable (env : MqttEnv) (state : MqttState) (data : Memory) (packet : Nat)
  (packetLength : UInt16)

theorem loggedPublish_fst :
    (loggedPublish env state data packet packetLength).1 =
      handlePublish env state data packet packetLength := by
  rw [loggedPublish, handlePublish]
  split
  · rfl
  · split
    · rfl
    · rfl

theorem loggedReleased_fst (answer : UInt8) :
    (loggedReleased env state data packet packetLength answer).1 =
      handleReleased env state data packet packetLength answer := by
  rw [loggedReleased, handleReleased]
  split
  · rfl
  · rfl

theorem loggedConnected_fst :
    (loggedConnected env state data packet packetLength).1 =
      handleConnected env state data packet packetLength := by
  by_cases publish : data 0 &&& 0xf0 = mqttPublish
  · rw [loggedConnected, handleConnected, if_pos publish, if_pos publish, loggedPublish_fst]
  · by_cases received : data 0 &&& 0xf0 = mqttPubrec
    · rw [loggedConnected, handleConnected, if_neg publish, if_neg publish, if_pos received,
        if_pos received, loggedReleased_fst]
    · by_cases released : data 0 &&& 0xf0 = mqttPubrel
      · rw [loggedConnected, handleConnected, if_neg publish, if_neg publish, if_neg received,
          if_neg received, if_pos released, if_pos released, loggedReleased_fst]
      · rw [loggedConnected, if_neg publish, if_neg received, if_neg released]

theorem loggedHandlePacket_fst (available : Nat) (llen : UInt8) :
    (loggedHandlePacket env state data available llen packetLength).1 =
      mqttHandlePacket env state data available llen packetLength := by
  rw [loggedHandlePacket, mqttHandlePacket]
  generalize beginPacket state (recordedCall data available llen packetLength) = begun
  cases begun.stage with
  | connect => rfl
  | connected => exact loggedConnected_fst env begun data (llen.toNat + 1) packetLength
  | disconnected => rfl
  | subscribed => rfl

end Log

/-- The sizes of a publish packet, added up, fit into 16 bits: the check of the topic
length is not made with a sum that has wrapped around. -/
def SizesFit (data : Memory) (packet : Nat) (packetLength : UInt16) : Prop :=
  let size := (messageIdSize ((data 0 &&& 0x06) >>> 1)).toNat
  data 0 &&& 0xf0 = mqttPublish → 2 + size ≤ packetLength.toNat →
    2 + size + (readWord data packet).toNat < 65536

theorem Part.inside_iff (start length packetLength : UInt16) :
    (Part.mk start length).Inside packetLength ↔
      start.toNat + length.toNat ≤ packetLength.toNat := Iff.rfl

/-- A message id behind the topic and a topic that ends inside the content exclude a sum
that has wrapped around. -/
theorem messageId_inside_iff {topicLength packetLength : UInt16}
    (long : 4 ≤ packetLength.toNat)
    (checked : (4 + topicLength.toNat) % 65536 ≤ packetLength.toNat) :
    ((∀ part ∈ messageIdParts (2 + topicLength), part.Inside packetLength) ∧
        2 + topicLength.toNat ≤ packetLength.toNat) ↔ 4 + topicLength.toNat < 65536 := by
  have bound := packetLength.toNat_lt
  have topicBound := topicLength.toNat_lt
  have first : (2 + topicLength).toNat = (2 + topicLength.toNat) % 65536 := UInt16.toNat_add ..
  have second : (2 + topicLength + 1).toNat = (2 + topicLength.toNat + 1) % 65536 := by
    rw [UInt16.toNat_add, first]
    simp
  simp only [messageIdParts, List.forall_mem_cons, Part.inside_iff, first, second,
    UInt16.reduceToNat, List.not_mem_nil, false_imp_iff, implies_true, and_true]
  omega

theorem messageIdSize_cases (qos : UInt8) :
    qos = 0 ∧ (messageIdSize qos).toNat = 0 ∨ qos ≠ 0 ∧ (messageIdSize qos).toNat = 2 := by
  rw [messageIdSize]
  by_cases without : qos = 0
  · exact Or.inl ⟨without, by simp [without]⟩
  · exact Or.inr ⟨without, by simp [without]⟩

section Inside

variable (env : MqttEnv) (state : MqttState) (data : Memory) (packet : Nat)
  (packetLength : UInt16)

theorem loggedPublish_inside_iff :
    (∀ part ∈ (loggedPublish env state data packet packetLength).2, part.Inside packetLength) ↔
      (2 + (messageIdSize ((data 0 &&& 0x06) >>> 1)).toNat ≤ packetLength.toNat →
        2 + (messageIdSize ((data 0 &&& 0x06) >>> 1)).toNat + (readWord data packet).toNat <
          65536) := by
  rw [loggedPublish]
  generalize (data 0 &&& 0x06) >>> 1 = qos
  generalize readWord data packet = topicLength
  have bound := packetLength.toNat_lt
  have topicBound := topicLength.toNat_lt
  have sizes := messageIdSize_cases qos
  have header : (2 + messageIdSize qos).toNat = 2 + (messageIdSize qos).toNat := by
    rw [UInt16.toNat_add]
    simp
    omega
  have total : (2 + messageIdSize qos + topicLength).toNat =
      (2 + (messageIdSize qos).toNat + topicLength.toNat) % 65536 := by
    rw [UInt16.toNat_add, header]
  split
  next short =>
    rw [UInt16.lt_iff_toNat_lt, header] at short
    simp only [List.not_mem_nil, false_imp_iff, implies_true, true_iff]
    omega
  next long =>
    rw [UInt16.lt_iff_toNat_lt, header] at long
    split
    next refused =>
      rw [UInt16.lt_iff_toNat_lt, total] at refused
      simp only [List.not_mem_nil, false_imp_iff, implies_true, true_iff]
      omega
    next accepted =>
      rw [UInt16.lt_iff_toNat_lt, total] at accepted
      have topic : (2 + topicLength).toNat = (2 + topicLength.toNat) % 65536 :=
        UInt16.toNat_add ..
      have payload : (2 + topicLength + messageIdSize qos).toNat =
          (2 + topicLength.toNat + (messageIdSize qos).toNat) % 65536 := by
        rw [UInt16.toNat_add, topic]
        simp
      have rest : (packetLength - (2 + topicLength) - messageIdSize qos).toNat =
          (131072 - (2 + topicLength.toNat) % 65536 - (messageIdSize qos).toNat +
            packetLength.toNat) % 65536 := by
        rw [UInt16.toNat_sub, UInt16.toNat_sub, topic]
        omega
      rw [List.forall_mem_cons, List.forall_mem_cons, Part.inside_iff, Part.inside_iff, payload,
        rest]
      rcases sizes with ⟨without, size⟩ | ⟨with_, size⟩
      · rw [if_neg (not_not_intro without)]
        simp only [List.not_mem_nil, false_imp_iff, implies_true, and_true, size,
          UInt16.reduceToNat]
        omega
      · rw [if_pos with_]
        have ids : _ ↔ 4 + topicLength.toNat < 65536 :=
          messageId_inside_iff (show 4 ≤ packetLength.toNat by omega) (by omega)
        simp only [size, UInt16.reduceToNat]
        constructor
        · rintro ⟨topicInside, -, idsInside⟩ _
          have short := ids.mp ⟨idsInside, topicInside⟩
          omega
        · intro fits
          obtain ⟨idsInside, topicInside⟩ := ids.mpr (by omega)
          exact ⟨topicInside, by omega, idsInside⟩

theorem loggedReleased_inside (answer : UInt8) :
    ∀ part ∈ (loggedReleased env state data packet packetLength answer).2,
      part.Inside packetLength := by
  rw [loggedReleased]
  split
  · simp
  next long =>
    rw [UInt16.not_lt, UInt16.le_iff_toNat_le] at long
    intro part member
    simp only [messageIdParts, List.mem_cons, List.not_mem_nil, or_false] at member
    rcases member with rfl | rfl
    · exact Nat.le_trans (by decide) long
    · exact Nat.le_trans (by decide) long

theorem loggedConnected_inside_iff :
    (∀ part ∈ (loggedConnected env state data packet packetLength).2,
      part.Inside packetLength) ↔ SizesFit data packet packetLength := by
  by_cases publish : data 0 &&& 0xf0 = mqttPublish
  · rw [loggedConnected, if_pos publish, loggedPublish_inside_iff]
    exact ⟨fun fits _ => fits, fun fits => fits publish⟩
  · have fits : SizesFit data packet packetLength := fun isPublish => absurd isPublish publish
    refine iff_of_true ?_ fits
    rw [loggedConnected, if_neg publish]
    split
    · exact loggedReleased_inside env state data packet packetLength mqttPubrel
    · split
      · exact loggedReleased_inside env state data packet packetLength mqttPubcomp
      · simp

end Inside

/-- The topic, the payload and the message id that leave a packet in the connected stage
lie inside its content exactly when the sizes of a publish packet do not wrap around. -/
theorem parts_inside_iff (env : MqttEnv) (state : MqttState) (connected : state.stage = .connected)
    (data : Memory) (available : Nat) (llen : UInt8) (packetLength : UInt16) :
    (loggedHandlePacket env state data available llen packetLength).1 =
        mqttHandlePacket env state data available llen packetLength ∧
      ((∀ part ∈ (loggedHandlePacket env state data available llen packetLength).2,
          part.Inside packetLength) ↔
        SizesFit data (llen.toNat + 1) packetLength) := by
  refine ⟨loggedHandlePacket_fst env state data packetLength available llen, ?_⟩
  have stage :
      (beginPacket state (recordedCall data available llen packetLength)).stage = .connected :=
    connected
  simp only [loggedHandlePacket, stage]
  exact loggedConnected_inside_iff env _ data (llen.toNat + 1) packetLength

/-- A publish packet with the content `[0, 1, 'a', 'b']`. -/
theorem parts_inside_short_topic :
    connectedMqtt.stage = .connected ∧
      ((∀ part ∈ (loggedHandlePacket quietEnv connectedMqtt
          (fun index => [0x30, 4, 0, 1, 97, 98].getD index 0) 6 1 4).2, part.Inside 4) ↔
        SizesFit (fun index => [0x30, 4, 0, 1, 97, 98].getD index 0) 2 4) :=
  ⟨rfl, (parts_inside_iff quietEnv connectedMqtt rfl
    (fun index => [0x30, 4, 0, 1, 97, 98].getD index 0) 6 1 4).2⟩

/-- A packet of two bytes announces a topic of 65534 bytes, and is accepted. -/
theorem topic_outside_of_wrapped_size :
    connectedMqtt.stage = .connected ∧
      ¬∀ part ∈ (loggedHandlePacket quietEnv connectedMqtt
          (fun index => [0x30, 2, 0xff, 0xfe].getD index 0) 4 1 2).2, part.Inside 2 := by
  decide +kernel

end Ethersex.Mqtt

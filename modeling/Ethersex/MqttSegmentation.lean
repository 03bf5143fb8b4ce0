import Mathlib.Tactic.Ring
import Ethersex.MqttParser
import Ethersex.MqttSendQueueRuns

/-!
# Segmentation of received MQTT packets

The packets of a byte stream should be handled in the same way however the
stream is cut into segments.  `mqtt_parse` counts the bytes of a packet in the
receive buffer without its header, so a packet that arrives in pieces is handed
over with its last bytes missing, if at all.  The calls of `mqtt_handle_packet`
are those of whole packets exactly when every cut lies between two packets.
-/

namespace Ethersex.Mqtt

open ByteMemory

/-- A packet: the header byte, the length field and the content. -/
structure MqttPacket where
  header : UInt8
  content : Block

def MqttPacket.lengthBytes (packet : MqttPacket) : List UInt8 :=
  lengthField packet.content.length

def MqttPacket.bytes (packet : MqttPacket) : List UInt8 :=
  packet.header :: (packet.lengthBytes ++ packet.content.bytes)

/-- How a packet is handed over as a whole. -/
def MqttPacket.handleCall (packet : MqttPacket) : HandleCall where
  bytes := packet.bytes
  llen := UInt8.ofNat packet.lengthBytes.length
  packetLength := packet.content.length

def handleCalls (state : MqttState) : List HandleCall :=
  state.events.filterMap fun
    | .handlePacket call => some call
    | _ => none

/-- Delivering the segments ends, and calls `mqtt_handle_packet` once for each
packet, in order and with the whole packet. -/
def HandlesEachOnce (env : MqttEnv) (state : MqttState) (segments : List (List UInt8))
    (packets : List MqttPacket) : Prop :=
  ∃ fuel last, deliver env fuel state segments = some last ∧
    handleCalls last = handleCalls state ++ packets.map MqttPacket.handleCall

/-- Every segment consists of whole packets. -/
def CutAtBorders (packets : List MqttPacket) (segments : List (List UInt8)) : Prop :=
  ∃ groups : List (List MqttPacket), groups.flatten = packets ∧
    segments = groups.map fun group => group.flatMap MqttPacket.bytes

section LengthField

variable {buffer : Memory} {maxRead : Nat}

theorem length_lengthDigits_le (fuel length : Nat) :
    (lengthDigits fuel length).length ≤ fuel + 1 := by
  induction fuel generalizing length with
  | zero => exact Nat.le_refl _
  | succ fuel ih =>
      rw [lengthDigits]
      split
      · exact Nat.succ_le_succ (ih _)
      · exact Nat.succ_le_succ (Nat.zero_le _)

theorem length_lengthDigits_pos (fuel length : Nat) : 0 < (lengthDigits fuel length).length := by
  cases fuel with
  | zero => exact Nat.one_pos
  | succ fuel =>
      rw [lengthDigits]
      split <;> exact Nat.succ_pos _

/-- One more digit, with the continuation bit cleared or set. -/
theorem parseDigits_last {fuel i l digit : Nat} (small : digit < 128)
    (stored : buffer i = UInt8.ofNat digit) (readable : i < maxRead) :
    parseDigits buffer maxRead (fuel + 1) i l =
      some (UInt8.ofNat (i + 1), UInt16.ofNat (l + digit * 2 ^ (i * 7))) := by
  have byteEq : (buffer i).toNat = digit := by
    rw [stored, UInt8.toNat_ofNat']
    omega
  rw [parseDigits, if_pos readable]
  simp only [byteEq, Nat.mod_eq_of_lt small, if_pos small]
  rw [show (65536 : Nat) = 2 ^ 16 from rfl, UInt16.ofNat_mod_size]

theorem parseDigits_continued {fuel i l digit : Nat} (small : digit < 128)
    (stored : buffer i = UInt8.ofNat (digit + 128)) (readable : i < maxRead) :
    parseDigits buffer maxRead (fuel + 1) i l =
      parseDigits buffer maxRead fuel (i + 1) ((l + digit * 2 ^ (i * 7)) % 65536) := by
  have byteEq : (buffer i).toNat = digit + 128 := by
    rw [stored, UInt8.toNat_ofNat']
    omega
  rw [parseDigits, if_pos readable]
  simp only [byteEq, if_neg (show ¬digit + 128 < 128 by omega),
    show (digit + 128) % 128 = digit by omega]

/-- Reading the digits that were written for a length adds it to the number
read so far, at the place of the first digit. -/
theorem parseDigits_lengthDigits {digits length fuel i l : Nat}
    (small : length < 128 ^ (digits + 1))
    (stored : readBlock buffer i (lengthDigits digits length).length = lengthDigits digits length)
    (readable : i + (lengthDigits digits length).length ≤ maxRead)
    (enough : (lengthDigits digits length).length ≤ fuel) :
    parseDigits buffer maxRead fuel i l =
      some (UInt8.ofNat (i + (lengthDigits digits length).length),
        UInt16.ofNat (l + length * 2 ^ (i * 7))) := by
  induction digits generalizing length fuel i l with
  | zero =>
      simp only [lengthDigits, List.length_singleton] at stored readable enough ⊢
      obtain ⟨fuel, rfl⟩ := Nat.exists_eq_add_of_le' enough
      rw [Nat.mod_eq_of_lt (by omega)] at stored
      have firstEq : buffer i = UInt8.ofNat length := by
        simpa [readBlock] using stored
      exact parseDigits_last (by omega) firstEq (by omega)
  | succ digits ih =>
      rw [lengthDigits] at stored readable enough ⊢
      split at stored
      next more =>
        rw [if_pos more] at readable enough ⊢
        rw [List.length_cons] at stored readable enough ⊢
        rw [readBlock_succ, List.cons.injEq] at stored
        cases fuel with
        | zero => omega
        | succ fuel =>
            have restSmall : length / 128 < 128 ^ (digits + 1) := by
              apply Nat.div_lt_of_lt_mul
              rw [← Nat.pow_succ']
              exact small
            rw [parseDigits_continued (Nat.mod_lt _ (by omega)) stored.1 (by omega),
              ih restSmall stored.2 (by omega) (by omega), UInt16.ofNat_add,
              show (65536 : Nat) = 2 ^ 16 from rfl, UInt16.ofNat_mod_size, ← UInt16.ofNat_add]
            congr 3
            · omega
            · rw [show (i + 1) * 7 = i * 7 + 7 by omega, Nat.pow_add, Nat.add_assoc]
              congr 1
              conv_rhs => rw [← Nat.mod_add_div length 128]
              ring
      next last =>
        rw [if_neg last] at readable enough ⊢
        rw [List.length_singleton] at stored readable enough ⊢
        rw [Nat.mod_eq_of_lt (by omega)] at stored
        obtain ⟨fuel, rfl⟩ := Nat.exists_eq_add_of_le' enough
        have firstEq : buffer i = UInt8.ofNat length := by
          simpa [readBlock] using stored
        exact parseDigits_last (by omega) firstEq (by omega)

end LengthField

/-- Neither the number of buffered bytes nor the handled packets differ. -/
structure SameReceive (before after : MqttState) : Prop where
  buffered : after.receiveBufferLength = before.receiveBufferLength
  calls : handleCalls after = handleCalls before

section Frame

variable {first second third state : MqttState}

theorem SameReceive.refl (state : MqttState) : SameReceive state state :=
  ⟨rfl, rfl⟩

theorem SameReceive.trans (left : SameReceive first second) (right : SameReceive second third) :
    SameReceive first third :=
  ⟨right.buffered.trans left.buffered, right.calls.trans left.calls⟩

theorem sameReceive_foldl {Item : Type*} (step : MqttState → Item → MqttState)
    (kept : ∀ state item, SameReceive state (step state item)) (items : List Item)
    (state : MqttState) : SameReceive state (items.foldl step state) := by
  induction items generalizing state with
  | nil => exact .refl state
  | cons item items ih => exact (kept state item).trans (ih (step state item))

theorem sameReceive_writePiece (state : MqttState) (piece : Piece) :
    SameReceive state (writePiece state piece) := by
  rw [writePiece_eq]
  exact ⟨rfl, rfl⟩

theorem sameReceive_construct (state : MqttState) (request : PacketRequest) :
    SameReceive state (request.construct state).2 := by
  cases free : mqttBufferFree state request.estimate with
  | false =>
      rw [request.construct_refused free]
      exact .refl state
  | true =>
      obtain ⟨nextMsgId, accepted⟩ := request.construct_accepted free
      rw [accepted]
      exact (sameReceive_foldl writePiece sameReceive_writePiece _ state).trans ⟨rfl, rfl⟩

theorem handleCalls_emit (state : MqttState) (event : MqttEvent) :
    handleCalls (state.emit event) = handleCalls state ++
      (match event with
        | .handlePacket call => [call]
        | _ => []) := by
  rw [handleCalls, MqttState.emit, List.filterMap_append]
  cases event <;> rfl

theorem sameReceive_fireCallback (env : MqttEnv) (state : MqttState) (event : MqttEvent)
    (callback : ∀ call, event ≠ .handlePacket call) :
    SameReceive state (fireCallback env state event) := by
  have emitted : SameReceive state (state.emit event) := by
    constructor
    · rfl
    · rw [handleCalls_emit]
      cases event with
      | handlePacket call => exact absurd rfl (callback call)
      | _ => exact List.append_nil _
  exact emitted.trans (sameReceive_foldl _ sameReceive_construct _ _)

variable (env : MqttEnv)

theorem sameReceive_connackCallback (state : MqttState) :
    SameReceive state (mqttFireConnackCallback env state) := by
  apply sameReceive_foldl
  rintro state ⟨config, slot⟩
  dsimp only
  split
  · exact sameReceive_fireCallback env state _ (by simp)
  · exact .refl state

theorem sameReceive_closeCallback (state : MqttState) :
    SameReceive state (mqttFireCloseCallback env state) := by
  apply sameReceive_foldl
  rintro state ⟨config, slot⟩
  dsimp only
  split
  · exact sameReceive_fireCallback env state _ (by simp)
  · exact .refl state

theorem sameReceive_publishCallback (state : MqttState) (data : Memory) (slices : PublishSlices)
    (retained : Bool) :
    SameReceive state (mqttFirePublishCallback env state data slices retained) := by
  apply sameReceive_foldl
  rintro state ⟨config, slot⟩
  dsimp only
  split
  · exact sameReceive_fireCallback env state _ (by simp)
  · exact .refl state

theorem sameReceive_abort (state : MqttState) :
    SameReceive state (mqttAbortConnection env state) := by
  have emitted : SameReceive state { state.emit .uipAbort with connection := false } := by
    constructor
    · rfl
    · exact (handleCalls_emit state .uipAbort).trans (List.append_nil _)
  exact emitted.trans (sameReceive_closeCallback env _)

variable (data : Memory) (packet : Nat) (packetLength : UInt16)

theorem sameReceive_handleConnack (state : MqttState) :
    SameReceive state (handleConnack env state data packet packetLength) := by
  rw [handleConnack]
  split
  · exact sameReceive_abort env state
  · split
    · exact sameReceive_abort env state
    · split
      · exact sameReceive_abort env state
      · have subscribed := sameReceive_foldl
          (fun state topic => (mqttConstructSubscribePacket state topic).2)
          (fun state topic => sameReceive_construct state (.subscribe topic))
          env.config.autoSubscribeTopics { state with stage := .connected }
        have staged : SameReceive state { state with stage := .connected } := ⟨rfl, rfl⟩
        exact (staged.trans subscribed).trans (sameReceive_connackCallback env _)

theorem sameReceive_acknowledge (state : MqttState) (qos : UInt8) (messageId : UInt16) :
    SameReceive state (acknowledgePublish state qos messageId) := by
  rw [acknowledgePublish]
  split
  · exact sameReceive_construct state (.ack mqttPuback messageId)
  · split
    · exact sameReceive_construct state (.ack mqttPubrec messageId)
    · exact .refl state

theorem sameReceive_handlePublish (state : MqttState) :
    SameReceive state (handlePublish env state data packet packetLength) := by
  rw [handlePublish]
  dsimp only
  split
  · exact sameReceive_abort env state
  · split
    · exact sameReceive_abort env state
    · exact (sameReceive_publishCallback env state data _ _).trans
        (sameReceive_acknowledge _ _ _)

theorem sameReceive_handleReleased (state : MqttState) (answer : UInt8) :
    SameReceive state (handleReleased env state data packet packetLength answer) := by
  rw [handleReleased]
  split
  · exact sameReceive_abort env state
  · exact sameReceive_construct state (.ack answer _)

theorem sameReceive_handleConnected (state : MqttState) :
    SameReceive state (handleConnected env state data packet packetLength) := by
  rw [handleConnected]
  split
  · exact sameReceive_handlePublish env data packet packetLength state
  · split
    · exact sameReceive_handleReleased env data packet packetLength state mqttPubrel
    · split
      · exact sameReceive_handleReleased env data packet packetLength state mqttPubcomp
      · split
        · exact sameReceive_construct state (.zerolength mqttPingresp)
        · split
          · exact ⟨rfl, rfl⟩
          · exact .refl state

theorem mqttHandlePacket_calls (state : MqttState) (available : Nat) (llen : UInt8) :
    (mqttHandlePacket env state data available llen packetLength).receiveBufferLength =
        state.receiveBufferLength ∧
      handleCalls (mqttHandlePacket env state data available llen packetLength) =
        handleCalls state ++ [recordedCall data available llen packetLength] := by
  have begun : handleCalls (beginPacket state (recordedCall data available llen packetLength)) =
      handleCalls state ++ [recordedCall data available llen packetLength] :=
    handleCalls_emit state (.handlePacket (recordedCall data available llen packetLength))
  have dispatched : SameReceive
      (beginPacket state (recordedCall data available llen packetLength))
      (mqttHandlePacket env state data available llen packetLength) := by
    rw [mqttHandlePacket]
    split
    · exact sameReceive_handleConnack env data _ packetLength _
    · exact sameReceive_handleConnected env data _ packetLength _
    · exact .refl _
  exact ⟨dispatched.buffered, dispatched.calls.trans begun⟩

end Frame

section WholePackets

variable {env : MqttEnv} {state : MqttState} {segment : List UInt8} {bytesRead : Nat}

/-- Inside the segment the application data are the bytes of the segment. -/
theorem readBlock_appdata {start count : Nat}
    (inside : bytesRead + start + count ≤ segment.length) :
    readBlock (appdata env segment bytesRead) start count =
      (segment.drop (bytesRead + start)).take count := by
  apply List.ext_getElem
  · rw [length_readBlock, List.length_take, List.length_drop]
    omega
  · intro index readBound takeBound
    rw [length_readBlock] at readBound
    rw [getElem_readBlock, appdata, if_pos (by omega), List.getElem_take, List.getElem_drop,
      List.getD_eq_getElem _ _ (by omega)]
    congr 1
    omega

theorem MqttPacket.length_bytes (packet : MqttPacket) :
    packet.bytes.length = packet.lengthBytes.length + 1 + packet.content.bytes.length := by
  rw [MqttPacket.bytes, List.length_cons, List.length_append]
  omega

theorem MqttPacket.toNat_length (packet : MqttPacket) :
    packet.content.length.toNat = packet.content.bytes.length := by
  rw [Block.length, UInt16.toNat_ofNat', Nat.mod_eq_of_lt packet.content.short]

theorem MqttPacket.llen (packet : MqttPacket) :
    (UInt8.ofNat packet.lengthBytes.length).toNat = packet.lengthBytes.length ∧
      UInt8.ofNat packet.lengthBytes.length ≠ 0 := by
  have upper : packet.lengthBytes.length ≤ 3 := length_lengthDigits_le 2 _
  have lower : 0 < packet.lengthBytes.length := length_lengthDigits_pos 2 _
  have toNatEq : (UInt8.ofNat packet.lengthBytes.length).toNat = packet.lengthBytes.length := by
    rw [UInt8.toNat_ofNat']
    omega
  refine ⟨toNatEq, ?_⟩
  intro zero
  rw [zero] at toNatEq
  simp only [UInt8.toNat_zero] at toNatEq
  omega

/-- The parser finds the length of a packet that lies in the segment. -/
theorem mqttParseLengthField_packet {packet : MqttPacket} {rest : List UInt8}
    (ahead : segment.drop bytesRead = packet.bytes ++ rest) (inside : bytesRead < segment.length) :
    mqttParseLengthField (appdata env segment (bytesRead + 1)) (segment.length - bytesRead - 1) =
      some (UInt8.ofNat packet.lengthBytes.length, packet.content.length) := by
  have lengths := congrArg List.length ahead
  rw [List.length_drop, List.length_append, packet.length_bytes] at lengths
  have next : segment.drop (bytesRead + 1 + 0) =
      packet.lengthBytes ++ (packet.content.bytes ++ rest) := by
    rw [Nat.add_zero, ← List.drop_drop, ahead, MqttPacket.bytes, List.cons_append,
      List.append_assoc]
    rfl
  have small : packet.content.length.toNat < 128 ^ (2 + 1) := by
    have bound := packet.content.length.toNat_lt
    omega
  have stored : readBlock (appdata env segment (bytesRead + 1)) 0 packet.lengthBytes.length =
      packet.lengthBytes := by
    rw [readBlock_appdata (by omega), next, List.take_left]
  have upper : packet.lengthBytes.length ≤ 3 := length_lengthDigits_le 2 _
  rw [mqttParseLengthField, parseDigits_lengthDigits small stored
    (by rw [Nat.zero_add]; change packet.lengthBytes.length ≤ _; omega)
    (by change packet.lengthBytes.length ≤ _; omega)]
  simp [MqttPacket.lengthBytes, lengthField]

/-- A packet that lies in the segment is handed over where it is. -/
theorem parseStep_packet_eq (env : MqttEnv) {packet : MqttPacket} {rest : List UInt8}
    (idle : state.receiveBufferLength = 0) (ahead : segment.drop bytesRead = packet.bytes ++ rest)
    (small : packet.bytes.length < 65536) :
    parseStep env state segment bytesRead =
      some (.continue (mqttHandlePacket env state (appdata env segment bytesRead)
        (segment.length - bytesRead) (UInt8.ofNat packet.lengthBytes.length)
        packet.content.length) (bytesRead + packet.bytes.length)) := by
  have lengths := congrArg List.length ahead
  rw [List.length_drop, List.length_append] at lengths
  have positive : 0 < packet.bytes.length := by
    rw [packet.length_bytes]
    omega
  obtain ⟨llenEq, llenNe⟩ := packet.llen
  have sizeEq : packet.content.length.toNat +
      (UInt8.ofNat packet.lengthBytes.length).toNat + 1 = packet.bytes.length := by
    rw [llenEq, packet.toNat_length, packet.length_bytes]
    omega
  rw [parseStep, if_pos idle, parseFresh]
  dsimp only
  rw [mqttParseLengthField_packet ahead (by omega), Option.bind_some]
  dsimp only
  rw [if_neg llenNe, sizeEq, Nat.mod_eq_of_lt small, if_pos (by omega)]

theorem parseStep_packet (env : MqttEnv) {packet : MqttPacket} {rest : List UInt8}
    (idle : state.receiveBufferLength = 0) (ahead : segment.drop bytesRead = packet.bytes ++ rest)
    (small : packet.bytes.length < 65536) :
    ∃ next, parseStep env state segment bytesRead =
        some (.continue next (bytesRead + packet.bytes.length)) ∧
      next.receiveBufferLength = 0 ∧
      handleCalls next = handleCalls state ++ [packet.handleCall] := by
  have lengths := congrArg List.length ahead
  rw [List.length_drop, List.length_append] at lengths
  have lengthEq := packet.length_bytes
  have callEq : recordedCall (appdata env segment bytesRead) (segment.length - bytesRead)
      (UInt8.ofNat packet.lengthBytes.length) packet.content.length = packet.handleCall := by
    have bytesEq : readBlock (appdata env segment bytesRead) 0 packet.bytes.length =
        packet.bytes := by
      rw [readBlock_appdata (by omega), Nat.add_zero, ahead, List.take_left]
    have sizeEq : (UInt8.ofNat packet.lengthBytes.length).toNat + 1 +
        packet.content.length.toNat = packet.bytes.length := by
      rw [packet.llen.1, packet.toNat_length, lengthEq]
    rw [recordedCall, MqttPacket.handleCall, Nat.min_eq_left (by omega), sizeEq, bytesEq]
  obtain ⟨buffered, calls⟩ := mqttHandlePacket_calls env (appdata env segment bytesRead)
    packet.content.length state (segment.length - bytesRead)
    (UInt8.ofNat packet.lengthBytes.length)
  rw [callEq] at calls
  exact ⟨_, parseStep_packet_eq env idle ahead small, buffered.trans idle, calls⟩

/-- Whole packets up to the end of the segment are handled one after the
other. -/
theorem parseLoop_packets (env : MqttEnv) {packets : List MqttPacket} {fuel : Nat}
    (idle : state.receiveBufferLength = 0)
    (ahead : segment.drop bytesRead = packets.flatMap MqttPacket.bytes)
    (small : ∀ packet ∈ packets, packet.bytes.length < 65536)
    (inside : bytesRead ≤ segment.length) (enough : packets.length < fuel) :
    ∃ last, parseLoop env segment fuel state bytesRead = some last ∧
      last.receiveBufferLength = 0 ∧
      handleCalls last = handleCalls state ++ packets.map MqttPacket.handleCall := by
  induction packets generalizing state bytesRead fuel with
  | nil =>
      have ended : ¬bytesRead < segment.length := by
        have lengths := congrArg List.length ahead
        rw [List.length_drop, List.flatMap_nil, List.length_nil] at lengths
        omega
      cases fuel with
      | zero => omega
      | succ fuel =>
          refine ⟨state, ?_, idle, (List.append_nil _).symm⟩
          rw [parseLoop, if_neg ended]
  | cons packet packets ih =>
      rw [List.flatMap_cons] at ahead
      have lengths := congrArg List.length ahead
      rw [List.length_drop, List.length_append] at lengths
      have positive : 0 < packet.bytes.length := by
        rw [packet.length_bytes]
        omega
      rw [List.length_cons] at enough
      cases fuel with
      | zero => omega
      | succ fuel =>
          obtain ⟨next, stepped, idleNext, callsNext⟩ := parseStep_packet env idle ahead
            (small packet List.mem_cons_self)
          have aheadNext : segment.drop (bytesRead + packet.bytes.length) =
              packets.flatMap MqttPacket.bytes := by
            rw [← List.drop_drop, ahead, List.drop_left]
          obtain ⟨last, reached, idleLast, callsLast⟩ := ih idleNext aheadNext
            (fun other member => small other (List.mem_cons_of_mem _ member)) (by omega)
            (show packets.length < fuel by omega)
          refine ⟨last, ?_, idleLast, ?_⟩
          · rw [parseLoop, if_pos (by omega), stepped]
            exact reached
          · rw [callsLast, callsNext, List.map_cons, List.append_assoc]
            rfl

end WholePackets

theorem deliver_groups (env : MqttEnv) {state : MqttState} {groups : List (List MqttPacket)}
    {fuel : Nat} (idle : state.receiveBufferLength = 0)
    (small : ∀ packet ∈ groups.flatten, packet.bytes.length < 65536)
    (enough : groups.flatten.length < fuel) :
    ∃ last, deliver env fuel state (groups.map fun group => group.flatMap MqttPacket.bytes) =
        some last ∧
      handleCalls last = handleCalls state ++ groups.flatten.map MqttPacket.handleCall := by
  induction groups generalizing state with
  | nil => exact ⟨state, rfl, (List.append_nil _).symm⟩
  | cons group groups ih =>
      rw [List.flatten_cons] at small enough
      rw [List.length_append] at enough
      obtain ⟨next, parsed, idleNext, callsNext⟩ := parseLoop_packets env idle
        (show (group.flatMap MqttPacket.bytes).drop 0 = group.flatMap MqttPacket.bytes from rfl)
        (fun packet member => small packet (List.mem_append_left _ member)) (Nat.zero_le _)
        (show group.length < fuel by omega)
      obtain ⟨last, reached, callsLast⟩ := ih idleNext
        (fun packet member => small packet (List.mem_append_right _ member)) (by omega)
      refine ⟨last, ?_, ?_⟩
      · rw [List.map_cons, deliver, mqttParse, parsed]
        exact reached
      · rw [callsLast, callsNext, List.flatten_cons, List.map_append, List.append_assoc]

/-- The recorded bytes are the whole packet. -/
def HandleCall.Complete (call : HandleCall) : Prop :=
  call.bytes.length = call.llen.toNat + 1 + call.packetLength.toNat

/-- The bytes that complete calls take from a part of a segment are bytes of
it, and when they are as many, they are the part itself. -/
def Accounted (calls : List HandleCall) (part : List UInt8) : Prop :=
  (∀ call ∈ calls, call.Complete) →
    (calls.flatMap HandleCall.bytes).length ≤ part.length ∧
      ((calls.flatMap HandleCall.bytes).length = part.length →
        calls.flatMap HandleCall.bytes = part)

section Accounting

variable {env : MqttEnv} {state : MqttState} {segment : List UInt8} {bytesRead : Nat}

theorem accounted_nil {part : List UInt8} (calls : List HandleCall) (empty : calls = []) :
    Accounted calls part := by
  subst empty
  intro _
  constructor
  · exact Nat.zero_le _
  · intro lengths
    exact (List.length_eq_zero_iff.mp lengths.symm).symm

/-- Skipped bytes are not made up for by later calls. -/
theorem Accounted.skip {calls : List HandleCall} {count : Nat} (positive : 0 < count)
    (inside : bytesRead < segment.length)
    (accounted : Accounted calls (segment.drop (bytesRead + count))) :
    Accounted calls (segment.drop bytesRead) := by
  intro complete
  obtain ⟨le, _⟩ := accounted complete
  rw [List.length_drop] at le ⊢
  constructor
  · omega
  · intro lengths
    omega

theorem bufferFragment_calls {length : UInt16} {stored : Bool} {next : MqttState}
    (buffered : bufferFragment env state segment bytesRead length = some (stored, next)) :
    handleCalls next = handleCalls state ∧
      (stored = true → state.receiveBufferLength.toNat + length.toNat ≤ sendbufferLength ∧
        next.receiveBufferLength.toNat =
          (state.receiveBufferLength.toNat + length.toNat) % 256 ∧
        next.receivePacketLength = state.receivePacketLength) := by
  rw [bufferFragment, Option.map_eq_some_iff] at buffered
  obtain ⟨⟨wrote, written⟩, write, result⟩ := buffered
  rw [Prod.mk.injEq] at result
  obtain ⟨rfl, rfl⟩ := result
  rw [mqttWriteToReceiveBuffer] at write
  split at write
  · dsimp only at write
    split at write
    next room =>
      cases Option.some.inj write
      refine ⟨rfl, fun _ => ⟨room, ?_, rfl⟩⟩
      rw [if_pos rfl]
      dsimp only
      rw [UInt8.toNat_add, UInt8.toNat_ofNat']
      omega
    next => cases write
  · cases Option.some.inj write
    refine ⟨?_, fun impossible => by cases impossible⟩
    exact (sameReceive_abort env state).calls

/-- What a step of the loop does: it ends, it goes on behind bytes it stored,
or it goes on behind a packet. -/
inductive StepOutcome (before : List HandleCall) (segment : List UInt8) (bytesRead : Nat) :
    ParseStep → Prop where
  | stop {next : MqttState} (calls : handleCalls next = before) :
      StepOutcome before segment bytesRead (.done next)
  | store {next : MqttState} {count : Nat} (positive : 0 < count)
      (calls : handleCalls next = before) :
      StepOutcome before segment bytesRead (.continue next (bytesRead + count))
  | packet {next : MqttState} {call : HandleCall}
      (taken : call.bytes = (segment.drop bytesRead).take call.bytes.length)
      (inside : bytesRead + call.bytes.length ≤ segment.length)
      (calls : handleCalls next = before ++ [call]) :
      StepOutcome before segment bytesRead (.continue next (bytesRead + call.bytes.length))
  | broken {next : MqttState} {call : HandleCall} {position : Nat}
      (incomplete : ¬call.Complete)
      (calls : handleCalls next = before ++ [call]) :
      StepOutcome before segment bytesRead (.continue next position)

theorem bufferRest_outcome {step : ParseStep} (inside : bytesRead < segment.length)
    (rest : bufferRest env state segment bytesRead = some step) :
    StepOutcome (handleCalls state) segment bytesRead step := by
  rw [bufferRest, Option.map_eq_some_iff] at rest
  obtain ⟨⟨stored, next⟩, buffered, result⟩ := rest
  obtain ⟨calls, _⟩ := bufferFragment_calls buffered
  cases stored with
  | false =>
      rw [← result]
      exact .stop calls
  | true =>
      rw [← result]
      exact .store (by omega) calls

theorem parseFresh_outcome {step : ParseStep} (inside : bytesRead < segment.length)
    (short : segment.length < 65536)
    (stepped : parseFresh env state segment bytesRead = some step) :
    StepOutcome (handleCalls state) segment bytesRead step := by
  rw [parseFresh, Option.bind_eq_some_iff] at stepped
  obtain ⟨⟨llen, packetLength⟩, _, stepped⟩ := stepped
  dsimp only at stepped
  split at stepped
  · exact bufferRest_outcome inside stepped
  · split at stepped
    next size =>
      cases Option.some.inj stepped
      obtain ⟨_, calls⟩ := mqttHandlePacket_calls env (appdata env segment bytesRead)
        packetLength state (segment.length - bytesRead) llen
      by_cases wraps : packetLength.toNat + llen.toNat + 1 < 65536
      · rw [Nat.mod_eq_of_lt wraps] at size
        have callLength : (recordedCall (appdata env segment bytesRead)
            (segment.length - bytesRead) llen packetLength).bytes.length =
              packetLength.toNat + llen.toNat + 1 := by
          rw [recordedCall, length_readBlock]
          omega
        rw [Nat.mod_eq_of_lt wraps, ← callLength]
        refine .packet ?_ (by omega) calls
        rw [callLength, recordedCall]
        dsimp only
        rw [Nat.min_eq_left (by omega), readBlock_appdata (by omega), Nat.add_zero]
        congr 1
        omega
      · refine .broken ?_ calls
        rw [HandleCall.Complete, recordedCall, length_readBlock]
        dsimp only
        omega
    next =>
      have outcome := bufferRest_outcome inside stepped
      exact outcome

/-- A packet from the receive buffer lacks as many bytes as its header has. -/
theorem parseKnown_outcome {step : ParseStep} (inside : bytesRead < segment.length)
    (stepped : parseKnown env state segment bytesRead = some step) :
    StepOutcome (handleCalls state) segment bytesRead step := by
  rw [parseKnown] at stepped
  dsimp only at stepped
  split at stepped
  · rw [Option.map_eq_some_iff] at stepped
    obtain ⟨⟨stored, next⟩, buffered, result⟩ := stepped
    obtain ⟨calls, kept⟩ := bufferFragment_calls buffered
    cases stored with
    | false =>
        rw [← result]
        exact .stop calls
    | true =>
        obtain ⟨room, lengthEq, packetEq⟩ := kept rfl
        rw [← result]
        dsimp only
        rw [if_pos rfl]
        obtain ⟨_, handled⟩ := mqttHandlePacket_calls env (receivedData next)
          next.receivePacketLength next next.receiveBufferLength.toNat
          (UInt8.ofNat (mqttLfLength next.receivePacketLength).toNat)
        rw [calls] at handled
        refine .broken ?_ handled
        have receivedLt := state.receiveBufferLength.toNat_lt
        have lengthLt := state.receivePacketLength.toNat_lt
        rw [sendbufferLength, UInt16.toNat_sub, UInt8.toNat_toUInt16] at room
        rw [UInt16.toNat_sub, UInt8.toNat_toUInt16] at lengthEq
        rw [HandleCall.Complete, recordedCall, length_readBlock, packetEq, lengthEq]
        dsimp only
        omega
  · exact bufferRest_outcome inside stepped

theorem parseUnknown_outcome {step : ParseStep}
    (stepped : parseUnknown env state segment bytesRead = some step) :
    StepOutcome (handleCalls state) segment bytesRead step := by
  rw [parseUnknown, Option.bind_eq_some_iff] at stepped
  obtain ⟨⟨stored, next⟩, buffered, stepped⟩ := stepped
  obtain ⟨calls, _⟩ := bufferFragment_calls buffered
  cases stored with
  | false =>
      cases Option.some.inj stepped
      exact .stop calls
  | true =>
      dsimp only at stepped
      rw [if_pos rfl, Option.map_eq_some_iff] at stepped
      obtain ⟨⟨llen, packetLength⟩, _, result⟩ := stepped
      rw [← result]
      refine .store Nat.one_pos ?_
      rw [← calls]
      split <;> rfl

theorem parseStep_outcome {step : ParseStep} (inside : bytesRead < segment.length)
    (short : segment.length < 65536)
    (stepped : parseStep env state segment bytesRead = some step) :
    StepOutcome (handleCalls state) segment bytesRead step := by
  rw [parseStep] at stepped
  split at stepped
  · exact parseFresh_outcome inside short stepped
  · split at stepped
    · exact parseKnown_outcome inside stepped
    · exact parseUnknown_outcome stepped

theorem parseLoop_accounted {fuel : Nat} {last : MqttState} (short : segment.length < 65536)
    (reached : parseLoop env segment fuel state bytesRead = some last) :
    ∃ calls, handleCalls last = handleCalls state ++ calls ∧
      Accounted calls (segment.drop bytesRead) := by
  induction fuel generalizing state bytesRead with
  | zero => cases reached
  | succ fuel ih =>
      rw [parseLoop] at reached
      split at reached
      next inside =>
        rw [Option.bind_eq_some_iff] at reached
        obtain ⟨step, stepped, reached⟩ := reached
        cases parseStep_outcome inside short stepped with
        | stop calls =>
            cases Option.some.inj reached
            exact ⟨[], by rw [calls, List.append_nil], accounted_nil _ rfl⟩
        | store positive calls =>
            obtain ⟨later, laterEq, accounted⟩ := ih reached
            exact ⟨later, by rw [laterEq, calls], accounted.skip positive inside⟩
        | broken incomplete calls =>
            obtain ⟨later, laterEq, _⟩ := ih reached
            refine ⟨_ :: later, by rw [laterEq, calls, List.append_assoc]; rfl, ?_⟩
            intro complete
            exact absurd (complete _ List.mem_cons_self) incomplete
        | @packet next call taken insideCall calls =>
            obtain ⟨later, laterEq, accounted⟩ := ih reached
            refine ⟨_ :: later, by rw [laterEq, calls, List.append_assoc]; rfl, ?_⟩
            intro complete
            obtain ⟨le, same⟩ := accounted fun call member =>
              complete call (List.mem_cons_of_mem _ member)
            rw [List.length_drop] at le same
            rw [List.flatMap_cons, List.length_append, List.length_drop]
            constructor
            · omega
            · intro lengths
              have whole := List.take_append_drop call.bytes.length (segment.drop bytesRead)
              rw [← taken, List.drop_drop] at whole
              rw [same (by omega), whole]
      next ended =>
        cases Option.some.inj reached
        exact ⟨[], (List.append_nil _).symm, accounted_nil _ rfl⟩

end Accounting

theorem MqttPacket.handleCall_complete (packet : MqttPacket) : packet.handleCall.Complete := by
  rw [HandleCall.Complete, MqttPacket.handleCall]
  dsimp only
  rw [packet.length_bytes, packet.llen.1, packet.toNat_length]

theorem flatMap_handleCall (packets : List MqttPacket) :
    (packets.map MqttPacket.handleCall).flatMap HandleCall.bytes =
      packets.flatMap MqttPacket.bytes := by
  rw [List.flatMap_map]
  rfl

/-- Handled packets stay on record. -/
theorem deliver_calls {env : MqttEnv} {state last : MqttState} {fuel : Nat}
    {segments : List (List UInt8)} (short : ∀ segment ∈ segments, segment.length < 65536)
    (reached : deliver env fuel state segments = some last) :
    ∃ calls, handleCalls last = handleCalls state ++ calls := by
  induction segments generalizing state with
  | nil =>
      cases Option.some.inj reached
      exact ⟨[], (List.append_nil _).symm⟩
  | cons segment segments ih =>
      rw [deliver, Option.bind_eq_some_iff] at reached
      obtain ⟨next, parsed, reached⟩ := reached
      obtain ⟨first, firstEq, _⟩ := parseLoop_accounted (short segment List.mem_cons_self) parsed
      obtain ⟨later, laterEq⟩ := ih
        (fun other member => short other (List.mem_cons_of_mem _ member)) reached
      exact ⟨first ++ later, by rw [laterEq, firstEq, List.append_assoc]⟩

/-- Complete calls for all packets need all the bytes of the segments. -/
theorem cutAtBorders_of_deliver {env : MqttEnv} {state last : MqttState} {fuel : Nat}
    {segments : List (List UInt8)} {packets : List MqttPacket}
    (short : ∀ segment ∈ segments, segment.length < 65536)
    (reached : deliver env fuel state segments = some last)
    (calls : handleCalls last = handleCalls state ++ packets.map MqttPacket.handleCall) :
    (packets.flatMap MqttPacket.bytes).length ≤ segments.flatten.length ∧
      ((packets.flatMap MqttPacket.bytes).length = segments.flatten.length →
        CutAtBorders packets segments) := by
  induction segments generalizing state packets with
  | nil =>
      cases Option.some.inj reached
      have noPackets : packets = [] := by
        simpa using calls
      subst noPackets
      exact ⟨Nat.le_refl _, fun _ => ⟨[], rfl, rfl⟩⟩
  | cons segment segments ih =>
      have shortRest : ∀ other ∈ segments, other.length < 65536 :=
        fun other member => short other (List.mem_cons_of_mem _ member)
      rw [deliver, Option.bind_eq_some_iff] at reached
      obtain ⟨next, parsed, reached⟩ := reached
      obtain ⟨first, firstEq, accounted⟩ :=
        parseLoop_accounted (short segment List.mem_cons_self) parsed
      obtain ⟨later, laterEq⟩ := deliver_calls shortRest reached
      rw [laterEq, firstEq, List.append_assoc, List.append_cancel_left_eq] at calls
      obtain ⟨group, others, rfl, rfl, rfl⟩ := List.map_eq_append_iff.mp calls.symm
      have complete : ∀ call ∈ group.map MqttPacket.handleCall, call.Complete := by
        intro call member
        obtain ⟨packet, _, rfl⟩ := List.mem_map.mp member
        exact packet.handleCall_complete
      obtain ⟨groupLe, groupEq⟩ := accounted complete
      obtain ⟨othersLe, othersEq⟩ := ih shortRest reached laterEq
      rw [flatMap_handleCall, List.drop_zero] at groupLe groupEq
      rw [List.flatMap_append, List.length_append, List.flatten_cons, List.length_append]
      constructor
      · omega
      · intro lengths
        obtain ⟨groups, rfl, rfl⟩ := othersEq (by omega)
        exact ⟨group :: groups, rfl, by rw [List.map_cons, groupEq (by omega)]⟩

/-- Packets that each have a segment of their own are handled as a whole and in
order; any other way of cutting their bytes into segments leads to the same
calls exactly when it cuts between packets only. -/
theorem mqtt_segmentation_iff (env : MqttEnv) (state : MqttState)
    (idle : state.receiveBufferLength = 0) (packets : List MqttPacket)
    (fits : ∀ packet ∈ packets, packet.bytes.length ≤ sendbufferLength)
    (segments : List (List UInt8))
    (sizes : ∀ segment ∈ segments, segment ≠ [] ∧ segment.length ≤ uipBufferSize)
    (cut : segments.flatten = packets.flatMap MqttPacket.bytes) :
    HandlesEachOnce env state (packets.map MqttPacket.bytes) packets ∧
      (HandlesEachOnce env state segments packets ↔ CutAtBorders packets segments) := by
  have small : ∀ packet ∈ packets, packet.bytes.length < 65536 := by
    intro packet member
    have bound := fits packet member
    rw [sendbufferLength] at bound
    omega
  have short : ∀ segment ∈ segments, segment.length < 65536 := by
    intro segment member
    have bound := (sizes segment member).2
    rw [uipBufferSize] at bound
    omega
  have handled : ∀ segments, CutAtBorders packets segments →
      HandlesEachOnce env state segments packets := by
    rintro segments ⟨groups, rfl, rfl⟩
    obtain ⟨last, reached, calls⟩ :=
      deliver_groups env idle small (Nat.lt_succ_self _)
    exact ⟨_, last, reached, calls⟩
  constructor
  · apply handled
    refine ⟨packets.map fun packet => [packet], ?_, ?_⟩
    · rw [← List.flatMap_def]
      exact List.flatMap_singleton' packets
    · rw [List.map_map]
      apply List.map_congr_left
      intro packet _
      exact (List.flatMap_singleton ..).symm
  · constructor
    · rintro ⟨fuel, last, reached, calls⟩
      exact (cutAtBorders_of_deliver short reached calls).2 (by rw [cut])
    · exact handled segments

theorem zeroBlock_fits : 0 < 65536 := by decide

def quietEnv : MqttEnv where
  config := ⟨topicA, none, none, none, 0, false, zeroBlock 0 zeroBlock_fits, []⟩
  callbacks := []
  reaction := fun _ => []
  staleBytes := fun _ => 0

def connectedMqtt : MqttState := { poweredMqtt with stage := .connected }

/-- The answer to a ping, two bytes. -/
def pingrespPacket : MqttPacket := ⟨mqttPingresp, zeroBlock 0 zeroBlock_fits⟩

theorem mqtt_segmentation_joined :
    HandlesEachOnce quietEnv connectedMqtt [[0xd0, 0], [0xd0, 0]]
        [pingrespPacket, pingrespPacket] ∧
      (HandlesEachOnce quietEnv connectedMqtt [[0xd0, 0, 0xd0, 0]]
          [pingrespPacket, pingrespPacket] ↔
        CutAtBorders [pingrespPacket, pingrespPacket] [[0xd0, 0, 0xd0, 0]]) :=
  mqtt_segmentation_iff quietEnv connectedMqtt rfl [pingrespPacket, pingrespPacket]
    (by decide) [[0xd0, 0, 0xd0, 0]] (by decide) (by decide)

/-- A packet cut behind its header byte is not handled. -/
theorem mqtt_segmentation_fails_inside_packet :
    connectedMqtt.stage = .connected ∧ connectedMqtt.receiveBufferLength = 0 ∧
      [[0xd0], [0]].flatten = [pingrespPacket].flatMap MqttPacket.bytes ∧
      HandlesEachOnce quietEnv connectedMqtt [pingrespPacket.bytes] [pingrespPacket] ∧
      ¬HandlesEachOnce quietEnv connectedMqtt [[0xd0], [0]] [pingrespPacket] := by
  refine ⟨rfl, rfl, by decide, ?_, ?_⟩
  · have idle : connectedMqtt.receiveBufferLength = 0 := rfl
    have small : ∀ packet ∈ [[pingrespPacket]].flatten, packet.bytes.length < 65536 := by
      decide
    obtain ⟨last, reached, calls⟩ := deliver_groups quietEnv idle small (Nat.lt_succ_self 1)
    exact ⟨2, last, reached, calls⟩
  · rintro ⟨fuel, last, reached, calls⟩
    obtain ⟨groups, groupsEq, segmentsEq⟩ :=
      (cutAtBorders_of_deliver (by decide) reached calls).2 (by decide)
    cases groups with
    | nil => cases segmentsEq
    | cons group groups =>
        rw [List.map_cons, List.cons.injEq] at segmentsEq
        cases group with
        | nil => cases segmentsEq.1
        | cons packet group =>
            have isPingresp : packet = pingrespPacket := by
              simp only [List.flatten_cons, List.cons_append, List.cons.injEq] at groupsEq
              exact groupsEq.1
            subst isPingresp
            have lengths := congrArg List.length segmentsEq.1
            rw [List.flatMap_cons, List.length_append] at lengths
            have packetLength : pingrespPacket.bytes.length = 2 := by decide
            rw [packetLength, List.length_singleton] at lengths
            omega

end Ethersex.Mqtt

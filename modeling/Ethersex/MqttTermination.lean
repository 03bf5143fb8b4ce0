import Ethersex.MqttSegmentation

/-!
# When `mqtt_parse` ends

The loop of `mqtt_parse` goes on while bytes of the segment are left, but not
every turn takes one: a packet whose size is a multiple of 65536 takes none, a
waiting packet that is complete already takes none, and the loop over the length
field counts with eight bits and starts again behind 256 continued digits.  The
predicates below say from the segment and the receive state alone when none of
this happens; the callbacks have no part in it.
-/

namespace Ethersex.Mqtt

open ByteMemory

/-- The digits in front of the one that ends a length field. -/
def continuedDigits (data : List UInt8) : Nat :=
  (data.takeWhile fun byte => 128 ≤ byte.toNat).length

/-- The number that a length field stands for, seven bits a digit. -/
def fieldValue : List UInt8 → Nat
  | [] => 0
  | byte :: data =>
      byte.toNat % 128 + if byte.toNat < 128 then 0 else 128 * fieldValue data

/-- The size of a packet with this data behind its header byte, as a number of
16 bits. -/
def packetSize (data : List UInt8) : Nat := (fieldValue data + continuedDigits data + 2) % 65536

/-- The packet in front is there as a whole.  A length field of 256 digits
counts as not complete. -/
def Whole (data : List UInt8) : Prop :=
  continuedDigits data < data.length ∧ continuedDigits data ≠ 255 ∧
    packetSize data ≤ data.length + 1

instance : DecidablePred Whole := fun _ => inferInstanceAs (Decidable (_ ∧ _ ∧ _))

/-- No length field has 256 continued digits, and no packet takes no byte. -/
inductive Readable : List UInt8 → Prop
  | empty : Readable []
  | incomplete {header : UInt8} {data : List UInt8} (field : continuedDigits data < 256)
      (waits : ¬Whole data) : Readable (header :: data)
  | packet {header : UInt8} {data : List UInt8} (field : continuedDigits data < 256)
      (whole : Whole data) (positive : 0 < packetSize data)
      (rest : Readable ((header :: data).drop (packetSize data))) : Readable (header :: data)

/-- A packet of known length is waiting: the segment does not reach behind it,
there is no room for it, or it is as long as the array and the count of the
received bytes starts again at zero. -/
def KnownEnds (head received expected : Nat) (segment : List UInt8) : Prop :=
  segment = [] ∨ received + segment.length ≤ expected ∨ sendbufferLength < head + expected ∨
    (expected = sendbufferLength ∧ Readable (segment.drop (sendbufferLength - received)))

/-- The length that the waiting bytes tell, zero when they do not tell it yet. -/
def toldLength (received : List UInt8) : Nat :=
  if continuedDigits received.tail < received.tail.length then
    fieldValue received.tail % 65536
  else
    0

/-- A packet of unknown length is waiting and takes the segment byte by byte.
When the array is full of it, the length field is looked for behind the array. -/
def UnknownEnds (memory : Memory) (head : Nat) : List UInt8 → List UInt8 → Prop
  | _, [] => True
  | stored, byte :: segment =>
      sendbufferLength < head + stored.length + 1 ∨
        if stored.length + 1 = sendbufferLength then
          continuedDigits (readBlock memory (sendbufferLength + 1) 65535) < 256 ∧
            Readable segment
        else if toldLength (stored ++ [byte]) = 0 then
          UnknownEnds memory head (stored ++ [byte]) segment
        else
          KnownEnds head (stored.length + 1) (toldLength (stored ++ [byte])) segment

/-- The received bytes that wait at the back of the array. -/
def waitingBytes (state : MqttState) : List UInt8 :=
  readBlock state.sendBuffer (sendbufferLength - state.receiveBufferLength.toNat)
    state.receiveBufferLength.toNat

def ParseEnds (state : MqttState) (segment : List UInt8) : Prop :=
  if state.receiveBufferLength = 0 then
    Readable segment
  else if state.receivePacketLength ≠ 0 then
    KnownEnds state.currentHead.toNat state.receiveBufferLength.toNat
      state.receivePacketLength.toNat segment
  else
    UnknownEnds state.sendBuffer state.currentHead.toNat (waitingBytes state) segment

section LengthField

variable {buffer : Memory} {maxRead : Nat}

theorem continuedDigits_last {byte : UInt8} (last : byte.toNat < 128) (data : List UInt8) :
    continuedDigits (byte :: data) = 0 := by
  rw [continuedDigits, List.takeWhile_cons_of_neg (by simpa using last)]
  rfl

theorem continuedDigits_continued {byte : UInt8} (continued : ¬byte.toNat < 128)
    (data : List UInt8) : continuedDigits (byte :: data) = continuedDigits data + 1 := by
  rw [continuedDigits, List.takeWhile_cons_of_pos (by simpa using continued)]
  rfl

theorem parseDigits_eq {data : List UInt8} {fuel i l : Nat}
    (stored : readBlock buffer i data.length = data) (all : i + data.length = maxRead) :
    parseDigits buffer maxRead fuel i l =
      if continuedDigits data < fuel then
        if continuedDigits data < data.length then
          some (UInt8.ofNat (i + continuedDigits data + 1),
            UInt16.ofNat (l + fieldValue data * 2 ^ (i * 7)))
        else
          some (0, 0)
      else
        none := by
  induction data generalizing fuel i l with
  | nil =>
      cases fuel with
      | zero => rfl
      | succ fuel =>
          have ended : ¬i < maxRead := by
            rw [List.length_nil] at all
            omega
          rw [parseDigits, if_neg ended]
          rfl
  | cons byte data ih =>
      cases fuel with
      | zero => rfl
      | succ fuel =>
          rw [List.length_cons, readBlock_succ, List.cons.injEq] at stored
          rw [List.length_cons] at all
          have inside : i < maxRead := by omega
          rw [parseDigits, if_pos inside, stored.1]
          by_cases last : byte.toNat < 128
          · rw [continuedDigits_last last, if_pos (Nat.succ_pos fuel), List.length_cons,
              if_pos (Nat.succ_pos _), fieldValue, if_pos last, if_pos last, Nat.add_zero i,
              Nat.add_zero (byte.toNat % 128), show (65536 : Nat) = 2 ^ 16 from rfl,
              UInt16.ofNat_mod_size]
          · have valueEq : l + byte.toNat % 128 * 2 ^ (i * 7) +
                fieldValue data * 2 ^ ((i + 1) * 7) =
                  l + fieldValue (byte :: data) * 2 ^ (i * 7) := by
              rw [fieldValue, if_neg last, Nat.add_mul, Nat.pow_add]
              ring
            dsimp only
            rw [if_neg last, ih stored.2 (by omega), continuedDigits_continued last,
              List.length_cons]
            simp only [Nat.add_lt_add_iff_right]
            rw [show i + 1 + continuedDigits data + 1 = i + (continuedDigits data + 1) + 1 by omega,
              ← valueEq]
            congr 3
            rw [← UInt16.ofNat_mod_size, show (2 : Nat) ^ 16 = 65536 from rfl, Nat.mod_add_mod,
              show (65536 : Nat) = 2 ^ 16 from rfl, UInt16.ofNat_mod_size]

theorem mqttParseLengthField_eq {data : List UInt8}
    (stored : readBlock buffer 0 data.length = data) :
    mqttParseLengthField buffer data.length =
      if continuedDigits data < 256 then
        if continuedDigits data < data.length then
          some (UInt8.ofNat (continuedDigits data + 1), UInt16.ofNat (fieldValue data))
        else
          some (0, 0)
      else
        none := by
  rw [mqttParseLengthField, parseDigits_eq stored (Nat.zero_add _)]
  simp only [Nat.zero_add, Nat.zero_mul, Nat.pow_zero, Nat.mul_one]

end LengthField

/-- The loop of `mqtt_parse` has a result from here. -/
def LoopEnds (env : MqttEnv) (segment : List UInt8) (state : MqttState) (bytesRead : Nat) : Prop :=
  ∃ fuel last, parseLoop env segment fuel state bytesRead = some last

section Loop

variable {env : MqttEnv} {segment : List UInt8} {state : MqttState} {bytesRead : Nat}

theorem loopEnds_of_read (read : segment.length ≤ bytesRead) :
    LoopEnds env segment state bytesRead :=
  ⟨1, state, by rw [parseLoop, if_neg (Nat.not_lt.mpr read)]⟩

theorem loopEnds_of_done {last : MqttState} (more : bytesRead < segment.length)
    (stepped : parseStep env state segment bytesRead = some (.done last)) :
    LoopEnds env segment state bytesRead :=
  ⟨1, last, by rw [parseLoop, if_pos more, stepped]; rfl⟩

theorem loopEnds_continue {next : MqttState} {read : Nat} (more : bytesRead < segment.length)
    (stepped : parseStep env state segment bytesRead = some (.continue next read)) :
    LoopEnds env segment state bytesRead ↔ LoopEnds env segment next read := by
  constructor
  · rintro ⟨fuel, last, reached⟩
    cases fuel with
    | zero => cases reached
    | succ fuel =>
        rw [parseLoop, if_pos more, stepped] at reached
        exact ⟨fuel, last, reached⟩
  · rintro ⟨fuel, last, reached⟩
    refine ⟨fuel + 1, last, ?_⟩
    rw [parseLoop, if_pos more, stepped]
    exact reached

theorem not_loopEnds_of_none (more : bytesRead < segment.length)
    (stepped : parseStep env state segment bytesRead = none) :
    ¬LoopEnds env segment state bytesRead := by
  rintro ⟨fuel, last, reached⟩
  cases fuel with
  | zero => cases reached
  | succ fuel =>
      rw [parseLoop, if_pos more, stepped] at reached
      cases reached

/-- A turn that takes no byte and leads to a state of the same kind is repeated
for ever. -/
theorem not_loopEnds_of_invariant {Kept : MqttState → Prop} (more : bytesRead < segment.length)
    (turn : ∀ state, Kept state →
      ∃ next, parseStep env state segment bytesRead = some (.continue next bytesRead) ∧ Kept next)
    (kept : Kept state) : ¬LoopEnds env segment state bytesRead := by
  rintro ⟨fuel, last, reached⟩
  induction fuel generalizing state with
  | zero => cases reached
  | succ fuel ih =>
      obtain ⟨next, stepped, keptNext⟩ := turn state kept
      rw [parseLoop, if_pos more, stepped] at reached
      exact ih keptNext reached

end Loop

section Storing

variable {env : MqttEnv} {segment : List UInt8} {state : MqttState} {bytesRead : Nat}
  {length : UInt16}

theorem bufferFragment_full
    (full : sendbufferLength <
      (state.currentHead.toNat + length.toNat + state.receiveBufferLength.toNat) % 65536) :
    bufferFragment env state segment bytesRead length =
      some (false, mqttAbortConnection env state) := by
  have refused : mqttBufferFree state length = false := by
    rw [mqttBufferFree, decide_eq_false_iff_not]
    omega
  rw [bufferFragment, mqttWriteToReceiveBuffer, refused]
  rfl

theorem bufferFragment_outside
    (free : (state.currentHead.toNat + length.toNat + state.receiveBufferLength.toNat) % 65536 ≤
      sendbufferLength)
    (outside : sendbufferLength < state.receiveBufferLength.toNat + length.toNat) :
    bufferFragment env state segment bytesRead length = none := by
  rw [bufferFragment, mqttWriteToReceiveBuffer,
    if_pos (show mqttBufferFree state length = true from decide_eq_true free)]
  dsimp only
  rw [if_neg (Nat.not_le.mpr outside)]
  rfl

/-- The state after `bytes` were stored behind the waiting ones. -/
structure Stores (before after : MqttState) (bytes : List UInt8) : Prop where
  head : after.currentHead = before.currentHead
  expected : after.receivePacketLength = before.receivePacketLength
  received : after.receiveBufferLength.toNat =
    (before.receiveBufferLength.toNat + bytes.length) % 256
  behind : ∀ index, sendbufferLength ≤ index → after.sendBuffer index = before.sendBuffer index
  content : readBlock after.sendBuffer
    (sendbufferLength - (before.receiveBufferLength.toNat + bytes.length))
    (before.receiveBufferLength.toNat + bytes.length) = waitingBytes before ++ bytes

theorem bufferFragment_stores (env : MqttEnv) (segment : List UInt8) (bytesRead : Nat)
    (room : state.currentHead.toNat + length.toNat + state.receiveBufferLength.toNat ≤
      sendbufferLength) :
    ∃ next, bufferFragment env state segment bytesRead length = some (true, next) ∧
      Stores state next (readBlock (appdata env segment bytesRead) 0 length.toNat) := by
  have bounds : sendbufferLength = 256 := rfl
  have free : mqttBufferFree state length = true := by
    rw [mqttBufferFree, decide_eq_true_iff]
    omega
  have inside : state.receiveBufferLength.toNat + length.toNat ≤ sendbufferLength := by omega
  have joined : writeBlock (writeBlock state.sendBuffer
      (sendbufferLength - state.receiveBufferLength.toNat - length.toNat) (waitingBytes state))
      (sendbufferLength - length.toNat) (readBlock (appdata env segment bytesRead) 0 length.toNat) =
      writeBlock state.sendBuffer
        (sendbufferLength - (state.receiveBufferLength.toNat + length.toNat))
        (waitingBytes state ++ readBlock (appdata env segment bytesRead) 0 length.toNat) := by
    rw [writeBlock_append, waitingBytes, length_readBlock, Nat.sub_sub]
    congr 1
    omega
  refine ⟨{ state with
    sendBuffer := writeBlock state.sendBuffer
      (sendbufferLength - (state.receiveBufferLength.toNat + length.toNat))
      (waitingBytes state ++ readBlock (appdata env segment bytesRead) 0 length.toNat)
    receiveBufferLength := state.receiveBufferLength + UInt8.ofNat length.toNat }, ?_,
    rfl, rfl, ?_, ?_, ?_⟩
  · rw [bufferFragment, mqttWriteToReceiveBuffer, if_pos free]
    dsimp only
    rw [if_pos inside, ← waitingBytes, joined]
    rfl
  · rw [length_readBlock, UInt8.toNat_add, UInt8.toNat_ofNat']
    omega
  · intro index behind
    apply writeBlock_outside
    rw [List.length_append, waitingBytes, length_readBlock, length_readBlock]
    omega
  · have lengthEq : (waitingBytes state ++
        readBlock (appdata env segment bytesRead) 0 length.toNat).length =
          state.receiveBufferLength.toNat + length.toNat := by
      rw [List.length_append, waitingBytes, length_readBlock, length_readBlock]
    rw [length_readBlock, ← lengthEq]
    exact readBlock_writeBlock_same _ _ _

end Storing

section Fresh

variable {env : MqttEnv} {segment : List UInt8} {state : MqttState} {bytesRead : Nat}

/-- Storing the rest of the segment is the last turn, whether it fits or not. -/
theorem loopEnds_bufferRest {before : MqttState} (short : segment.length ≤ uipBufferSize)
    (more : bytesRead < segment.length)
    (stepped : parseStep env state segment bytesRead = bufferRest env before segment bytesRead) :
    LoopEnds env segment state bytesRead := by
  have sizes : uipBufferSize = 1500 := rfl
  have bounds : sendbufferLength = 256 := rfl
  have headLt := before.currentHead.toNat_lt
  have receivedLt := before.receiveBufferLength.toNat_lt
  have lengthEq : (UInt16.ofNat (segment.length - bytesRead)).toNat =
      segment.length - bytesRead := by
    rw [UInt16.toNat_ofNat']
    omega
  by_cases room : before.currentHead.toNat + (segment.length - bytesRead) +
      before.receiveBufferLength.toNat ≤ sendbufferLength
  · obtain ⟨next, buffered, -⟩ :=
      bufferFragment_stores env segment bytesRead (lengthEq.symm ▸ room)
    rw [bufferRest, buffered] at stepped
    rw [loopEnds_continue more stepped]
    apply loopEnds_of_read
    omega
  · have full : sendbufferLength < (before.currentHead.toNat +
        (UInt16.ofNat (segment.length - bytesRead)).toNat +
        before.receiveBufferLength.toNat) % 65536 := by
      rw [lengthEq]
      omega
    rw [bufferRest, bufferFragment_full full] at stepped
    exact loopEnds_of_done more stepped

variable {header : UInt8} {data : List UInt8}

theorem more_of_ahead (ahead : segment.drop bytesRead = header :: data) :
    bytesRead < segment.length ∧ segment.length - bytesRead = data.length + 1 := by
  have lengths := congrArg List.length ahead
  rw [List.length_drop, List.length_cons] at lengths
  omega

theorem mqttParseLengthField_ahead (ahead : segment.drop bytesRead = header :: data) :
    mqttParseLengthField (appdata env segment (bytesRead + 1)) (segment.length - bytesRead - 1) =
      if continuedDigits data < 256 then
        if continuedDigits data < data.length then
          some (UInt8.ofNat (continuedDigits data + 1), UInt16.ofNat (fieldValue data))
        else
          some (0, 0)
      else
        none := by
  obtain ⟨more, lengthEq⟩ := more_of_ahead ahead
  have stored : readBlock (appdata env segment (bytesRead + 1)) 0 data.length = data := by
    rw [readBlock_appdata (by omega), Nat.add_zero, ← List.drop_drop, ahead, List.drop_one,
      List.tail_cons, List.take_length]
  rw [lengthEq, Nat.add_sub_cancel, mqttParseLengthField_eq stored]

theorem parseFresh_unread (ahead : segment.drop bytesRead = header :: data)
    (unread : ¬continuedDigits data < 256) : parseFresh env state segment bytesRead = none := by
  rw [parseFresh, mqttParseLengthField_ahead ahead, if_neg unread]
  rfl

theorem toNat_size (few : continuedDigits data < 255) :
    ((UInt16.ofNat (fieldValue data)).toNat +
      (UInt8.ofNat (continuedDigits data + 1)).toNat + 1) % 65536 = packetSize data := by
  rw [UInt16.toNat_ofNat', UInt8.toNat_ofNat', packetSize]
  omega

theorem llen_ne_zero (few : continuedDigits data < 255) :
    UInt8.ofNat (continuedDigits data + 1) ≠ 0 := by
  intro zero
  have zeroNat := congrArg UInt8.toNat zero
  rw [UInt8.toNat_ofNat', UInt8.toNat_zero] at zeroNat
  omega

theorem parseFresh_incomplete (env : MqttEnv) (state : MqttState)
    (ahead : segment.drop bytesRead = header :: data) (field : continuedDigits data < 256)
    (waits : ¬Whole data) :
    ∃ before, parseFresh env state segment bytesRead =
      bufferRest env before segment bytesRead := by
  rw [parseFresh, mqttParseLengthField_ahead ahead, if_pos field]
  by_cases told : continuedDigits data < data.length
  · rw [if_pos told, Option.bind_some]
    dsimp only
    by_cases many : continuedDigits data = 255
    · rw [if_pos (by rw [many]; rfl)]
      exact ⟨state, rfl⟩
    · have large : ¬packetSize data ≤ segment.length - bytesRead := by
        rw [(more_of_ahead ahead).2]
        exact fun inside => waits ⟨told, many, inside⟩
      have few : continuedDigits data < 255 := by omega
      rw [if_neg (llen_ne_zero few), toNat_size few, if_neg large]
      exact ⟨_, rfl⟩
  · rw [if_neg told, Option.bind_some]
    exact ⟨state, rfl⟩

theorem parseFresh_whole (env : MqttEnv) (empty : state.receiveBufferLength = 0)
    (ahead : segment.drop bytesRead = header :: data) (field : continuedDigits data < 256)
    (whole : Whole data) :
    ∃ next, parseFresh env state segment bytesRead =
        some (.continue next (bytesRead + packetSize data)) ∧
      next.receiveBufferLength = 0 := by
  obtain ⟨told, notMany, inside⟩ := whole
  have few : continuedDigits data < 255 := by omega
  rw [parseFresh, mqttParseLengthField_ahead ahead, if_pos field, if_pos told, Option.bind_some]
  dsimp only
  rw [if_neg (llen_ne_zero few), toNat_size few,
    if_pos (by rw [(more_of_ahead ahead).2]; exact inside)]
  exact ⟨_, rfl, (mqttHandlePacket_calls env _ _ _ _ _).1.trans empty⟩

theorem loopEnds_of_readable (short : segment.length ≤ uipBufferSize)
    (empty : state.receiveBufferLength = 0) {ahead : List UInt8} (readable : Readable ahead)
    (aheadEq : segment.drop bytesRead = ahead) : LoopEnds env segment state bytesRead := by
  induction readable generalizing state bytesRead with
  | empty =>
      apply loopEnds_of_read
      exact List.drop_eq_nil_iff.mp aheadEq
  | incomplete field waits =>
      obtain ⟨before, stepped⟩ := parseFresh_incomplete env state aheadEq field waits
      apply loopEnds_bufferRest short (more_of_ahead aheadEq).1
      rw [parseStep, if_pos empty]
      exact stepped
  | packet field whole positive rest ih =>
      obtain ⟨next, stepped, emptyNext⟩ := parseFresh_whole env empty aheadEq field whole
      rw [loopEnds_continue (more_of_ahead aheadEq).1 (by rw [parseStep, if_pos empty, stepped])]
      apply ih emptyNext
      rw [← List.drop_drop, aheadEq]

theorem readable_of_loopEnds (empty : state.receiveBufferLength = 0)
    (ends : LoopEnds env segment state bytesRead) : Readable (segment.drop bytesRead) := by
  obtain ⟨fuel, last, reached⟩ := ends
  induction fuel generalizing state bytesRead with
  | zero => cases reached
  | succ fuel ih =>
      cases ahead : segment.drop bytesRead with
      | nil => exact .empty
      | cons header data =>
          rw [parseLoop, if_pos (more_of_ahead ahead).1, parseStep, if_pos empty] at reached
          by_cases field : continuedDigits data < 256
          · by_cases whole : Whole data
            · obtain ⟨next, stepped, emptyNext⟩ := parseFresh_whole env empty ahead field whole
              rw [stepped, Option.bind_some] at reached
              have rest := ih emptyNext reached
              rw [← List.drop_drop, ahead] at rest
              by_cases positive : 0 < packetSize data
              · exact .packet field whole positive rest
              · rw [show packetSize data = 0 by omega] at rest
                exact rest
            · exact .incomplete field whole
          · rw [parseFresh_unread ahead field] at reached
            cases reached

end Fresh

/-- The waiting packet is complete and there is room for it. -/
structure Stuck (count : Nat) (state : MqttState) : Prop where
  received : state.receiveBufferLength.toNat = count
  expected : state.receivePacketLength.toNat = count
  room : state.currentHead.toNat + count ≤ sendbufferLength

section Quiet

variable {count : Nat} {state : MqttState} {data : Memory} {packet : Nat} {packetLength : UInt16}

theorem Stuck.construct (stuck : Stuck count state) (positive : 0 < count) (request : PacketRequest)
    (exact : (request.encoded state.nextMsgId).length = request.estimate.toNat)
    (small : request.estimate.toNat ≤ 4) : Stuck count (request.construct state).2 := by
  have bounds : sendbufferLength = 256 := rfl
  cases free : mqttBufferFree state request.estimate with
  | false =>
      rw [request.construct_refused free]
      exact stuck
  | true =>
      have room := stuck.room
      rw [mqttBufferFree, decide_eq_true_iff, stuck.received] at free
      have fits : state.currentHead.toNat +
          ((request.pieces state.nextMsgId).flatMap Piece.bytes).length < 256 := by
        change state.currentHead.toNat + (request.encoded state.nextMsgId).length < 256
        omega
      have accepts : mqttBufferFree state request.estimate = true := by
        rw [mqttBufferFree, decide_eq_true_iff, stuck.received]
        exact free
      obtain ⟨nextMsgId, accepted⟩ := request.construct_accepted accepts
      rw [accepted, foldl_writePiece fits]
      refine ⟨stuck.received, stuck.expected, ?_⟩
      change (state.currentHead + UInt8.ofNat (request.encoded state.nextMsgId).length).toNat +
        count ≤ sendbufferLength
      rw [UInt8.toNat_add, UInt8.toNat_ofNat']
      omega

theorem Stuck.acknowledge (stuck : Stuck count state) (positive : 0 < count)
    (messageType : UInt8) (messageId : UInt16) :
    Stuck count (mqttConstructAckPacket state messageType messageId).2 :=
  stuck.construct positive (.ack messageType messageId) rfl (Nat.le_refl 4)

theorem Stuck.handleConnack (stuck : Stuck count state) :
    Stuck count (handleConnack quietEnv state data packet packetLength) := by
  rw [Mqtt.handleConnack]
  split
  · exact ⟨stuck.received, stuck.expected, stuck.room⟩
  · split
    · exact ⟨stuck.received, stuck.expected, stuck.room⟩
    · split
      · exact ⟨stuck.received, stuck.expected, stuck.room⟩
      · exact ⟨stuck.received, stuck.expected, stuck.room⟩

theorem Stuck.handlePublish (stuck : Stuck count state) (positive : 0 < count) :
    Stuck count (handlePublish quietEnv state data packet packetLength) := by
  rw [Mqtt.handlePublish]
  dsimp only
  split
  · exact ⟨stuck.received, stuck.expected, stuck.room⟩
  · split
    · exact ⟨stuck.received, stuck.expected, stuck.room⟩
    · rw [acknowledgePublish]
      split
      · exact stuck.acknowledge positive _ _
      · split
        · exact stuck.acknowledge positive _ _
        · exact stuck

theorem Stuck.handleReleased (stuck : Stuck count state) (positive : 0 < count) (answer : UInt8) :
    Stuck count (handleReleased quietEnv state data packet packetLength answer) := by
  rw [Mqtt.handleReleased]
  split
  · exact ⟨stuck.received, stuck.expected, stuck.room⟩
  · exact stuck.acknowledge positive _ _

theorem Stuck.handleConnected (stuck : Stuck count state) (positive : 0 < count) :
    Stuck count (handleConnected quietEnv state data packet packetLength) := by
  rw [Mqtt.handleConnected]
  split
  · exact stuck.handlePublish positive
  · split
    · exact stuck.handleReleased positive mqttPubrel
    · split
      · exact stuck.handleReleased positive mqttPubcomp
      · split
        · exact stuck.construct positive (.zerolength mqttPingresp) rfl (by decide)
        · split
          · exact ⟨stuck.received, stuck.expected, stuck.room⟩
          · exact stuck

theorem Stuck.handlePacket (stuck : Stuck count state) (positive : 0 < count) (available : Nat)
    (llen : UInt8) :
    Stuck count (mqttHandlePacket quietEnv state data available llen packetLength) := by
  have begun : Stuck count (beginPacket state (recordedCall data available llen packetLength)) :=
    ⟨stuck.received, stuck.expected, stuck.room⟩
  rw [mqttHandlePacket]
  split
  · exact begun.handleConnack
  · exact begun.handleConnected positive
  · exact begun

end Quiet

section Known

variable {env : MqttEnv} {segment : List UInt8} {state : MqttState} {bytesRead : Nat}

theorem parseStep_known (env : MqttEnv) (segment : List UInt8) (bytesRead : Nat)
    (waiting : state.receiveBufferLength ≠ 0) (known : state.receivePacketLength ≠ 0) :
    parseStep env state segment bytesRead = parseKnown env state segment bytesRead := by
  rw [parseStep, if_neg waiting, if_pos known]

theorem toNat_fragment (state : MqttState) :
    (state.receivePacketLength - state.receiveBufferLength.toUInt16).toNat =
      (65536 + state.receivePacketLength.toNat - state.receiveBufferLength.toNat) % 65536 := by
  have receivedLt := state.receiveBufferLength.toNat_lt
  rw [UInt16.toNat_sub, UInt8.toNat_toUInt16]
  omega

/-- The packet is stored as a whole and handed over. -/
theorem parseKnown_complete (env : MqttEnv)
    (reaches : state.receivePacketLength.toNat ≤
      (state.receiveBufferLength.toNat + (segment.length - bytesRead)) % 65536)
    (ordered : state.receiveBufferLength.toNat ≤ state.receivePacketLength.toNat)
    (room : state.currentHead.toNat + state.receivePacketLength.toNat ≤ sendbufferLength) :
    ∃ stored, parseKnown env state segment bytesRead = some (.continue
        (mqttHandlePacket env stored (receivedData stored) stored.receiveBufferLength.toNat
          (UInt8.ofNat (mqttLfLength stored.receivePacketLength).toNat)
          stored.receivePacketLength)
        ((bytesRead + (state.receivePacketLength.toNat - state.receiveBufferLength.toNat)) %
          65536)) ∧
      stored.currentHead = state.currentHead ∧
      stored.receivePacketLength = state.receivePacketLength ∧
      stored.receiveBufferLength.toNat = state.receivePacketLength.toNat % 256 := by
  have bounds : sendbufferLength = 256 := rfl
  have fragmentEq : (state.receivePacketLength - state.receiveBufferLength.toUInt16).toNat =
      state.receivePacketLength.toNat - state.receiveBufferLength.toNat := by
    rw [toNat_fragment]
    omega
  have roomFragment : state.currentHead.toNat +
      (state.receivePacketLength - state.receiveBufferLength.toUInt16).toNat +
      state.receiveBufferLength.toNat ≤ sendbufferLength := by
    rw [fragmentEq]
    omega
  obtain ⟨stored, buffered, stores⟩ :=
    bufferFragment_stores env segment bytesRead roomFragment
  have receivedEq := stores.received
  rw [length_readBlock, fragmentEq] at receivedEq
  rw [parseKnown]
  dsimp only
  rw [if_pos reaches, buffered, fragmentEq]
  refine ⟨stored, rfl, stores.head, stores.expected, ?_⟩
  rw [receivedEq]
  congr 1
  omega

theorem loopEnds_of_known (short : segment.length ≤ uipBufferSize)
    (waiting : state.receiveBufferLength ≠ 0) (known : state.receivePacketLength ≠ 0)
    (ends : KnownEnds state.currentHead.toNat state.receiveBufferLength.toNat
      state.receivePacketLength.toNat (segment.drop bytesRead)) :
    LoopEnds env segment state bytesRead := by
  have sizes : uipBufferSize = 1500 := rfl
  have bounds : sendbufferLength = 256 := rfl
  have headLt := state.currentHead.toNat_lt
  have receivedLt := state.receiveBufferLength.toNat_lt
  have stepEq := parseStep_known env segment bytesRead waiting known
  by_cases more : bytesRead < segment.length
  · by_cases reaches : state.receivePacketLength.toNat ≤
        (state.receiveBufferLength.toNat + (segment.length - bytesRead)) % 65536
    · by_cases room : state.currentHead.toNat + state.receivePacketLength.toNat ≤
          sendbufferLength
      · have ordered : state.receiveBufferLength.toNat ≤ state.receivePacketLength.toNat := by
          rcases ends with none | exact | full | ⟨whole, -⟩
          · rw [List.drop_eq_nil_iff] at none
            omega
          · omega
          · omega
          · omega
        obtain ⟨stored, stepped, -, -, receivedEq⟩ :=
          parseKnown_complete env reaches ordered room
        rw [loopEnds_continue more (stepEq.trans stepped)]
        rcases ends with none | exact | full | ⟨whole, readable⟩
        · rw [List.drop_eq_nil_iff] at none
          omega
        · rw [List.length_drop] at exact
          apply loopEnds_of_read
          omega
        · omega
        · apply loopEnds_of_readable short _ readable
          · rw [List.drop_drop]
            congr 1
            omega
          · rw [(mqttHandlePacket_calls env _ _ _ _ _).1]
            apply UInt8.toNat_inj.mp
            rw [receivedEq, whole]
            rfl
      · have full : sendbufferLength < (state.currentHead.toNat +
            (state.receivePacketLength - state.receiveBufferLength.toUInt16).toNat +
            state.receiveBufferLength.toNat) % 65536 := by
          rw [toNat_fragment]
          omega
        apply loopEnds_of_done more
        rw [stepEq, parseKnown]
        dsimp only
        rw [if_pos reaches, bufferFragment_full full]
        rfl
    · apply loopEnds_bufferRest short more
      rw [stepEq, parseKnown]
      dsimp only
      rw [if_neg reaches]
  · exact loopEnds_of_read (Nat.not_lt.mp more)

/-- Without callbacks, a packet that is complete in front of the end of the
segment is handed over again and again. -/
theorem not_loopEnds_of_stuck {count : Nat} (short : segment.length ≤ uipBufferSize)
    (positive : 0 < count) (more : bytesRead < segment.length) (stuck : Stuck count state) :
    ¬LoopEnds quietEnv segment state bytesRead := by
  have sizes : uipBufferSize = 1500 := rfl
  have bounds : sendbufferLength = 256 := rfl
  apply not_loopEnds_of_invariant more _ stuck
  intro state stuck
  have received := stuck.received
  have expected := stuck.expected
  have receivedLt := state.receiveBufferLength.toNat_lt
  have waiting : state.receiveBufferLength ≠ 0 := by
    intro zero
    rw [zero, UInt8.toNat_zero] at received
    omega
  have known : state.receivePacketLength ≠ 0 := by
    intro zero
    rw [zero, UInt16.toNat_zero] at expected
    omega
  have reaches : state.receivePacketLength.toNat ≤
      (state.receiveBufferLength.toNat + (segment.length - bytesRead)) % 65536 := by
    omega
  obtain ⟨stored, stepped, headEq, expectedEq, receivedEq⟩ :=
    parseKnown_complete quietEnv reaches (by omega) (by rw [expected]; exact stuck.room)
  have stuckStored : Stuck count stored := by
    constructor
    · omega
    · rw [expectedEq]
      exact expected
    · rw [headEq]
      exact stuck.room
  rw [parseStep_known quietEnv segment bytesRead waiting known, stepped,
    show (bytesRead + (state.receivePacketLength.toNat - state.receiveBufferLength.toNat)) %
      65536 = bytesRead by omega]
  exact ⟨_, rfl, stuckStored.handlePacket positive _ _⟩

theorem known_of_loopEnds (short : segment.length ≤ uipBufferSize)
    (waiting : state.receiveBufferLength ≠ 0) (known : state.receivePacketLength ≠ 0)
    (ends : LoopEnds quietEnv segment state bytesRead) :
    KnownEnds state.currentHead.toNat state.receiveBufferLength.toNat
      state.receivePacketLength.toNat (segment.drop bytesRead) := by
  have sizes : uipBufferSize = 1500 := rfl
  have bounds : sendbufferLength = 256 := rfl
  have receivedLt := state.receiveBufferLength.toNat_lt
  have stepEq := parseStep_known quietEnv segment bytesRead waiting known
  by_contra fails
  rw [KnownEnds, List.drop_eq_nil_iff, List.length_drop, not_or, not_or, not_or] at fails
  obtain ⟨more, longer, room, notFull⟩ := fails
  have reaches : state.receivePacketLength.toNat ≤
      (state.receiveBufferLength.toNat + (segment.length - bytesRead)) % 65536 := by
    omega
  by_cases ordered : state.receiveBufferLength.toNat ≤ state.receivePacketLength.toNat
  · obtain ⟨stored, stepped, headEq, expectedEq, receivedEq⟩ :=
      parseKnown_complete quietEnv reaches ordered (by omega)
    rw [loopEnds_continue (by omega) (stepEq.trans stepped),
      Nat.mod_eq_of_lt (by omega)] at ends
    by_cases whole : state.receivePacketLength.toNat = sendbufferLength
    · apply notFull
      refine ⟨whole, ?_⟩
      have readable := readable_of_loopEnds (by
        rw [(mqttHandlePacket_calls quietEnv _ _ _ _ _).1]
        apply UInt8.toNat_inj.mp
        rw [receivedEq, whole]
        rfl) ends
      rw [List.drop_drop, ← whole]
      exact readable
    · have stuck : Stuck state.receivePacketLength.toNat stored := by
        constructor
        · omega
        · rw [expectedEq]
        · rw [headEq]
          omega
      have positive : 0 < state.receivePacketLength.toNat := by
        rw [Nat.pos_iff_ne_zero]
        exact fun zero => known (UInt16.toNat_inj.mp zero)
      exact not_loopEnds_of_stuck short positive (by omega)
        (stuck.handlePacket positive _ _) ends
  · have free : (state.currentHead.toNat +
        (state.receivePacketLength - state.receiveBufferLength.toUInt16).toNat +
        state.receiveBufferLength.toNat) % 65536 ≤ sendbufferLength := by
      rw [toNat_fragment]
      omega
    have outside : sendbufferLength < state.receiveBufferLength.toNat +
        (state.receivePacketLength - state.receiveBufferLength.toUInt16).toNat := by
      rw [toNat_fragment]
      omega
    apply not_loopEnds_of_none (by omega) _ ends
    rw [stepEq, parseKnown]
    dsimp only
    rw [if_pos reaches, bufferFragment_outside free outside]
    rfl

end Known

/-- These bytes wait, and the memory behind the array is as given. -/
structure Waits (memory : Memory) (head : Nat) (stored : List UInt8) (state : MqttState) :
    Prop where
  received : state.receiveBufferLength.toNat = stored.length
  bytes : waitingBytes state = stored
  headEq : state.currentHead.toNat = head
  behind : ∀ index, sendbufferLength ≤ index → state.sendBuffer index = memory index

section Unknown

variable {env : MqttEnv} {segment rest stored : List UInt8} {state : MqttState} {bytesRead : Nat}
  {memory : Memory} {head : Nat} {byte : UInt8}

theorem parseUnknown_full (waits : Waits memory head stored state)
    (full : sendbufferLength < head + stored.length + 1) :
    parseUnknown env state segment bytesRead =
      some (.done (mqttAbortConnection env state)) := by
  have headLt := state.currentHead.toNat_lt
  have receivedLt := state.receiveBufferLength.toNat_lt
  rw [waits.headEq] at headLt
  rw [waits.received] at receivedLt
  have refused : sendbufferLength < (state.currentHead.toNat + (1 : UInt16).toNat +
      state.receiveBufferLength.toNat) % 65536 := by
    rw [waits.headEq, waits.received, UInt16.toNat_one]
    omega
  rw [parseUnknown, bufferFragment_full refused]
  rfl

/-- One byte is moved from the segment to the waiting ones. -/
theorem bufferFragment_byte (env : MqttEnv) (ahead : segment.drop bytesRead = byte :: rest)
    (waits : Waits memory head stored state)
    (room : head + stored.length + 1 ≤ sendbufferLength) :
    ∃ next, bufferFragment env state segment bytesRead 1 = some (true, next) ∧
      Stores state next [byte] := by
  have roomByte : state.currentHead.toNat + (1 : UInt16).toNat +
      state.receiveBufferLength.toNat ≤ sendbufferLength := by
    rw [waits.headEq, waits.received, UInt16.toNat_one]
    omega
  have byteEq : readBlock (appdata env segment bytesRead) 0 (1 : UInt16).toNat = [byte] := by
    have more := (more_of_ahead ahead).1
    rw [UInt16.toNat_one, readBlock_appdata (by omega), Nat.add_zero, ahead]
    rfl
  obtain ⟨next, buffered, stores⟩ := bufferFragment_stores env segment bytesRead roomByte
  rw [byteEq] at stores
  exact ⟨next, buffered, stores⟩

/-- The waiting packet is of the length that was found, if one was. -/
def expecting (state : MqttState) (field : UInt8 × UInt16) : MqttState :=
  if field.1 ≠ 0 then { state with receivePacketLength := field.2 } else state

theorem receiveBufferLength_expecting (state : MqttState) (field : UInt8 × UInt16) :
    (expecting state field).receiveBufferLength = state.receiveBufferLength := by
  rw [expecting]
  split
  · rfl
  · rfl

theorem parseUnknown_stored {next : MqttState}
    (buffered : bufferFragment env state segment bytesRead 1 = some (true, next)) :
    parseUnknown env state segment bytesRead =
      (mqttParseLengthField (fun index => receivedData next (index + 1))
        ((next.receiveBufferLength.toNat + 65535) % 65536)).map fun field =>
          .continue (expecting next field) (bytesRead + 1) := by
  rw [parseUnknown, buffered, Option.bind_some]
  simp only [if_true]
  generalize mqttParseLengthField _ _ = field
  cases field with
  | none => rfl
  | some field => rfl

/-- The array is full: the length field is looked for behind it. -/
theorem parseUnknown_wraps (env : MqttEnv) (ahead : segment.drop bytesRead = byte :: rest)
    (waits : Waits memory head stored state) (room : head + stored.length + 1 ≤ sendbufferLength)
    (wraps : stored.length + 1 = sendbufferLength) :
    ∃ next, next.receiveBufferLength = 0 ∧ parseUnknown env state segment bytesRead =
      if continuedDigits (readBlock memory (sendbufferLength + 1) 65535) < 256 then
        some (.continue next (bytesRead + 1))
      else
        none := by
  obtain ⟨next, buffered, stores⟩ := bufferFragment_byte env ahead waits room
  have emptied : next.receiveBufferLength = 0 := by
    apply UInt8.toNat_inj.mp
    rw [stores.received, waits.received, List.length_singleton, wraps]
    rfl
  have block : readBlock (fun index => receivedData next (index + 1)) 0
      (readBlock memory (sendbufferLength + 1) 65535).length =
        readBlock memory (sendbufferLength + 1) 65535 := by
    rw [length_readBlock, readBlock, readBlock]
    apply List.map_congr_left
    intro index _
    rw [receivedData, emptied, stores.behind _ (by rw [UInt8.toNat_zero]; omega),
      waits.behind _ (by rw [UInt8.toNat_zero]; omega)]
    congr 1
    rw [UInt8.toNat_zero]
    omega
  have field := mqttParseLengthField_eq block
  rw [length_readBlock] at field
  rw [parseUnknown_stored buffered, emptied, UInt8.toNat_zero, Nat.zero_add,
    Nat.mod_eq_of_lt (by omega : 65535 < 65536), field]
  by_cases ends : continuedDigits (readBlock memory (sendbufferLength + 1) 65535) < 256
  · rw [if_pos ends, if_pos (by omega), Option.map_some]
    exact ⟨_, (receiveBufferLength_expecting _ _).trans emptied, (if_pos ends).symm⟩
  · rw [if_neg ends]
    exact ⟨next, emptied, (if_neg ends).symm⟩

theorem parseUnknown_takes (env : MqttEnv) (ahead : segment.drop bytesRead = byte :: rest)
    (unknown : state.receivePacketLength = 0) (waits : Waits memory head stored state)
    (room : head + stored.length + 1 ≤ sendbufferLength)
    (fits : stored.length + 1 < sendbufferLength) :
    ∃ next, parseUnknown env state segment bytesRead = some (.continue next (bytesRead + 1)) ∧
      Waits memory head (stored ++ [byte]) next ∧
      next.receivePacketLength.toNat = toldLength (stored ++ [byte]) := by
  have bounds : sendbufferLength = 256 := rfl
  obtain ⟨next, buffered, stores⟩ := bufferFragment_byte env ahead waits room
  have received : next.receiveBufferLength.toNat = stored.length + 1 := by
    rw [stores.received, waits.received, List.length_singleton]
    omega
  have bytes : waitingBytes next = stored ++ [byte] := by
    have content := stores.content
    rw [waits.received, List.length_singleton, waits.bytes, ← received] at content
    exact content
  have waitsNext : Waits memory head (stored ++ [byte]) next := by
    constructor
    · rw [received, List.length_append, List.length_singleton]
    · exact bytes
    · rw [stores.head, waits.headEq]
    · intro index behind
      rw [stores.behind index behind, waits.behind index behind]
  have tailLength : (stored ++ [byte]).tail.length = stored.length := by
    rw [List.length_tail, List.length_append, List.length_singleton, Nat.add_sub_cancel]
  have block : readBlock (fun index => receivedData next (index + 1)) 0
      (stored ++ [byte]).tail.length = (stored ++ [byte]).tail := by
    rw [tailLength, ← bytes, waitingBytes, received, readBlock_succ, List.tail_cons, readBlock,
      readBlock]
    apply List.map_congr_left
    intro index _
    rw [receivedData, received]
    congr 1
    omega
  have few : continuedDigits (stored ++ [byte]).tail ≤ stored.length := by
    rw [← tailLength]
    exact (List.takeWhile_prefix _).length_le
  have field := mqttParseLengthField_eq block
  rw [tailLength, if_pos (by omega)] at field
  rw [parseUnknown_stored buffered, received,
    show (stored.length + 1 + 65535) % 65536 = stored.length by omega, field, toldLength,
    tailLength]
  by_cases told : continuedDigits (stored ++ [byte]).tail < stored.length
  · rw [if_pos told, if_pos told, Option.map_some, expecting,
      if_pos (llen_ne_zero (by omega))]
    refine ⟨_, rfl, ⟨waitsNext.received, waitsNext.bytes, waitsNext.headEq, waitsNext.behind⟩, ?_⟩
    exact UInt16.toNat_ofNat'
  · rw [if_neg told, if_neg told, Option.map_some]
    refine ⟨next, rfl, waitsNext, ?_⟩
    rw [stores.expected, unknown]
    rfl

theorem Waits.parseStep (waits : Waits memory head stored state) (nonempty : stored ≠ [])
    (unknown : state.receivePacketLength = 0) :
    parseStep env state segment bytesRead = parseUnknown env state segment bytesRead := by
  have waiting : state.receiveBufferLength ≠ 0 := by
    intro zero
    apply nonempty
    apply List.eq_nil_of_length_eq_zero
    rw [← waits.received, zero]
    rfl
  rw [Mqtt.parseStep, if_neg waiting, if_neg (not_not_intro unknown)]

theorem Waits.waiting (waits : Waits memory head (stored ++ [byte]) state) :
    state.receiveBufferLength ≠ 0 := by
  intro zero
  have received := waits.received
  rw [zero, List.length_append, List.length_singleton, UInt8.toNat_zero] at received
  omega

theorem loopEnds_of_unknown (short : segment.length ≤ uipBufferSize) {ahead : List UInt8}
    (aheadEq : segment.drop bytesRead = ahead) (waits : Waits memory head stored state)
    (nonempty : stored ≠ []) (unknown : state.receivePacketLength = 0)
    (ends : UnknownEnds memory head stored ahead) : LoopEnds env segment state bytesRead := by
  induction ahead generalizing state stored bytesRead with
  | nil => exact loopEnds_of_read (List.drop_eq_nil_iff.mp aheadEq)
  | cons byte rest ih =>
      have more := (more_of_ahead aheadEq).1
      have stepEq : parseStep env state segment bytesRead =
          parseUnknown env state segment bytesRead := waits.parseStep nonempty unknown
      have restEq : segment.drop (bytesRead + 1) = rest := by
        rw [← List.drop_drop, aheadEq, List.drop_one, List.tail_cons]
      by_cases full : sendbufferLength < head + stored.length + 1
      · exact loopEnds_of_done more (stepEq.trans (parseUnknown_full waits full))
      · rw [UnknownEnds, or_iff_right full] at ends
        have room : head + stored.length + 1 ≤ sendbufferLength := Nat.not_lt.mp full
        by_cases wraps : stored.length + 1 = sendbufferLength
        · rw [if_pos wraps] at ends
          obtain ⟨next, emptied, stepped⟩ := parseUnknown_wraps env aheadEq waits room wraps
          rw [if_pos ends.1] at stepped
          rw [loopEnds_continue more (stepEq.trans stepped)]
          exact loopEnds_of_readable short emptied ends.2 restEq
        · rw [if_neg wraps] at ends
          obtain ⟨next, stepped, waitsNext, expected⟩ :=
            parseUnknown_takes env aheadEq unknown waits room (by omega)
          rw [loopEnds_continue more (stepEq.trans stepped)]
          split at ends
          case isTrue untold =>
            rw [untold] at expected
            exact ih restEq waitsNext (List.append_ne_nil_of_right_ne_nil _ (List.cons_ne_nil _ _))
              (UInt16.toNat_inj.mp expected) ends
          case isFalse told =>
            apply loopEnds_of_known short waitsNext.waiting
            · intro zero
              apply told
              rw [← expected, zero]
              rfl
            · rw [waitsNext.headEq, waitsNext.received, expected, restEq, List.length_append]
              exact ends

theorem unknown_of_loopEnds (short : segment.length ≤ uipBufferSize) {ahead : List UInt8}
    (aheadEq : segment.drop bytesRead = ahead) (waits : Waits memory head stored state)
    (nonempty : stored ≠ []) (unknown : state.receivePacketLength = 0)
    (ends : LoopEnds quietEnv segment state bytesRead) : UnknownEnds memory head stored ahead := by
  induction ahead generalizing state stored bytesRead with
  | nil => trivial
  | cons byte rest ih =>
      have more := (more_of_ahead aheadEq).1
      have stepEq : parseStep quietEnv state segment bytesRead =
          parseUnknown quietEnv state segment bytesRead := waits.parseStep nonempty unknown
      have restEq : segment.drop (bytesRead + 1) = rest := by
        rw [← List.drop_drop, aheadEq, List.drop_one, List.tail_cons]
      by_cases full : sendbufferLength < head + stored.length + 1
      · exact .inl full
      · rw [UnknownEnds, or_iff_right full]
        have room : head + stored.length + 1 ≤ sendbufferLength := Nat.not_lt.mp full
        by_cases wraps : stored.length + 1 = sendbufferLength
        · rw [if_pos wraps]
          obtain ⟨next, emptied, stepped⟩ := parseUnknown_wraps quietEnv aheadEq waits room wraps
          by_cases field :
              continuedDigits (readBlock memory (sendbufferLength + 1) 65535) < 256
          · rw [if_pos field] at stepped
            rw [loopEnds_continue more (stepEq.trans stepped)] at ends
            have readable := readable_of_loopEnds emptied ends
            rw [restEq] at readable
            exact ⟨field, readable⟩
          · rw [if_neg field] at stepped
            exact absurd ends (not_loopEnds_of_none more (stepEq.trans stepped))
        · rw [if_neg wraps]
          obtain ⟨next, stepped, waitsNext, expected⟩ :=
            parseUnknown_takes quietEnv aheadEq unknown waits room (by omega)
          rw [loopEnds_continue more (stepEq.trans stepped)] at ends
          split
          case isTrue untold =>
            rw [untold] at expected
            exact ih restEq waitsNext (List.append_ne_nil_of_right_ne_nil _ (List.cons_ne_nil _ _))
              (UInt16.toNat_inj.mp expected) ends
          case isFalse told =>
            have known : next.receivePacketLength ≠ 0 := by
              intro zero
              apply told
              rw [← expected, zero]
              rfl
            have knownEnds := known_of_loopEnds short waitsNext.waiting known ends
            rw [waitsNext.headEq, waitsNext.received, expected, restEq, List.length_append]
              at knownEnds
            exact knownEnds

end Unknown

theorem waits_self (state : MqttState) :
    Waits state.sendBuffer state.currentHead.toNat (waitingBytes state) state := by
  refine ⟨?_, rfl, rfl, fun _ _ => rfl⟩
  rw [waitingBytes, length_readBlock]

theorem waitingBytes_ne_nil {state : MqttState} (waiting : state.receiveBufferLength ≠ 0) :
    waitingBytes state ≠ [] := by
  intro none
  have lengths := congrArg List.length none
  rw [waitingBytes, length_readBlock] at lengths
  exact waiting (UInt8.toNat_inj.mp lengths)

/-- Whatever the callbacks do, `mqtt_parse` ends, exactly if the segment is
readable behind what is waiting. -/
theorem parse_ends_iff (state : MqttState) (segment : List UInt8)
    (short : segment.length ≤ uipBufferSize) :
    (∀ env, ∃ fuel last, mqttParse env fuel state segment = some last) ↔
      ParseEnds state segment := by
  rw [ParseEnds]
  by_cases empty : state.receiveBufferLength = 0
  · rw [if_pos empty]
    constructor
    · intro ends
      exact readable_of_loopEnds empty (ends quietEnv)
    · intro readable env
      exact loopEnds_of_readable short empty readable rfl
  · rw [if_neg empty]
    by_cases known : state.receivePacketLength ≠ 0
    · rw [if_pos known]
      constructor
      · intro ends
        exact known_of_loopEnds short empty known (ends quietEnv)
      · intro ends env
        exact loopEnds_of_known short empty known ends
    · rw [if_neg known]
      have unknown : state.receivePacketLength = 0 := not_not.mp known
      constructor
      · intro ends
        exact unknown_of_loopEnds short rfl (waits_self state) (waitingBytes_ne_nil empty) unknown
          (ends quietEnv)
      · intro ends env
        exact loopEnds_of_unknown short rfl (waits_self state) (waitingBytes_ne_nil empty) unknown
          ends

/-- A whole packet and the beginning of the next one. -/
theorem parse_ends_pingresp :
    ParseEnds connectedMqtt [0xd0, 0, 0xd0] ∧
      ∀ env, ∃ fuel last, mqttParse env fuel connectedMqtt [0xd0, 0, 0xd0] = some last := by
  rw [← parse_ends_iff connectedMqtt [0xd0, 0, 0xd0] (by decide), and_self]
  apply (parse_ends_iff connectedMqtt [0xd0, 0, 0xd0] (by decide)).mpr
  change Readable [0xd0, 0, 0xd0]
  apply Readable.packet (by decide) (by decide) (by decide)
  exact .incomplete (by decide) (by decide)

/-- A packet with 65532 bytes of content has the size zero: it is handed over
for ever. -/
theorem parse_never_ends :
    ¬∃ fuel last, mqttParse quietEnv fuel connectedMqtt [0xd0, 0xfc, 0xff, 0x03] = some last := by
  intro ends
  have readable : Readable [0xd0, 0xfc, 0xff, 0x03] := readable_of_loopEnds rfl ends
  have whole : Whole [0xfc, 0xff, 0x03] := by decide
  have size : packetSize [0xfc, 0xff, 0x03] = 0 := by decide
  cases readable with
  | incomplete field waits => exact waits whole
  | packet field whole positive rest =>
      rw [size] at positive
      exact Nat.lt_irrefl 0 positive

end Ethersex.Mqtt

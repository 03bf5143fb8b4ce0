import Ethersex.EmsGateway

/-!
# The input buffer of the EMS bus

The interrupt of `protocols/ems/ems.c` stores the bytes of the bus and marks the ends of the
frames; `ems_process` of `ems_proto.c` cuts them into packets again.  The interrupts touch
nothing that the loop of `ems_process` reads, so that it is one step.  The code counts on a buffer
that never overflows while it holds a mark.
-/

namespace Ethersex.EmsInput

open ByteMemory GuardedRuns
open Ems (prepareSize)

/-- `EMS_UART_INPUT_BUFSIZE`. -/
def inputBufsize : Nat := 16

/-- `struct ems_uart_input_buffer`. -/
structure InputBuffer where
  data : Memory
  count : UInt8
  eop : Memory

def eopByte (value : Nat) : Nat := value >>> 3
def eopBit (value : Nat) : UInt8 := UInt8.ofNat (1 <<< (value &&& 7))

/-- A frame end is marked at the index. -/
def IsEop (eop : Memory) (index : Nat) : Prop := eop (eopByte index) &&& eopBit index ≠ 0

instance (eop : Memory) (index : Nat) : Decidable (IsEop eop index) :=
  inferInstanceAs (Decidable (_ ≠ _))

def markEop (eop : Memory) (index : Nat) : Memory :=
  Function.update eop (eopByte index) (eop (eopByte index) ||| eopBit index)

def storeInputByte (buffer : InputBuffer) (data : UInt8) (frameEnd error : Bool) : InputBuffer :=
  let index := buffer.count.toNat
  if frameEnd then
    { data := Function.update buffer.data index 0
      count := buffer.count + 1
      eop := markEop buffer.eop index }
  else if error then
    buffer
  else
    { buffer with
      data := Function.update buffer.data index data
      count := buffer.count + 1 }

/-- `ems_uart_process_input_byte`, of which the transmit side is left out. -/
def emsUartProcessInputByte (buffer : InputBuffer) (data : UInt8) (frameEnd error : Bool) :
    InputBuffer :=
  let buffer := storeInputByte buffer data frameEnd error
  if inputBufsize ≤ buffer.count.toNat then { buffer with count := 0 } else buffer

/-- `ems_add_source_to_eop`. -/
def emsAddSourceToEop (buffer : InputBuffer) (source : UInt8) : InputBuffer :=
  let index := (buffer.count - 1).toNat
  if buffer.count = 0 then buffer
  else if buffer.data index = 0 ∧ IsEop buffer.eop index then
    { buffer with data := Function.update buffer.data index source }
  else buffer

/-- The filled part of `prepare_buffer`, and what `process_prepare_buffer` has been called with. -/
structure Prepared where
  prepare : List UInt8
  handed : List (List UInt8 × UInt8)

/-- One round of the loop of `ems_process`. -/
def processByte (prepared : Prepared) (byte : UInt8) (endOfPacket : Bool) : Prepared :=
  if endOfPacket then
    { prepare := []
      handed :=
        if 0 < prepared.prepare.length then prepared.handed ++ [(prepared.prepare, byte)]
        else prepared.handed }
  else if prepared.prepare.length < prepareSize then
    { prepared with prepare := prepared.prepare ++ [byte] }
  else
    { prepared with prepare := [] }

/-- The bytes of the buffer with their marks. -/
def InputBuffer.bytes (buffer : InputBuffer) : List (UInt8 × Bool) :=
  (List.range buffer.count.toNat).map fun index =>
    (buffer.data index, decide (IsEop buffer.eop index))

/-- `ems_process` leaves an empty buffer without marks. -/
def emptied (buffer : InputBuffer) : InputBuffer :=
  if 0 < buffer.count then { buffer with count := 0, eop := fun _ => 0 } else buffer

def emsProcess (buffer : InputBuffer) (prepared : Prepared) : InputBuffer × Prepared :=
  (emptied buffer,
    buffer.bytes.foldl (fun prepared (byte, endOfPacket) => processByte prepared byte endOfPacket)
      prepared)

/-- The gateway prepares the same packets. -/
theorem prepare_emsProcess (config : Ems.Config) (state : Ems.EmsState) (byte : UInt8)
    (endOfPacket : Bool) :
    (Ems.emsProcess config state byte endOfPacket).prepare =
      (processByte ⟨state.prepare, []⟩ byte endOfPacket).prepare := by
  rw [Ems.emsProcess, processByte]
  split_ifs <;> rfl

/-- A packet that the gateway sends has been handed over. -/
theorem recvBuffer_emsProcess (config : Ems.Config) (state : Ems.EmsState) (byte : UInt8)
    (endOfPacket : Bool) :
    (Ems.emsProcess config state byte endOfPacket).recvBuffer =
      (processByte ⟨state.prepare, []⟩ byte endOfPacket).handed.foldl
        (fun buffer (packet, source) =>
          buffer.push (Ems.appended config { state with prepare := packet } source))
        state.recvBuffer := by
  rw [Ems.emsProcess, processByte]
  split_ifs with isEnd empty some <;> first | rfl | skip
  · exact absurd some (by rw [empty]; exact Nat.lt_irrefl 0)
  · exact absurd (List.eq_nil_of_length_eq_zero (Nat.eq_zero_of_not_pos ‹_›)) empty

/-- What is received: a byte of data, the end of a frame, or more than the buffer holds. -/
inductive Slot where
  | byte (data : UInt8)
  | frameEnd
  | overflow
  deriving DecidableEq

inductive Event where
  | input (data : UInt8) (frameEnd error : Bool)
  | addSource (source : UInt8)
  | process

/-- The receiver, with what its buffer has stored since it was empty, and with what has been
processed before. -/
structure System where
  buffer : InputBuffer
  prepared : Prepared
  stored : List Slot
  log : List Slot

/-- What an event of the bus stores. -/
def slots (data : UInt8) (frameEnd error : Bool) : List Slot :=
  if frameEnd then [Slot.frameEnd] else if error then [] else [Slot.byte data]

/-- The event makes the buffer overflow. -/
def Overflows (system : System) : Event → Prop
  | .input _ frameEnd error =>
      (frameEnd ∨ !error) ∧ inputBufsize ≤ (system.buffer.count + 1).toNat
  | _ => False

instance (system : System) (event : Event) : Decidable (Overflows system event) := by
  cases event <;> unfold Overflows <;> infer_instance

def step (system : System) (event : Event) : System :=
  match event with
  | .input data frameEnd error =>
      { system with
        buffer := emsUartProcessInputByte system.buffer data frameEnd error
        stored :=
          if Overflows system event then [] else system.stored ++ slots data frameEnd error
        log := if Overflows system event then system.log ++ [Slot.overflow] else system.log }
  | .addSource source =>
      { system with buffer := emsAddSourceToEop system.buffer source }
  | .process =>
      { buffer := (emsProcess system.buffer system.prepared).1
        prepared := (emsProcess system.buffer system.prepared).2
        stored := []
        log := system.log ++ system.stored }

def poweredSystem : System where
  buffer := ⟨fun _ => 0, 0, fun _ => 0⟩
  prepared := ⟨[], []⟩
  stored := []
  log := []

def receive (events : List Event) : System := events.foldl step poweredSystem

/-- The data bytes since the last frame end, if none was lost, and the frames before.  Frames with
too many bytes are not known either. -/
structure Framing where
  current : Option (List UInt8)
  frames : List (Option (List UInt8))

def Framing.step (framing : Framing) : Slot → Framing
  | .byte data => { framing with current := framing.current.map (· ++ [data]) }
  | .frameEnd =>
      { current := some []
        frames := framing.frames ++
          [framing.current.filter fun frame => frame.length ≤ prepareSize] }
  | .overflow => { framing with current := none }

def framing (log : List Slot) : Framing := log.foldl Framing.step ⟨some [], []⟩

/-- Every packet is a frame, unless its frame is not known. -/
inductive Delivered : List (Option (List UInt8)) → List (List UInt8) → Prop
  | nil : Delivered [] []
  | empty {frames packets} (rest : Delivered frames packets) : Delivered (some [] :: frames) packets
  | packet {frame frames packets} (some_ : frame ≠ []) (rest : Delivered frames packets) :
      Delivered (some frame :: frames) (frame :: packets)
  | lost {frames packets} (rest : Delivered frames packets) : Delivered (none :: frames) packets
  | unknown {frames packets} (packet : List UInt8) (rest : Delivered frames packets) :
      Delivered (none :: frames) (packet :: packets)

/-- A mark is set only in front of the count, where a frame end is stored. -/
def MarksSound (system : System) : Prop :=
  ∀ index, index < inputBufsize → IsEop system.buffer.eop index →
    index < system.buffer.count.toNat ∧ system.stored[index]? = some Slot.frameEnd

/-- The packets handed over are the frames that have been processed. -/
def PacketsSound (system : System) : Prop :=
  Delivered (framing system.log).frames (system.prepared.handed.map Prod.fst)

def Sound (system : System) : Prop := MarksSound system ∧ PacketsSound system

def IsFrameEnd : Event → Prop
  | .input _ frameEnd _ => frameEnd
  | _ => False

/-- No frame end is lost by an overflow. -/
def KeepsEnds (system : System) (event : Event) : Prop :=
  Overflows system event → ¬IsFrameEnd event ∧
    ∀ index, index < inputBufsize → ¬IsEop system.buffer.eop index

section Marks

theorem eopBit_facts {index other : Nat} (inside : index < inputBufsize)
    (otherInside : other < inputBufsize) :
    eopBit index ≠ 0 ∧
      (eopByte other = eopByte index → other ≠ index → eopBit index &&& eopBit other = 0) := by
  have every : ∀ index other : Fin 16, eopBit index ≠ 0 ∧
      (eopByte other = eopByte index → other ≠ index → eopBit index &&& eopBit other = 0) := by
    decide
  obtain ⟨nonzero, separate⟩ := every ⟨index, inside⟩ ⟨other, otherInside⟩
  exact ⟨nonzero, fun sameByte different =>
    separate sameByte fun same => different (congrArg Fin.val same)⟩

theorem isEop_markEop {eop : Memory} {index other : Nat} (inside : index < inputBufsize)
    (otherInside : other < inputBufsize) :
    IsEop (markEop eop index) other ↔ other = index ∨ IsEop eop other := by
  obtain ⟨nonzero, separate⟩ := eopBit_facts inside otherInside
  have spread (first second third : UInt8) :
      (first ||| second) &&& third = first &&& third ||| second &&& third :=
    UInt8.toBitVec_inj.mp BitVec.and_or_distrib_right
  by_cases same : other = index
  · subst same
    refine iff_of_true ?_ (Or.inl rfl)
    rw [IsEop, markEop, Function.update_self, spread, UInt8.and_self]
    intro zero
    exact nonzero (UInt8.or_eq_zero_iff.mp zero).2
  · rw [or_iff_right same, IsEop, IsEop, markEop]
    by_cases sameByte : eopByte other = eopByte index
    · rw [sameByte, Function.update_self, spread, separate sameByte same,
        UInt8.or_zero]
    · rw [Function.update_of_ne sameByte]

theorem not_isEop_zero (index : Nat) : ¬IsEop (fun _ => 0) index :=
  fun marked => marked UInt8.zero_and

end Marks

section Rounds

variable {framing : Framing} {prepared : Prepared}

theorem Delivered.append {frames frames' : List (Option (List UInt8))}
    {packets packets' : List (List UInt8)} (first : Delivered frames packets)
    (second : Delivered frames' packets') :
    Delivered (frames ++ frames') (packets ++ packets') := by
  induction first with
  | nil => exact second
  | empty _ ih => exact ih.empty
  | packet some_ _ ih => exact ih.packet some_
  | lost _ ih => exact ih.lost
  | unknown packet _ ih => exact ih.unknown packet

/-- What has been prepared is the frame so far, if it is known. -/
structure Framed (framing : Framing) (prepared : Prepared) : Prop where
  known : ∀ frame, framing.current = some frame → frame.length ≤ prepareSize →
    prepared.prepare = frame
  delivered : Delivered framing.frames (prepared.handed.map Prod.fst)

theorem Framed.overflow (framed : Framed framing prepared) :
    Framed (framing.step Slot.overflow) prepared :=
  ⟨fun _ nothing => absurd nothing (by simp [Framing.step]), framed.delivered⟩

theorem Framed.byte (framed : Framed framing prepared) (data : UInt8) :
    Framed (framing.step (Slot.byte data)) (processByte prepared data false) := by
  have handed : (processByte prepared data false).handed = prepared.handed := by
    rw [processByte, if_neg Bool.false_ne_true]
    split_ifs <;> rfl
  refine ⟨fun frame now short => ?_, handed ▸ framed.delivered⟩
  obtain ⟨before, current, rfl⟩ := Option.map_eq_some_iff.mp now
  rw [List.length_append, List.length_singleton] at short
  have prepares := framed.known before current (by omega)
  have room : prepared.prepare.length < prepareSize := by
    rw [prepares]
    omega
  rw [processByte, if_neg Bool.false_ne_true, if_pos room, prepares]

theorem Framed.frameEnd (framed : Framed framing prepared) (source : UInt8) :
    Framed (framing.step Slot.frameEnd) (processByte prepared source true) := by
  refine ⟨fun frame now _ => Option.some.inj now, ?_⟩
  have handed : (processByte prepared source true).handed.map Prod.fst =
      prepared.handed.map Prod.fst ++
        (if 0 < prepared.prepare.length then [prepared.prepare] else []) := by
    rw [processByte, if_pos rfl]
    split_ifs
    · rw [List.map_append]
      rfl
    · rw [List.append_nil]
  rw [handed]
  apply framed.delivered.append
  cases known : framing.current.filter fun frame => decide (frame.length ≤ prepareSize) with
  | none =>
      split_ifs
      · exact Delivered.nil.unknown _
      · exact Delivered.nil.lost
  | some frame =>
      obtain ⟨current, short⟩ := Option.filter_eq_some_iff.mp known
      rw [framed.known frame current (of_decide_eq_true short)]
      split_ifs with some_
      · exact Delivered.nil.packet (List.ne_nil_of_length_pos some_)
      · rw [List.eq_nil_of_length_eq_zero (Nat.eq_zero_of_not_pos some_)]
        exact Delivered.nil.empty

/-- What has been stored is in the buffer. -/
def Represents (buffer : InputBuffer) (index : Nat) : Slot → Prop
  | .byte data => buffer.data index = data ∧ ¬IsEop buffer.eop index
  | .frameEnd => IsEop buffer.eop index
  | .overflow => False

theorem Framed.round (framed : Framed framing prepared) {buffer : InputBuffer} {index : Nat}
    {slot : Slot} (represents : Represents buffer index slot) :
    Framed (framing.step slot)
      (processByte prepared (buffer.data index) (decide (IsEop buffer.eop index))) := by
  cases slot with
  | byte data =>
      obtain ⟨rfl, unmarked⟩ := represents
      rw [decide_eq_false unmarked]
      exact framed.byte _
  | frameEnd =>
      have marked : IsEop buffer.eop index := represents
      rw [decide_eq_true marked]
      exact framed.frameEnd _
  | overflow => exact False.elim represents

/-- The rounds take what has been stored, in its order. -/
theorem Framed.rounds (framed : Framed framing prepared) {buffer : InputBuffer}
    {stored : List Slot}
    (represents : ∀ index slot, stored[index]? = some slot → Represents buffer index slot)
    {count : Nat} (bound : count ≤ stored.length) :
    Framed ((stored.take count).foldl Framing.step framing)
      (((List.range count).map fun index =>
          (buffer.data index, decide (IsEop buffer.eop index))).foldl
        (fun prepared (byte, endOfPacket) => processByte prepared byte endOfPacket) prepared) := by
  induction count with
  | zero => exact framed
  | succ count ih =>
      obtain ⟨slot, at_⟩ : ∃ slot, stored[count]? = some slot :=
        ⟨_, List.getElem?_eq_getElem bound⟩
      rw [List.take_add_one, at_, List.range_succ, List.map_append, List.foldl_append,
        List.foldl_append]
      exact (ih (Nat.le_of_succ_le bound)).round (represents count slot at_)

end Rounds

/-- The buffer holds what has been stored, and no other marks. -/
structure Receiving (system : System) : Prop where
  count : system.buffer.count.toNat = system.stored.length
  room : system.stored.length < inputBufsize
  stored : ∀ index slot, system.stored[index]? = some slot → Represents system.buffer index slot
  unmarked : ∀ index, system.stored.length ≤ index → index < inputBufsize →
    ¬IsEop system.buffer.eop index
  framed : Framed (framing system.log) system.prepared

section Runs

variable {system : System}

theorem receiving_poweredSystem : Receiving poweredSystem where
  count := rfl
  room := by decide
  stored := fun _ _ nothing => absurd nothing (by simp [poweredSystem])
  unmarked := fun index _ _ => not_isEop_zero index
  framed := ⟨fun _ current _ => Option.some.inj current, Delivered.nil⟩

theorem Receiving.sound (receiving : Receiving system) : Sound system := by
  refine ⟨fun index inside marked => ?_, receiving.framed.delivered⟩
  have below : index < system.stored.length :=
    Nat.lt_of_not_le fun above => receiving.unmarked index above inside marked
  refine ⟨receiving.count ▸ below, ?_⟩
  have at_ : system.stored[index]? = some system.stored[index] := List.getElem?_eq_getElem below
  have represents := receiving.stored index _ at_
  rw [at_]
  cases slot : system.stored[index] with
  | byte data =>
      rw [slot] at represents
      exact absurd marked represents.2
  | frameEnd => rfl
  | overflow =>
      rw [slot] at represents
      exact represents.elim

theorem Receiving.next_count (receiving : Receiving system) :
    (system.buffer.count + 1).toNat = system.stored.length + 1 := by
  have room : system.stored.length < 16 := receiving.room
  rw [UInt8.toNat_add, show (1 : UInt8).toNat = 1 from rfl, receiving.count]
  omega

/-- A slot is stored behind the others. -/
theorem Receiving.push (receiving : Receiving system) {buffer : InputBuffer} {slot : Slot}
    (count : buffer.count = system.buffer.count + 1)
    (fits : system.stored.length + 1 < inputBufsize)
    (last : Represents buffer system.stored.length slot)
    (data : ∀ index, index ≠ system.stored.length →
      buffer.data index = system.buffer.data index)
    (eop : ∀ index, index ≠ system.stored.length → index < inputBufsize →
      (IsEop buffer.eop index ↔ IsEop system.buffer.eop index)) :
    Receiving { system with buffer := buffer, stored := system.stored ++ [slot] } where
  count := by rw [count, receiving.next_count, List.length_append, List.length_singleton]
  room := by rwa [List.length_append, List.length_singleton]
  stored := by
    intro index other at_
    by_cases before : index < system.stored.length
    · have different : index ≠ system.stored.length := Nat.ne_of_lt before
      rw [List.getElem?_append_left before] at at_
      have represents := receiving.stored index other at_
      have same := eop index different (Nat.lt_trans before receiving.room)
      cases other with
      | byte value =>
          exact ⟨(data index different).trans represents.1, mt same.mp represents.2⟩
      | frameEnd => exact same.mpr represents
      | overflow => exact represents.elim
    · rw [List.getElem?_append_right (Nat.le_of_not_lt before),
        List.getElem?_singleton] at at_
      split_ifs at at_ with isLast
      obtain rfl : index = system.stored.length := by omega
      cases Option.some.inj at_
      exact last
  unmarked := by
    intro index above inside
    rw [List.length_append, List.length_singleton] at above
    have before := receiving.unmarked index (by omega) inside
    exact mt (eop index (by omega) inside).mp before
  framed := receiving.framed

/-- The buffer begins again. -/
theorem Receiving.restart (receiving : Receiving system) {buffer : InputBuffer}
    (count : buffer.count = 0)
    (unmarked : ∀ index, index < inputBufsize → ¬IsEop buffer.eop index) :
    Receiving { system with
      buffer := buffer, stored := [], log := system.log ++ [Slot.overflow] } where
  count := by rw [count]; rfl
  room := Nat.succ_pos 15
  stored := fun _ _ nothing => absurd nothing (by simp)
  unmarked := fun index _ inside => unmarked index inside
  framed := by
    rw [framing, List.foldl_append]
    exact receiving.framed.overflow

/-- What the interrupt leaves in the buffer. -/
theorem emsUartProcessInputByte_eq (receiving : Receiving system) (data : UInt8)
    (frameEnd error : Bool) :
    emsUartProcessInputByte system.buffer data frameEnd error =
      if Overflows system (Event.input data frameEnd error) then
        { storeInputByte system.buffer data frameEnd error with count := 0 }
      else storeInputByte system.buffer data frameEnd error := by
  have below : ¬inputBufsize ≤ system.buffer.count.toNat := by
    rw [receiving.count]
    exact Nat.not_le.mpr receiving.room
  cases frameEnd <;> cases error <;>
    simp [emsUartProcessInputByte, storeInputByte, Overflows, below]

theorem Receiving.input (receiving : Receiving system) (data : UInt8) (frameEnd error : Bool)
    (keeps : KeepsEnds system (Event.input data frameEnd error)) :
    Receiving (step system (Event.input data frameEnd error)) := by
  have buffer := emsUartProcessInputByte_eq receiving data frameEnd error
  have place := receiving.count
  by_cases overflows : Overflows system (Event.input data frameEnd error)
  · obtain ⟨notEnd, unmarked⟩ := keeps overflows
    have notEnd : ¬(frameEnd = true) := notEnd
    have notError : ¬(error = true) := by
      rcases overflows.1 with isEnd | noError
      · exact absurd isEnd notEnd
      · exact fun isError => absurd isError (by simpa using noError)
    rw [if_pos overflows] at buffer
    rw [step, if_pos overflows, if_pos overflows, buffer]
    apply receiving.restart rfl
    rw [storeInputByte, if_neg notEnd, if_neg notError]
    exact unmarked
  · rw [if_neg overflows] at buffer
    rw [step, if_neg overflows, if_neg overflows, buffer]
    have room (stores : (frameEnd || !error) = true) : system.stored.length + 1 < inputBufsize := by
      rw [← receiving.next_count]
      exact Nat.lt_of_not_le fun full =>
        overflows ⟨by simpa using stores, full⟩
    cases frameEnd with
    | true =>
        rw [storeInputByte, if_pos rfl, slots, if_pos rfl, place]
        apply receiving.push rfl (room rfl)
        · exact (isEop_markEop receiving.room receiving.room).mpr (Or.inl rfl)
        · exact fun index different => Function.update_of_ne different _ _
        · intro index different inside
          exact (isEop_markEop receiving.room inside).trans (or_iff_right different)
    | false =>
        cases error with
        | true =>
            rw [storeInputByte, if_neg Bool.false_ne_true, if_pos rfl, slots,
              if_neg Bool.false_ne_true, if_pos rfl, List.append_nil]
            exact receiving
        | false =>
            rw [storeInputByte, if_neg Bool.false_ne_true, if_neg Bool.false_ne_true, slots,
              if_neg Bool.false_ne_true, if_neg Bool.false_ne_true, place]
            apply receiving.push rfl (room rfl)
            · exact ⟨Function.update_self .., receiving.unmarked _ (Nat.le_refl _) receiving.room⟩
            · exact fun index different => Function.update_of_ne different _ _
            · exact fun _ _ _ => Iff.rfl

/-- The source is written over a frame end. -/
theorem Receiving.addSource (receiving : Receiving system) (source : UInt8) :
    Receiving (step system (Event.addSource source)) := by
  rw [step, emsAddSourceToEop]
  split_ifs with empty isEnd
  · exact receiving
  · refine ⟨receiving.count, receiving.room, fun index slot at_ => ?_, receiving.unmarked,
      receiving.framed⟩
    have represents := receiving.stored index slot at_
    cases slot with
    | byte data =>
        -- a byte of data is not marked
        have different : index ≠ (system.buffer.count - 1).toNat := by
          rintro rfl
          exact represents.2 isEnd.2
        exact ⟨(Function.update_of_ne different _ _).trans represents.1, represents.2⟩
    | frameEnd => exact represents
    | overflow => exact represents
  · exact receiving

theorem Receiving.process (receiving : Receiving system) :
    Receiving (step system Event.process) := by
  have rounds := receiving.framed.rounds receiving.stored (Nat.le_refl system.stored.length)
  rw [List.take_length, framing, ← List.foldl_append, ← receiving.count] at rounds
  have cleared : (emptied system.buffer).count = 0 ∧
      ∀ index, index < inputBufsize → ¬IsEop (emptied system.buffer).eop index := by
    rw [emptied]
    split_ifs with some_
    · exact ⟨rfl, fun index _ => not_isEop_zero index⟩
    · have none_ : system.buffer.count = 0 := UInt8.le_zero_iff.mp (UInt8.not_lt.mp some_)
      refine ⟨none_, fun index inside => receiving.unmarked index ?_ inside⟩
      rw [← receiving.count, none_]
      exact Nat.zero_le index
  exact ⟨by rw [step, emsProcess, cleared.1]; rfl, Nat.succ_pos 15,
    fun _ _ nothing => absurd nothing (by simp [step]),
    fun index _ inside => cleared.2 index inside, rounds⟩

theorem Receiving.step (receiving : Receiving system) {event : Event}
    (keeps : KeepsEnds system event) : Receiving (step system event) := by
  cases event with
  | input data frameEnd error => exact receiving.input data frameEnd error keeps
  | addSource source => exact receiving.addSource source
  | process => exact receiving.process

/-- A mark that an overflow leaves is in front of nothing. -/
theorem Receiving.exposed (receiving : Receiving system) {event : Event}
    (loses : ¬KeepsEnds system event) : ¬Sound (EmsInput.step system event) := by
  rw [KeepsEnds, Classical.not_imp] at loses
  obtain ⟨overflows, notKept⟩ := loses
  cases event with
  | input data frameEnd error =>
      have buffer := emsUartProcessInputByte_eq receiving data frameEnd error
      rw [if_pos overflows] at buffer
      -- the mark of the event, or one that was set before
      obtain ⟨index, inside, marked⟩ : ∃ index, index < inputBufsize ∧
          IsEop (storeInputByte system.buffer data frameEnd error).eop index := by
        rw [not_and_or, Classical.not_not] at notKept
        rw [storeInputByte]
        rcases notKept with isEnd | some_
        · have isEnd : frameEnd = true := isEnd
          refine ⟨system.stored.length, receiving.room, ?_⟩
          rw [if_pos isEnd, receiving.count]
          exact (isEop_markEop receiving.room receiving.room).mpr (Or.inl rfl)
        · obtain ⟨index, notMarked⟩ := Classical.not_forall.mp some_
          obtain ⟨inside, marked⟩ := Classical.not_imp.mp notMarked
          refine ⟨index, inside, ?_⟩
          split_ifs
          · have room : system.buffer.count.toNat < inputBufsize :=
              receiving.count ▸ receiving.room
            exact (isEop_markEop room inside).mpr (Or.inr (Classical.not_not.mp marked))
          · exact Classical.not_not.mp marked
          · exact Classical.not_not.mp marked
      intro sound
      have below := (sound.1 index inside (by rw [EmsInput.step, buffer]; exact marked)).1
      rw [EmsInput.step, buffer] at below
      exact Nat.not_lt_zero index below
  | addSource source => exact overflows.elim
  | process => exact overflows.elim

/-- The meaning of the frames: the bytes between two frame ends, if there are not too many. -/
theorem framing_consecutive (before after : List Slot) {frame : List UInt8}
    (short : frame.length ≤ prepareSize) :
    framing (before ++ Slot.frameEnd :: (frame.map Slot.byte ++ Slot.frameEnd :: after)) =
      after.foldl Framing.step
        ⟨some [], (framing (before ++ [Slot.frameEnd])).frames ++ [some frame]⟩ := by
  have bytes (current : List UInt8) (frames : List (Option (List UInt8))) :
      (frame.map Slot.byte).foldl Framing.step ⟨some current, frames⟩ =
        ⟨some (current ++ frame), frames⟩ := by
    clear short
    induction frame generalizing current with
    | nil => rw [List.append_nil]; rfl
    | cons data frame ih =>
        refine (ih (current ++ [data])).trans ?_
        rw [List.append_assoc]
        rfl
  have known : (some frame).filter (fun frame => decide (frame.length ≤ prepareSize)) =
      some frame := Option.filter_some_pos (decide_eq_true short)
  have ended : framing (before ++ [Slot.frameEnd]) =
      ⟨some [], (framing (before ++ [Slot.frameEnd])).frames⟩ := by
    rw [framing, List.foldl_append]
    rfl
  rw [List.append_cons, framing, List.foldl_append, ← framing, ended, List.foldl_append, bytes,
    List.nil_append, List.foldl_cons, Framing.step, known]

/-- The marks and the packets are sound in all states of a run if and only if no overflow loses
a frame end. -/
theorem receive_sound_iff (events : List Event) :
    Guarded (fun system event => some (EmsInput.step system event)) KeepsEnds poweredSystem
        events ↔
      ∀ first second, events = first ++ second → Sound (receive first) :=
  guarded_iff_every (fun system _ (receiving : Receiving system) keeps => receiving.step keeps)
    (fun _ receiving => receiving.sound) (fun _ _ receiving loses => receiving.exposed loses)
    receiving_poweredSystem events

def inputBytes (bytes : List UInt8) : List Event :=
  bytes.map fun data => Event.input data false false

def inputFrameEnd : Event := Event.input 0 true false

/-- The mark of the sixth slot is left by an overflow. -/
def lostFrameEnd : List Event :=
  inputBytes [1, 2, 3, 4, 5] ++ [inputFrameEnd] ++ inputBytes [1, 2, 3, 4, 5, 6, 7, 8, 9, 10]

/-- The next frame is cut there. -/
def cutFrame : List Event :=
  lostFrameEnd ++ [inputFrameEnd] ++ inputBytes [1, 2, 3, 4, 5, 6] ++ [inputFrameEnd, Event.process]

theorem overflow_cuts_next_frame :
    ¬MarksSound (receive lostFrameEnd) ∧ ¬PacketsSound (receive cutFrame) := by
  constructor
  · intro sound
    have marked : IsEop (receive lostFrameEnd).buffer.eop 5 := by decide +kernel
    have nothing : (receive lostFrameEnd).buffer.count.toNat = 0 := by decide +kernel
    have below := (sound 5 (by decide) marked).1
    rw [nothing] at below
    exact Nat.not_lt_zero 5 below
  · intro sound
    have frames : (framing (receive cutFrame).log).frames = [none, some [1, 2, 3, 4, 5, 6]] := by
      decide +kernel
    have packets : (receive cutFrame).prepared.handed.map Prod.fst = [[1, 2, 3, 4], [6]] := by
      decide +kernel
    rw [PacketsSound, frames, packets] at sound
    cases sound with
    | lost rest => cases rest
    | unknown _ rest => cases rest

end Runs

end Ethersex.EmsInput

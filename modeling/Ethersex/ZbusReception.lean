import Ethersex.GuardedRuns
import Ethersex.ZbusRoundTrip

/-!
# What a ZBus station receives

A station between the receive interrupt, the timer and the main loop, which fetches a finished
frame in `zbus_process`, hands it to the stack, sends what the stack answers and
releases the lock of the buffer.  The bytes the receive interrupt got are
recorded, and a reader of this record says what the frame in the buffer has to be.
-/

namespace Ethersex.Zbus

open ByteMemory GuardedRuns

/-- A reader of the received bytes: whether an escape is pending, and the bytes since the last
start condition. -/
structure Reader where
  escaped : Bool
  content : Option (List UInt8)
  deriving DecidableEq

def Reader.feed (reader : Reader) (byte : UInt8) : Reader :=
  if reader.escaped then
    if byte = zbusStart then ⟨false, some []⟩
    else if byte = zbusStop then ⟨false, reader.content⟩
    else if byte = escapeCharacter then ⟨false, reader.content.map (· ++ [byte])⟩
    else ⟨false, reader.content⟩
  else if byte = escapeCharacter then ⟨true, reader.content⟩
  else ⟨false, reader.content.map (· ++ [byte])⟩

def readAll (received : List UInt8) : Reader :=
  received.foldl Reader.feed ⟨false, none⟩

/-- The station, whether the main loop is between `zbus_rxstart` and `uip_buf_unlock`, the bytes
received, and whether the timeout of a frame without a stop condition has expired and
nothing has been received since. -/
structure World where
  station : Station
  processing : Bool
  received : List UInt8
  expired : Bool

inductive Event where
  | byte (lineError : Bool) (data : UInt8)
  | periodic
  /-- The first part of `zbus_process`. -/
  | fetch
  /-- The end of `zbus_process`: what the stack leaves in the buffer, and how much of it is
  routed to the bus. -/
  | release (buf : Memory) (len : Nat)
  | sent

def World.step (bufferLen : Nat) (world : World) : Event → World
  | .byte lineError data =>
      if world.station.usart = .receiver then
        { world with
          station := rxInterrupt bufferLen world.station lineError data
          received := if lineError then world.received else world.received ++ [data]
          expired := false }
      else world
  | .periodic =>
      { world with
        station := zbusCorePeriodic world.station
        expired := world.expired ||
          decide (world.station.usart = .receiver ∧ world.station.busBlocked = 1) }
  | .fetch =>
      if world.processing = true ∨ world.station.rxlen = 0 then world
      else { world with station := zbusRxstart world.station, processing := true }
  | .release buf len =>
      if world.processing then
        let station := { world.station with buf := buf }
        { world with
          station := uipBufUnlock (if len = 0 then station else zbusTxstart station len)
          processing := false }
      else world
  | .sent =>
      if world.station.usart = .transmitter ∧ world.station.udr.isSome then
        { world with station := txInterrupt world.station }
      else world

def World.init (buf : Memory) : World :=
  ⟨zbusCoreInit buf, false, [], false⟩

/-- A frame in the buffer consists of the bytes received between the last start condition and
the stop condition, as far as they fit. -/
def Exact (bufferLen : Nat) (world : World) : Prop :=
  world.station.rxlen ≠ 0 → ∃ before content, world.received = before ++ [zbusStop] ∧
    readAll before = ⟨true, some content⟩ ∧
    readBlock world.station.buf 0 world.station.rxlen = content.take bufferLen

/-- Bytes received one after the other, each with or without a tick behind it. -/
def receiveBytes (bufferLen : Nat) (station : Station) (bytes : List (UInt8 × Bool)) : Station :=
  bytes.foldl (fun station byte => tick byte.2 (rxInterrupt bufferLen station false byte.1)) station

/-- No frame is under way: the station listens, no bus timeout is running and the main loop has
nothing to do.  An escape may only be pending when it belongs to a frame whose timeout has
expired. -/
structure Quiet (world : World) : Prop where
  listening : world.station.usart = .receiver
  free : world.station.busBlocked = 0
  waiting : world.processing = false
  escape : world.station.recvEscapeData = false ∨ world.expired = true

/-- The next complete frame is received. -/
def Recovers (bufferLen : Nat) (world : World) : Prop :=
  Quiet world → ∀ frame bytes, frame ≠ [] → frame.length ≤ bufferLen →
    bytes.map Prod.fst = wire frame → Received frame (receiveBytes bufferLen world.station bytes)

/-- No start condition comes while a frame with a byte is under way, and the timeout of a frame
does not expire. -/
def Orderly (world : World) : Event → Prop
  | .byte lineError data =>
      ¬ (world.station.usart = .receiver ∧ lineError = false ∧
        world.station.recvEscapeData = true ∧ data = zbusStart ∧
        world.station.busBlocked ≠ 0 ∧ 0 < world.station.index)
  | .periodic => ¬ (world.station.usart = .receiver ∧ world.station.busBlocked = 1)
  | _ => True

instance (world : World) : ∀ event, Decidable (Orderly world event)
  | .byte _ _ => inferInstanceAs (Decidable (¬ (_ ∧ _ ∧ _ ∧ _ ∧ _ ∧ _)))
  | .periodic => inferInstanceAs (Decidable (¬ (_ ∧ _)))
  | .fetch => inferInstanceAs (Decidable True)
  | .release _ _ => inferInstanceAs (Decidable True)
  | .sent => inferInstanceAs (Decidable True)

/-- What the station is doing. -/
inductive Phase (bufferLen : Nat) (world : World) : Prop where
  | waiting (listening : world.station.usart = .receiver) (rxlen : world.station.rxlen = 0)
      (txlen : world.station.txlen = 0) (free : world.station.busBlocked = 0)
      (unlocked : world.station.bufLocked = false) (idle : world.processing = false)
  | collecting (content : List UInt8) (listening : world.station.usart = .receiver)
      (blocked : world.station.busBlocked ≠ 0) (locked : world.station.bufLocked = true)
      (idle : world.processing = false)
      (reading : (readAll world.received).content = some content)
      (stored : Collecting (content.take bufferLen) world.station)
  | finished (off : world.station.usart = .off) (txlen : world.station.txlen = 0)
      (free : world.station.busBlocked = 0) (locked : world.station.bufLocked = true)
      (idle : world.processing = false) (exact : Exact bufferLen world)
  | processing (listening : world.station.usart = .receiver) (rxlen : world.station.rxlen = 0)
      (txlen : world.station.txlen = 0) (free : world.station.busBlocked = 0)
      (locked : world.station.bufLocked = true) (processing : world.processing = true)
  | sending (sending : world.station.usart = .transmitter) (rxlen : world.station.rxlen = 0)
      (unlocked : world.station.txlen = 0 → world.station.bufLocked = false)
      (idle : world.processing = false)

structure Coherent (bufferLen : Nat) (world : World) : Prop where
  escape : world.station.recvEscapeData = (readAll world.received).escaped
  fresh : world.expired = false
  phase : Phase bufferLen world

theorem readAll_snoc (received : List UInt8) (byte : UInt8) :
    readAll (received ++ [byte]) = (readAll received).feed byte := by
  simp [readAll]

theorem appendData_recvEscapeData (bufferLen : Nat) (station : Station) (data : UInt8) :
    (appendData bufferLen station data).recvEscapeData = station.recvEscapeData := by
  unfold appendData
  split_ifs <;> rfl

theorem startCondition_recvEscapeData (station : Station) :
    (startCondition station).recvEscapeData = station.recvEscapeData := by
  unfold startCondition
  split_ifs <;> rfl

theorem stopCondition_recvEscapeData {station : Station} (txlen : station.txlen = 0) :
    (stopCondition station).recvEscapeData = station.recvEscapeData := by
  by_cases free : station.busBlocked = 0
  · rw [stopCondition_of_free station txlen free]
  · rw [stopCondition_of_blocked station txlen free]

/-- The escape flag of the interrupt is that of the reader. -/
theorem rxInterrupt_recvEscapeData (bufferLen : Nat) {station : Station} (rxlen : station.rxlen = 0)
    (txlen : station.txlen = 0) {reader : Reader} (escape : station.recvEscapeData = reader.escaped)
    (data : UInt8) :
    (rxInterrupt bufferLen station false data).recvEscapeData = (reader.feed data).escaped := by
  cases escaped : reader.escaped with
  | false =>
      rw [escaped] at escape
      by_cases quoted : data = escapeCharacter
      · subst quoted
        rw [rxInterrupt_escape rxlen txlen escape]
        simp [Reader.feed, escaped]
      · rw [rxInterrupt_data rxlen txlen escape quoted, appendData_recvEscapeData, escape]
        simp [Reader.feed, escaped, quoted]
  | true =>
      have fed : (reader.feed data).escaped = false := by
        simp only [Reader.feed, escaped]
        split_ifs <;> rfl
      rw [fed]
      simp only [rxInterrupt, rxlen, txlen, escape, escaped, Bool.false_eq_true, ne_eq,
        not_true_eq_false, if_true, if_false]
      split_ifs
      · exact startCondition_recvEscapeData _
      · exact stopCondition_recvEscapeData rfl
      · exact appendData_recvEscapeData _ _ _
      · rfl

theorem appendData_of_free (bufferLen : Nat) (station : Station) (free : station.busBlocked = 0)
    (data : UInt8) : appendData bufferLen station data = station := by
  simp [appendData, free]

/-- Outside a frame only a start condition that finds the buffer unlocked matters. -/
theorem rxInterrupt_of_free (bufferLen : Nat) (data : UInt8) {station : Station}
    (rxlen : station.rxlen = 0) (txlen : station.txlen = 0) (free : station.busBlocked = 0)
    (ignored : station.recvEscapeData = true → data = zbusStart → station.bufLocked = true) :
    ∃ escape, rxInterrupt bufferLen station false data =
      { station with recvEscapeData := escape } := by
  cases escape : station.recvEscapeData with
  | false =>
      by_cases quoted : data = escapeCharacter
      · subst quoted
        exact ⟨true, rxInterrupt_escape rxlen txlen escape⟩
      · refine ⟨station.recvEscapeData, ?_⟩
        rw [rxInterrupt_data rxlen txlen escape quoted, appendData_of_free bufferLen station free]
  | true =>
      refine ⟨false, ?_⟩
      by_cases start : data = zbusStart
      · subst start
        have locked := ignored escape rfl
        simp [rxInterrupt_start rxlen txlen escape, startCondition, locked]
      · by_cases stop : data = zbusStop
        · subst stop
          rw [rxInterrupt_stop rxlen txlen escape]
          exact stopCondition_of_free { station with recvEscapeData := false } txlen free
        · by_cases quoted : data = escapeCharacter
          · subst quoted
            rw [rxInterrupt_quoted rxlen txlen escape]
            exact appendData_of_free bufferLen { station with recvEscapeData := false } free _
          · simp [rxInterrupt, rxlen, txlen, escape, start, stop, quoted]

/-- A byte of the frame is stored if it fits. -/
theorem Collecting.append_take {content : List UInt8} {station : Station} {bufferLen : Nat}
    (stored : Collecting (content.take bufferLen) station) (blocked : station.busBlocked ≠ 0)
    (byte : UInt8) :
    Collecting ((content ++ [byte]).take bufferLen) (appendData bufferLen station byte) ∧
      (appendData bufferLen station byte).busBlocked ≠ 0 ∧
      (appendData bufferLen station byte).usart = station.usart ∧
      (appendData bufferLen station byte).bufLocked = station.bufLocked := by
  by_cases full : bufferLen ≤ content.length
  · have index : bufferLen ≤ station.index := by
      rw [stored.index, List.length_take]
      omega
    rw [appendData, if_pos index, List.take_append_of_le_length full]
    exact ⟨stored, blocked, rfl, rfl⟩
  · have short : content.take bufferLen = content := List.take_of_length_le (by omega)
    have longer : (content ++ [byte]).take bufferLen = content ++ [byte] :=
      List.take_of_length_le (by simp; omega)
    rw [short] at stored
    have room : ¬ bufferLen ≤ station.index := by
      rw [stored.index]
      omega
    have space : content.length < bufferLen := by omega
    obtain ⟨appended, three, -⟩ := stored.append space blocked byte
    rw [longer]
    refine ⟨appended, by rw [three]; decide, ?_⟩
    simp [appendData, room, blocked]

/-- A stop condition makes the frame available. -/
theorem exact_of_stop {bufferLen : Nat} {world : World} {content : List UInt8}
    (escape : (readAll world.received).escaped = true)
    (reading : (readAll world.received).content = some content)
    (stored : Collecting (content.take bufferLen) world.station) {station : Station}
    (buf : station.buf = world.station.buf) (rxlen : station.rxlen = world.station.index)
    {processing expired : Bool} :
    Exact bufferLen ⟨station, processing, world.received ++ [zbusStop], expired⟩ := by
  intro _
  refine ⟨world.received, content, rfl, ?_, ?_⟩
  · rw [← escape, ← reading]
  · show readBlock station.buf 0 station.rxlen = content.take bufferLen
    rw [buf, rxlen, stored.index]
    exact stored.content

/-- A byte in the middle of a frame. -/
theorem Phase.collect {bufferLen : Nat} {world : World} {content : List UInt8}
    (listening : world.station.usart = .receiver) (blocked : world.station.busBlocked ≠ 0)
    (locked : world.station.bufLocked = true) (idle : world.processing = false)
    (escape : world.station.recvEscapeData = (readAll world.received).escaped)
    (reading : (readAll world.received).content = some content)
    (stored : Collecting (content.take bufferLen) world.station) {data : UInt8}
    (orderly : Orderly world (.byte false data)) :
    Phase bufferLen
      { world with
        station := rxInterrupt bufferLen world.station false data
        received := world.received ++ [data]
        expired := false } := by
  cases pending : world.station.recvEscapeData with
  | false =>
      have plain : (readAll world.received).escaped = false := escape.symm.trans pending
      by_cases quoted : data = escapeCharacter
      · subst quoted
        refine .collecting content ?_ ?_ ?_ idle ?_ ?_
        all_goals simp only [rxInterrupt_escape stored.rxlen stored.txlen pending]
        · exact listening
        · exact blocked
        · exact locked
        · simpa [readAll_snoc, Reader.feed, plain] using reading
        · exact ⟨stored.rxlen, stored.txlen, stored.index, stored.content⟩
      · obtain ⟨appended, still, usart, lock⟩ := stored.append_take blocked data
        rw [rxInterrupt_data stored.rxlen stored.txlen pending quoted]
        refine .collecting (content ++ [data]) (usart.trans listening) still
          (lock.trans locked) idle
          ?_ appended
        simp [readAll_snoc, Reader.feed, plain, quoted, reading]
  | true =>
      have plain : (readAll world.received).escaped = true := escape.symm.trans pending
      have cleared : Collecting (content.take bufferLen)
          { world.station with recvEscapeData := false } :=
        ⟨stored.rxlen, stored.txlen, stored.index, stored.content⟩
      by_cases start : data = zbusStart
      · subst start
        have empty : world.station.index = 0 := by
          by_contra nonempty
          exact orderly ⟨listening, rfl, pending, rfl, blocked, Nat.pos_of_ne_zero nonempty⟩
        have ignored : rxInterrupt bufferLen world.station false zbusStart =
            { world.station with recvEscapeData := false } := by
          simp [rxInterrupt_start stored.rxlen stored.txlen pending, startCondition, locked]
        rw [ignored]
        refine .collecting [] listening blocked locked idle ?_ ?_
        · simp [readAll_snoc, Reader.feed, plain]
        · simpa using (⟨stored.rxlen, stored.txlen, empty, rfl⟩ :
            Collecting [] { world.station with recvEscapeData := false })
      · by_cases stop : data = zbusStop
        · subst stop
          rw [rxInterrupt_stop stored.rxlen stored.txlen pending,
            stopCondition_of_blocked { world.station with recvEscapeData := false } stored.txlen
              blocked]
          refine .finished rfl stored.txlen rfl locked idle
            (exact_of_stop plain reading stored ?_ ?_)
          · rfl
          · rfl
        · by_cases quoted : data = escapeCharacter
          · subst quoted
            obtain ⟨appended, still, usart, lock⟩ := cleared.append_take blocked escapeCharacter
            rw [rxInterrupt_quoted stored.rxlen stored.txlen pending]
            refine .collecting (content ++ [escapeCharacter]) (usart.trans listening) still
              (lock.trans locked) idle ?_ appended
            simp [readAll_snoc, Reader.feed, plain, start, stop, reading]
          · have dropped : rxInterrupt bufferLen world.station false data =
                { world.station with recvEscapeData := false } := by
              simp [rxInterrupt, stored.rxlen, stored.txlen, pending, start, stop, quoted]
            rw [dropped]
            refine .collecting content listening blocked locked idle ?_ cleared
            simpa [readAll_snoc, Reader.feed, plain, start, stop, quoted] using reading

namespace Coherent

variable {bufferLen : Nat} {world : World} (coherent : Coherent bufferLen world)

include coherent

theorem byte {lineError : Bool} {data : UInt8} (orderly : Orderly world (.byte lineError data)) :
    Coherent bufferLen (world.step bufferLen (.byte lineError data)) := by
  by_cases listening : world.station.usart = .receiver
  swap
  · simpa [World.step, listening] using coherent
  cases lineError with
  | true =>
      have unchanged : world.step bufferLen (.byte true data) = world := by
        simp [World.step, listening, rxInterrupt, ← coherent.fresh]
      rw [unchanged]
      exact coherent
  | false =>
      simp only [World.step, listening, if_true, Bool.false_eq_true, if_false]
      have tracked : ∀ rxlen : world.station.rxlen = 0, ∀ txlen : world.station.txlen = 0,
          (rxInterrupt bufferLen world.station false data).recvEscapeData =
            (readAll (world.received ++ [data])).escaped := by
        intro rxlen txlen
        rw [readAll_snoc]
        exact rxInterrupt_recvEscapeData bufferLen rxlen txlen coherent.escape data
      cases coherent.phase with
      | waiting _ rxlen txlen free unlocked idle =>
          refine ⟨tracked rxlen txlen, rfl, ?_⟩
          by_cases start : world.station.recvEscapeData = true ∧ data = zbusStart
          · obtain ⟨pending, rfl⟩ := start
            have taken : rxInterrupt bufferLen world.station false zbusStart =
                { world.station with
                  recvEscapeData := false, bufLocked := true, index := 0, busBlocked := 3 } := by
              simp [rxInterrupt_start rxlen txlen pending, startCondition, unlocked]
            rw [taken]
            refine .collecting [] listening (by simp) rfl idle ?_ ?_
            · simp [readAll_snoc, Reader.feed, ← coherent.escape, pending]
            · simpa using (⟨rxlen, txlen, rfl, rfl⟩ : Collecting []
                { world.station with
                  recvEscapeData := false, bufLocked := true, index := 0, busBlocked := 3 })
          · obtain ⟨escape, ignored⟩ := rxInterrupt_of_free bufferLen data rxlen txlen free
              fun pending isStart => absurd ⟨pending, isStart⟩ start
            rw [ignored]
            exact .waiting listening rxlen txlen free unlocked idle
      | collecting content _ blocked locked idle reading stored =>
          exact ⟨tracked stored.rxlen stored.txlen, rfl,
            .collect listening blocked locked idle coherent.escape reading stored orderly⟩
      | finished off => simp [off] at listening
      | processing _ rxlen txlen free locked processing =>
          refine ⟨tracked rxlen txlen, rfl, ?_⟩
          obtain ⟨escape, ignored⟩ := rxInterrupt_of_free bufferLen data rxlen txlen free
            fun _ _ => locked
          rw [ignored]
          exact .processing listening rxlen txlen free locked processing
      | sending sending => simp [sending] at listening

theorem periodic (orderly : Orderly world .periodic) :
    Coherent bufferLen (world.step bufferLen .periodic) := by
  have timely : ¬ (world.station.usart = .receiver ∧ world.station.busBlocked = 1) := orderly
  have fresh : (world.step bufferLen .periodic).expired = false := by
    simp only [World.step, coherent.fresh, timely, decide_false, Bool.or_self]
  have ticked : zbusCorePeriodic world.station = tick true world.station := rfl
  by_cases resends : world.station.txlen = 0 ∨ 2 ≤ world.station.busBlocked
  · obtain ⟨busBlocked, above, below, counted⟩ := tick_counts true world.station resends
    refine ⟨?_, fresh, ?_⟩
    · simp only [World.step, ticked, counted]
      exact coherent.escape
    simp only [World.step, ticked, counted]
    cases coherent.phase with
    | waiting listening rxlen txlen free unlocked idle =>
        exact .waiting listening rxlen txlen (by simp only; omega) unlocked idle
    | collecting content listening blocked locked idle reading stored =>
        have running : world.station.busBlocked ≠ 1 := fun one => timely ⟨listening, one⟩
        exact .collecting content listening (by simp only; omega) locked idle reading stored.congr
    | finished off txlen free locked idle exactly =>
        exact .finished off txlen (by simp only; omega) locked idle exactly
    | processing listening rxlen txlen free locked processing =>
        exact .processing listening rxlen txlen (by simp only; omega) locked processing
    | sending sending rxlen unlocked idle =>
        exact .sending sending rxlen unlocked idle
  · cases coherent.phase with
    | waiting listening rxlen txlen => exact absurd (Or.inl txlen) resends
    | collecting content listening blocked locked idle reading stored =>
        exact absurd (Or.inl stored.txlen) resends
    | finished off txlen => exact absurd (Or.inl txlen) resends
    | processing listening rxlen txlen => exact absurd (Or.inl txlen) resends
    | sending sending rxlen unlocked idle =>
        by_cases free : world.station.busBlocked = 0
        · have unchanged : zbusCorePeriodic world.station = world.station := if_pos free
          refine ⟨?_, fresh, ?_⟩
          · simp only [World.step, unchanged]
            exact coherent.escape
          · simp only [World.step, unchanged]
            exact .sending sending rxlen unlocked idle
        · have restarted : zbusCorePeriodic world.station =
              startTransmitter { world.station with busBlocked := 0 } := by
            have last : world.station.busBlocked - 1 = 0 := by omega
            have unsent : 0 < world.station.txlen := by omega
            simp [zbusCorePeriodic, free, last, unsent]
          refine ⟨?_, fresh, ?_⟩
          · simp only [World.step, restarted]
            exact coherent.escape
          · simp only [World.step, restarted]
            exact .sending rfl rxlen unlocked idle

theorem fetch : Coherent bufferLen (world.step bufferLen .fetch) := by
  by_cases nothing : world.processing = true ∨ world.station.rxlen = 0
  · simpa [World.step, nothing] using coherent
  · rw [not_or] at nothing
    cases coherent.phase with
    | waiting listening rxlen => exact absurd rxlen nothing.2
    | collecting content listening blocked locked idle reading stored =>
        exact absurd stored.rxlen nothing.2
    | finished off txlen free locked idle =>
        have fetched : world.step bufferLen .fetch =
            { world with
              station := { world.station with rxlen := 0, usart := .receiver }
              processing := true } := by
          simp [World.step, nothing, zbusRxstart, txlen]
        rw [fetched]
        exact ⟨coherent.escape, coherent.fresh, .processing rfl rfl txlen free locked rfl⟩
    | processing listening rxlen => exact absurd rxlen nothing.2
    | sending sending rxlen => exact absurd rxlen nothing.2

theorem release (buf : Memory) (len : Nat) :
    Coherent bufferLen (world.step bufferLen (.release buf len)) := by
  by_cases nothing : world.processing = false
  · simpa [World.step, nothing] using coherent
  · cases coherent.phase with
    | waiting listening rxlen txlen free unlocked idle => exact absurd idle nothing
    | collecting content listening blocked locked idle => exact absurd idle nothing
    | finished off txlen free locked idle => exact absurd idle nothing
    | processing listening rxlen txlen free locked processing =>
        by_cases unanswered : len = 0
        · have released : world.step bufferLen (.release buf len) =
              { world with
                station := { world.station with buf := buf, bufLocked := false }
                processing := false } := by
            simp [World.step, processing, unanswered, uipBufUnlock, txlen]
          rw [released]
          exact ⟨coherent.escape, coherent.fresh, .waiting listening rxlen txlen free rfl rfl⟩
        · have answered : world.step bufferLen (.release buf len) =
              { world with
                station := startTransmitter
                  { world.station with buf := buf, index := 0, txlen := len }
                processing := false } := by
            have positive : 0 < len := Nat.pos_of_ne_zero unanswered
            simp [World.step, processing, unanswered, uipBufUnlock, zbusTxstart, startTransmitter,
              rxlen, txlen, free, positive]
          rw [answered]
          exact ⟨coherent.escape, coherent.fresh,
            .sending rfl rxlen (fun zero => absurd zero unanswered) rfl⟩
    | sending sending rxlen unlocked idle => exact absurd idle nothing

theorem sent : Coherent bufferLen (world.step bufferLen .sent) := by
  by_cases transmits : world.station.usart = .transmitter ∧ world.station.udr.isSome
  swap
  · simpa [World.step, transmits] using coherent
  simp only [World.step, transmits, and_self, if_true]
  cases coherent.phase with
  | waiting listening => simp [listening] at transmits
  | collecting content listening => simp [listening] at transmits
  | finished off => simp [off] at transmits
  | processing listening => simp [listening] at transmits
  | sending sending rxlen unlocked idle =>
      by_cases carry : world.station.sendEscapeData = 0
      · by_cases silent : world.station.txlen = 0
        · rw [txInterrupt_end carry silent]
          exact ⟨coherent.escape, coherent.fresh,
            .waiting rfl rfl silent rfl (unlocked silent) idle⟩
        · by_cases more : world.station.index < world.station.txlen
          · rw [txInterrupt_byte carry more]
            exact ⟨coherent.escape, coherent.fresh, .sending sending rxlen unlocked idle⟩
          · rw [txInterrupt_stop carry silent (by omega)]
            exact ⟨coherent.escape, coherent.fresh, .sending sending rxlen (fun _ => rfl) idle⟩
      · rw [txInterrupt_carry carry]
        exact ⟨coherent.escape, coherent.fresh, .sending sending rxlen unlocked idle⟩

theorem step {event : Event} (orderly : Orderly world event) :
    Coherent bufferLen (world.step bufferLen event) := by
  cases event with
  | byte lineError data => exact coherent.byte orderly
  | periodic => exact coherent.periodic orderly
  | fetch => exact coherent.fetch
  | release buf len => exact coherent.release buf len
  | sent => exact coherent.sent

/-- A frame in the buffer is the frame that was received. -/
theorem exactly : Exact bufferLen world := by
  cases coherent.phase with
  | waiting listening rxlen => exact fun available => absurd rxlen available
  | collecting content listening blocked locked idle reading stored =>
      exact fun available => absurd stored.rxlen available
  | finished off txlen free locked idle exactly => exact exactly
  | processing listening rxlen => exact fun available => absurd rxlen available
  | sending sending rxlen => exact fun available => absurd rxlen available

theorem idle (quiet : Quiet world) : Idle world.station := by
  have plain : world.station.recvEscapeData = false := by
    rcases quiet.escape with plain | expired
    · exact plain
    · exact absurd (coherent.fresh.symm.trans expired) (by simp)
  cases coherent.phase with
  | waiting listening rxlen txlen free unlocked => exact ⟨plain, rxlen, txlen, unlocked⟩
  | collecting content listening blocked => exact absurd quiet.free blocked
  | finished off => exact absurd (off.symm.trans quiet.listening) (by simp)
  | processing listening rxlen txlen free locked processing =>
      exact absurd (quiet.waiting.symm.trans processing) (by simp)
  | sending sending => exact absurd (sending.symm.trans quiet.listening) (by simp)

end Coherent

theorem Expecting.receive {frame : List UInt8} {bufferLen : Nat} (fits : frame.length ≤ bufferLen)
    {station : Station} {bytes : List (UInt8 × Bool)}
    (expecting : Expecting frame station (bytes.map Prod.fst)) :
    Received frame (receiveBytes bufferLen station bytes) := by
  induction bytes generalizing station with
  | nil => exact expecting.received
  | cons byte bytes ih => exact ih (expecting.next fits byte.2)

theorem coherent_init (bufferLen : Nat) (buf : Memory) : Coherent bufferLen (World.init buf) :=
  ⟨rfl, rfl, .waiting rfl rfl rfl rfl rfl rfl⟩

theorem coherent_of_guarded_run {bufferLen : Nat} {buf : Memory} {events : List Event}
    (guarded : Guarded (fun world event => some (World.step bufferLen world event)) Orderly
      (World.init buf) events) :
    Coherent bufferLen (events.foldl (World.step bufferLen) (World.init buf)) := by
  obtain ⟨final, reached, coherent⟩ := guarded.exists_run
    (fun world event (coherent : Coherent bufferLen world) orderly =>
      ⟨World.step bufferLen world event, rfl, coherent.step orderly⟩) (coherent_init bufferLen buf)
  rw [run_total] at reached
  cases reached
  exact coherent

/-- In every orderly run a frame in the buffer is the one received last, and a quiet station
receives the next frame. -/
theorem receives_of_guarded_run (bufferLen : Nat) (buf : Memory) (events : List Event)
    (guarded : Guarded (fun world event => some (World.step bufferLen world event)) Orderly
      (World.init buf) events) :
    Exact bufferLen (events.foldl (World.step bufferLen) (World.init buf)) ∧
      Recovers bufferLen (events.foldl (World.step bufferLen) (World.init buf)) := by
  have coherent := coherent_of_guarded_run guarded
  refine ⟨coherent.exactly, fun quiet frame bytes _ fits sequence => ?_⟩
  apply Expecting.receive fits
  rw [sequence]
  exact .idle (coherent.idle quiet)

/-- The bytes of a frame as events. -/
def frameEvents (bytes : List UInt8) : List Event :=
  bytes.map (.byte false)

/-- A frame is received, fetched and answered with a frame of one byte, and the next one is under
way. -/
def answeredFrame : List Event :=
  frameEvents (wire [7, 0x5c]) ++ [.periodic, .fetch, .release (fun _ => 9) 1] ++
    List.replicate 6 .sent ++ frameEvents [0x5c, 0x30, 8]

theorem receives_answeredFrame :
    Exact 500 (answeredFrame.foldl (World.step 500) (World.init fun _ => 0)) ∧
      Recovers 500 (answeredFrame.foldl (World.step 500) (World.init fun _ => 0)) :=
  receives_of_guarded_run 500 (fun _ => 0) answeredFrame (by decide +kernel)

/-- A frame without a stop condition, and another one. -/
def repeatedStart : List Event :=
  frameEvents ([escapeCharacter, zbusStart, 0x61] ++ wire [0x62])

/-- The bytes of the first frame stay in front of those of the second. -/
theorem repeatedStart_not_exact :
    ¬ ∀ (bufferLen : Nat) (buf : Memory) (events : List Event),
      Exact bufferLen (events.foldl (World.step bufferLen) (World.init buf)) ∧
        Recovers bufferLen (events.foldl (World.step bufferLen) (World.init buf)) := by
  intro always
  obtain ⟨before, content, received, reading, block⟩ :=
    (always 500 (fun _ => 0) repeatedStart).1 (by decide +kernel)
  have read : before = [0x5c, 0x30, 0x61, 0x5c, 0x30, 0x62, 0x5c] := by
    have prefixes := congrArg List.dropLast received
    rw [List.dropLast_concat] at prefixes
    exact prefixes.symm.trans (by decide +kernel)
  have expected : readAll before = ⟨true, some [0x62]⟩ := by
    rw [read]
    decide
  rw [expected, Reader.mk.injEq, Option.some.injEq] at reading
  rw [← reading.2] at block
  revert block
  decide +kernel

/-- The buffer is locked and nobody is left to unlock it. -/
structure LockedOut (world : World) : Prop where
  listening : world.station.usart = .receiver
  rxlen : world.station.rxlen = 0
  txlen : world.station.txlen = 0
  free : world.station.busBlocked = 0
  locked : world.station.bufLocked = true
  idle : world.processing = false

theorem LockedOut.step {world : World} (lockedOut : LockedOut world) (bufferLen : Nat)
    (event : Event) : LockedOut (world.step bufferLen event) := by
  obtain ⟨listening, rxlen, txlen, free, locked, idle⟩ := lockedOut
  cases event with
  | byte lineError data =>
      simp only [World.step, listening, if_true]
      cases lineError with
      | true => exact ⟨listening, rxlen, txlen, free, locked, idle⟩
      | false =>
          obtain ⟨escape, ignored⟩ := rxInterrupt_of_free bufferLen data rxlen txlen free
            fun _ _ => locked
          rw [ignored]
          exact ⟨listening, rxlen, txlen, free, locked, idle⟩
  | periodic =>
      have unchanged : zbusCorePeriodic world.station = world.station := if_pos free
      simp only [World.step, unchanged]
      exact ⟨listening, rxlen, txlen, free, locked, idle⟩
  | fetch =>
      rw [World.step, if_pos (Or.inr rxlen)]
      exact ⟨listening, rxlen, txlen, free, locked, idle⟩
  | release buf len =>
      rw [World.step, if_neg (by simp [idle])]
      exact ⟨listening, rxlen, txlen, free, locked, idle⟩
  | sent =>
      rw [World.step, if_neg (by simp [listening])]
      exact ⟨listening, rxlen, txlen, free, locked, idle⟩

theorem LockedOut.run {world : World} (lockedOut : LockedOut world) (bufferLen : Nat)
    (events : List Event) : LockedOut (events.foldl (World.step bufferLen) world) := by
  induction events generalizing world with
  | nil => exact lockedOut
  | cons event events ih => exact ih (lockedOut.step bufferLen event)

/-- After the timeout of a frame has expired nothing is ever received again. -/
theorem nothing_received_after_timeout {bufferLen : Nat} {world : World}
    (coherent : Coherent bufferLen world) (listening : world.station.usart = .receiver)
    (last : world.station.busBlocked = 1) (events : List Event) :
    ((Event.periodic :: events).foldl (World.step bufferLen) world).station.rxlen = 0 := by
  have expired : LockedOut (world.step bufferLen .periodic) := by
    cases coherent.phase with
    | waiting _ rxlen txlen free => omega
    | collecting content _ blocked locked idle reading stored =>
        have counted : zbusCorePeriodic world.station = { world.station with busBlocked := 0 } := by
          simp [zbusCorePeriodic, last, stored.txlen]
        simp only [World.step, counted]
        exact ⟨listening, stored.rxlen, stored.txlen, rfl, locked, idle⟩
    | finished off txlen free => omega
    | processing _ rxlen txlen free => omega
    | sending sending => simp [sending] at listening
  exact (expired.run bufferLen events).rxlen

end Ethersex.Zbus

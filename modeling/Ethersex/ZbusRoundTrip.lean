import Ethersex.ZbusStation

/-!
# A frame from one ZBus station to another

The transmit interrupt of one station and the receive interrupt of another are joined by
the line.  Between two bytes the timer of either station may tick once.  The sender is
described by the bytes it still has to send, the receiver by the bytes it expects; both
lists are the same and get shorter with every byte.
-/

namespace Ethersex.Zbus

open ByteMemory

structure Line where
  sender : Station
  receiver : Station

/-- The byte in the data register is received and its transmission ends, each followed or
preceded by a tick. -/
def exchange (bufferLen : Nat) (line : Line) (ticks : Bool × Bool) : Line :=
  match line.sender.udr with
  | none => line
  | some byte =>
      ⟨txInterrupt (tick ticks.1 line.sender),
        tick ticks.2 (rxInterrupt bufferLen line.receiver false byte)⟩

/-- The line after some bytes. -/
def exchanges (bufferLen : Nat) (schedule : Nat → Bool × Bool) (line : Line) : Nat → Line
  | 0 => line
  | count + 1 => exchange bufferLen (exchanges bufferLen schedule line count) (schedule count)

/-- A receiver with no pending escape, no message in either direction and a free buffer. -/
structure Idle (station : Station) : Prop where
  escape : station.recvEscapeData = false
  rxlen : station.rxlen = 0
  txlen : station.txlen = 0
  unlocked : station.bufLocked = false

/-- A frame waits in the buffer of a station. -/
def Received (frame : List UInt8) (station : Station) : Prop :=
  station.rxlen = frame.length ∧ readBlock station.buf 0 frame.length = frame

/-- The bytes a station still has to send. -/
def outgoing (station : Station) : List UInt8 :=
  match station.udr with
  | none => []
  | some byte =>
      byte :: ((if station.sendEscapeData = 0 then [] else [station.sendEscapeData]) ++
        if station.txlen = 0 then []
        else frameEnd (readBlock station.buf station.index (station.txlen - station.index)))

theorem udr_of_outgoing {station : Station} (nothing : outgoing station = []) :
    station.udr = none := by
  cases udr : station.udr with
  | none => rfl
  | some byte => simp [outgoing, udr] at nothing

/-- The timer does not start the transmission again before the next byte of the buffer. -/
structure Sending (station : Station) : Prop where
  inside : station.index ≤ station.txlen ∨ station.txlen = 0
  timely : station.txlen = 0 ∨ 2 ≤ station.busBlocked
  carried : station.txlen = 0 ∨ station.sendEscapeData = 0 ∨ station.busBlocked = 3
  ended : station.udr = none → station.txlen = 0 ∧ station.usart = .receiver

theorem txInterrupt_sending {station : Station} {byte : UInt8} (udr : station.udr = some byte)
    (inside : station.index ≤ station.txlen ∨ station.txlen = 0)
    (carried : station.txlen = 0 ∨ station.sendEscapeData = 0 ∨ 2 ≤ station.busBlocked) :
    Sending (txInterrupt station) ∧ outgoing station = byte :: outgoing (txInterrupt station) := by
  by_cases carry : station.sendEscapeData = 0
  · by_cases silent : station.txlen = 0
    · -- the stop condition has been sent
      rw [txInterrupt_end carry silent]
      exact ⟨⟨Or.inr silent, Or.inl silent, Or.inl silent, fun _ => ⟨silent, rfl⟩⟩,
        by simp [outgoing, udr, carry, silent]⟩
    · by_cases more : station.index < station.txlen
      · have split : station.txlen - station.index = station.txlen - (station.index + 1) + 1 := by
          omega
        rw [txInterrupt_byte carry more]
        refine ⟨⟨Or.inl more, Or.inr (by simp), Or.inr (Or.inr rfl), by simp⟩, ?_⟩
        by_cases quoted : station.buf station.index = escapeCharacter
        · simp [outgoing, udr, carry, silent, split, readBlock_succ, frameEnd_cons, escapeByte,
            quoted, escapeCharacter]
        · simp [outgoing, udr, carry, silent, split, readBlock_succ, frameEnd_cons, escapeByte,
            quoted]
      · rw [txInterrupt_stop carry silent (by omega)]
        refine ⟨⟨Or.inr rfl, Or.inl rfl, Or.inl rfl, by simp⟩, ?_⟩
        simp [outgoing, udr, carry, silent, show station.txlen - station.index = 0 by omega,
          zbusStop]
  · rw [txInterrupt_carry carry]
    refine ⟨⟨inside, ?_, Or.inr (Or.inl rfl), by simp⟩, by simp [outgoing, udr, carry]⟩
    exact carried.imp_right fun timely => timely.resolve_left carry

/-- The next byte of a sender. -/
theorem Sending.next {station : Station} (sending : Sending station) {byte : UInt8}
    (udr : station.udr = some byte) (ticked : Bool) :
    Sending (txInterrupt (tick ticked station)) ∧
      outgoing station = byte :: outgoing (txInterrupt (tick ticked station)) := by
  obtain ⟨busBlocked, above, -, counted⟩ := tick_counts ticked station sending.timely
  have same : outgoing (tick ticked station) = outgoing station := by
    rw [counted]
    rfl
  rw [← same, counted]
  refine txInterrupt_sending udr sending.inside ?_
  rcases sending.carried with silent | none | three
  · exact Or.inl silent
  · exact Or.inr (Or.inl none)
  · exact Or.inr (Or.inr (by show 2 ≤ busBlocked; omega))

/-- In the middle of a frame: the buffer holds the bytes received so far. -/
structure Collecting (got : List UInt8) (station : Station) : Prop where
  rxlen : station.rxlen = 0
  txlen : station.txlen = 0
  index : station.index = got.length
  content : readBlock station.buf 0 got.length = got

/-- The bytes after which a station has received a frame. -/
inductive Expecting (frame : List UInt8) : Station → List UInt8 → Prop where
  | idle {station : Station} (idle : Idle station) : Expecting frame station (wire frame)
  | start {station : Station} (escape : station.recvEscapeData = true)
      (rxlen : station.rxlen = 0) (txlen : station.txlen = 0)
      (unlocked : station.bufLocked = false) :
      Expecting frame station (zbusStart :: frameEnd frame)
  | content {station : Station} {got more : List UInt8} (split : frame = got ++ more)
      (collecting : Collecting got station) (escape : station.recvEscapeData = false)
      (timely : 2 ≤ station.busBlocked) : Expecting frame station (frameEnd more)
  | escaped {station : Station} {got more rest : List UInt8} (split : frame = got ++ more)
      (collecting : Collecting got station) (escape : station.recvEscapeData = true)
      (timely : 1 ≤ station.busBlocked) (rest_eq : frameEnd more = escapeCharacter :: rest) :
      Expecting frame station rest
  | finished {station : Station} (received : Received frame station)
      (free : station.busBlocked = 0) : Expecting frame station []

theorem Collecting.append {got : List UInt8} {station : Station} {bufferLen : Nat}
    (collecting : Collecting got station) (space : got.length < bufferLen)
    (blocked : station.busBlocked ≠ 0) (byte : UInt8) :
    Collecting (got ++ [byte]) (appendData bufferLen station byte) ∧
      (appendData bufferLen station byte).busBlocked = 3 ∧
      (appendData bufferLen station byte).recvEscapeData = station.recvEscapeData := by
  have room : ¬ bufferLen ≤ station.index := by
    rw [collecting.index]
    omega
  simp only [appendData, room, blocked, if_false]
  refine ⟨⟨collecting.rxlen, collecting.txlen, ?_, ?_⟩, by simp⟩
  · simp [collecting.index]
  · rw [List.length_append, List.length_singleton, readBlock_append, collecting.index,
      ← writeBlock_singleton, readBlock_writeBlock_disjoint (Or.inl (by simp)),
      collecting.content, Nat.zero_add]
    congr 1
    simp [readBlock, writeBlock_singleton]

theorem Collecting.congr {got : List UInt8} {station : Station}
    (collecting : Collecting got station) {busBlocked : Nat} {escape : Bool} :
    Collecting got { station with busBlocked := busBlocked, recvEscapeData := escape } :=
  ⟨collecting.rxlen, collecting.txlen, collecting.index, collecting.content⟩

/-- A byte of the frame has been stored. -/
theorem Expecting.stored {frame got more : List UInt8} {byte : UInt8} {station : Station}
    {bufferLen : Nat} (fits : frame.length ≤ bufferLen) (split : frame = got ++ byte :: more)
    (collecting : Collecting got station) (escape : station.recvEscapeData = false)
    (blocked : station.busBlocked ≠ 0) (ticked : Bool) :
    Expecting frame (tick ticked (appendData bufferLen station byte)) (frameEnd more) := by
  have space : got.length < bufferLen := by
    rw [split, List.length_append, List.length_cons] at fits
    omega
  obtain ⟨stored, three, same⟩ := collecting.append space blocked byte
  obtain ⟨busBlocked, above, -, counted⟩ := tick_counts ticked _ (Or.inl stored.txlen)
  rw [counted]
  exact .content (by simp [split]) stored.congr (same.trans escape) (by show 2 ≤ busBlocked; omega)

/-- The next byte of the frame brings the receiver nearer to its end. -/
theorem Expecting.next {frame : List UInt8} {bufferLen : Nat} (fits : frame.length ≤ bufferLen)
    {station : Station} {byte : UInt8} {rest : List UInt8}
    (expecting : Expecting frame station (byte :: rest)) (ticked : Bool) :
    Expecting frame (tick ticked (rxInterrupt bufferLen station false byte)) rest := by
  generalize sequence : byte :: rest = bytes at expecting
  cases expecting with
  | idle idle =>
      obtain ⟨rfl, rfl⟩ := List.cons.inj sequence
      rw [rxInterrupt_escape idle.rxlen idle.txlen idle.escape]
      obtain ⟨busBlocked, -, -, counted⟩ :=
        tick_counts ticked { station with recvEscapeData := true } (Or.inl idle.txlen)
      rw [counted]
      exact .start rfl idle.rxlen idle.txlen idle.unlocked
  | start escape rxlen txlen unlocked =>
      obtain ⟨rfl, rfl⟩ := List.cons.inj sequence
      rw [rxInterrupt_start rxlen txlen escape, startCondition, if_neg (by simp [unlocked])]
      obtain ⟨busBlocked, above, -, counted⟩ := tick_counts ticked
        { station with recvEscapeData := false, bufLocked := true, index := 0, busBlocked := 3 }
        (Or.inl txlen)
      rw [counted]
      exact .content (List.nil_append frame).symm ⟨rxlen, txlen, rfl, rfl⟩ rfl
        (by simp only at above ⊢; omega)
  | @content got more split collecting escape timely =>
      cases more with
      | nil =>
          obtain ⟨rfl, rfl⟩ := List.cons.inj sequence
          rw [rxInterrupt_escape collecting.rxlen collecting.txlen escape]
          obtain ⟨busBlocked, above, -, counted⟩ := tick_counts ticked
            { station with recvEscapeData := true } (Or.inl collecting.txlen)
          rw [counted]
          exact .escaped split collecting.congr rfl (by simp only at above ⊢; omega) rfl
      | cons head more =>
          rw [frameEnd_cons, escapeByte] at sequence
          split_ifs at sequence with quoted
          · obtain ⟨rfl, rfl⟩ := List.cons.inj sequence
            rw [rxInterrupt_escape collecting.rxlen collecting.txlen escape]
            obtain ⟨busBlocked, above, -, counted⟩ := tick_counts ticked
              { station with recvEscapeData := true } (Or.inl collecting.txlen)
            rw [counted]
            refine .escaped split collecting.congr rfl (by simp only at above ⊢; omega) ?_
            rw [frameEnd_cons, escapeByte, if_pos quoted]
            rfl
          · obtain ⟨rfl, rfl⟩ := List.cons.inj sequence
            rw [rxInterrupt_data collecting.rxlen collecting.txlen escape quoted]
            exact .stored fits split collecting escape (by omega) ticked
  | @escaped got more _ split collecting escape timely rest_eq =>
      subst sequence
      cases more with
      | nil =>
          obtain ⟨-, tail⟩ := List.cons.inj rest_eq
          obtain ⟨rfl, rfl⟩ := List.cons.inj tail
          rw [List.append_nil] at split
          have blocked : station.busBlocked ≠ 0 := by omega
          rw [rxInterrupt_stop collecting.rxlen collecting.txlen escape,
            stopCondition_of_blocked { station with recvEscapeData := false }
              collecting.txlen blocked]
          obtain ⟨busBlocked, -, below, counted⟩ := tick_counts ticked
            { station with
              recvEscapeData := false, usart := .off, rxlen := station.index, busBlocked := 0 }
            (Or.inl collecting.txlen)
          rw [counted, split]
          exact .finished ⟨collecting.index, collecting.content⟩ (Nat.le_zero.1 below)
      | cons head more =>
          rw [frameEnd_cons, escapeByte] at rest_eq
          split_ifs at rest_eq with quoted
          · obtain ⟨-, tail⟩ := List.cons.inj rest_eq
            obtain ⟨rfl, rfl⟩ := List.cons.inj tail
            rw [rxInterrupt_quoted collecting.rxlen collecting.txlen escape]
            subst quoted
            exact .stored fits split collecting.congr rfl (by show station.busBlocked ≠ 0; omega)
              ticked
          · exact absurd (List.cons.inj rest_eq).1 quoted
  | finished received free => cases sequence

theorem Expecting.received {frame : List UInt8} {station : Station}
    (expecting : Expecting frame station []) : Received frame station := by
  generalize sequence : [] = bytes at expecting
  cases expecting with
  | idle idle => cases sequence
  | start escape rxlen txlen unlocked => cases sequence
  | @content got more split collecting escape timely =>
      have long := two_le_frameEnd_length more
      simp [← sequence] at long
  | @escaped got more _ split collecting escape timely rest_eq =>
      have long := two_le_frameEnd_length more
      simp [rest_eq, ← sequence] at long
  | finished received free => exact received

/-- After every byte the receiver expects what the sender still has to send. -/
theorem exchanges_expecting {bufferLen : Nat} {frame : List UInt8}
    (fits : frame.length ≤ bufferLen) (schedule : Nat → Bool × Bool) (line : Line)
    (sending : Sending line.sender)
    (expecting : Expecting frame line.receiver (outgoing line.sender)) (count : Nat) :
    Sending (exchanges bufferLen schedule line count).sender ∧
      Expecting frame (exchanges bufferLen schedule line count).receiver
        (outgoing (exchanges bufferLen schedule line count).sender) ∧
      (outgoing (exchanges bufferLen schedule line count).sender).length =
        (outgoing line.sender).length - count := by
  induction count with
  | zero => exact ⟨sending, expecting, rfl⟩
  | succ count ih =>
      obtain ⟨sendingHere, expectingHere, length⟩ := ih
      rw [exchanges, exchange]
      generalize exchanges bufferLen schedule line count = here at *
      cases udr : here.sender.udr with
      | none =>
          have silent : outgoing here.sender = [] := by
            simp [outgoing, udr]
          rw [silent] at length
          exact ⟨sendingHere, expectingHere,
            by rw [silent]; simp only [List.length_nil] at *; omega⟩
      | some byte =>
          obtain ⟨sendingNext, bytes⟩ := sendingHere.next udr (schedule count).1
          rw [bytes] at expectingHere length
          rw [List.length_cons] at length
          exact ⟨sendingNext, expectingHere.next fits (schedule count).2, by simp only; omega⟩

/-- A transmission that has been started sends the frame in the buffer. -/
theorem zbusTxstart_sending {sender : Station} {frame : List UInt8} (nonempty : frame ≠ [])
    (free : sender.txlen = 0 ∧ sender.rxlen = 0 ∧ sender.busBlocked = 0)
    (content : readBlock sender.buf 0 frame.length = frame) :
    Sending (zbusTxstart sender frame.length) ∧
      outgoing (zbusTxstart sender frame.length) = wire frame := by
  have length : frame.length ≠ 0 := by simpa using nonempty
  have started : zbusTxstart sender frame.length =
      startTransmitter { sender with index := 0, txlen := frame.length } := by
    simp [zbusTxstart, free]
  rw [started]
  refine ⟨⟨Or.inl (Nat.zero_le _), Or.inr (by simp [startTransmitter]), Or.inr (Or.inr rfl),
    by simp [startTransmitter]⟩, ?_⟩
  simp [outgoing, startTransmitter, zbusStart, nonempty, content, wire]

/-- A frame of one station arrives at an idle station whatever its bytes are and whenever the
timers tick, and the sender listens again. -/
theorem frame_roundTrip (bufferLen : Nat) (frame : List UInt8) (nonempty : frame ≠ [])
    (fits : frame.length ≤ bufferLen) (sender receiver : Station)
    (free : sender.txlen = 0 ∧ sender.rxlen = 0 ∧ sender.busBlocked = 0)
    (content : readBlock sender.buf 0 frame.length = frame) (idle : Idle receiver)
    (schedule : Nat → Bool × Bool) :
    ∃ count, ∀ later ≥ count,
      let final := exchanges bufferLen schedule ⟨zbusTxstart sender frame.length, receiver⟩ later
      Received frame final.receiver ∧ final.sender.txlen = 0 ∧
        final.sender.usart = .receiver := by
  obtain ⟨sending, bytes⟩ := zbusTxstart_sending nonempty free content
  refine ⟨(wire frame).length, fun later enough => ?_⟩
  have expecting : Expecting frame receiver (outgoing (zbusTxstart sender frame.length)) := by
    rw [bytes]
    exact .idle idle
  obtain ⟨sendingThere, expectingThere, length⟩ := exchanges_expecting fits schedule
    ⟨zbusTxstart sender frame.length, receiver⟩ sending expecting later
  have nothing : outgoing (exchanges bufferLen schedule
      ⟨zbusTxstart sender frame.length, receiver⟩ later).sender = [] := by
    rw [← List.length_eq_zero_iff, length, bytes]
    omega
  rw [nothing] at expectingThere
  exact ⟨expectingThere.received, sendingThere.ended (udr_of_outgoing nothing)⟩

/-- A frame with an escape character and the codes of both conditions, with a tick on both sides
after every byte. -/
theorem frame_roundTrip_escapes :
    ∃ count, ∀ later ≥ count,
      let final := exchanges 500 (fun _ => (true, true))
        ⟨zbusTxstart (zbusCoreInit fun position => [0x5c, 0x30, 0x5c, 0x31].getD position 0) 4,
          zbusCoreInit fun _ => 0⟩ later
      Received [0x5c, 0x30, 0x5c, 0x31] final.receiver ∧ final.sender.txlen = 0 ∧
        final.sender.usart = .receiver :=
  frame_roundTrip 500 [0x5c, 0x30, 0x5c, 0x31] (by decide) (by decide)
    (zbusCoreInit fun position => [0x5c, 0x30, 0x5c, 0x31].getD position 0)
    (zbusCoreInit fun _ => 0) (by decide) (by decide) ⟨rfl, rfl, rfl, rfl⟩ (fun _ => (true, true))

end Ethersex.Zbus

import Ethersex.ByteMemory

/-!
# A byte stream sent one segment at a time

A connection has at most one segment in flight.  It takes a segment from what is
offered to it, repeats it on demand, and knows when it has been acknowledged; the
sender keeps the bytes in a buffer until then.  `Carries` relates both sides to
the stream of all bytes that were put into the buffer.
-/

namespace SegmentStreams

open ByteMemory

/-- The bytes that the peer has acknowledged, and the segment in flight. -/
structure Stream where
  acked : List UInt8
  outstanding : List UInt8

namespace Stream

def empty : Stream := ⟨[], []⟩

def acknowledge (stream : Stream) : Stream := ⟨stream.acked ++ stream.outstanding, []⟩

/-- Offer bytes in a segment buffer that held `old` before.  A connection with nothing in
flight takes at most `mss` of them; otherwise as many bytes as are in flight are sent again. -/
def transmit (stream : Stream) (old : Memory) (mss : Nat) (offered : List UInt8) : Stream :=
  if offered = [] then stream
  else if stream.outstanding = [] then ⟨stream.acked, offered.take mss⟩
  else ⟨stream.acked, readBlock (writeBlock old 0 offered) 0 stream.outstanding.length⟩

theorem transmit_nil (stream : Stream) (old : Memory) (mss : Nat) :
    stream.transmit old mss [] = stream :=
  if_pos rfl

theorem transmit_idle {stream : Stream} (idle : stream.outstanding = []) (old : Memory)
    {mss : Nat} {offered : List UInt8} (short : offered.length ≤ mss) :
    stream.transmit old mss offered = ⟨stream.acked, offered⟩ := by
  by_cases none : offered = []
  · rw [none, transmit_nil, ← idle]
  · rw [transmit, if_neg none, if_pos idle, List.take_of_length_le short]

/-- Offering the segment in flight changes nothing. -/
theorem transmit_outstanding (stream : Stream) (old : Memory) (mss : Nat)
    (busy : stream.outstanding ≠ []) :
    stream.transmit old mss stream.outstanding = stream := by
  rw [transmit, if_neg busy, if_neg busy, readBlock_writeBlock_same]

end Stream

/-- A buffer with its fill level, and how much of it was sent. -/
structure Buffer where
  len : Nat
  sent : Nat
  data : Memory

namespace Buffer

def contents (buffer : Buffer) : List UInt8 := readBlock buffer.data 0 buffer.len

def push (buffer : Buffer) (bytes : List UInt8) : Buffer :=
  ⟨buffer.len + bytes.length, buffer.sent, writeBlock buffer.data buffer.len bytes⟩

/-- Remove the bytes that were sent; the fill level has 16 bits. -/
def dropSent (buffer : Buffer) : Buffer :=
  let len := (buffer.len + 65536 - buffer.sent) % 65536
  ⟨len, buffer.sent, writeBlock buffer.data 0 (readBlock buffer.data buffer.sent len)⟩

def markSent (buffer : Buffer) : Buffer := ⟨buffer.len, buffer.len, buffer.data⟩

theorem length_contents (buffer : Buffer) : buffer.contents.length = buffer.len :=
  length_readBlock ..

theorem contents_push (buffer : Buffer) (bytes : List UInt8) :
    (buffer.push bytes).contents = buffer.contents ++ bytes := by
  rw [contents, push, readBlock_append, Nat.zero_add, readBlock_writeBlock_same,
    readBlock_writeBlock_disjoint (Or.inl (by omega))]
  rfl

theorem contents_dropSent {buffer : Buffer} (sent : buffer.sent ≤ buffer.len)
    (fits : buffer.len < 65536) :
    (buffer.dropSent).contents = readBlock buffer.data buffer.sent (buffer.len - buffer.sent) := by
  have len : (buffer.len + 65536 - buffer.sent) % 65536 = buffer.len - buffer.sent := by omega
  rw [contents, dropSent, len]
  have whole := readBlock_writeBlock_same buffer.data 0
    (readBlock buffer.data buffer.sent (buffer.len - buffer.sent))
  rw [length_readBlock] at whole
  exact whole

end Buffer

/-- The bytes that were put into the buffer are those that were acknowledged and those that
are still in the buffer; the segment in flight stands at its front. -/
structure Carries (stored : List UInt8) (stream : Stream) (buffer : Buffer) : Prop where
  stored_eq : stored = stream.acked ++ buffer.contents
  fits : buffer.len < 65536
  inFlight : stream.outstanding ≠ [] → buffer.sent ≤ buffer.len ∧
    stream.outstanding = readBlock buffer.data 0 buffer.sent

namespace Carries

variable {stored : List UInt8} {stream : Stream} {buffer : Buffer}

theorem empty (sent : Nat) (data : Memory) : Carries [] Stream.empty ⟨0, sent, data⟩ where
  stored_eq := rfl
  fits := by simp
  inFlight := fun busy => absurd rfl busy

theorem begins (carries : Carries stored stream buffer) :
    stream.acked ++ stream.outstanding <+: stored := by
  rw [carries.stored_eq, List.prefix_append_right_inj]
  by_cases idle : stream.outstanding = []
  · rw [idle]
    exact List.nil_prefix
  · obtain ⟨sent, outstanding⟩ := carries.inFlight idle
    rw [outstanding, Buffer.contents, ← take_readBlock sent]
    exact List.take_prefix _ _

theorem push (carries : Carries stored stream buffer) {bytes : List UInt8}
    (fits : buffer.len + bytes.length < 65536) :
    Carries (stored ++ bytes) stream (buffer.push bytes) where
  stored_eq := by rw [Buffer.contents_push, ← List.append_assoc, ← carries.stored_eq]
  fits := fits
  inFlight := by
    intro busy
    obtain ⟨sent, outstanding⟩ := carries.inFlight busy
    refine ⟨Nat.le_trans sent (Nat.le_add_right _ _), ?_⟩
    have before : 0 + buffer.sent ≤ buffer.len := by omega
    rw [outstanding, Buffer.push, readBlock_writeBlock_disjoint (Or.inl before)]

theorem acknowledge (carries : Carries stored stream buffer) (busy : stream.outstanding ≠ []) :
    Carries stored stream.acknowledge buffer.dropSent := by
  obtain ⟨sent, outstanding⟩ := carries.inFlight busy
  refine ⟨?_, ?_, fun busy => absurd rfl busy⟩
  · rw [Buffer.contents_dropSent sent carries.fits, Stream.acknowledge, outstanding,
      List.append_assoc, carries.stored_eq, Buffer.contents]
    obtain ⟨rest, len⟩ := Nat.exists_eq_add_of_le sent
    rw [len, readBlock_append, Nat.zero_add, Nat.add_sub_cancel_left]
  · rw [Buffer.dropSent]
    exact Nat.mod_lt _ (by decide)

/-- The whole buffer is sent, if it fits into a segment. -/
theorem send (carries : Carries stored stream buffer) (idle : stream.outstanding = [])
    (old : Memory) {mss : Nat} (short : buffer.len ≤ mss) :
    Carries stored (stream.transmit old mss buffer.contents) buffer.markSent := by
  rw [Stream.transmit_idle idle old (by rw [Buffer.length_contents]; exact short)]
  exact ⟨carries.stored_eq, carries.fits, fun _ => ⟨Nat.le_refl _, rfl⟩⟩

/-- The bytes that were sent are sent again. -/
theorem resend (carries : Carries stored stream buffer) (busy : stream.outstanding ≠ [])
    (old : Memory) (mss : Nat) :
    stream.transmit old mss (readBlock buffer.data 0 buffer.sent) = stream := by
  rw [← (carries.inFlight busy).2]
  exact stream.transmit_outstanding old mss busy

end Carries

end SegmentStreams

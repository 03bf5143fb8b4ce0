import Mathlib.Algebra.Group.Nat.Defs
import Ethersex.GuardedRuns
import Ethersex.SegmentStreams

/-!
# Sending a file over HTTP

`services/httpd/handle_vfs.c` answers a request with a header and the content of a
file, one segment at a time: the header until it is acknowledged, and then what
the file holds behind the acknowledged bytes.  A read that does not fill a segment
is the end of the file.  This file embeds the handler with the calls of
`httpd_main` for its connection, and says for which files and in which runs the
client gets all of it.
-/

namespace Ethersex.HttpdVfs

open ByteMemory SegmentStreams GuardedRuns

/-- A file as the VFS shows it; `vfs_size_t` has 32 bits. -/
structure File where
  content : List UInt8
  contentType : UInt8
  length_lt : content.length < 2 ^ 32

def asciiBytes (text : String) : List UInt8 := text.toList.map fun char => UInt8.ofNat char.toNat

def httpdHeader200 : List UInt8 := asciiBytes "HTTP/1.1 200 OK\nConnection: close\n"

def httpdHeaderLength : List UInt8 := asciiBytes "Content-Length: "

def httpdHeaderGzip : List UInt8 := asciiBytes "Content-Encoding: gzip\n"

def httpdHeaderCtXhtml : List UInt8 :=
  asciiBytes "Content-Type: application/xhtml+xml; charset=utf-8\n\n"

def httpdHeaderCtCss : List UInt8 := asciiBytes "Content-Type: text/css; charset=utf-8\n\n"

def httpdHeaderCtXicon : List UInt8 := asciiBytes "Content-Type: image/x-icon\n\n"

def httpdHeaderCtHtml : List UInt8 := asciiBytes "Content-Type: text/html; charset=utf-8\n\n"

/-- The content type is a letter: `X`, `S` or `I`. -/
def contentTypeHeader (contentType : UInt8) : List UInt8 :=
  if contentType = 88 then httpdHeaderCtXhtml
  else if contentType = 83 then httpdHeaderCtCss
  else if contentType = 73 then httpdHeaderCtXicon
  else httpdHeaderCtHtml

/-- The text of the header, when the file is taken to be compressed or not. -/
def headerText (file : File) (gzip : Bool) : List UInt8 :=
  httpdHeader200 ++
    (if 0 < file.content.length then
      httpdHeaderLength ++ asciiBytes (toString file.content.length ++ "\n") else []) ++
    (if gzip then httpdHeaderGzip else []) ++ contentTypeHeader file.contentType

def gzipMagic : List UInt8 := [0x1f, 0x8b]

/-- `httpd_handle_vfs_send_header`.  The first two bytes of the file are read into a local
array, which keeps what it held before when the file is shorter. -/
def httpdHandleVfsSendHeader (file : File) (stale : List UInt8) : List UInt8 :=
  let start := file.content.take 2
  headerText file (start ++ (stale.take 2).drop start.length == gzipMagic)

/-- The header that belongs to the file. -/
def responseHeader (file : File) : List UInt8 :=
  headerText file (file.content.take 2 == gzipMagic)

/-- The variables of the connection; `handler` is false when no handler is set. -/
structure VfsState where
  handler : Bool
  headerAcked : Bool
  eof : Bool
  acked : Nat
  sent : Nat

/-- What the handler leaves to uIP. -/
inductive Request where
  | nothing
  | send (data : List UInt8)
  | close
  | abort

/-- A call of the application with the flags of uIP.  `closed` stands for a connection that
is closed, aborted or timed out, `mss` for what `uip_mss()` gives, which every segment of the
client sets anew, and `old` and `stale` for what the segment buffer and the local array hold. -/
structure VfsCall where
  closed : Bool
  acked : Bool
  rexmit : Bool
  newdata : Bool
  poll : Bool
  mss : Nat
  old : Memory
  stale : List UInt8

def httpdCleanup (state : VfsState) : VfsState := { state with handler := false }

def httpdHandleVfsSendBody (file : File) (mss : Nat) (state : VfsState) : VfsState × Request :=
  let body := (file.content.drop state.acked).take mss
  if body = [] then
    (httpdCleanup state, .abort)
  else
    ({ state with
        eof := state.eof || decide (body.length < mss)
        sent := state.acked + body.length }, .send body)

/-- The first part of `httpd_handle_vfs`. -/
def noteAck (state : VfsState) (acked : Bool) : VfsState :=
  if acked then
    if state.headerAcked then { state with acked := state.sent }
    else { state with headerAcked := true, acked := 0 }
  else state

def httpdHandleVfs (file : File) (state : VfsState) (call : VfsCall) : VfsState × Request :=
  let state := noteAck state call.acked
  if state.headerAcked = false then
    (state, .send (httpdHandleVfsSendHeader file call.stale))
  else if state.eof ∧ call.rexmit = false then
    (state, .close)
  else
    httpdHandleVfsSendBody file call.mss state

def httpdMain (file : File) (state : VfsState) (call : VfsCall) : VfsState × Request :=
  if call.closed then
    (httpdCleanup state, .nothing)
  else if (call.rexmit ∨ call.newdata ∨ call.acked ∨ call.poll) ∧ state.handler then
    httpdHandleVfs file state call
  else
    (state, .nothing)

/-- How the connection ended: by `uip_close`, by `uip_abort`, or by the client. -/
inductive Ending where
  | closed
  | aborted
  | byClient
  deriving DecidableEq

/-- The connection.  `resent` holds, for every retransmission, the segment in flight and the
bytes that were sent in its place. -/
structure Delivery where
  vfs : VfsState
  stream : Stream
  ended : Option Ending
  resent : List (List UInt8 × List UInt8)

/-- When uIP makes a call. -/
structure Possible (delivery : Delivery) (call : VfsCall) : Prop where
  open_ : delivery.ended = none
  mss : 0 < call.mss
  acked : call.acked = true → delivery.stream.outstanding ≠ []
  rexmit : call.rexmit = true → delivery.stream.outstanding ≠ [] ∧ call.acked = false
  poll : call.poll = true → delivery.stream.outstanding = [] ∧ call.acked = false

instance (delivery : Delivery) (call : VfsCall) : Decidable (Possible delivery call) :=
  decidable_of_iff
    (delivery.ended = none ∧ 0 < call.mss ∧ (call.acked = true → delivery.stream.outstanding ≠ []) ∧
      (call.rexmit = true → delivery.stream.outstanding ≠ [] ∧ call.acked = false) ∧
      (call.poll = true → delivery.stream.outstanding = [] ∧ call.acked = false))
    ⟨fun ⟨open_, mss, acked, rexmit, poll⟩ => ⟨open_, mss, acked, rexmit, poll⟩,
      fun possible =>
        ⟨possible.open_, possible.mss, possible.acked, possible.rexmit, possible.poll⟩⟩

/-- The segment in flight when the handler is called. -/
def acknowledged (stream : Stream) (acked : Bool) : Stream :=
  if acked then stream.acknowledge else stream

/-- What uIP does with the request.  A call for a retransmission cannot end the connection. -/
def afterCall (delivery : Delivery) (call : VfsCall) (vfs : VfsState) (request : Request) :
    Delivery :=
  let stream := acknowledged delivery.stream call.acked
  if call.closed then
    ⟨vfs, stream, some .byClient, delivery.resent⟩
  else
    match request with
    | .nothing => ⟨vfs, stream, none, delivery.resent⟩
    | .close => ⟨vfs, stream, if call.rexmit then none else some .closed, delivery.resent⟩
    | .abort => ⟨vfs, stream, if call.rexmit then none else some .aborted, delivery.resent⟩
    | .send data =>
        let sent := stream.transmit call.old call.mss data
        ⟨vfs, sent, none,
          if stream.outstanding = [] then delivery.resent
          else delivery.resent ++ [(stream.outstanding, sent.outstanding)]⟩

def deliveryStep (file : File) (delivery : Delivery) (call : VfsCall) : Option Delivery :=
  if Possible delivery call then
    let handled := httpdMain file delivery.vfs call
    some (afterCall delivery call handled.1 handled.2)
  else
    none

/-- The connection when the handler has been set; the offsets are not yet set. -/
def start (acked sent : Nat) : Delivery :=
    ⟨⟨true, false, false, acked, sent⟩, Stream.empty, none, []⟩

/-- The client has acknowledged a beginning of the answer, retransmissions repeated the
segment in flight, and the server has ended the connection only when all was acknowledged. -/
structure Delivered (file : File) (delivery : Delivery) : Prop where
  begins : delivery.stream.acked <+: responseHeader file ++ file.content
  repeats : ∀ pair ∈ delivery.resent, pair.2 = pair.1
  complete : delivery.ended = some .closed →
    delivery.stream.acked = responseHeader file ++ file.content
  notAborted : delivery.ended ≠ some .aborted

/-- While the last segment is in flight no data arrives but with its acknowledgement. -/
def LastAwaited (delivery : Delivery) (call : VfsCall) : Prop :=
  delivery.vfs.eof = true → call.newdata = true →
    call.acked = true ∨ call.rexmit = true ∨ call.closed = true

/-- A file of one byte is not taken to be compressed, and the header fits into the segment that
it is sent in. -/
def HeaderWhole (file : File) (delivery : Delivery) (call : VfsCall) : Prop :=
  delivery.vfs.headerAcked = false →
    (call.acked = false → httpdHandleVfsSendHeader file call.stale = responseHeader file) ∧
      (delivery.stream.outstanding = [] → (responseHeader file).length ≤ call.mss)

/-- As long as no segment was short, an acknowledgement leaves a part of the file; and a segment
of the file is read again with its own length. -/
def SegmentsWhole (file : File) (delivery : Delivery) (call : VfsCall) : Prop :=
  call.closed = false →
    (call.acked = true → delivery.vfs.eof = false →
      (noteAck delivery.vfs true).acked < file.content.length) ∧
    (call.acked = false → delivery.vfs.headerAcked = true →
      call.rexmit = true ∨ call.newdata = true →
        min call.mss (file.content.length - delivery.vfs.acked) =
          delivery.vfs.sent - delivery.vfs.acked)

/-- The calls in which the answer goes on as it should. -/
structure Undisturbed (file : File) (delivery : Delivery) (call : VfsCall) : Prop where
  awaited : LastAwaited delivery call
  header : HeaderWhole file delivery call
  segments : SegmentsWhole file delivery call

/-- The segment of the file that begins at an offset. -/
def chunk (file : File) (length offset : Nat) : List UInt8 :=
  (file.content.drop offset).take length

/-- The header is to be acknowledged. -/
structure InHeader (file : File) (vfs : VfsState) (stream : Stream) : Prop where
  headerAcked : vfs.headerAcked = false
  eof : vfs.eof = false
  acked : stream.acked = []
  outstanding : stream.outstanding = [] ∨ stream.outstanding = responseHeader file

/-- A segment of the file is to be acknowledged. -/
structure InBody (file : File) (vfs : VfsState) (stream : Stream) : Prop where
  headerAcked : vfs.headerAcked = true
  eof : vfs.eof = true → vfs.sent = file.content.length
  begun : vfs.acked < vfs.sent
  inside : vfs.sent ≤ file.content.length
  acked : stream.acked = responseHeader file ++ file.content.take vfs.acked
  outstanding : stream.outstanding = chunk file (vfs.sent - vfs.acked) vfs.acked

structure Delivering (file : File) (delivery : Delivery) : Prop where
  repeats : ∀ pair ∈ delivery.resent, pair.2 = pair.1
  open_ : delivery.ended = none → delivery.vfs.handler = true ∧
    (InHeader file delivery.vfs delivery.stream ∨ InBody file delivery.vfs delivery.stream)
  complete : delivery.ended = some .closed →
    delivery.stream.acked = responseHeader file ++ file.content
  byClient : delivery.ended = some .byClient →
    delivery.stream.acked <+: responseHeader file ++ file.content
  notAborted : delivery.ended ≠ some .aborted

section Invariant

variable {file : File} {mss : Nat} {vfs : VfsState} {stream : Stream} {delivery : Delivery}
  {call : VfsCall}

theorem responseHeader_ne_nil (file : File) : responseHeader file ≠ [] := by
  have status : httpdHeader200 ≠ [] := by decide
  simp [responseHeader, headerText, status]

theorem chunk_ne_nil {offset : Nat} (positive : 0 < mss) (inside : offset < file.content.length) :
    chunk file mss offset ≠ [] := by
  rw [← List.length_pos_iff, chunk, List.length_take, List.length_drop]
  omega

theorem length_chunk_le (file : File) (mss offset : Nat) : (chunk file mss offset).length ≤ mss :=
  List.length_take_le ..

theorem take_append_chunk (file : File) (mss offset : Nat) :
    file.content.take offset ++ chunk file mss offset =
      file.content.take (offset + (chunk file mss offset).length) := by
  rw [List.take_add, chunk, List.length_take, ← List.take_eq_take_min]

/-- A segment that is not full is the last one. -/
theorem chunk_end {offset : Nat} (short : (chunk file mss offset).length < mss)
    (inside : offset < file.content.length) :
    offset + (chunk file mss offset).length = file.content.length := by
  rw [chunk, List.length_take, List.length_drop] at short ⊢
  omega

theorem chunk_length (file : File) (mss offset : Nat) :
    chunk file (chunk file mss offset).length offset = chunk file mss offset := by
  rw [chunk, chunk, List.length_take, ← List.take_eq_take_min]

theorem length_chunk (file : File) (mss offset : Nat) :
    (chunk file mss offset).length = min mss (file.content.length - offset) := by
  rw [chunk, List.length_take, List.length_drop]

theorem InHeader.begins (header : InHeader file vfs stream) :
    stream.acked ++ stream.outstanding <+: responseHeader file ++ file.content := by
  rw [header.acked, List.nil_append]
  rcases header.outstanding with nothing | outstanding
  · rw [nothing]
    exact List.nil_prefix
  · rw [outstanding]
    exact List.prefix_append _ _

/-- What the client has when it acknowledges the segment in flight. -/
theorem InBody.acknowledge (body : InBody file vfs stream) :
    stream.acked ++ stream.outstanding = responseHeader file ++ file.content.take vfs.sent := by
  have begun := body.begun
  have inside := body.inside
  have length : vfs.acked + (chunk file (vfs.sent - vfs.acked) vfs.acked).length = vfs.sent := by
    rw [length_chunk]
    omega
  rw [body.acked, body.outstanding, List.append_assoc, take_append_chunk, length]

theorem InBody.busy (body : InBody file vfs stream) : stream.outstanding ≠ [] := by
  rw [body.outstanding]
  exact chunk_ne_nil (Nat.sub_pos_of_lt body.begun) (Nat.lt_of_lt_of_le body.begun body.inside)

theorem InBody.begins (body : InBody file vfs stream) :
    stream.acked ++ stream.outstanding <+: responseHeader file ++ file.content := by
  rw [body.acknowledge, List.prefix_append_right_inj]
  exact List.take_prefix _ _

theorem begins_acknowledged (acked : Bool) {whole : List UInt8}
    (begins : stream.acked ++ stream.outstanding <+: whole) :
    (acknowledged stream acked).acked <+: whole := by
  cases acked with
  | true => exact begins
  | false => exact (List.prefix_append _ _).trans begins

theorem Delivering.delivered (delivering : Delivering file delivery) :
    Delivered file delivery where
  begins := by
    cases ended : delivery.ended with
    | none =>
        rcases (delivering.open_ ended).2 with header | body
        · exact (List.prefix_append _ _).trans header.begins
        · exact (List.prefix_append _ _).trans body.begins
    | some ending =>
        cases ending with
        | closed =>
            have complete := delivering.complete ended
            exact complete ▸ List.prefix_rfl
        | aborted => exact absurd ended delivering.notAborted
        | byClient => exact delivering.byClient ended
  repeats := delivering.repeats
  complete := delivering.complete
  notAborted := delivering.notAborted

theorem sendBody_eq (positive : 0 < mss) (inside : vfs.acked < file.content.length) :
    httpdHandleVfsSendBody file mss vfs =
      (⟨vfs.handler, vfs.headerAcked,
          vfs.eof || decide ((chunk file mss vfs.acked).length < mss), vfs.acked,
          vfs.acked + (chunk file mss vfs.acked).length⟩,
        .send (chunk file mss vfs.acked)) :=
  if_neg (chunk_ne_nil positive inside)

theorem afterCall_closed (closed : call.closed = true) (request : Request) :
    afterCall delivery call vfs request =
      ⟨vfs, acknowledged delivery.stream call.acked, some .byClient, delivery.resent⟩ :=
  if_pos closed

/-- The connection goes on with a segment that is sent for the first time. -/
theorem Delivering.sentFirst {data : List UInt8} {next : VfsState}
    (delivering : Delivering file delivery) (open_ : call.closed = false)
    (idle : (acknowledged delivery.stream call.acked).outstanding = [])
    (short : data.length ≤ call.mss) (handler : next.handler = true)
    (phase : InHeader file next ⟨(acknowledged delivery.stream call.acked).acked, data⟩ ∨
      InBody file next ⟨(acknowledged delivery.stream call.acked).acked, data⟩) :
    Delivering file (afterCall delivery call next (.send data)) := by
  have after : afterCall delivery call next (.send data) =
      ⟨next, ⟨(acknowledged delivery.stream call.acked).acked, data⟩, none, delivery.resent⟩ := by
    rw [afterCall, open_, if_neg (by decide)]
    dsimp only
    rw [if_pos idle, Stream.transmit_idle idle call.old short]
  rw [after]
  exact ⟨delivering.repeats, fun _ => ⟨handler, phase⟩, (fun ended => nomatch ended),
    (fun ended => nomatch ended), (fun ended => nomatch ended)⟩

/-- The connection goes on with the segment in flight, which is sent again. -/
theorem Delivering.sentAgain {data : List UInt8} {next : VfsState}
    (delivering : Delivering file delivery) (open_ : call.closed = false)
    (notAcked : call.acked = false) (busy : delivery.stream.outstanding ≠ [])
    (same : data = delivery.stream.outstanding) (handler : next.handler = true)
    (phase : InHeader file next delivery.stream ∨ InBody file next delivery.stream) :
    Delivering file (afterCall delivery call next (.send data)) := by
  have after : afterCall delivery call next (.send data) =
      ⟨next, delivery.stream, none,
        delivery.resent ++ [(delivery.stream.outstanding, delivery.stream.outstanding)]⟩ := by
    rw [afterCall, open_, if_neg (by decide), notAcked, acknowledged, if_neg (by decide), same]
    dsimp only
    rw [if_neg busy, Stream.transmit_outstanding _ _ _ busy]
  rw [after]
  refine ⟨?_, fun _ => ⟨handler, phase⟩, (fun ended => nomatch ended),
    (fun ended => nomatch ended), (fun ended => nomatch ended)⟩
  intro pair member
  rcases List.mem_append.mp member with earlier | now
  · exact delivering.repeats pair earlier
  · rw [List.mem_singleton.mp now]

theorem noteAck_false (state : VfsState) : noteAck state false = state := rfl

theorem noteAck_header (headerAcked : vfs.headerAcked = false) :
    noteAck vfs true = ⟨vfs.handler, true, vfs.eof, 0, vfs.sent⟩ := by
  simp [noteAck, headerAcked]

theorem noteAck_body (headerAcked : vfs.headerAcked = true) :
    noteAck vfs true = ⟨vfs.handler, vfs.headerAcked, vfs.eof, vfs.sent, vfs.sent⟩ := by
  simp [noteAck, headerAcked]

/-- The first segment of the file, or the next one. -/
theorem Delivering.nextSegment {handler : Bool} {offset sent : Nat}
    (delivering : Delivering file delivery) (possible : Possible delivery call)
    (open_ : call.closed = false) (acked : call.acked = true) (isSet : handler = true)
    (inside : offset < file.content.length)
    (begins : (acknowledged delivery.stream true).acked =
      responseHeader file ++ file.content.take offset)
    (note : noteAck delivery.vfs true = ⟨handler, true, false, offset, sent⟩) :
    Delivering file (afterCall delivery call
      (httpdHandleVfs file delivery.vfs call).1
      (httpdHandleVfs file delivery.vfs call).2) := by
  have handled : httpdHandleVfs file delivery.vfs call =
      (⟨handler, true, decide ((chunk file call.mss offset).length < call.mss), offset,
        offset + (chunk file call.mss offset).length⟩, .send (chunk file call.mss offset)) := by
    rw [httpdHandleVfs, acked, note]
    dsimp only
    rw [if_neg (by decide), if_neg (by simp)]
    exact sendBody_eq possible.mss inside
  have length := length_chunk file call.mss offset
  have positive := possible.mss
  rw [handled]
  apply delivering.sentFirst open_
  · rw [acked]
    rfl
  · exact length_chunk_le file call.mss offset
  · exact isSet
  · rw [acked, begins]
    refine Or.inr ⟨rfl, fun last => ?_, ?_, ?_, rfl, ?_⟩
    · exact chunk_end (of_decide_eq_true last) inside
    · dsimp only
      omega
    · dsimp only
      omega
    · dsimp only
      rw [Nat.add_sub_cancel_left, chunk_length]

theorem InHeader.called (header : InHeader file delivery.vfs delivery.stream)
    (delivering : Delivering file delivery) (possible : Possible delivery call)
    (undisturbed : Undisturbed file delivery call) (open_ : call.closed = false) :
    Delivering file (afterCall delivery call
      (httpdHandleVfs file delivery.vfs call).1
      (httpdHandleVfs file delivery.vfs call).2) := by
  have handler := (delivering.open_ possible.open_).1
  cases acked : call.acked with
  | true =>
      have sent := header.outstanding.resolve_left (possible.acked acked)
      have note := noteAck_header header.headerAcked
      have remains := (undisturbed.segments open_).1 acked header.eof
      rw [note] at remains
      rw [header.eof] at note
      apply delivering.nextSegment possible open_ acked handler remains _ note
      rw [acknowledged, if_pos rfl, Stream.acknowledge, header.acked, sent]
      simp
  | false =>
      have handled : httpdHandleVfs file delivery.vfs call =
          (delivery.vfs, .send (responseHeader file)) := by
        rw [httpdHandleVfs, acked, noteAck_false, if_pos header.headerAcked,
          (undisturbed.header header.headerAcked).1 acked]
      have same : acknowledged delivery.stream call.acked = delivery.stream := by
        rw [acked]
        rfl
      rw [handled]
      rcases header.outstanding with idle | busy
      · apply delivering.sentFirst open_
        · rw [same]
          exact idle
        · exact (undisturbed.header header.headerAcked).2 idle
        · exact handler
        · rw [same]
          exact Or.inl ⟨header.headerAcked, header.eof, header.acked, Or.inr rfl⟩
      · apply delivering.sentAgain open_ acked
        · rw [busy]
          exact responseHeader_ne_nil file
        · exact busy.symm
        · exact handler
        · exact Or.inl header

theorem InBody.acked_call (body : InBody file delivery.vfs delivery.stream)
    (delivering : Delivering file delivery) (possible : Possible delivery call)
    (undisturbed : Undisturbed file delivery call) (open_ : call.closed = false)
    (acked : call.acked = true) :
    Delivering file (afterCall delivery call
      (httpdHandleVfs file delivery.vfs call).1
      (httpdHandleVfs file delivery.vfs call).2) := by
  have handler := (delivering.open_ possible.open_).1
  have note := noteAck_body body.headerAcked
  have begins : (acknowledged delivery.stream true).acked =
      responseHeader file ++ file.content.take delivery.vfs.sent := by
    rw [acknowledged, if_pos rfl, Stream.acknowledge, body.acknowledge]
  cases eof : delivery.vfs.eof with
  | true =>
      have notAgain : call.rexmit = false := by
        rw [← Bool.not_eq_true]
        intro rexmit
        rw [(possible.rexmit rexmit).2] at acked
        cases acked
      have handled : (httpdHandleVfs file delivery.vfs call).2 = .close := by
        rw [httpdHandleVfs, acked, note]
        dsimp only
        rw [body.headerAcked, if_neg (by decide), eof, if_pos ⟨rfl, notAgain⟩]
      rw [handled, afterCall, open_, if_neg (by decide), acked, notAgain]
      refine ⟨delivering.repeats, (fun ended => by cases ended), fun _ => ?_,
        (fun ended => by cases ended), (fun ended => by cases ended)⟩
      dsimp only
      rw [begins, body.eof eof, List.take_length]
  | false =>
      have remains := (undisturbed.segments open_).1 acked eof
      rw [note] at remains
      rw [body.headerAcked, eof] at note
      exact delivering.nextSegment possible open_ acked handler remains begins note

theorem InBody.called (body : InBody file delivery.vfs delivery.stream)
    (delivering : Delivering file delivery) (possible : Possible delivery call)
    (undisturbed : Undisturbed file delivery call) (open_ : call.closed = false)
    (flagged : call.rexmit = true ∨ call.newdata = true ∨ call.acked = true ∨ call.poll = true) :
    Delivering file (afterCall delivery call
      (httpdHandleVfs file delivery.vfs call).1
      (httpdHandleVfs file delivery.vfs call).2) := by
  cases acked : call.acked with
  | true => exact body.acked_call delivering possible undisturbed open_ acked
  | false =>
      have busy := body.busy
      have inside := Nat.lt_of_lt_of_le body.begun body.inside
      have demanded : call.rexmit = true ∨ call.newdata = true := by
        rcases flagged with rexmit | newdata | isAcked | poll
        · exact Or.inl rexmit
        · exact Or.inr newdata
        · rw [acked] at isAcked
          cases isAcked
        · exact absurd (possible.poll poll).1 busy
      have goesOn : ¬(delivery.vfs.eof = true ∧ call.rexmit = false) := by
        rintro ⟨eof, notAgain⟩
        have newdata := demanded.resolve_left (ne_true_of_eq_false notAgain)
        have quiet := undisturbed.awaited eof newdata
        simp [acked, notAgain, open_] at quiet
      have length := length_chunk file call.mss delivery.vfs.acked
      rw [(undisturbed.segments open_).2 acked body.headerAcked demanded] at length
      have begun := body.begun
      have whole : delivery.vfs.acked + (delivery.vfs.sent - delivery.vfs.acked) =
          delivery.vfs.sent := by omega
      have handled : httpdHandleVfs file delivery.vfs call =
          ({ delivery.vfs with
              eof := delivery.vfs.eof ||
                decide ((chunk file call.mss delivery.vfs.acked).length < call.mss) },
            .send (chunk file call.mss delivery.vfs.acked)) := by
        rw [httpdHandleVfs, acked, noteAck_false, body.headerAcked, if_neg (by decide),
          if_neg goesOn, sendBody_eq possible.mss inside, length, whole]
      have same : chunk file call.mss delivery.vfs.acked = delivery.stream.outstanding := by
        rw [body.outstanding, ← length, chunk_length]
      rw [handled]
      refine delivering.sentAgain open_ acked busy same
        (delivering.open_ possible.open_).1 (Or.inr ⟨body.headerAcked, fun last => ?_,
          body.begun, body.inside, body.acked, body.outstanding⟩)
      rcases Bool.or_eq_true_iff.mp last with eof | short
      · exact body.eof eof
      · have ends := chunk_end (of_decide_eq_true short) inside
        rwa [length, whole] at ends

theorem Delivering.step {next : Delivery} (delivering : Delivering file delivery)
    (undisturbed : Undisturbed file delivery call)
    (stepped : deliveryStep file delivery call = some next) : Delivering file next := by
  rw [deliveryStep] at stepped
  split at stepped
  next possible =>
    cases Option.some.inj stepped
    obtain ⟨handler, phase⟩ := delivering.open_ possible.open_
    cases closed : call.closed with
    | true =>
        rw [afterCall_closed closed]
        refine ⟨delivering.repeats, (fun ended => nomatch ended), (fun ended => nomatch ended),
          fun _ => ?_, (fun ended => nomatch ended)⟩
        rcases phase with header | body
        · exact begins_acknowledged call.acked header.begins
        · exact begins_acknowledged call.acked body.begins
    | false =>
        by_cases flagged :
            call.rexmit = true ∨ call.newdata = true ∨ call.acked = true ∨ call.poll = true
        · have handled : httpdMain file delivery.vfs call =
              httpdHandleVfs file delivery.vfs call := by
            rw [httpdMain, closed, if_neg (by decide), if_pos ⟨flagged, handler⟩]
          rw [handled]
          rcases phase with header | body
          · exact header.called delivering possible undisturbed closed
          · exact body.called delivering possible undisturbed closed flagged
        · have handled : httpdMain file delivery.vfs call = (delivery.vfs, .nothing) := by
            rw [httpdMain, closed, if_neg (by decide), if_neg fun both => flagged both.1]
          have notAcked : call.acked = false := by
            rw [not_or, not_or, not_or, Bool.not_eq_true, Bool.not_eq_true, Bool.not_eq_true]
              at flagged
            exact flagged.2.2.1
          rw [handled, afterCall, closed, if_neg (by decide), notAcked]
          exact ⟨delivering.repeats, fun _ => ⟨handler, phase⟩, (fun ended => nomatch ended),
            (fun ended => nomatch ended), (fun ended => nomatch ended)⟩
  · cases stepped

end Invariant

/-- In every run whose calls are undisturbed the client gets the header and the file, and the
connection is closed when all of it was acknowledged. -/
theorem delivered_of_guarded_run (file : File) (acked sent : Nat) (calls : List VfsCall)
    (last : Delivery)
    (guarded : Guarded (deliveryStep file) (Undisturbed file) (start acked sent) calls)
    (reached : run (deliveryStep file) (start acked sent) calls = some last) :
    Delivered file last := by
  have delivering : Delivering file last :=
    guarded.invariant
      (fun _ _ _ delivering undisturbed stepped => delivering.step undisturbed stepped)
      ⟨(fun pair member => nomatch member), fun _ => ⟨rfl, Or.inl ⟨rfl, rfl, rfl, Or.inl rfl⟩⟩,
        (fun ended => nomatch ended), (fun ended => nomatch ended), (fun ended => nomatch ended)⟩
      reached
  exact delivering.delivered

instance (delivery : Delivery) (call : VfsCall) : Decidable (LastAwaited delivery call) :=
  inferInstanceAs (Decidable (_ → _ → _ ∨ _ ∨ _))

instance (file : File) (delivery : Delivery) (call : VfsCall) :
    Decidable (HeaderWhole file delivery call) :=
  inferInstanceAs (Decidable (_ → (_ → _) ∧ (_ → _)))

instance (file : File) (delivery : Delivery) (call : VfsCall) :
    Decidable (SegmentsWhole file delivery call) :=
  inferInstanceAs (Decidable (_ → (_ → _ → _) ∧ (_ → _ → _ → _)))

instance (file : File) (delivery : Delivery) (call : VfsCall) :
    Decidable (Undisturbed file delivery call) :=
  decidable_of_iff
    (LastAwaited delivery call ∧ HeaderWhole file delivery call ∧
      SegmentsWhole file delivery call)
    ⟨fun ⟨awaited, header, segments⟩ => ⟨awaited, header, segments⟩,
      fun undisturbed => ⟨undisturbed.awaited, undisturbed.header, undisturbed.segments⟩⟩

def idleCall (mss : Nat) : VfsCall := ⟨false, false, false, false, false, mss, fun _ => 0, [0, 0]⟩

/-- The request arrives, and the header and the segments are acknowledged; the client changes its
window, and the first segment is sent twice. -/
def helloCalls : List VfsCall :=
  [{ idleCall 200 with newdata := true }, { idleCall 3 with acked := true },
    { idleCall 3 with rexmit := true }, { idleCall 200 with acked := true },
    { idleCall 1 with acked := true }]

/-- A file of five bytes. -/
def helloFile : File := ⟨[104, 101, 108, 108, 111], 72, by decide⟩

def emptyFile : File := ⟨[], 72, by decide⟩

theorem delivered_hello :
    ∃ last, run (deliveryStep helloFile) (start 0 0) helloCalls = some last ∧
      Delivered helloFile last := by
  cases reached : run (deliveryStep helloFile) (start 0 0) helloCalls with
  | none => exact absurd reached (by decide +kernel)
  | some last =>
      exact ⟨last, rfl, delivered_of_guarded_run helloFile 0 0 helloCalls last
        (by decide +kernel) reached⟩

/-- The answer for an empty file ends with an abort. -/
theorem empty_file_aborted :
    ∃ last, run (deliveryStep emptyFile) (start 0 0) (helloCalls.take 2) = some last ∧
      ¬Delivered emptyFile last := by
  cases reached : run (deliveryStep emptyFile) (start 0 0) (helloCalls.take 2) with
  | none => exact absurd reached (by decide +kernel)
  | some last =>
      have aborted : (run (deliveryStep emptyFile) (start 0 0) (helloCalls.take 2)).map
          Delivery.ended = some (some .aborted) := by
        decide +kernel
      rw [reached, Option.map_some, Option.some.injEq] at aborted
      exact ⟨last, rfl, fun delivered => delivered.notAborted aborted⟩

end Ethersex.HttpdVfs

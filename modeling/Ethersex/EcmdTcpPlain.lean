import Ethersex.EcmdTcpAuthGate
import Mathlib.Data.List.TakeWhile

/-!
# ECMD over TCP without authentication

`newdata` and `ecmd_net_main` for a build without `ECMD_PAM_SUPPORT`.  The byte of `pam_state` is
not
there in such a build; nothing reads it here.  Every segment is appended to the input buffer; with
the
first line feed the parser is called once and the buffer is cleared, together with whatever stands
behind that line feed.
-/

namespace Ethersex.EcmdPlain

open ByteMemory
open Ecmd (inputbufLength outputbufLength inbuf inLen outbuf outLen parseAgain
    closeRequested lineFeed
  carriageReturn exclamationMark findByte strlen memchr clearInbuf ParserReply UipEvent isEcmdAgain
  parserCall freeInput copyLength copySegment terminateLine killCarriageReturns
    skipMark requestClose
  endReply markAgain clearWhenDone finishParse finishParseAgain transmit)

/-- The command texts of the calls of `ecmd_parse_command` in a callback, and whether it closes the
connection. -/
structure NetEffects where
  calls : List (List UInt8)
  closes : Bool
deriving DecidableEq, Repr

def newdata (memory : Memory) (event : UipEvent) : Memory × List (List UInt8) :=
  let memory := copySegment memory event.data
  let lf := memchr memory inbuf lineFeed (memory inLen).toNat
  if lf = none ∧ lineFeed ∉ event.data then
    (memory, [])
  else
    let memory := killCarriageReturns (terminateLine memory lf)
    let skip := skipMark memory
    let memory := requestClose memory
    (finishParse memory event.newdataReply, [(parserCall memory skip).command])

def connect (memory : Memory) : Memory :=
  let memory := Function.update memory inLen 0
  let memory := Function.update memory outLen 0
  let memory := Function.update memory parseAgain 0
  let memory := Function.update memory closeRequested 0
  clearInbuf memory

def parseAgainStep (memory : Memory) (event : UipEvent) : Memory × List (List UInt8) :=
  if event.acked then
    let memory := Function.update memory outLen 0
    if memory parseAgain ≠ 0 then
      let skip := skipMark memory
      let memory := requestClose memory
      (finishParseAgain memory event.againReply, [(parserCall memory skip).command])
    else
      (memory, [])
  else
    (memory, [])

def ecmdNetMain (memory : Memory) (event : UipEvent) : Memory × NetEffects :=
  let memory := if event.connected then connect memory else memory
  let again := parseAgainStep memory event
  let new := if event.newdata then newdata again.1 event else (again.1, [])
  (new.1, ⟨again.2 ++ new.2, (transmit new.1 event).2⟩)

/-- The command texts along the callbacks of a connection; after `uip_close` there are no more. -/
def parserCalls : Memory → List UipEvent → List (List UInt8)
  | _, [] => []
  | memory, event :: events =>
      let result := ecmdNetMain memory event
      result.2.calls ++ if result.2.closes then [] else parserCalls result.1 events

/-- A byte that does not end the string handed to the parser. -/
def isText (byte : UInt8) : Bool := byte != 0 && byte != carriageReturn

/-- What the parser gets from the bytes in front of the line feed. -/
def commandText (line : List UInt8) : List UInt8 :=
  let text := (line.take (inputbufLength - 1)).takeWhile isText
  if text.head? = some exclamationMark then text.tail else text

/-- The input buffer after a segment was appended. -/
def received (buffer data : List UInt8) : List UInt8 := (buffer ++ data).take inputbufLength

/-- The lines that a sequence of segments leads to, with the bytes already in the input buffer. -/
def linesOf : List UInt8 → List (List UInt8) → List (List UInt8)
  | _, [] => []
  | buffer, data :: segments =>
      if lineFeed ∈ data then
        (received buffer data).takeWhile (· != lineFeed) :: linesOf [] segments
      else linesOf (received buffer data) segments

/-- The connection state holds the bytes in its input buffer and no unfinished command. -/
structure Holds (memory : Memory) (buffer : List UInt8) : Prop where
  length : (memory inLen).toNat = buffer.length
  fits : buffer.length ≤ inputbufLength
  stored : readBlock memory inbuf buffer.length = buffer
  noLine : lineFeed ∉ buffer
  noAgain : memory parseAgain = 0

variable {memory : Memory} {stop : UInt8 → Bool} {start : Nat} {before : List UInt8}

theorem findByte_of_stored {fuel : Nat} (stored : readBlock memory start before.length = before)
    (passes : ∀ byte ∈ before, stop byte = false)
    (stops : stop (memory (start + before.length)) = true) (enough : before.length < fuel) :
    findByte memory stop fuel start = some (start + before.length) := by
  induction before generalizing start fuel with
  | nil =>
      obtain ⟨fuel, rfl⟩ := Nat.exists_eq_succ_of_ne_zero (Nat.ne_of_gt enough)
      rw [findByte]
      exact if_pos stops
  | cons byte before ih =>
      obtain ⟨fuel, rfl⟩ := Nat.exists_eq_succ_of_ne_zero (Nat.ne_zero_of_lt enough)
      rw [List.length_cons, readBlock_succ, List.cons.injEq] at stored
      rw [List.length_cons] at enough stops
      have first : ¬ stop (memory start) = true := by
        rw [stored.1, passes byte (List.mem_cons_self ..)]
        exact Bool.false_ne_true
      have shift : start + 1 + before.length = start + (before.length + 1) := by omega
      rw [findByte, if_neg first, ih stored.2 (fun other member => passes other
        (List.mem_cons_of_mem _ member)) (shift ▸ stops) (by omega), List.length_cons, shift]

theorem findByte_eq_none (stored : readBlock memory start before.length = before)
    (passes : ∀ byte ∈ before, stop byte = false) :
    findByte memory stop before.length start = none := by
  induction before generalizing start with
  | nil => rfl
  | cons byte before ih =>
      rw [List.length_cons, readBlock_succ, List.cons.injEq] at stored
      have first : ¬ stop (memory start) = true := by
        rw [stored.1, passes byte (List.mem_cons_self ..)]
        exact Bool.false_ne_true
      rw [List.length_cons, findByte, if_neg first,
        ih stored.2 fun other member => passes other (List.mem_cons_of_mem _ member)]

variable {buffer data : List UInt8}

theorem received_eq (fits : buffer.length ≤ inputbufLength) (data : List UInt8) :
    received buffer data = buffer ++ data.take (inputbufLength - buffer.length) := by
  rw [received, List.take_append, List.take_of_length_le fits]

theorem Holds.freeInput_eq (holds : Holds memory buffer) :
    freeInput memory = inputbufLength - buffer.length := by
  have fits := holds.fits
  rw [freeInput, holds.length]
  unfold inputbufLength at *
  omega

theorem Holds.copyLength_eq (holds : Holds memory buffer) (data : List UInt8) :
    copyLength memory data = (data.take (inputbufLength - buffer.length)).length := by
  rw [copyLength, holds.freeInput_eq, List.length_take]
  split_ifs <;> omega

/-- The input buffer and its length after the bytes that fit were copied. -/
theorem Holds.copySegment_eq (holds : Holds memory buffer) (data : List UInt8) :
    copySegment memory data =
      Function.update
        (writeBlock memory (inbuf + buffer.length) (data.take (inputbufLength - buffer.length)))
        inLen (UInt8.ofNat (received buffer data).length) := by
  have fits := holds.fits
  have length := holds.length
  have taken :
      buffer.length + (data.take (inputbufLength - buffer.length)).length ≤ inputbufLength := by
    have := List.length_take_le (inputbufLength - buffer.length) data
    omega
  have count : memory inLen = UInt8.ofNat buffer.length := by
    rw [← length, UInt8.ofNat_toNat]
  have inLenKept : writeBlock memory (inbuf + buffer.length)
      (data.take (inputbufLength - buffer.length)) inLen = UInt8.ofNat buffer.length := by
    rw [writeBlock_outside, count]
    right
    simp only [inbuf, inLen, inputbufLength] at taken ⊢
    omega
  rw [received_eq fits, List.length_append, UInt8.ofNat_add]
  unfold Ecmd.copySegment
  rw [holds.freeInput_eq]
  split_ifs with room
  · have same : data.take (data.take (inputbufLength - buffer.length)).length =
        data.take (inputbufLength - buffer.length) := by
      rw [List.length_take, ← List.take_take, List.take_length]
    dsimp only
    rw [length, holds.copyLength_eq, same, inLenKept]
  · have full : inputbufLength - buffer.length = 0 := by omega
    rw [full, List.take_zero, writeBlock_nil]
    funext index
    by_cases same : index = inLen
    · rw [same, Function.update_self, count, List.length_nil]
      exact (UInt8.add_zero _).symm
    · rw [Function.update_of_ne same]

/-- What `copySegment` leaves in the connection state. -/
theorem Holds.copySegment (holds : Holds memory buffer) (data : List UInt8) :
    (copySegment memory data inLen).toNat = (received buffer data).length ∧
      readBlock (copySegment memory data) inbuf (received buffer data).length =
        received buffer data ∧
      ∀ index, parseAgain ≤ index → copySegment memory data index = memory index := by
  have fits := holds.fits
  have inside : (memory inLen).toNat ≤ inputbufLength := holds.length ▸ fits
  have short : (received buffer data).length ≤ inputbufLength := List.length_take_le _ _
  refine ⟨?_, ?_, fun index above =>
    Ecmd.copySegment_above (Ecmd.copyStaysClear_of_inside inside data) above⟩
  · rw [holds.copySegment_eq, Function.update_self, UInt8.toNat_ofNat_of_lt']
    exact Nat.lt_of_le_of_lt short (by decide)
  · rw [holds.copySegment_eq, readBlock_update _ (Or.inr (by
      rw [inbuf, Nat.zero_add]
      exact short))]
    rw [received_eq fits]
    refine readBlock_append_iff.2 ⟨?_, readBlock_writeBlock_same _ _ _⟩
    rw [readBlock_writeBlock_disjoint (Or.inl (Nat.le_refl _)), holds.stored]

/-- The line in the buffer with a zero byte behind it, in front of the fields that follow. -/
structure Terminated (memory : Memory) (shown : List UInt8) : Prop where
  stored : readBlock memory inbuf shown.length = shown
  ends : memory (inbuf + shown.length) = 0
  short : shown.length < inputbufLength

variable {shown : List UInt8}

theorem isText_iff {byte : UInt8} : isText byte = true ↔ byte ≠ 0 ∧ byte ≠ carriageReturn := by
  rw [isText, Bool.and_eq_true, bne_iff_ne, bne_iff_ne]

/-- The byte behind the text in front of the first zero byte or carriage return. -/
theorem Terminated.textEnds (terminated : Terminated memory shown) :
    readBlock memory inbuf (shown.takeWhile isText).length = shown.takeWhile isText ∧
      isText (memory (inbuf + (shown.takeWhile isText).length)) = false := by
  obtain ⟨stored, ends, -⟩ := terminated
  have split := List.takeWhile_append_dropWhile (p := isText) (l := shown)
  rw [← split] at stored
  obtain ⟨storedText, storedRest⟩ := readBlock_append_iff.1 stored
  refine ⟨storedText, ?_⟩
  cases rest : shown.dropWhile isText with
  | nil =>
      rw [rest, List.append_nil] at split
      rw [split, ends]
      rfl
  | cons byte more =>
      rw [rest, List.length_cons, readBlock_succ, List.cons.injEq] at storedRest
      rw [storedRest.1]
      have stops := List.head_dropWhile_not isText (l := shown) (by rw [rest]; simp)
      simpa [rest] using stops

/-- The text is cut at the first zero byte or carriage return. -/
theorem Terminated.killCarriageReturns (terminated : Terminated memory shown) :
    Terminated (killCarriageReturns memory) (shown.takeWhile isText) := by
  obtain ⟨stored, stops⟩ := terminated.textEnds
  have bound := (List.takeWhile_prefix isText (l := shown)).length_le
  have short := terminated.short
  have textOf : ∀ byte ∈ shown.takeWhile isText, isText byte = true := by
    intro byte member
    exact List.mem_takeWhile_imp member
  refine ⟨?_, ?_, by omega⟩
  · conv_rhs => rw [← stored]
    apply readBlock_congr
    intro index above below
    rw [inbuf, Nat.zero_add] at below
    have member : memory index ∈ shown.takeWhile isText := by
      rw [← stored]
      exact List.mem_map.2 ⟨index, List.mem_range.2 below, by rw [inbuf, Nat.zero_add]⟩
    have text := isText_iff.1 (textOf _ member)
    exact if_neg fun killed => text.2 killed.2
  · rw [Ecmd.killCarriageReturns]
    split_ifs with killed
    · rfl
    · by_contra nonzero
      have text : isText (memory (inbuf + (shown.takeWhile isText).length)) = true := by
        refine isText_iff.2 ⟨nonzero, fun isReturn => killed ⟨?_, isReturn⟩⟩
        rw [inbuf, Nat.zero_add]
        omega
      rw [text] at stops
      cases stops

/-- The string that a stored text without zero bytes makes. -/
theorem parserCall_command {text : List UInt8} {skip : Nat} (terminated : Terminated memory text)
    (nonzero : 0 ∉ text) (inside : skip ≤ text.length) :
    (parserCall memory skip).command = text.drop skip := by
  have short := terminated.short
  have split : text.take skip ++ text.drop skip = text := List.take_append_drop skip text
  have stored := terminated.stored
  rw [← split] at stored
  have storedRest := (readBlock_append_iff.1 stored).2
  rw [List.length_take, Nat.min_eq_left inside] at storedRest
  have stops : ((fun byte => byte == 0) (memory (inbuf + skip + (text.drop skip).length)) : Bool) =
      true := by
    rw [List.length_drop, Nat.add_assoc, Nat.add_sub_cancel' inside, terminated.ends]
    rfl
  have passes : ∀ byte ∈ text.drop skip, (fun byte : UInt8 => byte == 0) byte = false := by
    intro byte member
    rw [beq_eq_false_iff_ne]
    rintro rfl
    exact nonzero (List.mem_of_mem_drop member)
  have length : strlen memory (inbuf + skip) = (text.drop skip).length := by
    rw [strlen, findByte_of_stored storedRest passes stops ?_, Option.getD_some,
      Nat.add_sub_cancel_left]
    rw [List.length_drop]
    exact Nat.lt_of_le_of_lt (Nat.sub_le _ _) (Nat.lt_trans short (by decide))
  rw [parserCall, length, storedRest]

/-- The mark in front of the text. -/
theorem Terminated.skipMark_eq {text : List UInt8} (terminated : Terminated memory text) :
    skipMark memory = if text.head? = some exclamationMark then 1 else 0 := by
  have first : memory inbuf = text.head?.getD 0 := by
    cases text with
    | nil => exact terminated.ends
    | cons byte text =>
        have stored := terminated.stored
        rw [List.length_cons, readBlock_succ, List.cons.injEq] at stored
        exact stored.1
  rw [skipMark, first]
  cases text with
  | nil => rfl
  | cons byte text =>
      by_cases mark : byte = exclamationMark
      · simp [mark]
      · simp [mark]

theorem Terminated.congr {memory' : Memory} (terminated : Terminated memory shown)
    (same : ∀ index < inputbufLength, memory' index = memory index) : Terminated memory' shown := by
  have short := terminated.short
  refine ⟨?_, ?_, short⟩
  · rw [readBlock_congr fun index _ below => same index ?_, terminated.stored]
    rw [inbuf, Nat.zero_add] at below
    omega
  · rw [same _ (by rw [inbuf, Nat.zero_add]; exact short), terminated.ends]

/-- `ecmd_parse_command` gets the text of the line. -/
theorem Terminated.command_eq {line : List UInt8}
    (terminated : Terminated memory (line.take (inputbufLength - 1))) :
    (parserCall (requestClose (Ecmd.killCarriageReturns memory))
      (skipMark (Ecmd.killCarriageReturns memory))).command = commandText line := by
  have killed := terminated.killCarriageReturns
  have nonzero : 0 ∉ (line.take (inputbufLength - 1)).takeWhile isText := by
    intro member
    exact (isText_iff.1 (List.mem_takeWhile_imp member)).1 rfl
  have closing : Terminated (requestClose (Ecmd.killCarriageReturns memory))
      ((line.take (inputbufLength - 1)).takeWhile isText) := by
    refine killed.congr fun index below => Ecmd.requestClose_of_ne ?_
    exact Nat.ne_of_lt (Nat.lt_trans below (by decide))
  rw [killed.skipMark_eq, commandText]
  generalize (line.take (inputbufLength - 1)).takeWhile isText = text at nonzero closing ⊢
  split_ifs with mark
  · have inside : 1 ≤ text.length := by
      cases text with
      | nil => cases mark
      | cons byte text => exact Nat.succ_le_succ (Nat.zero_le _)
    rw [parserCall_command closing nonzero inside, List.drop_one]
  · rw [parserCall_command closing nonzero (Nat.zero_le _), List.drop_zero]

/-- A segment without a line feed is kept. -/
theorem Holds.newdata_kept (holds : Holds memory buffer) {event : UipEvent}
    (noLine : lineFeed ∉ event.data) :
    newdata memory event = (Ecmd.copySegment memory event.data, []) ∧
      Holds (Ecmd.copySegment memory event.data) (received buffer event.data) := by
  obtain ⟨length, stored, above⟩ := holds.copySegment event.data
  have free : lineFeed ∉ received buffer event.data := by
    intro member
    rcases List.mem_append.1 (List.mem_of_mem_take member) with old | new
    · exact holds.noLine old
    · exact noLine new
  have search : memchr (Ecmd.copySegment memory event.data) inbuf lineFeed
      (Ecmd.copySegment memory event.data inLen).toNat = none := by
    rw [memchr, length]
    apply findByte_eq_none stored
    intro byte member
    rw [beq_eq_false_iff_ne]
    rintro rfl
    exact free member
  refine ⟨if_pos ⟨search, noLine⟩, length, List.length_take_le _ _, stored, free, ?_⟩
  rw [above _ (Nat.le_refl _), holds.noAgain]

/-- The line in front of the first line feed, after the buffer was terminated. -/
theorem Holds.terminated (holds : Holds memory buffer) {data : List UInt8}
    (line : lineFeed ∈ data) :
    Terminated (terminateLine (Ecmd.copySegment memory data)
        (memchr (Ecmd.copySegment memory data) inbuf lineFeed
          (Ecmd.copySegment memory data inLen).toNat))
      (((received buffer data).takeWhile (· != lineFeed)).take (inputbufLength - 1)) := by
  obtain ⟨length, stored, -⟩ := holds.copySegment data
  have bound : (received buffer data).length ≤ inputbufLength := List.length_take_le _ _
  rw [memchr, length]
  by_cases inside : lineFeed ∈ received buffer data
  · obtain ⟨before, rest, split, absent⟩ := List.eq_append_cons_of_mem inside
    have passes : ∀ byte ∈ before, (byte == lineFeed) = false := by
      intro byte member
      rw [beq_eq_false_iff_ne]
      rintro rfl
      exact absent member
    have taken : (received buffer data).takeWhile (· != lineFeed) = before := by
      rw [split, List.takeWhile_append_of_pos fun byte member => by simp [passes byte member, bne],
        List.takeWhile_cons_of_neg (by simp), List.append_nil]
    rw [split] at stored bound
    rw [List.length_append, List.length_cons] at bound
    obtain ⟨storedBefore, storedRest⟩ := readBlock_append_iff.1 stored
    rw [List.length_cons, readBlock_succ, List.cons.injEq] at storedRest
    have stops : (Ecmd.copySegment memory data (inbuf + before.length) == lineFeed) = true := by
      rw [storedRest.1]
      rfl
    rw [taken, List.take_of_length_le (by unfold inputbufLength at *; omega), split,
      findByte_of_stored storedBefore passes stops (by simp)]
    refine ⟨?_, Function.update_self .., by omega⟩
    exact (readBlock_update _ (Or.inr (Nat.le_refl _))).trans storedBefore
  · have passes : ∀ byte ∈ received buffer data, (byte == lineFeed) = false := by
      intro byte member
      rw [beq_eq_false_iff_ne]
      rintro rfl
      exact inside member
    have taken : (received buffer data).takeWhile (· != lineFeed) = received buffer data :=
      List.takeWhile_eq_self_iff.2 fun byte member => by simp [passes byte member, bne]
    -- The line feed was not copied, so the buffer is full.
    have full : (received buffer data).length = inputbufLength := by
      refine Nat.le_antisymm bound ?_
      by_contra short
      have whole : received buffer data = buffer ++ data := by
        refine List.take_of_length_le ?_
        rw [received, List.length_take] at short
        omega
      rw [whole] at inside
      exact inside (List.mem_append_right _ line)
    have ended : terminateLine (Ecmd.copySegment memory data) none =
        Function.update (Ecmd.copySegment memory data) (inbuf + (inputbufLength - 1)) 0 := rfl
    rw [taken, findByte_eq_none stored passes, ended]
    have lengthShown : ((received buffer data).take (inputbufLength - 1)).length =
        inputbufLength - 1 := by
      rw [List.length_take, full]
      rfl
    refine ⟨?_, ?_, ?_⟩
    · rw [lengthShown]
      refine (readBlock_update _ (Or.inr (Nat.le_refl _))).trans ?_
      rw [← take_readBlock
        (show inputbufLength - 1 ≤ (received buffer data).length by omega), stored]
    · rw [lengthShown]
      exact Function.update_self ..
    · rw [lengthShown]
      decide

theorem finishParse_done {memory : Memory} {reply : ParserReply} (noAgain : memory parseAgain = 0)
    (final : isEcmdAgain reply.result = false) :
    Holds (finishParse memory reply) [] ∧
      finishParse memory reply closeRequested = memory closeRequested := by
  have stored : markAgain (reply.store memory) reply = reply.store memory := by
    rw [markAgain, if_neg (by rw [final]; exact Bool.false_ne_true)]
  have kept (index : Nat) (above : parseAgain ≤ index) :
      finishParse memory reply index = memory index := by
    rw [finishParse, Ecmd.clearWhenDone_above above, Ecmd.endReply_above reply above, stored,
      Ecmd.store_above reply (Nat.le_trans (by decide) above)]
  have done : endReply (markAgain (reply.store memory) reply) reply parseAgain = 0 := by
    rw [Ecmd.endReply_above reply (Nat.le_refl _), stored, Ecmd.store_above reply
      (by decide), noAgain]
  have empty : finishParse memory reply inLen = 0 := by
    rw [finishParse, clearWhenDone, if_pos done, Function.update_self]
  refine ⟨⟨?_, Nat.zero_le _, rfl, List.not_mem_nil, ?_⟩, kept _ (by decide)⟩
  · rw [empty]
    rfl
  · rw [kept _ (Nat.le_refl _), noAgain]

/-- The connection state when the line is ready for the parser. -/
def cleanLine (memory : Memory) (data : List UInt8) : Memory :=
  let memory := copySegment memory data
  killCarriageReturns (terminateLine memory
    (memchr memory inbuf lineFeed (memory inLen).toNat))

theorem newdata_of_line {event : UipEvent} (line : lineFeed ∈ event.data) :
    newdata memory event =
      (finishParse (requestClose (cleanLine memory event.data)) event.newdataReply,
        [(parserCall (requestClose (cleanLine memory event.data))
          (skipMark (cleanLine memory event.data))).command]) :=
  if_neg fun none => none.2 line

/-- Neither the line nor its end reaches the fields behind the buffers. -/
theorem Holds.cleanLine_above (holds : Holds memory buffer) (data : List UInt8) {index : Nat}
    (behind : parseAgain ≤ index) : cleanLine memory data index = memory index := by
  obtain ⟨length, -, above⟩ := holds.copySegment data
  have bound : (received buffer data).length ≤ inputbufLength := List.length_take_le _ _
  have inLenLe : inLen ≤ index := Nat.le_trans (by decide) behind
  rw [cleanLine, Ecmd.killCarriageReturns_above inLenLe, Ecmd.terminateLine_of_ne ?_ inLenLe,
    above _ behind]
  intro position search
  have inside := Ecmd.findByte_lt search
  rw [length] at inside
  simp only [parseAgain, inbuf, inputbufLength] at *
  omega

/-- A segment with a line feed leads to one call of the parser and an empty buffer. -/
theorem Holds.newdata_called (holds : Holds memory buffer) {event : UipEvent}
    (line : lineFeed ∈ event.data) (final : isEcmdAgain event.newdataReply.result = false) :
    (newdata memory event).2 =
        [commandText ((received buffer event.data).takeWhile (· != lineFeed))] ∧
      Holds (newdata memory event).1 [] := by
  have noAgain : requestClose (cleanLine memory event.data) parseAgain = 0 := by
    rw [Ecmd.requestClose_of_ne (by decide), holds.cleanLine_above _ (Nat.le_refl _), holds.noAgain]
  rw [newdata_of_line line]
  refine ⟨?_, (finishParse_done noAgain final).1⟩
  rw [cleanLine, (holds.terminated line).command_eq]

/-- The mark is set only for a command that begins with `!`. -/
theorem Holds.newdata_closeRequested (holds : Holds memory buffer) {event : UipEvent}
    (final : isEcmdAgain event.newdataReply.result = false)
    (unmarked : lineFeed ∈ event.data →
      ((received buffer event.data).takeWhile (· != lineFeed)).head? ≠ some exclamationMark) :
    (newdata memory event).1 closeRequested = memory closeRequested := by
  by_cases line : lineFeed ∈ event.data
  · have killed := (holds.terminated line).killCarriageReturns
    have noMark : skipMark (cleanLine memory event.data) = 0 := by
      rw [cleanLine, killed.skipMark_eq, if_neg]
      intro mark
      have starts := (List.takeWhile_prefix isText).trans
        (List.take_prefix (inputbufLength - 1)
          ((received buffer event.data).takeWhile (· != lineFeed)))
      exact unmarked line (List.singleton_prefix_iff_head?_eq_some.1
        ((List.singleton_prefix_iff_head?_eq_some.2 mark).trans starts))
    have unchanged : requestClose (cleanLine memory event.data) = cleanLine memory event.data := by
      rw [requestClose, if_neg]
      intro mark
      rw [skipMark, if_pos mark] at noMark
      cases noMark
    have noAgain : requestClose (cleanLine memory event.data) parseAgain = 0 := by
      rw [unchanged, holds.cleanLine_above _ (Nat.le_refl _), holds.noAgain]
    rw [newdata_of_line line]
    refine (finishParse_done noAgain final).2.trans ?_
    rw [unchanged, holds.cleanLine_above _ (by decide)]
  · rw [(holds.newdata_kept line).1]
    exact (holds.copySegment event.data).2.2 _ (by decide)

/-- The callback of a connection that is open, with a command that is not continued. -/
def Plain (event : UipEvent) : Prop :=
  event.connected = false ∧ isEcmdAgain event.newdataReply.result = false

theorem Holds.update_outLen (holds : Holds memory buffer) (length : UInt8) :
    Holds (Function.update memory outLen length) buffer := by
  refine ⟨?_, holds.fits, ?_, holds.noLine, ?_⟩
  · rw [Function.update_of_ne (by decide), holds.length]
  · rw [readBlock_update _ (Or.inr ?_), holds.stored]
    exact Nat.le_trans (Nat.add_le_add_left holds.fits inbuf) (by decide)
  · rw [Function.update_of_ne (by decide), holds.noAgain]

/-- No command is continued, so an acknowledgement only ends the transmission. -/
theorem Holds.parseAgainStep (holds : Holds memory buffer) (event : UipEvent) :
    Holds (parseAgainStep memory event).1 buffer ∧ (parseAgainStep memory event).2 = [] ∧
      (parseAgainStep memory event).1 closeRequested = memory closeRequested := by
  have acked := holds.update_outLen 0
  unfold EcmdPlain.parseAgainStep
  dsimp only
  split_ifs with isAcked again
  · exact absurd acked.noAgain again
  · exact ⟨acked, rfl, Function.update_of_ne (show closeRequested ≠ outLen by decide) 0 memory⟩
  · exact ⟨holds, rfl, rfl⟩

/-- A callback without data. -/
theorem Holds.netMain_quiet (holds : Holds memory buffer) {event : UipEvent} (plain : Plain event)
    (noData : event.newdata = false) :
    Holds (ecmdNetMain memory event).1 buffer ∧ (ecmdNetMain memory event).2.calls = [] ∧
      (ecmdNetMain memory event).1 closeRequested = memory closeRequested := by
  obtain ⟨again, noCalls, close⟩ := holds.parseAgainStep event
  simp only [ecmdNetMain, plain.1, noData, noCalls, Bool.false_eq_true, if_false, List.append_nil]
  exact ⟨again, trivial, close⟩

/-- A callback with data. -/
theorem Holds.netMain_newdata (holds : Holds memory buffer) {event : UipEvent} (plain : Plain event)
    (hasData : event.newdata = true) :
    ∃ middle, Holds middle buffer ∧ middle closeRequested = memory closeRequested ∧
      (ecmdNetMain memory event).1 = (newdata middle event).1 ∧
      (ecmdNetMain memory event).2.calls = (newdata middle event).2 := by
  obtain ⟨again, noCalls, close⟩ := holds.parseAgainStep event
  refine ⟨(EcmdPlain.parseAgainStep memory event).1, again, close, ?_, ?_⟩
  · simp only [ecmdNetMain, plain.1, hasData, Bool.false_eq_true, if_false, if_true]
  · simp only [ecmdNetMain, plain.1, hasData, noCalls, Bool.false_eq_true, if_false, if_true,
      List.nil_append]

/-- The segments that the callbacks of a connection deliver. -/
def segmentsOf (events : List UipEvent) : List (List UInt8) :=
  (events.filter UipEvent.newdata).map UipEvent.data

theorem segmentsOf_cons (event : UipEvent) (events : List UipEvent) :
    segmentsOf (event :: events) =
      if event.newdata then event.data :: segmentsOf events else segmentsOf events := by
  cases data : event.newdata <;> simp [segmentsOf, data]

/-- What one callback takes from the lines: nothing, or the first of them. -/
theorem Holds.netMain_step (holds : Holds memory buffer) {event : UipEvent} (plain : Plain event)
    (events : List UipEvent) :
    ∃ next, Holds (ecmdNetMain memory event).1 next ∧
      (linesOf buffer (segmentsOf (event :: events))).map commandText =
        (ecmdNetMain memory event).2.calls ++
          (linesOf next (segmentsOf events)).map commandText ∧
      linesOf next (segmentsOf events) <:+ linesOf buffer (segmentsOf (event :: events)) ∧
      ((∀ line ∈ linesOf buffer (segmentsOf (event :: events)), line.head? ≠ some exclamationMark) →
        (ecmdNetMain memory event).1 closeRequested = memory closeRequested) := by
  rw [segmentsOf_cons]
  cases hasData : event.newdata with
  | false =>
      obtain ⟨next, noCalls, close⟩ := holds.netMain_quiet plain hasData
      rw [noCalls]
      exact ⟨buffer, next, rfl, List.suffix_rfl, fun _ => close⟩
  | true =>
      obtain ⟨middle, holdsMiddle, close, memoryEq, callsEq⟩ := holds.netMain_newdata plain hasData
      rw [memoryEq, callsEq, ← close, if_pos rfl, linesOf]
      by_cases line : lineFeed ∈ event.data
      · obtain ⟨calls, next⟩ := holdsMiddle.newdata_called line plain.2
        rw [if_pos line, calls]
        refine ⟨[], next, rfl, List.suffix_cons _ _, fun unmarked => ?_⟩
        exact holdsMiddle.newdata_closeRequested plain.2 fun _ => unmarked _ (List.mem_cons_self ..)
      · obtain ⟨kept, next⟩ := holdsMiddle.newdata_kept line
        rw [if_neg line]
        refine ⟨_, kept ▸ next, by rw [kept]; rfl, List.suffix_rfl, fun _ => ?_⟩
        exact holdsMiddle.newdata_closeRequested plain.2 fun present => absurd present line

/-- The parser is called at most as the lists say. -/
theorem Holds.parserCalls_begin (holds : Holds memory buffer) {events : List UipEvent}
    (plain : ∀ event ∈ events, Plain event) :
    parserCalls memory events <+: (linesOf buffer (segmentsOf events)).map commandText := by
  induction events generalizing memory buffer with
  | nil => exact List.nil_prefix
  | cons event events ih =>
      obtain ⟨next, holdsNext, calls, -, -⟩ :=
        holds.netMain_step (plain event (List.mem_cons_self ..)) events
      rw [calls, parserCalls]
      refine (List.prefix_append_right_inj _).2 ?_
      split_ifs
      · exact List.nil_prefix
      · exact ih holdsNext fun other member => plain other (List.mem_cons_of_mem _ member)

/-- Without marks the connection stays open, and the parser is called as the lists say. -/
theorem Holds.parserCalls_eq (holds : Holds memory buffer) (notClosing : memory closeRequested = 0)
    {events : List UipEvent} (plain : ∀ event ∈ events, Plain event)
    (unmarked : ∀ line ∈ linesOf buffer (segmentsOf events), line.head? ≠ some exclamationMark) :
    parserCalls memory events = (linesOf buffer (segmentsOf events)).map commandText := by
  induction events generalizing memory buffer with
  | nil => rfl
  | cons event events ih =>
      obtain ⟨next, holdsNext, calls, suffix, close⟩ :=
        holds.netMain_step (plain event (List.mem_cons_self ..)) events
      have stillOpen := (close unmarked).trans notClosing
      have keepsOpen : (ecmdNetMain memory event).2.closes = false := by
        change (transmit (ecmdNetMain memory event).1 event).2 = false
        rw [transmit]
        split_ifs
        · rfl
        · rw [stillOpen]
          rfl
        · rfl
      rw [calls, parserCalls, keepsOpen]
      refine congrArg _ (ih holdsNext stillOpen (fun other member =>
        plain other (List.mem_cons_of_mem _ member)) fun line member => unmarked line ?_)
      exact suffix.subset member

theorem connect_holds (memory : Memory) :
    Holds (connect memory) [] ∧ connect memory closeRequested = 0 := by
  have kept (index : Nat) (above : inLen ≤ index) :
      connect memory index = Function.update (Function.update (Function.update
        (Function.update memory inLen 0) outLen 0) parseAgain 0) closeRequested 0 index :=
    Ecmd.clearInbuf_above above
  refine ⟨⟨?_, Nat.zero_le _, rfl, List.not_mem_nil, ?_⟩, ?_⟩
  · rw [kept _ (by decide), Function.update_of_ne (by decide), Function.update_of_ne (by decide),
      Function.update_of_ne (by decide), Function.update_self]
    rfl
  · rw [kept _ (by decide), Function.update_of_ne (by decide), Function.update_self]
  · rw [kept _ (by decide), Function.update_self]

end Ethersex.EcmdPlain

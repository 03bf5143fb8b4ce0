import Ethersex.SoapTags

/-!
# What each part of a request does to the parser

Between two tags of a request whose arguments are numbers, all that counts is how far the
document has been read and which numbers have been stored.  A text leaves a number when it is not
empty, whether it belongs to an argument or not; a tag moves the document on.
-/

namespace Ethersex.Soap

open ByteMemory CStrings

def intArguments (numbers : List UInt16) (index : Nat) : SoapData :=
  ⟨.int, numbers.getD index 0, [], 0⟩

/-- How far the document is read, with the numbers that are stored or find no room. -/
structure Progress where
  envelope : Bool
  body : Bool
  funcname : Bool
  complete : Bool
  numbers : List UInt16

namespace Progress

def settled (progress : Progress) : Settled where
  error := false
  envelope := progress.envelope
  body := progress.body
  funcname := progress.funcname
  complete := progress.complete
  args := intArguments (progress.numbers.take 5)
  argslen := (progress.numbers.take 5).length

def push (progress : Progress) (number : UInt16) : Progress :=
  { progress with numbers := progress.numbers ++ [number] }

/-- A text behind a start tag is stored as a number. -/
def behind (progress : Progress) (text : List UInt8) : Progress :=
  if text = [] then progress else progress.push (atoi (text.take 68))

end Progress

variable {env : SoapEnv} {ctx : Context} {progress after : Progress} {text : List UInt8}

/-- Behind a tag. -/
structure Between (progress : Progress) (state : ParserState) (ctx : Context) : Prop where
  settled : ctx.settled = progress.settled
  state : ctx.parserState = state
  empty : ctx.buflen = 0

/-- Behind a text that follows a start tag. -/
structure Filled (progress : Progress) (text : List UInt8) (ctx : Context) : Prop where
  settled : ctx.settled = progress.settled
  state : ctx.parserState = .data
  buflen : ctx.buflen = (text.take 68).length
  stored : readBlock ctx.buf 0 (text.take 68).length = text.take 68

/-- In front of the `<` of a tag. -/
structure Ready (env : SoapEnv) (progress : Progress) (ctx : Context) : Prop where
  error : ctx.error = false
  inElement : isStray ctx less = false
  opened : Holds ⟨.element, [less], []⟩ progress.settled (soapByte env ctx less)

/-- From the one context, the parser reads the text without an error and comes to the other. -/
def Reads (env : SoapEnv) (before : Context → Prop) (text : List UInt8)
    (after : Context → Prop) : Prop :=
  ∀ ctx, before ctx → (soapBytes env ctx text).error = false ∧ after (soapBytes env ctx text)

def Fails (env : SoapEnv) (before : Context → Prop) (text : List UInt8) : Prop :=
  ∀ ctx, before ctx → (soapBytes env ctx text).error = true

section Composing

variable {start middle final : Context → Prop} {first second : List UInt8}

theorem Reads.append (reads : Reads env start first middle)
    (later : Reads env middle second final) :
    Reads env start (first ++ second) final := by
  intro ctx holds
  obtain ⟨fine, holds⟩ := reads ctx holds
  rw [soapBytes_append fine]
  exact later _ holds

theorem Reads.fails (reads : Reads env start first middle) (later : Fails env middle second) :
    Fails env start (first ++ second) := by
  intro ctx holds
  obtain ⟨fine, holds⟩ := reads ctx holds
  rw [soapBytes_append fine]
  exact later _ holds

theorem Fails.append (fails : Fails env start first) (second : List UInt8) :
    Fails env start (first ++ second) :=
  fun ctx holds => error_append (fails ctx holds) second

end Composing

theorem intArguments_push (numbers : List UInt16) (number : UInt16) :
    Function.update (intArguments numbers) numbers.length
      { intArguments numbers numbers.length with dInt := number } =
        intArguments (numbers ++ [number]) := by
  funext index
  by_cases last : index = numbers.length
  · subst last
    rw [Function.update_self, intArguments, intArguments]
    simp
  · rw [Function.update_of_ne last, intArguments, intArguments]
    rcases Nat.lt_or_gt_of_ne last with below | above
    · rw [List.getD_append _ _ _ _ below]
    · have beyond : (numbers ++ [number]).length ≤ index := by
        rw [List.length_append, List.length_singleton]
        omega
      rw [List.getD_eq_default _ _ (Nat.le_of_lt above), List.getD_eq_default _ _ beyond]

theorem Progress.settled_push_of_full (progress : Progress) (number : UInt16)
    (full : 5 ≤ progress.numbers.length) : (progress.push number).settled = progress.settled := by
  have same : (progress.push number).numbers.take 5 = progress.numbers.take 5 :=
    List.take_append_of_le_length full
  rw [settled, settled, same]
  rfl

theorem Between.error {state : ParserState} (between : Between progress state ctx) :
    ctx.error = false :=
  congrArg Settled.error between.settled

/-- Blanks behind an end tag are skipped. -/
theorem Between.blanks (between : Between progress .white ctx) (blanks : Blanks) :
    soapBytes env ctx blanks.text = ctx := by
  obtain ⟨text, blank⟩ := blanks
  induction text with
  | nil => rfl
  | cons byte text ih =>
      rw [List.forall_mem_cons] at blank
      have inElement : isStray ctx byte = false := by
        rw [isStray, blank.1]
        simp
      have stays : soapByte env ctx byte = ctx := by
        rw [soapByte, between.state]
        exact if_pos blank.1
      rw [soapBytes, if_neg (ne_true_of_eq_false inElement), stays]
      exact ih blank.2

theorem putchar_empty (empty : ctx.buflen = 0) (byte : UInt8) :
    soapBufPutchar ctx byte =
      { ctx with buf := Function.update ctx.buf 0 byte, buflen := 1 } := by
  have size : bufSize = 69 := rfl
  rw [soapBufPutchar, if_neg (by omega), empty]

theorem stored_first (memory : Memory) (byte : UInt8) :
    readBlock (Function.update memory 0 byte) 0 [byte].length = [byte] := by
  rw [List.length_singleton, readBlock_succ, Function.update_self]
  rfl

theorem Between.filled (between : Between progress .data ctx) : Filled progress [] ctx :=
  ⟨between.settled, between.state, between.empty, rfl⟩

/-- A text in the buffer is cut after 68 bytes. -/
theorem Filled.byte (filled : Filled progress text ctx) (env : SoapEnv) {byte : UInt8}
    (data : byte ≠ less) :
    Filled progress (text ++ [byte]) (soapByte env ctx byte) := by
  have size : bufSize = 69 := rfl
  have buflen := filled.buflen
  rw [soapByte, filled.state]
  dsimp only
  rw [dataByte, if_neg data]
  by_cases full : 68 ≤ text.length
  · have same : (text ++ [byte]).take 68 = text.take 68 := List.take_append_of_le_length full
    have length : (text.take 68).length = 68 := List.length_take_of_le full
    rw [soapBufPutchar, if_pos (by omega)]
    refine ⟨filled.settled, filled.state, ?_, ?_⟩
    · rw [same]
      exact buflen
    · rw [same]
      exact filled.stored
  · have whole : text.take 68 = text := List.take_of_length_le (by omega)
    have longer : (text ++ [byte]).take 68 = text ++ [byte] := by
      apply List.take_of_length_le
      rw [List.length_append, List.length_singleton]
      omega
    have stored := filled.stored
    rw [whole] at buflen stored
    rw [soapBufPutchar, if_neg (by omega)]
    refine ⟨filled.settled, filled.state, ?_, ?_⟩
    · rw [longer, List.length_append, ← buflen]
      rfl
    · rw [longer, buflen]
      exact stored_append stored byte

theorem Filled.bytes {more : List UInt8} (filled : Filled progress text ctx) (env : SoapEnv)
    (data : less ∉ more) :
    Filled progress (text ++ more) (soapBytes env ctx more) := by
  induction more generalizing text ctx with
  | nil =>
      rw [List.append_nil]
      exact filled
  | cons byte more ih =>
      rw [List.mem_cons, not_or] at data
      have inElement : isStray ctx byte = false := by
        rw [isStray, filled.state]
        rfl
      have next := filled.byte env (Ne.symm data.1)
      rw [soapBytes, if_neg (ne_true_of_eq_false inElement), ← List.singleton_append,
        ← List.append_assoc]
      exact ih next data.2

/-- A number is stored in the next place. -/
theorem settled_parseData_int (env : SoapEnv) (room : ctx.argslen < 5)
    (type : (ctx.args ctx.argslen).type = .int)
    (string : cString (Function.update ctx.buf ctx.buflen 0) 0 = text) :
    (soapParseData env ctx).settled = { ctx.settled with
      args := Function.update ctx.args ctx.argslen
        { ctx.args ctx.argslen with dInt := atoi text }
      argslen := ctx.argslen + 1 } := by
  rw [soapParseData, if_neg (show ¬soapMaxargs ≤ ctx.argslen from Nat.not_le.mpr room)]
  dsimp only
  rw [type, string]
  rfl

theorem Progress.settled_push_of_room (progress : Progress) (number : UInt16)
    (room : progress.numbers.length < 5) :
    (progress.push number).settled = { progress.settled with
      args := Function.update (intArguments progress.numbers) progress.numbers.length
        { intArguments progress.numbers progress.numbers.length with dInt := number }
      argslen := progress.numbers.length + 1 } := by
  have length : (progress.numbers ++ [number]).length = progress.numbers.length + 1 :=
    List.length_append
  have whole : (progress.push number).numbers.take 5 = progress.numbers ++ [number] := by
    apply List.take_of_length_le
    rw [push, length]
    omega
  rw [settled, whole, length, intArguments_push]
  rfl

/-- The text is stored as a number when there is room. -/
theorem Filled.settled_parseData (filled : Filled progress text ctx) (env : SoapEnv)
    (nonzero : 0 ∉ text) :
    (soapParseData env ctx).settled = (progress.push (atoi (text.take 68))).settled := by
  have size : soapMaxargs = 5 := rfl
  have args : ctx.args = intArguments (progress.numbers.take 5) :=
    congrArg Settled.args filled.settled
  have argslen : ctx.argslen = (progress.numbers.take 5).length :=
    congrArg Settled.argslen filled.settled
  by_cases full : 5 ≤ progress.numbers.length
  · have length : (progress.numbers.take 5).length = 5 := List.length_take_of_le full
    rw [soapParseData, if_pos (by omega), progress.settled_push_of_full _ full]
    exact filled.settled
  · have room := Nat.lt_of_not_le full
    have whole : progress.numbers.take 5 = progress.numbers :=
      List.take_of_length_le (Nat.le_of_lt room)
    have string : cString (Function.update ctx.buf ctx.buflen 0) 0 = text.take 68 := by
      have short : (text.take 68).length ≤ 68 := List.length_take_le ..
      apply cString_eq (fun zero => nonzero (List.mem_of_mem_take zero))
      · rw [readBlock_update 0 (Or.inr (by rw [filled.buflen]; omega))]
        exact filled.stored
      · rw [Nat.zero_add, ← filled.buflen, Function.update_self]
      · exact Nat.lt_of_le_of_lt short (by decide)
    rw [whole] at args argslen
    rw [settled_parseData_int env (by omega) (by rw [args]; rfl) string, filled.settled, args,
      argslen, progress.settled_push_of_room _ room]

/-- Behind a start tag and a text. -/
theorem Filled.ready (filled : Filled progress text ctx) (env : SoapEnv) (nonzero : 0 ∉ text) :
    Ready env (progress.behind text) ctx := by
  have error : ctx.error = false := congrArg Settled.error filled.settled
  have next (other : Context) (settled : other.settled = (progress.behind text).settled) :
      Holds ⟨.element, [less], []⟩ (progress.behind text).settled
        (soapBufBacktrackSavepos (soapBufPutchar { soapBufClear other with
          parserState := .element } less)) := by
    rw [putchar_empty rfl]
    exact ⟨rfl, fun copy quoted => absurd quoted (Within.element_outside copy), rfl, rfl,
       stored_first _ _, settled⟩
  refine ⟨error, by rw [isStray, filled.state]; rfl, ?_⟩
  rw [soapByte, filled.state]
  dsimp only
  rw [dataByte, if_pos rfl]
  apply next
  by_cases empty : text = []
  · have nothing : ctx.buflen = 0 := by
      rw [filled.buflen, empty]
      rfl
    rw [if_neg (not_not_intro nothing), Progress.behind, if_pos empty]
    exact filled.settled
  · have positive : ctx.buflen ≠ 0 := by
      rw [filled.buflen, List.length_take]
      have some := List.length_pos_iff.mpr empty
      omega
    rw [if_pos positive, Progress.behind, if_neg empty]
    exact filled.settled_parseData env nonzero

theorem closed_putchar {settled : Settled} (buflen : ctx.buflen = text.length)
    (stored : readBlock ctx.buf 0 text.length = text) (same : ctx.settled = settled)
    (room : text.length ≤ 67) :
    Closed (text ++ [greater]) settled (soapBufPutchar ctx greater) := by
  have size : bufSize = 69 := rfl
  have length : (text ++ [greater]).length = text.length + 1 := List.length_append
  rw [soapBufPutchar, if_neg (by omega)]
  refine ⟨by omega, ?_, ?_, same⟩
  · rw [length, ← buflen]
  · rw [buflen]
    exact stored_append stored greater

/-- The blank at the end of the buffer is removed, and the `>` is added. -/
theorem Holds.closed {scan : Scan} {settled : Settled} (holds : Holds scan settled ctx)
    (room : scan.content.length ≤ 67) :
    Closed scan.closed settled (soapBufPutchar (stripBlank ctx) greater) := by
  have buflen := holds.buflen
  have stored := holds.stored
  rw [stripBlank]
  rcases List.eq_nil_or_concat' scan.content with empty | ⟨front, last, split⟩
  · have closed : scan.closed = [] ++ [greater] := by
      rw [Scan.closed, empty]
      rfl
    rw [empty] at buflen
    rw [if_neg (fun blank => blank.1 buflen), closed]
    exact closed_putchar buflen rfl holds.settled (Nat.zero_le _)
  · have length : scan.content.length = front.length + 1 := by
      rw [split, List.length_append, List.length_singleton]
    have both := stored
    rw [split] at both
    obtain ⟨storedFront, storedLast⟩ := readBlock_append_iff.mp both
    have lastByte : ctx.buf (ctx.buflen - 1) = last := by
      rw [List.length_singleton, readBlock_succ, List.cons.injEq, Nat.zero_add] at storedLast
      rw [buflen, length, Nat.add_sub_cancel]
      exact storedLast.1
    rw [lastByte]
    by_cases blank : isblank last = true
    · rw [if_pos ⟨by omega, blank⟩, Scan.closed_of_blank front last split blank]
      exact closed_putchar (by rw [buflen, length]; rfl) storedFront holds.settled (by omega)
    · rw [if_neg (fun both => blank both.2),
        Scan.closed_of_solid front split (eq_false_of_ne_true blank)]
      exact closed_putchar buflen stored holds.settled room

theorem elementByte_greater (env : SoapEnv) (ctx : Context) :
    elementByte env ctx greater = endElement env ctx :=
  rfl

/-- The `>` hands over what the scanner has kept. -/
theorem Holds.ends {scan : Scan} {settled : Settled} (holds : Holds scan settled ctx)
    (env : SoapEnv) (inTag : Scan.InTag scan.state) (room : scan.content.length ≤ 67) :
    isStray ctx greater = false ∧ ∃ closing, Closed scan.closed settled closing ∧
      soapByte env ctx greater = closeElement (soapParseElement env closing) := by
  rcases inTag with element | white
  · have state : ctx.parserState = .element := by
      rw [holds.state, element]
      rfl
    refine ⟨by rw [isStray, state]; rfl, _, holds.closed room, ?_⟩
    rw [soapByte, state]
    exact elementByte_greater env ctx
  · have state : ctx.parserState = .elementWhite := by
      rw [holds.state, white]
      rfl
    refine ⟨by rw [isStray, state]; rfl, _,
      (holds.moved .element Within.element_outside).closed room, ?_⟩
    rw [soapByte, state]
    exact elementByte_greater env _

/-- A tag is read from its `<` up to its `>`. -/
theorem Ready.tag {inside tag : List UInt8} (ready : Ready env progress ctx)
    (hands : Scan.HandsOver inside tag) (fits : inside.length + 2 ≤ 68) :
    ∃ closing, Closed tag progress.settled closing ∧
      soapBytes env ctx (less :: (inside ++ [greater])) =
        closeElement (soapParseElement env closing) := by
  obtain ⟨next, goes, inTag, rfl⟩ := hands
  have one : (Scan.mk .element [less] []).content.length = 1 := rfl
  obtain ⟨holds, length⟩ := ready.opened.bytes env goes (by omega)
  obtain ⟨inElement, closing, closed, ends⟩ := holds.ends env inTag (by omega)
  have fine : (soapBytes env (soapByte env ctx less) inside).error = false :=
    congrArg Settled.error holds.settled
  refine ⟨closing, closed, ?_⟩
  rw [soapBytes, if_neg (ne_true_of_eq_false ready.inElement), soapBytes_append fine, soapBytes,
    if_neg (ne_true_of_eq_false inElement), ends]
  rfl

end Ethersex.Soap

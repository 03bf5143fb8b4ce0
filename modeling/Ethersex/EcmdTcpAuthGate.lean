import Mathlib.Data.Option.Basic
import Ethersex.EcmdTcpConnection
import Ethersex.GuardedRuns

/-!
# The authentication gate of ECMD over TCP

Commands received on a connection must not reach the parser before the
connection is authenticated.  The path for new data checks the authentication
state, but the path that re-enters the parser after an acknowledgement does
not.  Away from that path, and as long as the input length stays within the
input buffer, every call of the parser happens in the state `PAM_SUCCESS`.
-/

namespace Ethersex.Ecmd

open ByteMemory GuardedRuns

section Search

variable {memory : Memory} {stop : UInt8 → Bool} {fuel start limit found : Nat}

theorem findByte_spec (search : findByte memory stop fuel start = some found) :
    start ≤ found ∧ stop (memory found) = true := by
  induction fuel generalizing start with
  | zero => simp [findByte] at search
  | succ fuel ih =>
      rw [findByte] at search
      split at search
      · cases Option.some.inj search
        exact ⟨Nat.le_refl _, by assumption⟩
      · have rest := ih search
        exact ⟨by omega, rest.2⟩

theorem findByte_lt (search : findByte memory stop fuel start = some found) :
    found < start + fuel := by
  induction fuel generalizing start with
  | zero => simp [findByte] at search
  | succ fuel ih =>
      rw [findByte] at search
      split at search
      · cases Option.some.inj search
        omega
      · have rest := ih search
        omega

/-- A search does not run past a byte it stops at. -/
theorem findByte_le (memory : Memory) (stop : UInt8 → Bool)
    (stops : stop (memory limit) = true) (startLe : start ≤ limit)
    (enough : limit < start + fuel) :
    ∃ found, findByte memory stop fuel start = some found ∧ found ≤ limit := by
  induction fuel generalizing start with
  | zero => omega
  | succ fuel ih =>
      rw [findByte]
      by_cases stopped : stop (memory start) = true
      · exact ⟨start, if_pos stopped, startLe⟩
      · rw [if_neg stopped]
        have startNe : start ≠ limit := by
          rintro rfl
          exact stopped stops
        exact ih (by omega) (by omega)

theorem strchr_spec {char : UInt8} (search : strchr memory start char = some found) :
    memory found = char := by
  rw [strchr, Option.filter_eq_some_iff] at search
  simpa using search.2

theorem strchr_le {char : UInt8} (ends : memory limit = 0) (startLe : start ≤ limit)
    (limitLt : limit < addressSpace) (search : strchr memory start char = some found) :
    found ≤ limit := by
  obtain ⟨position, positionEq, positionLe⟩ :=
    findByte_le memory (fun byte => byte == char || byte == 0) (by simp [ends]) startLe
      (show limit < start + addressSpace by omega)
  rw [strchr, positionEq, Option.filter_eq_some_iff] at search
  cases Option.some.inj search.1
  exact positionLe

theorem strlen_le (ends : memory limit = 0) (startLe : start ≤ limit)
    (limitLt : limit < addressSpace) : strlen memory start ≤ limit - start := by
  obtain ⟨position, positionEq, positionLe⟩ :=
    findByte_le memory (fun byte => byte == 0) (by simp [ends]) startLe
      (show limit < start + addressSpace by omega)
  rw [strlen, positionEq, Option.getD_some]
  omega

end Search

section Frame

variable {memory : Memory} {index : Nat}

theorem writeBlock_above {offset : Nat} {bytes : List UInt8}
    (above : offset + bytes.length ≤ index) :
    writeBlock memory offset bytes index = memory index :=
  writeBlock_outside (Or.inr above)

theorem printReply_above {text : List UInt8} (short : text.length < outputbufLength)
    (above : parseAgain ≤ index) : printReply memory text index = memory index := by
  rw [parseAgain] at above
  rw [outputbufLength] at short
  rw [printReply, Function.update_of_ne (by rw [outLen]; omega)]
  apply writeBlock_above
  rw [outbuf, List.length_append, List.length_singleton]
  omega

theorem clearInbuf_above (above : inLen ≤ index) : clearInbuf memory index = memory index := by
  apply writeBlock_above
  rw [List.length_replicate]
  exact above

theorem killCarriageReturns_above (above : inLen ≤ index) :
    killCarriageReturns memory index = memory index :=
  if_neg fun inside => absurd inside.1 (Nat.not_lt.mpr above)

theorem store_above (reply : ParserReply) (above : outLen ≤ index) :
    reply.store memory index = memory index := by
  rw [outLen] at above
  rw [ParserReply.store, if_neg (by rw [inputbufLength]; omega),
    if_neg (by rw [outbuf, outputbufLength]; omega)]

theorem copyLength_le (inside : (memory inLen).toNat ≤ inputbufLength) (data : List UInt8) :
    (memory inLen).toNat + copyLength memory data ≤ inputbufLength := by
  have free : freeInput memory ≤ inputbufLength - (memory inLen).toNat := by
    rw [freeInput]
    rw [inputbufLength] at *
    omega
  rw [copyLength]
  split <;> omega

/-- The bytes taken from a segment end in front of `parse_again`.  This holds
whenever `in_len` is inside the input buffer. -/
def CopyStaysClear (memory : Memory) (data : List UInt8) : Prop :=
  (memory inLen).toNat + copyLength memory data ≤ parseAgain

theorem copyStaysClear_of_inside (inside : (memory inLen).toNat ≤ inputbufLength)
    (data : List UInt8) : CopyStaysClear memory data := by
  have bound := copyLength_le inside data
  rw [inputbufLength] at bound
  rw [CopyStaysClear, parseAgain]
  omega

theorem copySegment_above {data : List UInt8} (clear : CopyStaysClear memory data)
    (above : parseAgain ≤ index) : copySegment memory data index = memory index := by
  have taken := List.length_take_le (copyLength memory data) data
  rw [CopyStaysClear] at clear
  rw [parseAgain] at above clear
  rw [copySegment]
  split
  · rw [Function.update_of_ne (by rw [inLen]; omega)]
    apply writeBlock_above
    rw [inbuf]
    omega
  · rfl

theorem requestClose_of_ne (notClose : index ≠ closeRequested) :
    requestClose memory index = memory index := by
  rw [requestClose]
  split
  · exact Function.update_of_ne notClose _ _
  · rfl

theorem terminateLine_of_ne {lf : Option Nat}
    (elsewhere : ∀ position, lf = some position → index ≠ position)
    (above : inLen ≤ index) : terminateLine memory lf index = memory index := by
  rw [inLen] at above
  cases lf with
  | none =>
      apply Function.update_of_ne
      rw [inbuf, inputbufLength]
      omega
  | some position => exact Function.update_of_ne (elsewhere position rfl) _ _

end Frame

/-- The authentication state is one of the four PAM values, `parse_again` is a
flag, and no command is parked before an authentication was requested. -/
structure GateInvariant (memory : Memory) : Prop where
  valid : (memory pamState).toNat ≤ 3
  flag : (memory parseAgain).toNat ≤ 1
  unknown : memory pamState = pamUnknown → memory parseAgain = 0

theorem GateInvariant.congr {memory memory' : Memory} (gate : GateInvariant memory)
    (pamEq : memory' pamState = memory pamState)
    (againEq : memory' parseAgain = memory parseAgain) : GateInvariant memory' := by
  constructor
  · rw [pamEq]
    exact gate.valid
  · rw [againEq]
    exact gate.flag
  · rw [pamEq, againEq]
    exact gate.unknown

theorem gateInvariant_of_success {memory : Memory} (success : memory pamState = pamSuccess)
    (flag : (memory parseAgain).toNat ≤ 1) : GateInvariant memory := by
  constructor
  · rw [success]
    decide
  · exact flag
  · intro unknown
    rw [success] at unknown
    exact absurd unknown (by decide)

theorem GateInvariant.success_of_passed {memory : Memory} (gate : GateInvariant memory)
    (known : memory pamState ≠ pamUnknown)
    (passed : ¬(memory pamState = pamPending ∨ memory pamState = pamDenied)) :
    memory pamState = pamSuccess := by
  have valid := gate.valid
  generalize memory pamState = code at *
  rw [← UInt8.toNat_inj]
  have unknownNe : code.toNat ≠ 0 := fun eq => known (UInt8.toNat_inj.mp eq)
  have pendingNe : code.toNat ≠ 1 := fun eq => passed (Or.inl (UInt8.toNat_inj.mp eq))
  have deniedNe : code.toNat ≠ 2 := fun eq => passed (Or.inr (UInt8.toNat_inj.mp eq))
  rw [pamSuccess, show (3 : UInt8).toNat = 3 from rfl]
  omega

/-- Every call reported by a callback happened in the authenticated state. -/
def AllAuthenticated (calls : List ParserCall) : Prop :=
  ∀ call ∈ calls, call.authState = pamSuccess

section ParserResults

variable {memory : Memory} {index : Nat} (reply : ParserReply)

theorem ParserReply.length_lt : reply.length < outputbufLength := by
  have resultLt := reply.result_le
  have againLt := reply.again_le
  rw [ParserReply.length, ecmdAgain]
  split
  · exact againLt
  · exact resultLt

theorem replyPosition_lt : outbuf + reply.length.toNat < outLen := by
  have lengthLt := reply.length_lt
  rw [outputbufLength] at lengthLt
  rw [outbuf, outLen]
  omega

theorem endReply_above (above : parseAgain ≤ index) :
    endReply memory reply index = memory index := by
  have positionLt := replyPosition_lt reply
  rw [outLen] at positionLt
  rw [parseAgain] at above
  rw [endReply]
  split
  · dsimp only
    split
    · exact Function.update_of_ne (by rw [outLen]; omega) _ _
    · rw [Function.update_of_ne (by rw [outLen]; omega),
        Function.update_of_ne (by omega)]
  · rfl

theorem endReplyAgain_above (above : parseAgain ≤ index) :
    endReplyAgain memory reply index = memory index := by
  have positionLt := replyPosition_lt reply
  rw [outLen] at positionLt
  rw [parseAgain] at above
  rw [endReplyAgain]
  split
  · rw [Function.update_of_ne (by rw [outLen]; omega),
      Function.update_of_ne (by omega)]
  · rfl

theorem clearWhenDone_above (above : parseAgain ≤ index) :
    clearWhenDone memory index = memory index := by
  rw [parseAgain] at above
  rw [clearWhenDone]
  split
  · rw [Function.update_of_ne (by rw [inLen]; omega)]
    apply clearInbuf_above
    rw [inLen]
    omega
  · rfl

theorem finishParse_success (success : memory pamState = pamSuccess)
    (flag : (memory parseAgain).toNat ≤ 1) :
    GateInvariant (finishParse memory reply) := by
  apply gateInvariant_of_success
  · rw [finishParse, clearWhenDone_above (by decide), endReply_above reply (by decide), markAgain]
    split
    · rw [Function.update_of_ne (by decide), store_above reply (by decide), success]
    · rw [store_above reply (by decide), success]
  · rw [finishParse, clearWhenDone_above (by decide), endReply_above reply (by decide), markAgain]
    split
    · rw [Function.update_self]
      decide
    · rw [store_above reply (by decide)]
      exact flag

theorem finishParseAgain_success (success : memory pamState = pamSuccess) :
    GateInvariant (finishParseAgain memory reply) := by
  apply gateInvariant_of_success
  · rw [finishParseAgain, endReplyAgain_above reply (by decide), markAgainOrDone]
    split
    · rw [Function.update_of_ne (by decide), store_above reply (by decide), success]
    · rw [Function.update_of_ne (by decide), Function.update_of_ne (by decide),
        store_above reply (by decide), success]
  · rw [finishParseAgain, endReplyAgain_above reply (by decide), markAgainOrDone]
    split
    · rw [Function.update_self]
      decide
    · rw [Function.update_of_ne (by decide), Function.update_self]
      decide

end ParserResults

section RequestLine

variable {memory : Memory}

theorem runCommand_gate (gate : GateInvariant memory) (known : memory pamState ≠ pamUnknown)
    (skip : Nat) (event : UipEvent) :
    GateInvariant (runCommand memory skip event).1 ∧
      AllAuthenticated (runCommand memory skip event).2.calls := by
  rw [runCommand]
  split
  next turnedAway =>
    constructor
    · exact gate
    · intro call member
      exact absurd member List.not_mem_nil
  next passed =>
    have success := gate.success_of_passed known passed
    constructor
    · exact finishParse_success event.newdataReply success gate.flag
    · intro call member
      rw [List.mem_singleton] at member
      rw [member]
      exact success

/-- A string search from inside the structure stops at `parse_again`, and a
blank it finds lies before that. -/
theorem strchr_space_lt (ends : memory parseAgain = 0) {start found : Nat}
    (startLe : start ≤ parseAgain) (search : strchr memory start space = some found) :
    found < parseAgain := by
  have foundLe := strchr_le ends startLe (by decide) search
  have blank := strchr_spec search
  have foundNe : found ≠ parseAgain := by
    rintro rfl
    rw [ends] at blank
    exact absurd blank (by decide)
  omega

theorem splitAuth_above (ends : memory parseAgain = 0) {skip : Nat} (skipLe : skip ≤ 1)
    {split : Memory} {rest : Option Nat} (cut : splitAuth memory skip = some (split, rest)) :
    (∀ index, parseAgain ≤ index → split index = memory index) ∧
      ∀ position, rest = some position → position < parseAgain := by
  rw [splitAuth] at cut
  simp only [Option.bind_eq_bind, Option.bind_eq_some_iff, Option.pure_def, Option.some.injEq,
    Prod.mk.injEq] at cut
  obtain ⟨_, _, gap, gapEq, pass, passEq, splitEq, restEq⟩ := cut
  have gapLt := strchr_space_lt ends (by rw [inbuf, parseAgain]; omega) gapEq
  have afterGap : ∀ index, parseAgain ≤ index →
      Function.update memory gap 0 index = memory index := by
    intro index above
    exact Function.update_of_ne (by omega) _ _
  have endsAfterGap : Function.update memory gap 0 parseAgain = 0 := by
    rw [afterGap _ (Nat.le_refl _), ends]
  have passLe : pass ≤ parseAgain := by
    obtain ⟨position, positionEq, positionLe⟩ :=
      findByte_le (Function.update memory gap 0) (fun byte => byte != space)
        (show _ = true by rw [endsAfterGap]; decide) (show gap + 1 ≤ parseAgain by omega)
        (show parseAgain < gap + 1 + addressSpace by rw [parseAgain, addressSpace]; omega)
    rw [positionEq] at passEq
    cases Option.some.inj passEq
    exact positionLe
  have restLt : ∀ position, rest = some position → position < parseAgain := by
    intro position found
    rw [found] at restEq
    exact strchr_space_lt endsAfterGap passLe restEq
  constructor
  · intro index above
    cases rest with
    | none =>
        rw [restEq] at splitEq
        rw [← splitEq]
        exact afterGap index above
    | some position =>
        have positionLt := restLt position rfl
        rw [restEq] at splitEq
        rw [← splitEq]
        dsimp only
        rw [Function.update_of_ne (by omega)]
        exact afterGap index above
  · exact restLt

theorem moveRest_above (ends : memory parseAgain = 0) {position index : Nat}
    (positionLt : position < parseAgain) (above : parseAgain ≤ index) :
    moveRest memory position index = memory index := by
  have restLe := strlen_le ends (show position + 1 ≤ parseAgain by omega) (by decide)
  rw [moveRest]
  rw [Function.update_of_ne (by rw [inLen]; rw [parseAgain] at above; omega)]
  apply writeBlock_above
  rw [length_readBlock, inbuf]
  omega

theorem storePamAnswer_of_ne (answer : PamAnswer) {index : Nat} (above : parseAgain ≤ index)
    (notPam : index ≠ pamState) : storePamAnswer memory answer index = memory index := by
  rw [storePamAnswer]
  split
  · rw [printReply_above (by decide) above, Function.update_of_ne notPam]
  · rw [Function.update_of_ne notPam]

theorem storePamAnswer_pamState (memory : Memory) (answer : PamAnswer) :
    storePamAnswer memory answer pamState = answer.code := by
  rw [storePamAnswer]
  split
  · rw [printReply_above (by decide) (by decide), Function.update_self]
  · rw [Function.update_self]

theorem PamAnswer.code_known (answer : PamAnswer) : answer.code ≠ pamUnknown := by
  cases answer <;> decide

theorem PamAnswer.code_valid (answer : PamAnswer) : answer.code.toNat ≤ 3 := by
  cases answer <;> decide

theorem gateInvariant_of_answer (answer : PamAnswer) (pamEq : memory pamState = answer.code)
    (flag : (memory parseAgain).toNat ≤ 1) : GateInvariant memory := by
  constructor
  · rw [pamEq]
    exact answer.code_valid
  · exact flag
  · intro unknown
    rw [pamEq] at unknown
    exact absurd unknown answer.code_known

theorem authRequired_gate (gate : GateInvariant memory) : GateInvariant (authRequired memory) := by
  have kept : ∀ index, parseAgain ≤ index → authRequired memory index = memory index := by
    intro index above
    rw [parseAgain] at above
    rw [authRequired, Function.update_of_ne (by rw [inLen]; omega),
      clearInbuf_above (by rw [inLen]; omega), printReply_above (by decide) above]
  exact gate.congr (kept _ (by decide)) (kept _ (by decide))

theorem markPending_gate (answer : PamAnswer) (pamEq : memory pamState = answer.code)
    (flag : (memory parseAgain).toNat ≤ 1) :
    GateInvariant (markPending memory) ∧ markPending memory pamState ≠ pamUnknown := by
  rw [markPending]
  split
  · constructor
    · apply gateInvariant_of_answer answer
      · rw [Function.update_of_ne (by decide), pamEq]
      · rw [Function.update_self]
        decide
    · rw [Function.update_of_ne (by decide), pamEq]
      exact answer.code_known
  · constructor
    · exact gateInvariant_of_answer answer pamEq flag
    · rw [pamEq]
      exact answer.code_known

theorem authenticate_gate (gate : GateInvariant memory) (unknown : memory pamState = pamUnknown)
    {skip : Nat} (skipLe : skip ≤ 1) (event : UipEvent) :
    GateInvariant (authenticate memory skip event).1 ∧
      AllAuthenticated (authenticate memory skip event).2.calls := by
  have ends := gate.unknown unknown
  rw [authenticate]
  split
  next refused =>
    constructor
    · exact authRequired_gate gate
    · intro call member
      exact absurd member List.not_mem_nil
  next split rest cut =>
    obtain ⟨splitAbove, restLt⟩ := splitAuth_above ends skipLe cut
    have endsStored : storePamAnswer split event.pamAnswer parseAgain = 0 := by
      rw [storePamAnswer_of_ne _ (by decide) (by decide), splitAbove _ (by decide), ends]
    have answered := storePamAnswer_pamState split event.pamAnswer
    dsimp only
    split
    next =>
      constructor
      · apply gateInvariant_of_answer event.pamAnswer
        · dsimp only
          rw [Function.update_of_ne (by decide), answered]
        · dsimp only
          rw [Function.update_of_ne (by decide), endsStored]
          decide
      · intro call member
        exact absurd member List.not_mem_nil
    next position found =>
      have positionLt := restLt position (Option.filter_eq_some_iff.mp found).1
      have moved : ∀ index, parseAgain ≤ index →
          moveRest (storePamAnswer split event.pamAnswer) position index =
            storePamAnswer split event.pamAnswer index :=
        fun index above => moveRest_above endsStored positionLt above
      have marked := markPending_gate event.pamAnswer
        ((moved pamState (by decide)).trans answered)
        (by rw [moved parseAgain (by decide), endsStored]; decide)
      exact runCommand_gate marked.1 marked.2 0 event

/-- The bytes `parse_again` and `pam_state` are never taken for a line end. -/
theorem GateInvariant.ne_lineFeed (gate : GateInvariant memory) {position index : Nat}
    (found : memory position = lineFeed) (field : index = parseAgain ∨ index = pamState) :
    index ≠ position := by
  rintro rfl
  have valid := gate.valid
  have flag := gate.flag
  rcases field with rfl | rfl
  · rw [found] at flag
    exact absurd flag (by decide)
  · rw [found] at valid
    exact absurd valid (by decide)

theorem memchr_spec {start length found : Nat} {char : UInt8}
    (search : memchr memory start char length = some found) : memory found = char := by
  simpa using (findByte_spec search).2

theorem skipMark_le (memory : Memory) : skipMark memory ≤ 1 := by
  rw [skipMark]
  split <;> decide

theorem newdata_gate (gate : GateInvariant memory) {event : UipEvent}
    (clear : CopyStaysClear memory event.data) :
    GateInvariant (newdata memory event).1 ∧ AllAuthenticated (newdata memory event).2.calls := by
  rw [newdata]
  dsimp only
  have copied : GateInvariant (copySegment memory event.data) :=
    gate.congr (copySegment_above clear (by decide)) (copySegment_above clear (by decide))
  generalize copySegment memory event.data = memory at copied ⊢
  split
  · constructor
    · exact copied
    · intro call member
      exact absurd member List.not_mem_nil
  · have terminated : GateInvariant (terminateLine memory
        (memchr memory inbuf lineFeed (memory inLen).toNat)) := by
      apply copied.congr
      · apply terminateLine_of_ne _ (by decide)
        intro position search
        exact copied.ne_lineFeed (memchr_spec search) (Or.inr rfl)
      · apply terminateLine_of_ne _ (by decide)
        intro position search
        exact copied.ne_lineFeed (memchr_spec search) (Or.inl rfl)
    generalize terminateLine memory _ = memory at terminated ⊢
    have cleaned : GateInvariant (killCarriageReturns memory) :=
      terminated.congr (killCarriageReturns_above (by decide))
        (killCarriageReturns_above (by decide))
    generalize killCarriageReturns memory = memory at cleaned ⊢
    have marked : GateInvariant (requestClose memory) :=
      cleaned.congr (requestClose_of_ne (by decide)) (requestClose_of_ne (by decide))
    split
    next unknown => exact authenticate_gate marked unknown (skipMark_le _) event
    next known => exact runCommand_gate marked known _ event

end RequestLine

section Callbacks

variable {memory : Memory}

theorem connect_gate (memory : Memory) : GateInvariant (connect memory) := by
  have pamEq : connect memory pamState = pamUnknown := by
    rw [connect, clearInbuf_above (by decide), Function.update_self]
  have againEq : connect memory parseAgain = 0 := by
    rw [connect, clearInbuf_above (by decide), Function.update_of_ne (by decide),
      Function.update_of_ne (by decide), Function.update_self]
  constructor
  · rw [pamEq]
    decide
  · rw [againEq]
    decide
  · intro _
    exact againEq

theorem reportDenied_of_ne {index : Nat} (above : parseAgain ≤ index)
    (notClose : index ≠ closeRequested) : reportDenied memory index = memory index := by
  rw [reportDenied]
  split
  · rw [Function.update_of_ne notClose, printReply_above (by decide) above]
  · rfl

theorem reportDenied_inLen : reportDenied memory inLen = memory inLen := by
  rw [reportDenied]
  split
  · rw [Function.update_of_ne (by decide), printReply, Function.update_of_ne (by decide)]
    exact writeBlock_outside (Or.inl (by decide))
  · rfl

theorem reportDenied_gate (gate : GateInvariant memory) : GateInvariant (reportDenied memory) :=
  gate.congr (reportDenied_of_ne (by decide) (by decide))
    (reportDenied_of_ne (by decide) (by decide))

/-- The second call of the parser leaves the input length or clears it. -/
theorem finishParseAgain_inLen (reply : ParserReply) :
    finishParseAgain memory reply inLen = memory inLen ∨
      finishParseAgain memory reply inLen = 0 := by
  have stored : reply.store memory inLen = memory inLen := by
    rw [ParserReply.store, if_neg (by decide), if_neg (by decide)]
  have ended : ∀ memory, endReplyAgain memory reply inLen = memory inLen := by
    intro memory
    rw [endReplyAgain]
    split
    · rw [Function.update_of_ne (by decide), Function.update_of_ne (by rw [inLen, outbuf]; omega)]
    · rfl
  rw [finishParseAgain, ended, markAgainOrDone]
  split
  · rw [Function.update_of_ne (by decide), stored]
    exact Or.inl rfl
  · rw [Function.update_self]
    exact Or.inr rfl

/-- The parser is re-entered without a look at `pam_state`, so the state before
an acknowledgement has to rule that out. -/
def AckIsSafe (memory : Memory) (event : UipEvent) : Prop :=
  event.acked = true → memory parseAgain = 0 ∨ memory pamState = pamSuccess

theorem parseAgainStep_gate (gate : GateInvariant memory) {event : UipEvent}
    (safe : AckIsSafe memory event) :
    GateInvariant (parseAgainStep memory event).1 ∧
      AllAuthenticated (parseAgainStep memory event).2 ∧
      ((parseAgainStep memory event).1 inLen = memory inLen ∨
        (parseAgainStep memory event).1 inLen = 0) := by
  have quiet : AllAuthenticated [] := fun call member => absurd member List.not_mem_nil
  rw [parseAgainStep]
  split
  next entered =>
    have emptied : GateInvariant (Function.update memory outLen 0) :=
      gate.congr (Function.update_of_ne (by decide) _ _) (Function.update_of_ne (by decide) _ _)
    dsimp only
    split
    next again =>
      rw [Function.update_of_ne (by decide)] at again
      have success : memory pamState = pamSuccess := by
        rcases entered with acked | success
        · exact (safe acked).resolve_left again
        · exact success.1
      have closed : requestClose (Function.update memory outLen 0) pamState = pamSuccess := by
        rw [requestClose_of_ne (by decide), Function.update_of_ne (by decide), success]
      have inputKept : requestClose (Function.update memory outLen 0) inLen = memory inLen := by
        rw [requestClose_of_ne (by decide), Function.update_of_ne (by decide)]
      constructor
      · exact finishParseAgain_success event.againReply closed
      · constructor
        · intro call member
          rw [List.mem_singleton] at member
          rw [member]
          exact closed
        · rw [← inputKept]
          exact finishParseAgain_inLen event.againReply
    next =>
      have inputKept : Function.update memory outLen 0 inLen = memory inLen :=
        Function.update_of_ne (by decide) _ _
      exact ⟨emptied, quiet, Or.inl inputKept⟩
  next =>
    exact ⟨gate, quiet, Or.inl rfl⟩

theorem CopyStaysClear.of_inLen {memory' : Memory} {data : List UInt8}
    (clear : CopyStaysClear memory data)
    (lengths : memory' inLen = memory inLen ∨ memory' inLen = 0) :
    CopyStaysClear memory' data := by
  rcases lengths with same | zero
  · rw [CopyStaysClear, copyLength, freeInput, same]
    exact clear
  · apply copyStaysClear_of_inside
    rw [zero]
    decide

/-- What a callback may meet: a new connection, or a state in which neither an
acknowledgement re-enters the parser early nor the copied segment runs over the
fields behind the buffers. -/
def EventIsSafe (memory : Memory) (event : UipEvent) : Prop :=
  event.connected = true ∨
    (AckIsSafe memory event ∧ (event.newdata = true → CopyStaysClear memory event.data))

theorem ecmdNetMain_gate {event : UipEvent}
    (gate : event.connected = true ∨ GateInvariant memory) (safe : EventIsSafe memory event) :
    GateInvariant (ecmdNetMain memory event).1 ∧
      AllAuthenticated (ecmdNetMain memory event).2.calls := by
  have opened : GateInvariant (if event.connected then connect memory else memory) ∧
      AckIsSafe (if event.connected then connect memory else memory) event ∧
      (event.newdata = true →
        CopyStaysClear (if event.connected then connect memory else memory) event.data) := by
    by_cases connected : event.connected = true
    · rw [if_pos connected]
      have fresh := connect_gate memory
      have againEq : connect memory parseAgain = 0 := fresh.unknown (by
        rw [connect, clearInbuf_above (by decide), Function.update_self])
      have lengthEq : connect memory inLen = 0 := by
        rw [connect, clearInbuf_above (by decide)]
        simp [inLen, outLen, parseAgain, closeRequested, pamState]
      exact ⟨fresh, fun _ => Or.inl againEq, fun _ =>
        copyStaysClear_of_inside (by rw [lengthEq]; decide) _⟩
    · rw [if_neg connected]
      exact ⟨gate.resolve_left connected, safe.resolve_left connected⟩
  rw [ecmdNetMain]
  generalize (if event.connected then connect memory else memory) = memory at opened ⊢
  obtain ⟨gate, safe, clear⟩ := opened
  have reported := reportDenied_gate gate
  have safe : AckIsSafe (reportDenied memory) event := by
    rw [AckIsSafe, reportDenied_of_ne (by decide) (by decide),
      reportDenied_of_ne (by decide) (by decide)]
    exact safe
  have continued := parseAgainStep_gate reported safe
  rw [reportDenied_inLen] at continued
  dsimp only
  generalize parseAgainStep (reportDenied memory) event = again at continued ⊢
  split
  next newdataFlag =>
    have received := newdata_gate continued.1
      ((clear newdataFlag).of_inLen continued.2.2)
    constructor
    · exact received.1
    · intro call member
      rcases List.mem_append.mp member with member | member
      · exact continued.2.1 call member
      · exact received.2 call member
  next =>
    constructor
    · exact continued.1
    · intro call member
      rcases List.mem_append.mp member with member | member
      · exact continued.2.1 call member
      · exact absurd member List.not_mem_nil

end Callbacks

inductive NetStep where
  | uip (event : UipEvent)
  | pamResult (answer : PamAnswer)

/-- The connection state with all calls of the parser so far. -/
abbrev NetState := Memory × List ParserCall

/-- A uIP callback, or a result the PAM back end stores on its own. -/
def netStep (state : NetState) : NetStep → Option NetState
  | .uip event =>
      let result := ecmdNetMain state.1 event
      some (result.1, state.2 ++ result.2.calls)
  | .pamResult answer => some (Function.update state.1 pamState answer.code, state.2)

def NetStepIsSafe (state : NetState) : NetStep → Prop
  | .uip event => EventIsSafe state.1 event
  | .pamResult _ => True

instance (state : NetState) (step : NetStep) : Decidable (NetStepIsSafe state step) :=
  match step with
  | .uip event => inferInstanceAs (Decidable (event.connected = true ∨
      ((event.acked = true → state.1 parseAgain = 0 ∨ state.1 pamState = pamSuccess) ∧
        (event.newdata = true →
          (state.1 inLen).toNat + copyLength state.1 event.data ≤ parseAgain))))
  | .pamResult _ => inferInstanceAs (Decidable True)

def Gated (state : NetState) : Prop :=
  GateInvariant state.1 ∧ AllAuthenticated state.2

theorem netStep_uip_gated {state next : NetState} {event : UipEvent}
    (gate : event.connected = true ∨ GateInvariant state.1) (quiet : AllAuthenticated state.2)
    (safe : EventIsSafe state.1 event) (stepped : netStep state (.uip event) = some next) :
    Gated next := by
  cases Option.some.inj stepped
  obtain ⟨gateNext, calls⟩ := ecmdNetMain_gate gate safe
  constructor
  · exact gateNext
  · intro call member
    rcases List.mem_append.mp member with member | member
    · exact quiet call member
    · exact calls call member

theorem netStep_gated (state : NetState) (step : NetStep) (next : NetState)
    (gated : Gated state) (safe : NetStepIsSafe state step)
    (stepped : netStep state step = some next) : Gated next := by
  cases step with
  | uip event => exact netStep_uip_gated (Or.inr gated.1) gated.2 safe stepped
  | pamResult answer =>
      cases Option.some.inj stepped
      constructor
      · apply gateInvariant_of_answer answer (Function.update_self ..)
        rw [Function.update_of_ne (by decide)]
        exact gated.1.flag
      · exact gated.2

/-- From the opening of a connection on, along every sequence of callbacks and
PAM results in which no acknowledgement finds a parked command on an
unauthenticated connection and no copied segment runs over `parse_again`, the
parser is called in the state `PAM_SUCCESS` only. -/
theorem parser_called_authenticated_of_safe {memory : Memory} {first : UipEvent}
    {steps : List NetStep} {last : NetState} (connected : first.connected = true)
    (safe : Guarded netStep NetStepIsSafe (memory, []) (.uip first :: steps))
    (reached : run netStep (memory, []) (.uip first :: steps) = some last) :
    ∀ call ∈ last.2, call.authState = pamSuccess := by
  rw [run, Option.bind_eq_some_iff] at reached
  obtain ⟨next, stepped, rest⟩ := reached
  have opened : Gated next := netStep_uip_gated (Or.inl connected)
    (fun call member => absurd member List.not_mem_nil) safe.1 stepped
  exact ((safe.2 next stepped).invariant netStep_gated opened rest).2

def silentReply : ParserReply where
  command := fun _ => 0
  output := fun _ => 0
  result := 0
  result_le := by decide
  again_le := by decide

def quietEvent : UipEvent where
  connected := false
  acked := false
  newdata := false
  rexmit := false
  poll := false
  data := []
  pamAnswer := .pending
  againReply := silentReply
  newdataReply := silentReply

/-- `"auth u p whm\n"` -/
def authWhmLine : List UInt8 :=
  [97, 117, 116, 104, 32, 117, 32, 112, 32, 119, 104, 109, 10]

def connectedEvent : UipEvent :=
  { quietEvent with connected := true }

def authWhmEvent : UipEvent :=
  { quietEvent with newdata := true, data := authWhmLine }

def pollEvent : UipEvent :=
  { quietEvent with poll := true }

def ackedEvent : UipEvent :=
  { quietEvent with acked := true }

def authSuccessRun : List NetStep :=
  [.uip connectedEvent, .uip authWhmEvent, .pamResult .success, .uip pollEvent]

def authDeniedRun : List NetStep :=
  [.uip connectedEvent, .uip authWhmEvent, .pamResult .denied, .uip pollEvent, .uip ackedEvent]

theorem parser_called_after_success :
    ∃ last, run netStep (fun _ => 0, []) authSuccessRun = some last ∧
      last.2 = [⟨[119, 104, 109], pamSuccess⟩] ∧
      ∀ call ∈ last.2, call.authState = pamSuccess := by
  have ended : ((run netStep (fun _ => 0, []) authSuccessRun).map Prod.snd) =
      some [⟨[119, 104, 109], pamSuccess⟩] := by
    decide +kernel
  obtain ⟨last, reached, calls⟩ := Option.map_eq_some_iff.mp ended
  exact ⟨last, reached, calls, parser_called_authenticated_of_safe
    (show connectedEvent.connected = true from rfl) (by decide +kernel) reached⟩

/-- After the refused credentials the acknowledgement of the error message
executes the parked command all the same. -/
theorem parser_called_after_denial :
    ¬∀ (memory : Memory) (first : UipEvent) (steps : List NetStep) (last : NetState),
      first.connected = true → run netStep (memory, []) (.uip first :: steps) = some last →
      ∀ call ∈ last.2, call.authState = pamSuccess := by
  intro authenticated
  have ended : ((run netStep (fun _ => 0, []) authDeniedRun).map Prod.snd) =
      some [⟨[119, 104, 109], pamDenied⟩] := by
    decide +kernel
  obtain ⟨last, reached, calls⟩ := Option.map_eq_some_iff.mp ended
  have denied := authenticated _ _ _ last rfl reached ⟨[119, 104, 109], pamDenied⟩
    (by rw [calls]; exact List.mem_singleton_self _)
  exact absurd denied (by decide)

end Ethersex.Ecmd

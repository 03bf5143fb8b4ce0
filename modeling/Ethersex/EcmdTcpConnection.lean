import Ethersex.ByteMemory

/-!
# ECMD over TCP with authentication

`protocols/ecmd/via_tcp/ecmd_net.c` keeps one `struct ecmd_connection_state_t`
for each uIP connection.  Its string handling runs with raw pointers over
`inbuf` and the fields behind it, so the structure is modelled by its memory
image; the bytes behind its last field belong to whatever follows it.  This file
embeds `newdata` and `ecmd_net_main` for a build with `ECMD_PAM_SUPPORT`.
-/

namespace Ethersex.Ecmd

open ByteMemory

def inputbufLength : Nat := 50
def outputbufLength : Nat := 50

def inbuf : Nat := 0
def inLen : Nat := 50
def outbuf : Nat := 51
def outLen : Nat := 101
def parseAgain : Nat := 102
def pamState : Nat := 103
def closeRequested : Nat := 104
def pamUnknown : UInt8 := 0
def pamPending : UInt8 := 1
def pamDenied : UInt8 := 2
def pamSuccess : UInt8 := 3

def lineFeed : UInt8 := 10
def carriageReturn : UInt8 := 13
def space : UInt8 := 32
def exclamationMark : UInt8 := 33
def ecmdNoNewline : UInt8 := 0x23

/-- `"auth "` -/
def authPrefix : List UInt8 := [97, 117, 116, 104, 32]

/-- `"authentification required\n"` -/
def authRequiredText : List UInt8 :=
  [97, 117, 116, 104, 101, 110, 116, 105, 102, 105, 99, 97, 116, 105, 111, 110, 32,
    114, 101, 113, 117, 105, 114, 101, 100, 10]

/-- `"authentification successful\n"` -/
def authSuccessfulText : List UInt8 :=
  [97, 117, 116, 104, 101, 110, 116, 105, 102, 105, 99, 97, 116, 105, 111, 110, 32,
    115, 117, 99, 99, 101, 115, 115, 102, 117, 108, 10]

/-- `"authentification failed\n"` -/
def authFailedText : List UInt8 :=
  [97, 117, 116, 104, 101, 110, 116, 105, 102, 105, 99, 97, 116, 105, 111, 110, 32,
    102, 97, 105, 108, 101, 100, 10]

def addressSpace : Nat := 65536

/-- The first offset from `start` on whose byte satisfies `stop`. -/
def findByte (memory : Memory) (stop : UInt8 → Bool) : Nat → Nat → Option Nat
  | 0, _ => none
  | fuel + 1, start =>
      if stop (memory start) then some start else findByte memory stop fuel (start + 1)

def strlen (memory : Memory) (start : Nat) : Nat :=
  (findByte memory (fun byte => byte == 0) addressSpace start).getD start - start

def strchr (memory : Memory) (start : Nat) (char : UInt8) : Option Nat :=
  (findByte memory (fun byte => byte == char || byte == 0) addressSpace start).filter
    fun found => memory found == char

def memchr (memory : Memory) (start : Nat) (char : UInt8) (length : Nat) : Option Nat :=
  findByte memory (fun byte => byte == char) length start

/-- `sprintf_P` of a constant text into `outbuf`, with its result in `out_len`. -/
def printReply (memory : Memory) (text : List UInt8) : Memory :=
  Function.update (writeBlock memory outbuf (text ++ [0])) outLen (UInt8.ofNat text.length)

def clearInbuf (memory : Memory) : Memory :=
  fillBlock memory inbuf inputbufLength 0

/-- What `pam_auth` stores before it returns; the back ends know no other
outcome. -/
inductive PamAnswer where
  | pending
  | denied
  | success
deriving DecidableEq, Repr

def PamAnswer.code : PamAnswer → UInt8
  | .pending => pamPending
  | .denied => pamDenied
  | .success => pamSuccess

/-- The effect of one call of `ecmd_parse_command` on the buffers it is given,
and its result.  It reports at most as many output bytes as it was allowed. -/
structure ParserReply where
  command : Memory
  output : Memory
  result : Int
  result_le : result < outputbufLength
  again_le : -10 - result < outputbufLength

/-- One uIP callback of the connection; closing, aborting and time-outs set none
of the flags.  The parser may be entered once for the pending command and once
for new data. -/
structure UipEvent where
  connected : Bool
  acked : Bool
  newdata : Bool
  rexmit : Bool
  poll : Bool
  data : List UInt8
  pamAnswer : PamAnswer
  againReply : ParserReply
  newdataReply : ParserReply

/-- A call of `ecmd_parse_command`: the command text and the authentication
state at that moment. -/
structure ParserCall where
  command : List UInt8
  authState : UInt8
deriving DecidableEq, Repr

/-- What a callback does outside the connection state. -/
structure NetEffects where
  calls : List ParserCall
  sends : List (List UInt8)
  closes : Bool

def NetEffects.none : NetEffects := ⟨[], [], false⟩

def isEcmdAgain (result : Int) : Bool := decide (result ≤ -10)
def ecmdAgain (result : Int) : Int := -10 - result

def ParserReply.store (reply : ParserReply) (memory : Memory) : Memory := fun index =>
  if index < inputbufLength then reply.command index
  else if outbuf ≤ index ∧ index < outbuf + outputbufLength then reply.output (index - outbuf)
  else memory index

def parserCall (memory : Memory) (skip : Nat) : ParserCall where
  command := readBlock memory (inbuf + skip) (strlen memory (inbuf + skip))
  authState := memory pamState

/-- The free part of the input buffer, computed in 16 bits. -/
def freeInput (memory : Memory) : Nat :=
  (inputbufLength + 65536 - (memory inLen).toNat) % 65536

def copyLength (memory : Memory) (data : List UInt8) : Nat :=
  if data.length ≤ freeInput memory then data.length else freeInput memory

/-- Append as much of the segment as fits. -/
def copySegment (memory : Memory) (data : List UInt8) : Memory :=
  if 0 < freeInput memory then
    let cplen := copyLength memory data
    let memory := writeBlock memory (inbuf + (memory inLen).toNat) (data.take cplen)
    Function.update memory inLen (memory inLen + UInt8.ofNat cplen)
  else
    memory

def terminateLine (memory : Memory) : Option Nat → Memory
  | some lf => Function.update memory lf 0
  | none => Function.update memory (inbuf + inputbufLength - 1) 0

def killCarriageReturns (memory : Memory) : Memory := fun index =>
  if index < inputbufLength ∧ memory index = carriageReturn then 0 else memory index

/-- The leading `!`: the number of characters to skip. -/
def skipMark (memory : Memory) : Nat :=
  if memory inbuf = exclamationMark then 1 else 0

def requestClose (memory : Memory) : Memory :=
  if memory inbuf = exclamationMark then Function.update memory closeRequested 1 else memory

def authRequired (memory : Memory) : Memory :=
  Function.update (clearInbuf (printReply memory authRequiredText)) inLen 0

/-- Cut an `auth USER PASS REST` line into its parts: the image with the
terminators written, and the position of the space in front of the rest. -/
def splitAuth (memory : Memory) (skip : Nat) : Option (Memory × Option Nat) := do
  guard (readBlock memory (inbuf + skip) 5 = authPrefix)
  let user := inbuf + skip + 5
  let gap ← strchr memory (user + 1) space
  let memory := Function.update memory gap 0
  let pass ← findByte memory (fun byte => byte != space) addressSpace (gap + 1)
  let rest := strchr memory pass space
  return (match rest with
    | some position => Function.update memory position 0
    | none => memory, rest)

/-- Move the rest of the line to the front.  The length is taken after the
move. -/
def moveRest (memory : Memory) (position : Nat) : Memory :=
  let start := position + 1
  let memory := writeBlock memory inbuf (readBlock memory start (strlen memory start + 1))
  Function.update memory inLen (UInt8.ofNat (strlen memory start))

/-- The number of output bytes the parser reports. -/
def ParserReply.length (reply : ParserReply) : Int :=
  if isEcmdAgain reply.result then ecmdAgain reply.result else reply.result

def markAgain (memory : Memory) (reply : ParserReply) : Memory :=
  if isEcmdAgain reply.result then Function.update memory parseAgain 1 else memory

/-- End the reply text with a newline, unless the parser asked for none. -/
def endReply (memory : Memory) (reply : ParserReply) : Memory :=
  if 0 < reply.length then
    let l := reply.length.toNat
    if memory (outbuf + l) = ecmdNoNewline then
      Function.update memory outLen (UInt8.ofNat l)
    else
      Function.update (Function.update memory (outbuf + l) lineFeed) outLen (UInt8.ofNat (l + 1))
  else
    memory

def clearWhenDone (memory : Memory) : Memory :=
  if memory parseAgain = 0 then Function.update (clearInbuf memory) inLen 0 else memory

/-- What `newdata` does with the outcome of the parser. -/
def finishParse (memory : Memory) (reply : ParserReply) : Memory :=
  clearWhenDone (endReply (markAgain (reply.store memory) reply) reply)

/-- The end of `newdata`: only the pending and the denied state are turned
away before the parser is called. -/
def runCommand (memory : Memory) (skip : Nat) (event : UipEvent) : Memory × NetEffects :=
  if memory pamState = pamPending ∨ memory pamState = pamDenied then
    (memory, .none)
  else
    (finishParse memory event.newdataReply, ⟨[parserCall memory skip], [], false⟩)

/-- The answer of `pam_auth` and the message after an immediate success. -/
def storePamAnswer (memory : Memory) (answer : PamAnswer) : Memory :=
  let memory := Function.update memory pamState answer.code
  if answer = .success then printReply memory authSuccessfulText else memory

def pamSends (memory : Memory) (answer : PamAnswer) : List (List UInt8) :=
  if answer = .success then [readBlock memory outbuf (memory outLen).toNat] else []

/-- A command behind the credentials has to wait for a pending answer. -/
def markPending (memory : Memory) : Memory :=
  if memory pamState = pamPending then Function.update memory parseAgain 1 else memory

/-- The authentication request of an unauthenticated connection. -/
def authenticate (memory : Memory) (skip : Nat) (event : UipEvent) : Memory × NetEffects :=
  match splitAuth memory skip with
  | none => (authRequired memory, .none)
  | some (memory, rest) =>
      let memory := storePamAnswer memory event.pamAnswer
      let sends := pamSends memory event.pamAnswer
      match rest.filter fun position => memory (position + 1) != 0 with
      | none => (Function.update memory inLen 0, ⟨[], sends, false⟩)
      | some position =>
          let (memory, effects) := runCommand (markPending (moveRest memory position)) 0 event
          (memory, ⟨effects.calls, sends ++ effects.sends, false⟩)

def newdata (memory : Memory) (event : UipEvent) : Memory × NetEffects :=
  let memory := copySegment memory event.data
  let lf := memchr memory inbuf lineFeed (memory inLen).toNat
  if lf = none ∧ lineFeed ∉ event.data then
    (memory, .none)
  else
    let memory := killCarriageReturns (terminateLine memory lf)
    let skip := skipMark memory
    let memory := requestClose memory
    if memory pamState = pamUnknown then
      authenticate memory skip event
    else
      runCommand memory skip event

def connect (memory : Memory) : Memory :=
  let memory := Function.update memory inLen 0
  let memory := Function.update memory outLen 0
  let memory := Function.update memory parseAgain 0
  let memory := Function.update memory closeRequested 0
  let memory := Function.update memory pamState pamUnknown
  clearInbuf memory

def reportDenied (memory : Memory) : Memory :=
  if memory pamState = pamDenied then
    Function.update (printReply memory authFailedText) closeRequested 1
  else
    memory

def markAgainOrDone (memory : Memory) (reply : ParserReply) : Memory :=
  if isEcmdAgain reply.result then Function.update memory parseAgain 1
  else Function.update (Function.update memory parseAgain 0) inLen 0

/-- Here the newline is written in every case. -/
def endReplyAgain (memory : Memory) (reply : ParserReply) : Memory :=
  if 0 < reply.length then
    let l := reply.length.toNat
    Function.update (Function.update memory (outbuf + l) lineFeed) outLen (UInt8.ofNat (l + 1))
  else
    memory

/-- What `ecmd_net_main` does with the outcome of the parser, for a command that
asked to be continued or was parked behind a pending authentication. -/
def finishParseAgain (memory : Memory) (reply : ParserReply) : Memory :=
  endReplyAgain (markAgainOrDone (reply.store memory) reply) reply

def parseAgainStep (memory : Memory) (event : UipEvent) : Memory × List ParserCall :=
  if event.acked ∨ (memory pamState = pamSuccess ∧ memory inLen ≠ 0) then
    let memory := Function.update memory outLen 0
    if memory parseAgain ≠ 0 then
      let skip := skipMark memory
      let memory := requestClose memory
      (finishParseAgain memory event.againReply, [parserCall memory skip])
    else
      (memory, [])
  else
    (memory, [])

/-- The final transmission of `ecmd_net_main`. -/
def transmit (memory : Memory) (event : UipEvent) : List (List UInt8) × Bool :=
  if event.rexmit ∨ event.newdata ∨ event.acked ∨ event.connected ∨ event.poll then
    if memory outLen ≠ 0 then
      ([readBlock memory outbuf (memory outLen).toNat], false)
    else
      ([], decide (memory closeRequested ≠ 0))
  else
    ([], false)

def ecmdNetMain (memory : Memory) (event : UipEvent) : Memory × NetEffects :=
  let memory := if event.connected then connect memory else memory
  let memory := reportDenied memory
  let (memory, calls) := parseAgainStep memory event
  let (memory, effects) := if event.newdata then newdata memory event else (memory, .none)
  let (sends, closes) := transmit memory event
  (memory, ⟨calls ++ effects.calls, effects.sends ++ sends, closes⟩)

end Ethersex.Ecmd

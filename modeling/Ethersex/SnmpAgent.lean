import Ethersex.ByteMemory
import Mathlib.Data.UInt

/-!
# The SNMP agent

`protocols/snmp/snmp_net.c` answers GetRequest and GetNextRequest packets in place: the
header stays where it is, the list of variable bindings is copied to the stack and
the bindings of the response are written over it.  The length bytes around it are
corrected at the end by the difference.  `snmp_reactions` is the table of the objects the
agent knows.

A callback gets the rest of the object identifier behind the entry's name.  Its result
here is what it writes; it returns the number of these bytes, as an 8-bit number.
-/

namespace Ethersex.Snmp

open ByteMemory

def typeInteger : UInt8 := 0x02
def typeString : UInt8 := 0x04
def typeNull : UInt8 := 0x05
def typeOid : UInt8 := 0x06
def typeSequence : UInt8 := 0x30
def typeCounter : UInt8 := 0x41
def typeTimeticks : UInt8 := 0x43
def typeGetReq : UInt8 := 0xa0
def typeGetNextReq : UInt8 := 0xa1
def typeGetResp : UInt8 := 0xa2

def errNoSuchName : UInt8 := 0x02

/-- `SNMP_MAX_OID_BUFFERSIZE`. -/
def maxOidBuffersize : Nat := 64

/-- `SNMP_MAX_BIND_COUNT`. -/
def maxBindCount : Nat := 3

/-- `struct snmp_varbinding`, with the `len` bytes at `data`. -/
structure Varbinding where
  storeLen : UInt8
  data : List UInt8

def Varbinding.len (bind : Varbinding) : UInt8 :=
  UInt8.ofNat bind.data.length

/-- `struct snmp_reaction`. -/
structure Reaction where
  objName : List UInt8
  cb : List UInt8 → List UInt8
  ncb : Option (List UInt8 → List UInt8)

/-- The community string with the program memory behind it, and the table of reactions, which is
never empty. -/
structure Agent where
  community : Memory
  first : Reaction
  more : List Reaction

/-- Search the table for an entry whose name and the identifier begin with the same bytes, and
return it with the entries behind it. -/
def snmpFindReaction (oid : List UInt8) : List Reaction →
    Option (Varbinding × Reaction × List Reaction)
  | [] => none
  | reaction :: reactions =>
      let storeLen := UInt8.ofNat reaction.objName.length
      let oidLen := UInt8.ofNat oid.length
      let cmpLen := if oidLen < storeLen then oidLen else storeLen
      let len := if oidLen < storeLen then 0 else oidLen - storeLen
      if oid.take cmpLen.toNat = reaction.objName.take cmpLen.toNat then
        some (⟨storeLen, (oid.drop storeLen.toNat).take len.toNat⟩, reaction, reactions)
      else snmpFindReaction oid reactions

/-- The bytes a callback writes and the number of them it returns, as the next binding. -/
def nextVarbinding (storeLen : UInt8) (sub : List UInt8) : Varbinding :=
  ⟨storeLen, sub.take (UInt8.ofNat sub.length).toNat⟩

/-- `memcpy_P` of an object name.  What stands behind a name in program memory is read only with
an uninitialised length and is taken as zero. -/
def copyName (name : List UInt8) (storeLen : UInt8) : List UInt8 :=
  (List.range storeLen.toNat).map fun position => name.getD position 0

/-- The sub-identifier after the one in the binding, in the entry or in the next one.  The
callbacks write it behind the place of the name. -/
def snmpNextBind (packet : Memory) (out : Nat) (bind : Varbinding) (reaction : Reaction)
    (reactions : List Reaction) : Memory × Option (Varbinding × Reaction) :=
  let (packet, bind) :=
    match reaction.ncb with
    | some ncb =>
        (writeBlock packet (out + 2 + bind.storeLen.toNat) (ncb bind.data),
          nextVarbinding bind.storeLen (ncb bind.data))
    | none => (packet, bind)
  if bind.len ≠ 0 then (packet, some (bind, reaction))
  else
    match reactions with
    | [] => (packet, none)
    | next :: _ =>
        let storeLen := UInt8.ofNat next.objName.length
        match next.ncb with
        | some ncb =>
            (writeBlock packet (out + 2 + storeLen.toNat) (ncb []),
              some (nextVarbinding storeLen (ncb []), next))
        | none => (packet, some (⟨storeLen, []⟩, next))

/-- The value of the binding and its length bytes. -/
def finishBind (packet : Memory) (vb out : Nat) (oidLen : UInt8) (value : List UInt8) :
    Memory × UInt8 :=
  let packet := writeBlock packet out value
  let ret := UInt8.ofNat value.length
  if ret < 2 then (packet, 0)
  else (writeBlock packet (vb + 1) [2 + oidLen + ret], 2 + (2 + oidLen + ret))

/-- `snmp_proc_bind`, with the uninitialised `bind` of its stack frame. -/
def snmpProcBind (agent : Agent) (stack : Varbinding) (reqType : UInt8) (oid : List UInt8)
    (packet : Memory) (vb : Nat) : Memory × UInt8 :=
  let found :=
    if oid = [] ∧ reqType = typeGetNextReq then some (stack, agent.first, agent.more)
    else snmpFindReaction oid (agent.first :: agent.more)
  match found with
  | none => (packet, 0)
  | some (bind, reaction, reactions) =>
      let packet := writeBlock packet vb [typeSequence, 0]
      let out := vb + 2
      if reqType = typeGetNextReq then
        match snmpNextBind packet out bind reaction reactions with
        | (packet, none) => (packet, 0)
        | (packet, some (bind, reaction)) =>
            let oidLen := bind.storeLen + bind.len
            let packet := writeBlock packet out [typeOid, oidLen]
            let packet := writeBlock packet (out + 2) (copyName reaction.objName bind.storeLen)
            finishBind packet vb (out + 2 + oidLen.toNat) oidLen (reaction.cb bind.data)
      else if UInt8.ofNat oid.length < bind.storeLen then (packet, 0)
      else
        let oidLen := UInt8.ofNat oid.length
        let packet := writeBlock packet out ([typeOid, oidLen] ++ oid)
        finishBind packet vb (out + 2 + oidLen.toNat) oidLen (reaction.cb bind.data)

/-- The places of the header that are needed later, the type of the request and the length of the
list of bindings. -/
structure Header where
  type : UInt8
  reqType : Nat
  err : Nat
  vbListHdr : Nat
  vbListLen : Nat

/-- The checks of `snmp_net_main` before the bindings. -/
def parseHeader (community packet : Memory) (uipLen : Nat) : Option Header := do
  let len : Int := uipLen - 2
  guard (0 ≤ len ∧ packet 0 = typeSequence)
  guard ((packet 1).toNat = len)
  let len := len - 3
  guard (0 ≤ len ∧ packet 2 = typeInteger ∧ packet 3 = 1 ∧ packet 4 = 0)
  let len := len - 2
  guard (0 ≤ len ∧ packet 5 = typeString)
  let csLen := (packet 6).toNat
  guard (csLen ≤ len)
  let len := len - csLen
  guard (readBlock community 0 csLen = readBlock packet 7 csLen)
  guard (community csLen = 0)
  let reqType := 7 + csLen
  let len := len - 2
  guard (0 ≤ len ∧ (packet reqType = typeGetReq ∨ packet reqType = typeGetNextReq))
  guard ((packet (reqType + 1)).toNat = len)
  let len := len - 2
  guard (0 ≤ len ∧ packet (reqType + 2) = typeInteger)
  let idLen := (packet (reqType + 3)).toNat
  guard (idLen ≤ len)
  let len := len - idLen
  let req := reqType + 4 + idLen
  let len := len - 3
  guard (0 ≤ len ∧ packet req = typeInteger ∧ packet (req + 1) = 1)
  let len := len - 3
  guard (0 ≤ len ∧ packet (req + 3) = typeInteger ∧ packet (req + 4) = 1)
  let len := len - 2
  guard (0 ≤ len ∧ packet (req + 6) = typeSequence)
  let vbListLen := (packet (req + 7)).toNat
  guard (vbListLen = len ∧ vbListLen ≤ maxOidBuffersize)
  return ⟨packet reqType, reqType, req + 2, req + 6, vbListLen⟩

/-- The variables of the loop over the bindings. -/
structure Progress where
  vbList : Nat
  len : Int
  req : Nat
  packet : Memory
  lenDelta : Int

/-- The checks of the next binding: its length and its object identifier. -/
def parseBinding (vbList : List UInt8) (position : Nat) (len : Int) :
    Option (Nat × List UInt8) := do
  let len := len - 2
  guard (0 ≤ len ∧ vbList.getD position 0 = typeSequence)
  let vbLen := (vbList.getD (position + 1) 0).toNat
  guard (vbLen ≤ len)
  let vbRem : Int := vbLen - 2
  guard (0 ≤ vbRem ∧ vbList.getD (position + 2) 0 = typeOid)
  let oidLen := (vbList.getD (position + 3) 0).toNat
  guard (oidLen ≤ vbRem)
  let vbRem := vbRem - oidLen
  guard (vbRem = 2 ∧ vbList.getD (position + 4 + oidLen) 0 = typeNull ∧
    vbList.getD (position + 5 + oidLen) 0 = 0)
  return (vbLen, (vbList.drop (position + 4)).take oidLen)

/-- The answer to one binding and the change of the lengths. -/
def answerBinding (agent : Agent) (stack : Varbinding) (header : Header) (vbLen : Nat)
    (oid : List UInt8) (progress : Progress) : Progress :=
  let answered := snmpProcBind agent stack header.type oid progress.packet progress.req
  let ret := answered.2.toNat
  { vbList := progress.vbList + 2 + vbLen
    len := progress.len - 2 - vbLen
    req := progress.req + ret
    packet := if ret = 0 then writeBlock answered.1 header.err [errNoSuchName] else answered.1
    lenDelta := (progress.lenDelta + (ret - vbLen - 2 : Int).bmod 256).bmod 256 }

/-- The loop over the bindings.  The uninitialised binding differs from call to call. -/
def processBindings (agent : Agent) (stack : Nat → Varbinding) (header : Header)
    (vbList : List UInt8) : Nat → Progress → Option Progress
  | budget, progress =>
      if progress.len ≤ 0 then some progress
      else
        match budget with
        | 0 => none
        | budget + 1 =>
            match parseBinding vbList progress.vbList progress.len with
            | none => none
            | some (vbLen, oid) =>
                processBindings agent stack header vbList budget
                  (answerBinding agent (stack (maxBindCount - budget)) header vbLen oid progress)

/-- The correction of a length byte. -/
def addLength (packet : Memory) (position : Nat) (lenDelta : Int) : Memory :=
  writeBlock packet position [UInt8.ofNat (((packet position).toNat + lenDelta) % 256).toNat]

/-- The type of the response and the correction of the lengths. -/
def setResponse (packet : Memory) (header : Header) (lenDelta : Int) : Memory :=
  let packet := writeBlock packet header.reqType [typeGetResp]
  let packet := addLength packet 1 lenDelta
  let packet := addLength packet (header.reqType + 1) lenDelta
  addLength packet (header.vbListHdr + 1) lenDelta

/-- `snmp_net_main` for new data: the buffer and `uip_slen` when a response is sent. -/
def snmpNetMain (agent : Agent) (stack : Nat → Varbinding) (packet : Memory) (uipLen : Nat) :
    Option (Memory × Nat) := do
  let header ← parseHeader agent.community packet uipLen
  let vbList := readBlock packet (header.vbListHdr + 2) header.vbListLen
  let progress ← processBindings agent stack header vbList (maxBindCount + 1)
    ⟨0, header.vbListLen, header.vbListHdr + 2, writeBlock packet header.err [0], 0⟩
  return (setResponse progress.packet header progress.lenDelta,
    ((uipLen + progress.lenDelta : Int) % 65536).toNat)

end Ethersex.Snmp

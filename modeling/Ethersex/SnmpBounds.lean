import Ethersex.CheckedReads
import Ethersex.SnmpEncoding

/-!
# The bounds of the SNMP parser

`snmp_net_main` advances its read pointer and counts the remaining length down in separate
variables.  Here it is written once more with every read of the packet, of the copied list of
bindings and of an object identifier checked, and with the remaining length compared with the read
pointer behind every element.
-/

namespace Ethersex.Snmp

open ByteMemory CheckedReads

/-- A number in an `int16_t`. -/
def int16 (number : Int) : Int :=
  number.bmod 65536

/-- The checks of `snmp_net_main` before the bindings. -/
def checkedHeader (community packet : Memory) (uipLen : UInt16) : Checked Header := do
  let limit := uipLen.toNat
  let len := int16 (int16 limit - 2)
  require (0 ≤ len)
  require ((← readAt packet limit 0) = typeSequence)
  require ((← readAt packet limit 1).toNat = len)
  consistent 2 len limit
  let len := int16 (len - 3)
  require (0 ≤ len)
  require ((← readAt packet limit 2) = typeInteger)
  require ((← readAt packet limit 3) = 1)
  require ((← readAt packet limit 4) = 0)
  consistent 5 len limit
  let len := int16 (len - 2)
  require (0 ≤ len)
  require ((← readAt packet limit 5) = typeString)
  let csLen := (← readAt packet limit 6).toNat
  require (csLen ≤ len)
  let len := int16 (len - csLen)
  expectBytes packet limit 7 (readBlock community 0 csLen)
  require (community csLen = 0)
  let reqType := 7 + csLen
  consistent reqType len limit
  let len := int16 (len - 2)
  require (0 ≤ len)
  let type ← readAt packet limit reqType
  require (type = typeGetReq ∨ type = typeGetNextReq)
  require ((← readAt packet limit (reqType + 1)).toNat = len)
  consistent (reqType + 2) len limit
  let len := int16 (len - 2)
  require (0 ≤ len)
  require ((← readAt packet limit (reqType + 2)) = typeInteger)
  let idLen := (← readAt packet limit (reqType + 3)).toNat
  require (idLen ≤ len)
  let req := reqType + 4 + idLen
  let len := int16 (len - idLen)
  consistent req len limit
  let len := int16 (len - 3)
  require (0 ≤ len)
  require ((← readAt packet limit req) = typeInteger)
  require ((← readAt packet limit (req + 1)) = 1)
  consistent (req + 3) len limit
  let len := int16 (len - 3)
  require (0 ≤ len)
  require ((← readAt packet limit (req + 3)) = typeInteger)
  require ((← readAt packet limit (req + 4)) = 1)
  consistent (req + 6) len limit
  let len := int16 (len - 2)
  require (0 ≤ len)
  require ((← readAt packet limit (req + 6)) = typeSequence)
  let vbListLen := (← readAt packet limit (req + 7)).toNat
  require (vbListLen = len ∧ vbListLen ≤ maxOidBuffersize)
  consistent (req + 8) len limit
  return ⟨type, reqType, req + 2, req + 6, vbListLen⟩

/-- The checks of the next binding, in the copy of the list. -/
def checkedBinding (vbList : List UInt8) (position : Nat) (len : Int) :
    Checked (Nat × List UInt8) := do
  let bytes := fun index => vbList.getD index 0
  let limit := vbList.length
  consistent position len limit
  let len := int16 (len - 2)
  require (0 ≤ len)
  require ((← readAt bytes limit position) = typeSequence)
  let vbLen := (← readAt bytes limit (position + 1)).toNat
  require (vbLen ≤ len)
  let len := int16 (len - vbLen)
  let vbRem := int16 (vbLen - 2)
  require (0 ≤ vbRem)
  require ((← readAt bytes limit (position + 2)) = typeOid)
  let oidLen := (← readAt bytes limit (position + 3)).toNat
  require (oidLen ≤ vbRem)
  let vbRem := int16 (vbRem - oidLen)
  consistent (position + 4 + oidLen) (vbRem + len) limit
  require (vbRem = 2)
  require ((← readAt bytes limit (position + 4 + oidLen)) = typeNull)
  require ((← readAt bytes limit (position + 5 + oidLen)) = 0)
  consistent (position + 6 + oidLen) len limit
  return (vbLen, (vbList.drop (position + 4)).take oidLen)

/-- `snmp_find_reaction` for the object identifier at a position of the list. -/
def checkedFindReaction (limit position : Nat) (oid : List UInt8) :
    List Reaction → Checked (Option (Varbinding × Reaction × List Reaction))
  | [] => .ok none
  | reaction :: reactions => do
      let storeLen := UInt8.ofNat reaction.objName.length
      let oidLen := UInt8.ofNat oid.length
      let cmpLen := if oidLen < storeLen then oidLen else storeLen
      let len := if oidLen < storeLen then 0 else oidLen - storeLen
      readRange limit position cmpLen.toNat
      if oid.take cmpLen.toNat = reaction.objName.take cmpLen.toNat then
        .ok (some (⟨storeLen, (oid.drop storeLen.toNat).take len.toNat⟩, reaction, reactions))
      else checkedFindReaction limit position oid reactions

/-- The search of `snmp_proc_bind`. -/
def checkedSearch (agent : Agent) (stack : Varbinding) (reqType : UInt8) (limit position : Nat)
    (oid : List UInt8) : Checked (Option (Varbinding × Reaction × List Reaction)) :=
  if oid = [] ∧ reqType = typeGetNextReq then .ok (some (stack, agent.first, agent.more))
  else checkedFindReaction limit position oid (agent.first :: agent.more)

/-- The loop over the bindings with a number of rounds it may take; `bindCount` is `bind_count`. -/
def checkedLoop (agent : Agent) (stack : Nat → Varbinding) (header : Header) (uipLen : UInt16)
    (vbList : List UInt8) : Nat → UInt8 → Progress → Checked Progress
  | 0, _, _ => .error .running
  | rounds + 1, bindCount, progress =>
      if 0 < progress.len then do
        require (¬ bindCount.toNat > maxBindCount)
        let (vbLen, oid) ← checkedBinding vbList progress.vbList progress.len
        let _ ← readAt progress.packet uipLen.toNat header.reqType
        let _ ← checkedSearch agent (stack bindCount.toNat) header.type vbList.length
          (progress.vbList + 4) oid
        checkedLoop agent stack header uipLen vbList rounds (bindCount + 1)
          (answerBinding agent (stack bindCount.toNat) header vbLen oid progress)
      else .ok progress

/-- `snmp_net_main` for new data. -/
def checkedNetMain (agent : Agent) (stack : Nat → Varbinding) (packet : Memory) (uipLen : UInt16)
    (rounds : Nat) : Checked (Memory × Nat) := do
  let header ← checkedHeader agent.community packet uipLen
  readRange uipLen.toNat (header.vbListHdr + 2) header.vbListLen
  let vbList := readBlock packet (header.vbListHdr + 2) header.vbListLen
  let progress ← checkedLoop agent stack header uipLen vbList rounds 0
    ⟨0, header.vbListLen, header.vbListHdr + 2, writeBlock packet header.err [0], 0⟩
  let _ ← readAt progress.packet uipLen.toNat 1
  let _ ← readAt progress.packet uipLen.toNat (header.reqType + 1)
  let _ ← readAt progress.packet uipLen.toNat (header.vbListHdr + 1)
  return (setResponse progress.packet header progress.lenDelta,
    ((uipLen.toNat + progress.lenDelta : Int) % 65536).toNat)

theorem int16_of_small {number : Int} (above : -32768 ≤ number) (below : number < 32768) :
    int16 number = number := by
  apply Int.bmod_eq_of_le <;> omega

theorem checkedHeader_refines_small (community packet : Memory) {uipLen : UInt16}
    (small : uipLen.toNat < 32768) :
    Refines (checkedHeader community packet uipLen)
      (parseHeader community packet uipLen.toNat) := by
  unfold checkedHeader parseHeader
  dsimp only
  rw [@int16_of_small uipLen.toNat (by omega) (by omega),
    @int16_of_small (uipLen.toNat - 2) (by omega) (by omega),
    @int16_of_small (uipLen.toNat - 2 - 3) (by omega) (by omega),
    @int16_of_small (uipLen.toNat - 2 - 3 - 2) (by omega) (by omega)]
  refine Refines.guard_and (Refines.require fun nonneg => ?_)
  refine Refines.readAt (by omega) (Refines.require fun sequence => ?_)
  refine Refines.readAt (by omega) (Refines.require fun outer => ?_)
  refine Refines.consistent (by omega) ?_
  -- the version
  refine Refines.guard_and (Refines.require fun nonneg => ?_)
  refine Refines.guard_and (Refines.readAt (by omega) (Refines.require fun version => ?_))
  refine Refines.guard_and (Refines.readAt (by omega) (Refines.require fun one => ?_))
  refine Refines.readAt (by omega) (Refines.require fun zero => ?_)
  refine Refines.consistent (by omega) ?_
  -- the community
  refine Refines.guard_and (Refines.require fun nonneg => ?_)
  refine Refines.readAt (by omega) (Refines.require fun string => ?_)
  refine Refines.readAt (by omega) ?_
  generalize (packet 6).toNat = csLen
  refine Refines.require fun inside => ?_
  rw [@int16_of_small (uipLen.toNat - 2 - 3 - 2 - csLen) (by omega) (by omega),
    @int16_of_small (uipLen.toNat - 2 - 3 - 2 - csLen - 2) (by omega) (by omega),
    @int16_of_small (uipLen.toNat - 2 - 3 - 2 - csLen - 2 - 2) (by omega) (by omega)]
  refine Refines.expectBlock (by omega) fun octets => ?_
  refine Refines.require fun terminated => Refines.consistent (by omega) ?_
  -- the type
  refine Refines.guard_and (Refines.require fun nonneg => ?_)
  refine Refines.readAt (by omega) (Refines.require fun type => ?_)
  refine Refines.readAt (by omega) (Refines.require fun pdu => ?_)
  refine Refines.consistent (by omega) ?_
  -- the request id
  refine Refines.guard_and (Refines.require fun nonneg => ?_)
  refine Refines.readAt (by omega) (Refines.require fun idType => ?_)
  refine Refines.readAt (by omega) ?_
  generalize (packet (7 + csLen + 3)).toNat = idLen
  refine Refines.require fun inside => ?_
  rw [@int16_of_small (uipLen.toNat - 2 - 3 - 2 - csLen - 2 - 2 - idLen) (by omega) (by omega),
    @int16_of_small (uipLen.toNat - 2 - 3 - 2 - csLen - 2 - 2 - idLen - 3) (by omega) (by omega),
    @int16_of_small (uipLen.toNat - 2 - 3 - 2 - csLen - 2 - 2 - idLen - 3 - 3) (by omega)
      (by omega),
    @int16_of_small (uipLen.toNat - 2 - 3 - 2 - csLen - 2 - 2 - idLen - 3 - 3 - 2) (by omega)
      (by omega)]
  refine Refines.consistent (by omega) ?_
  -- the error status and the error index
  refine Refines.guard_and (Refines.require fun nonneg => ?_)
  refine Refines.guard_and (Refines.readAt (by omega) (Refines.require fun errType => ?_))
  refine Refines.readAt (by omega) (Refines.require fun errOne => ?_)
  refine Refines.consistent (by omega) ?_
  refine Refines.guard_and (Refines.require fun nonneg => ?_)
  refine Refines.guard_and (Refines.readAt (by omega) (Refines.require fun indexType => ?_))
  refine Refines.readAt (by omega) (Refines.require fun indexOne => ?_)
  refine Refines.consistent (by omega) ?_
  -- the list of bindings
  refine Refines.guard_and (Refines.require fun nonneg => ?_)
  refine Refines.readAt (by omega) (Refines.require fun listType => ?_)
  refine Refines.readAt (by omega) (Refines.require fun list => ?_)
  exact Refines.consistent (by omega) (Refines.pure _)

/-- A packet of more than 32 KiB has a length that no single byte holds. -/
theorem int16_of_large {uipLen : UInt16} (large : 32768 ≤ uipLen.toNat) :
    int16 (int16 uipLen.toNat - 2) < 0 ∨ 255 < int16 (int16 uipLen.toNat - 2) := by
  have bound := uipLen.toNat_lt
  simp only [int16, Int.bmod_def]
  split_ifs <;> omega

theorem parseHeader_of_large {packet : Memory} {uipLen : Nat} (community : Memory)
    (large : 32768 ≤ uipLen) : parseHeader community packet uipLen = none := by
  cases parsed : parseHeader community packet uipLen with
  | none => rfl
  | some header =>
      obtain ⟨csLen, idLen, places⟩ := parseHeader_some parsed
      have outer := places.outerLength
      have bound := (packet 1).toNat_lt
      omega

theorem checkedHeader_refines_large (community packet : Memory) {uipLen : UInt16}
    (large : 32768 ≤ uipLen.toNat) :
    Refines (checkedHeader community packet uipLen)
      (parseHeader community packet uipLen.toNat) := by
  have impossible : ¬ ((packet 1).toNat : Int) = int16 (int16 uipLen.toNat - 2) := by
    have bound := (packet 1).toNat_lt
    rcases int16_of_large large with negative | wide <;> omega
  have rejects : Refines (checkedHeader community packet uipLen)
      (guard (0 ≤ int16 (int16 uipLen.toNat - 2)) >>= fun _ =>
        guard (packet 0 = typeSequence) >>= fun _ =>
          guard (((packet 1).toNat : Int) = int16 (int16 uipLen.toNat - 2)) >>= fun _ => none) := by
    refine Refines.require fun nonneg => ?_
    refine Refines.readAt (by omega) (Refines.require fun sequence => ?_)
    exact Refines.readAt (by omega) (Refines.require fun outer => absurd outer impossible)
  rw [parseHeader_of_large community large]
  simpa [guard, impossible] using rejects

theorem checkedHeader_refines (community packet : Memory) (uipLen : UInt16) :
    Refines (checkedHeader community packet uipLen)
      (parseHeader community packet uipLen.toNat) := by
  by_cases small : uipLen.toNat < 32768
  · exact checkedHeader_refines_small community packet small
  · exact checkedHeader_refines_large community packet (Nat.not_lt.mp small)

theorem checkedBinding_refines {vbList : List UInt8} {position : Nat} {len : Int}
    (short : vbList.length < 32768) (positive : 0 < len) (left : position + len = vbList.length) :
    Refines (checkedBinding vbList position len) (parseBinding vbList position len) := by
  unfold checkedBinding parseBinding
  simp (disch := omega) only [int16_of_small]
  refine Refines.consistent left ?_
  refine Refines.guard_and (Refines.require fun nonneg => ?_)
  refine Refines.readAt (by omega) (Refines.require fun sequence => ?_)
  refine Refines.readAt (by omega) (Refines.require fun vbLen => ?_)
  simp (disch := omega) only [int16_of_small]
  refine Refines.guard_and (Refines.require fun nonneg => ?_)
  refine Refines.readAt (by omega) (Refines.require fun oidType => ?_)
  refine Refines.readAt (by omega) (Refines.require fun oidLen => ?_)
  simp (disch := omega) only [int16_of_small]
  refine Refines.consistent (by omega) ?_
  refine Refines.guard_and (Refines.require fun rest => ?_)
  refine Refines.guard_and (Refines.readAt (by omega) (Refines.require fun null => ?_))
  refine Refines.readAt (by omega) (Refines.require fun zero => ?_)
  exact Refines.consistent (by omega) (Refines.pure _)

/-- The comparisons read no more than the object identifier. -/
theorem checkedFindReaction_eq {limit position : Nat} {oid : List UInt8}
    (inside : position + oid.length ≤ limit) (reactions : List Reaction) :
    checkedFindReaction limit position oid reactions = .ok (snmpFindReaction oid reactions) := by
  induction reactions with
  | nil => rfl
  | cons reaction reactions ih =>
      have oidLen : (UInt8.ofNat oid.length).toNat ≤ oid.length := by
        rw [UInt8.toNat_ofNat']
        exact Nat.mod_le _ _
      have cmpLen : position + (if UInt8.ofNat oid.length < UInt8.ofNat reaction.objName.length
          then UInt8.ofNat oid.length else UInt8.ofNat reaction.objName.length).toNat ≤ limit := by
        split
        · omega
        next longer =>
          rw [UInt8.lt_iff_toNat_lt] at longer
          omega
      rw [checkedFindReaction, snmpFindReaction, readRange]
      rw [if_pos cmpLen, ih]
      exact (apply_ite Except.ok _ _ _).symm

theorem checkedSearch_ok (agent : Agent) (stack : Varbinding) (reqType : UInt8)
    {limit position : Nat} {oid : List UInt8} (inside : position + oid.length ≤ limit) :
    ∃ found, checkedSearch agent stack reqType limit position oid = .ok found := by
  unfold checkedSearch
  split
  · exact ⟨_, rfl⟩
  · exact ⟨_, checkedFindReaction_eq inside _⟩

/-- The checked loop takes one round for each binding and one to find the end. -/
theorem checkedLoop_refines {agent : Agent} {stack : Nat → Varbinding} {header : Header}
    {uipLen : UInt16} {vbList : List UInt8} (short : vbList.length < 32768)
      (typeInside : header.reqType < uipLen.toNat)
    {budget : Nat} {bindCount : UInt8} {progress : Progress}
    (counted : bindCount.toNat + budget = maxBindCount + 1)
    (left : progress.vbList + progress.len = vbList.length) (further : Nat) :
    Refines
      (checkedLoop agent stack header uipLen vbList (further + budget + 1) bindCount progress)
      (processBindings agent stack header vbList budget progress) := by
  induction budget generalizing bindCount progress with
  | zero =>
      unfold checkedLoop processBindings
      by_cases finished : progress.len ≤ 0
      · rw [if_pos finished, if_neg (Int.not_lt.mpr finished)]
        rfl
      · rw [if_neg finished, if_pos (Int.not_le.mp finished), require,
          if_neg (by unfold maxBindCount at *; omega)]
        rfl
  | succ budget ih =>
      unfold checkedLoop processBindings
      by_cases finished : progress.len ≤ 0
      · rw [if_pos finished, if_neg (Int.not_lt.mpr finished)]
        rfl
      · rw [if_neg finished, if_pos (Int.not_le.mp finished), require,
          if_pos (by unfold maxBindCount at *; omega)]
        change Refines (checkedBinding vbList progress.vbList progress.len >>= _) _
        have binding := checkedBinding_refines short (Int.not_le.mp finished) left
        cases parsed : parseBinding vbList progress.vbList progress.len with
        | none =>
            rw [parsed] at binding
            rw [show checkedBinding vbList progress.vbList progress.len = _ from binding]
            rfl
        | some found =>
            obtain ⟨vbLen, oid⟩ := found
            rw [parsed] at binding
            rw [show checkedBinding vbList progress.vbList progress.len = _ from binding]
            obtain ⟨rfl, -, inside, -⟩ := parseBinding_some parsed (by omega)
            obtain ⟨found, searched⟩ := checkedSearch_ok agent (stack bindCount.toNat) header.type
              (show progress.vbList + 4 + oid.length ≤ vbList.length by omega)
            have next : (bindCount + 1).toNat = bindCount.toNat + 1 := by
              unfold maxBindCount at counted
              rw [UInt8.toNat_add, UInt8.toNat_one]
              omega
            have position : maxBindCount - budget = bindCount.toNat := by omega
            change Refines (readAt _ _ _ >>= fun _ => checkedSearch _ _ _ _ _ _ >>= _) _
            refine Refines.readAt typeInside ?_
            rw [searched]
            change Refines _ (processBindings agent stack header vbList budget
              (answerBinding agent (stack (maxBindCount - budget)) header _ oid progress))
            rw [position]
            apply ih
            · omega
            · simp only [answerBinding]
              omega

/-- The checked parser gives the answers of the agent, with any number of rounds from five on. -/
theorem checkedNetMain_refines (agent : Agent) (stack : Nat → Varbinding) (packet : Memory)
    (uipLen : UInt16) (further : Nat) :
    Refines (checkedNetMain agent stack packet uipLen (further + 5))
      (snmpNetMain agent stack packet uipLen.toNat) := by
  unfold checkedNetMain snmpNetMain
  refine Refines.bind (checkedHeader_refines agent.community packet uipLen) fun header parsed => ?_
  obtain ⟨csLen, idLen, places⟩ := parseHeader_some parsed
  have total := places.total
  have vbListHdr := places.vbListHdr
  have limit := places.limit
  have listLength := length_readBlock packet (header.vbListHdr + 2) header.vbListLen
  refine Refines.readRange (by omega) ?_
  refine Refines.bind ?_ fun progress answered => ?_
  · refine checkedLoop_refines (by omega) (by omega) ?_ ?_ further
    · rfl
    · rw [listLength]
      simp only
      omega
  · refine Refines.readAt (by omega) ?_
    refine Refines.readAt (by omega) ?_
    refine Refines.readAt (by omega) ?_
    exact Refines.pure _

/-- Whatever the packet, no read is outside the packet or the copied list, the bytes left begin at
the read pointer, and five rounds of the loop are enough: the checked parser only rejects, and
answers as the agent does. -/
theorem checkedNetMain_sound (agent : Agent) (stack : Nat → Varbinding) (packet : Memory)
    (uipLen : UInt16) (further : Nat) :
    (∀ stop, checkedNetMain agent stack packet uipLen (further + 5) = .error stop →
      stop = .rejected) ∧
    ∀ response, checkedNetMain agent stack packet uipLen (further + 5) = .ok response ↔
      snmpNetMain agent stack packet uipLen.toNat = some response := by
  have refines := checkedNetMain_refines agent stack packet uipLen further
  exact ⟨fun stop stopped => refines.stop stopped, fun response => refines.ok_iff⟩

end Ethersex.Snmp

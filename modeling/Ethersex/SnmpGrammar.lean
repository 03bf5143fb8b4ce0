import Ethersex.SnmpEncoding

/-!
# The grammar of SNMP requests

The checks of `snmp_net_main` one after the other accept exactly the packets of a grammar.  The
grammar is stated by the bytes of a request, and the community string separately: the agent
compares the octets of the packet with the program memory from the start of the configured string
on, and then looks for a zero byte behind them.
-/

namespace Ethersex.Snmp

open ByteMemory

variable {community packet : Memory} {uipLen : Nat}

/-- The parts of a request; the list of bindings is any sequence of bytes. -/
structure Request where
  community : List UInt8
  type : UInt8
  id : List UInt8
  errorStatus : UInt8
  errorIndex : UInt8
  list : List UInt8

def Request.content (request : Request) : List UInt8 :=
  [typeInteger, 1, 0] ++ tlv typeString request.community ++
    tlv request.type (tlv typeInteger request.id ++ [typeInteger, 1, request.errorStatus] ++
      [typeInteger, 1, request.errorIndex] ++ tlv typeSequence request.list)

def Request.bytes (request : Request) : List UInt8 :=
  tlv typeSequence request.content

/-- Where the parts of a request are in the packet. -/
def Request.header (request : Request) : Header where
  type := request.type
  reqType := 7 + request.community.length
  err := 13 + request.community.length + request.id.length
  vbListHdr := 17 + request.community.length + request.id.length
  vbListLen := request.list.length

/-- The program memory holds these octets and a zero byte behind them. -/
def Matches (community : Memory) (octets : List UInt8) : Prop :=
  readBlock community 0 octets.length = octets ∧ community octets.length = 0

/-- A packet is the request, one-byte lengths suffice, and the community octets match. -/
structure Asks (community packet : Memory) (uipLen : Nat) (request : Request) : Prop where
  bytes : readBlock packet 0 uipLen = request.bytes
  short : request.content.length < 256
  type : request.type = typeGetReq ∨ request.type = typeGetNextReq
  list : request.list.length ≤ maxOidBuffersize
  community : Matches community request.community

section Bytes

variable (request : Request)

theorem Request.content_length :
    request.content.length =
      17 + request.community.length + request.id.length + request.list.length := by
  simp only [Request.content, tlv, List.length_append, List.length_cons, List.length_nil]
  omega

theorem Request.bytes_length :
    request.bytes.length =
      19 + request.community.length + request.id.length + request.list.length := by
  rw [Request.bytes, tlv, List.length_append, request.content_length]
  simp only [List.length_cons, List.length_nil]
  omega

/-- The bytes of a request as pieces of fixed length between the community, the id and the list. -/
theorem Request.bytes_eq :
    request.bytes =
      [typeSequence, UInt8.ofNat request.content.length, typeInteger, 1, 0, typeString,
        UInt8.ofNat request.community.length] ++ (request.community ++
      ([request.type, UInt8.ofNat (request.id.length + 10 + request.list.length), typeInteger,
        UInt8.ofNat request.id.length] ++ (request.id ++
      ([typeInteger, 1, request.errorStatus, typeInteger, 1, request.errorIndex, typeSequence,
        UInt8.ofNat request.list.length] ++ request.list)))) := by
  have pdu : (tlv typeInteger request.id ++ [typeInteger, 1, request.errorStatus] ++
      [typeInteger, 1, request.errorIndex] ++ tlv typeSequence request.list).length =
      request.id.length + 10 + request.list.length := by
    simp only [tlv, List.length_append, List.length_cons, List.length_nil]
    omega
  rw [Request.bytes, tlv]
  conv_lhs => rw [Request.content, tlv.eq_def request.type, pdu]
  simp [tlv, Request.content]

end Bytes

/-- The pieces of a request in a packet. -/
structure Pieces (packet : Memory) (request : Request) : Prop where
  front : readBlock packet 0 7 = [typeSequence, UInt8.ofNat request.content.length, typeInteger, 1,
    0, typeString, UInt8.ofNat request.community.length]
  community : readBlock packet 7 request.community.length = request.community
  pdu : readBlock packet (7 + request.community.length) 4 = [request.type,
    UInt8.ofNat (request.id.length + 10 + request.list.length), typeInteger,
    UInt8.ofNat request.id.length]
  id : readBlock packet (7 + request.community.length + 4) request.id.length = request.id
  errors : readBlock packet (7 + request.community.length + 4 + request.id.length) 8 =
    [typeInteger, 1, request.errorStatus, typeInteger, 1, request.errorIndex, typeSequence,
      UInt8.ofNat request.list.length]
  list : readBlock packet (7 + request.community.length + 4 + request.id.length + 8)
    request.list.length = request.list

theorem pieces_iff {packet : Memory} {request : Request} :
    readBlock packet 0 request.bytes.length = request.bytes ↔ Pieces packet request := by
  rw [request.bytes_eq, readBlock_append_iff, readBlock_append_iff, readBlock_append_iff,
    readBlock_append_iff, readBlock_append_iff, Nat.zero_add]
  constructor
  · rintro ⟨front, community, pdu, id, errors, list⟩
    exact ⟨front, community, pdu, id, errors, list⟩
  · rintro ⟨front, community, pdu, id, errors, list⟩
    exact ⟨front, community, pdu, id, errors, list⟩

/-- The remaining checks of the header. -/
theorem parseHeader_checks {header : Header}
    (parsed : parseHeader community packet uipLen = some header) :
    header.type = packet header.reqType ∧
      (packet header.reqType = typeGetReq ∨ packet header.reqType = typeGetNextReq) ∧
      readBlock community 0 (packet 6).toNat = readBlock packet 7 (packet 6).toNat ∧
      community (packet 6).toNat = 0 := by
  simp only [parseHeader, Option.bind_eq_bind, Option.bind_eq_some_iff, Option.guard_eq_some',
    exists_const, Option.pure_def, Option.some.injEq] at parsed
  obtain ⟨-, -, -, -, -, same, terminated, ⟨-, type⟩, -, -, -, -, -, -, -, rfl⟩ := parsed
  exact ⟨rfl, type, same, terminated⟩

theorem ofNat_of_toNat {byte : UInt8} {number : Nat} (same : byte.toNat = number) :
    byte = UInt8.ofNat number := by
  rw [← same, UInt8.ofNat_toNat]

/-- The request in a packet, from the places of its header. -/
def requestAt (packet : Memory) (header : Header) (csLen idLen : Nat) : Request where
  community := readBlock packet 7 csLen
  type := packet header.reqType
  id := readBlock packet (header.reqType + 4) idLen
  errorStatus := packet header.err
  errorIndex := packet (header.err + 3)
  list := readBlock packet (header.vbListHdr + 2) header.vbListLen

theorem ParsedHeader.pieces {packet : Memory} {csLen idLen : Nat} {header : Header}
    (parsed : ParsedHeader packet uipLen header csLen idLen) :
    Pieces packet (requestAt packet header csLen idLen) := by
  obtain ⟨total, reqType, err, vbListHdr, limit, outer, pdu, listByte, front, id, errors⟩ := parsed
  have communityLength : (requestAt packet header csLen idLen).community.length = csLen :=
    length_readBlock _ _ _
  have idLength : (requestAt packet header csLen idLen).id.length = idLen := length_readBlock _ _ _
  have listLength : (requestAt packet header csLen idLen).list.length = header.vbListLen :=
    length_readBlock _ _ _
  constructor
  · rw [front, communityLength]
    congr 2
    apply ofNat_of_toNat
    rw [Request.content_length, communityLength, idLength, listLength]
    omega
  · rw [communityLength]
    rfl
  · rw [communityLength, ← reqType, show (4 : Nat) = 2 + 1 + 1 from rfl, readBlock_succ,
      readBlock_succ,
      id, idLength, listLength]
    congr 2
    apply ofNat_of_toNat
    omega
  · rw [communityLength, idLength, ← reqType]
    rfl
  · have last : readBlock packet (header.reqType + 4 + idLen + 7) 1 =
        [UInt8.ofNat header.vbListLen] := by
      rw [show header.reqType + 4 + idLen + 7 = header.vbListHdr + 1 by omega, readBlock_succ,
        readBlock_zero, ofNat_of_toNat listByte]
    rw [communityLength, idLength, listLength, ← reqType, show (8 : Nat) = 7 + 1 from rfl,
      readBlock_append, errors, last]
    rfl
  · rw [communityLength, idLength, listLength, ← reqType,
      show header.reqType + 4 + idLen + 8 = header.vbListHdr + 2 by omega]
    rfl

/-- A packet that passes the checks is a request. -/
theorem asks_of_parseHeader {header : Header}
    (parsed : parseHeader community packet uipLen = some header) :
    ∃ request, Asks community packet uipLen request ∧ header = request.header := by
  obtain ⟨type, isRequest, same, terminated⟩ := parseHeader_checks parsed
  obtain ⟨csLen, idLen, places⟩ := parseHeader_some parsed
  have pieces := places.pieces
  obtain ⟨total, reqType, err, vbListHdr, limit, outer, -, -, front, -⟩ := places
  have outerBound := (packet 1).toNat_lt
  have communityByte : packet 6 = UInt8.ofNat csLen := by
    calc
      packet 6 = (readBlock packet 0 7).getD 6 0 := by
        rw [getD_readBlock (show 6 < 7 by decide)]
      _ = UInt8.ofNat csLen := by
        rw [front]
        rfl
  have communityLength : (packet 6).toNat = csLen := by
    rw [communityByte, UInt8.toNat_ofNat']
    omega
  have contentLength : (requestAt packet header csLen idLen).content.length + 2 = uipLen := by
    rw [Request.content_length]
    simp only [requestAt, length_readBlock]
    omega
  rw [communityLength] at same terminated
  refine ⟨requestAt packet header csLen idLen, ⟨?_, by omega, isRequest, ?_, ?_, ?_⟩, ?_⟩
  · rw [← contentLength]
    have length : (requestAt packet header csLen idLen).bytes.length =
        (requestAt packet header csLen idLen).content.length + 2 := by
      rw [Request.bytes, tlv, List.length_append, Nat.add_comm]
      rfl
    rw [← length]
    exact pieces_iff.mpr pieces
  · rw [requestAt, length_readBlock]
    exact limit
  · rw [requestAt, length_readBlock]
    exact same
  · rw [requestAt, length_readBlock]
    exact terminated
  · simp only [Request.header, requestAt, length_readBlock]
    cases header
    simp only [Header.mk.injEq] at *
    exact ⟨type, reqType, by omega, by omega, trivial⟩

theorem Asks.length {request : Request}
    (asks : Asks community packet uipLen request) : request.bytes.length = uipLen := by
  rw [← asks.bytes, length_readBlock]

theorem Asks.pieces {request : Request}
    (asks : Asks community packet uipLen request) : Pieces packet request := by
  apply pieces_iff.mp
  rw [asks.length, asks.bytes]

/-- A request passes the checks. -/
theorem Asks.parseHeader {request : Request} (asks : Asks community packet uipLen request) :
    parseHeader community packet uipLen = some request.header := by
  have short := asks.short
  have limit := asks.list
  have bytesLength := request.bytes_length
  have whole := asks.length
  have contentLength := request.content_length
  have pieces := asks.pieces
  have front := pieces.front
  have pdu := pieces.pdu
  have errors := pieces.errors
  simp only [readBlock_succ, readBlock_zero, List.cons.injEq, and_true] at front pdu errors
  obtain ⟨sequence, outer, version, one, zero, string, csByte⟩ := front
  obtain ⟨type, pduByte, idType, idByte⟩ := pdu
  obtain ⟨errType, errOne, err, indexType, indexOne, index, listType, listByte⟩ := errors
  have toNat_of {byte : UInt8} {number : Nat} (same : byte = UInt8.ofNat number)
      (small : number < 256) : byte.toNat = number := by
    rw [same, UInt8.toNat_ofNat', Nat.mod_eq_of_lt small]
  have outerLen := toNat_of outer (by omega)
  have csLen := toNat_of csByte (by omega)
  have pduLen := toNat_of pduByte (by omega)
  have idLen : (packet (7 + request.community.length + 3)).toNat = request.id.length :=
    toNat_of idByte (by omega)
  have listLen : (packet (7 + request.community.length + 4 + request.id.length + 7)).toNat =
      request.list.length := toNat_of listByte (by omega)
  have octets : readBlock community 0 request.community.length =
      readBlock packet 7 request.community.length :=
    asks.community.1.trans pieces.community.symm
  have isRequest := asks.type
  rw [← type] at isRequest
  simp only [Nat.zero_add] at outerLen csLen
  simp only [Snmp.parseHeader, Option.bind_eq_bind, Option.bind_eq_some_iff, Option.guard_eq_some',
    exists_const, Option.pure_def, Option.some.injEq, csLen, idLen, listLen, pduLen, outerLen]
  refine ⟨⟨by omega, sequence⟩, by omega, ⟨by omega, version, one, zero⟩, ⟨by omega, string⟩,
    by omega, octets, asks.community.2, ⟨by omega, isRequest⟩, by omega, ⟨by omega, idType⟩,
    by omega, ⟨by omega, errType, errOne⟩, ⟨by omega, indexType, indexOne⟩, ⟨by omega, listType⟩,
    ⟨by omega, limit⟩, ?_⟩
  simp only [Request.header, type, Header.mk.injEq]
  exact ⟨trivial, trivial, by omega, by omega, trivial⟩

/-- A packet is one request only. -/
theorem Asks.unique {first second : Request} (asksFirst : Asks community packet uipLen first)
    (asksSecond : Asks community packet uipLen second) : first = second := by
  have same := Option.some.inj (asksFirst.parseHeader.symm.trans asksSecond.parseHeader)
  simp only [Request.header, Header.mk.injEq] at same
  obtain ⟨type, reqType, err, -, listLength⟩ := same
  have communityLength : first.community.length = second.community.length :=
    Nat.add_left_cancel reqType
  have idLength : first.id.length = second.id.length := by omega
  have piecesFirst := asksFirst.pieces
  have piecesSecond := asksSecond.pieces
  have community : first.community = second.community := by
    rw [← piecesFirst.community, ← piecesSecond.community, communityLength]
  have id : first.id = second.id := by
    rw [← piecesFirst.id, ← piecesSecond.id, communityLength, idLength]
  have list : first.list = second.list := by
    rw [← piecesFirst.list, ← piecesSecond.list, communityLength, idLength, listLength]
  have errors := piecesFirst.errors
  rw [communityLength, idLength, piecesSecond.errors] at errors
  simp only [List.cons.injEq] at errors
  cases first
  cases second
  simp only [Request.mk.injEq]
  exact ⟨community, type, id, errors.2.2.1.symm, errors.2.2.2.2.2.1.symm, list⟩

/-- The length of a binding is a single byte. -/
def ShortOid (oid : List UInt8) : Prop :=
  oid.length + 4 < 256

/-- A well-formed binding in the list passes its checks. -/
theorem parseBinding_of_drop {vbList oid rest : List UInt8} {position : Nat}
    (split : vbList.drop position = requestBinding oid ++ rest) (short : ShortOid oid) :
    parseBinding vbList position (vbList.length - position) = some (oid.length + 4, oid) := by
  unfold ShortOid at short
  have length := congrArg List.length split
  simp only [List.length_drop, List.length_append, requestBinding, List.length_cons,
    List.length_nil] at length
  have byteAt (index : Nat) :
      vbList.getD (position + index) 0 = (requestBinding oid ++ rest).getD index 0 := by
    rw [← split]
    simp [List.getD_eq_getElem?_getD, List.getElem?_drop]
  have sequence : vbList.getD position 0 = typeSequence := byteAt 0
  have vbLen : (vbList.getD (position + 1) 0).toNat = oid.length + 4 := by
    rw [byteAt 1]
    exact Nat.mod_eq_of_lt short
  have oidType : vbList.getD (position + 2) 0 = typeOid := byteAt 2
  have oidLen : (vbList.getD (position + 3) 0).toNat = oid.length := by
    rw [byteAt 3]
    exact Nat.mod_eq_of_lt (by omega)
  have behind (index : Nat) : vbList.getD (position + (4 + oid.length + index)) 0 =
      (typeNull :: 0 :: rest).getD index 0 := by
    rw [byteAt, requestBinding, List.append_assoc, List.getD_append_right _ _ _ _ (by simp; omega)]
    congr 1
    simp only [List.length_append, List.length_cons, List.length_nil]
    omega
  have null : vbList.getD (position + 4 + oid.length) 0 = typeNull := by
    rw [Nat.add_assoc]
    exact behind 0
  have zero : vbList.getD (position + 5 + oid.length) 0 = 0 := by
    rw [show position + 5 + oid.length = position + (4 + oid.length + 1) by omega]
    exact behind 1
  have found : (vbList.drop (position + 4)).take oid.length = oid := by
    rw [← List.drop_drop, split, requestBinding]
    simp
  simp only [parseBinding, Option.bind_eq_bind, Option.bind_eq_some_iff, Option.guard_eq_some',
    exists_const, Option.pure_def, Option.some.injEq, Prod.mk.injEq, vbLen, oidLen]
  exact ⟨⟨by omega, sequence⟩, by omega, ⟨by omega, oidType⟩, by omega, ⟨by omega, null, zero⟩,
    trivial, found⟩

/-- The loop answers a list of well-formed bindings that is not too long. -/
theorem processBindings_of_oids {agent : Agent} {stack : Nat → Varbinding} {header : Header}
    {vbList : List UInt8} {budget : Nat} {oids : List (List UInt8)} {progress : Progress}
    (consistent : progress.len = vbList.length - progress.vbList)
    (within : progress.vbList ≤ vbList.length)
    (split : vbList.drop progress.vbList = oids.flatMap requestBinding)
    (short : ∀ oid ∈ oids, ShortOid oid) (few : oids.length ≤ budget) :
    (processBindings agent stack header vbList budget progress).isSome := by
  induction oids generalizing budget progress with
  | nil =>
      rw [List.flatMap_nil, List.drop_eq_nil_iff] at split
      have finished : progress.len ≤ 0 := by omega
      unfold processBindings
      rw [if_pos finished]
      rfl
  | cons oid oids ih =>
      rw [List.flatMap_cons] at split
      have length := congrArg List.length split
      simp only [List.length_drop, List.length_append, requestBinding, List.length_cons,
        List.length_nil] at length
      have unfinished : ¬ progress.len ≤ 0 := by omega
      have parsed := parseBinding_of_drop split (short oid List.mem_cons_self)
      cases budget with
      | zero => exact absurd few (by simp)
      | succ budget =>
          rw [processBindings, if_neg unfinished]
          simp only [consistent, parsed]
          apply ih
          · simp only [answerBinding]
            omega
          · simp only [answerBinding]
            omega
          · simp only [answerBinding]
            rw [Nat.add_assoc, ← List.drop_drop, split]
            apply List.drop_left'
            simp only [requestBinding, List.length_append, List.length_cons, List.length_nil]
            omega
          · exact fun other member => short other (List.mem_cons_of_mem oid member)
          · exact Nat.le_of_succ_le_succ few

/-- In a list that is short enough every binding is short. -/
theorem shortOid_of_list {oids : List (List UInt8)}
    (limit : (oids.flatMap requestBinding).length ≤ maxOidBuffersize) {oid : List UInt8}
    (member : oid ∈ oids) : ShortOid oid := by
  obtain ⟨before, after, rfl⟩ := List.append_of_mem member
  simp only [List.flatMap_append, List.flatMap_cons, List.length_append, requestBinding,
    List.length_cons, List.length_nil, maxOidBuffersize] at limit
  unfold ShortOid
  omega

/-- Lists of bindings are the same only if their bindings are. -/
theorem oids_unique {first second : List (List UInt8)}
    (same : first.flatMap requestBinding = second.flatMap requestBinding)
    (shortFirst : ∀ oid ∈ first, ShortOid oid) (shortSecond : ∀ oid ∈ second, ShortOid oid) :
    first = second := by
  induction first generalizing second with
  | nil =>
      cases second with
      | nil => rfl
      | cons oid second => cases same
  | cons oid first ih =>
      cases second with
      | nil => cases same
      | cons other second =>
          have short := shortFirst oid List.mem_cons_self
          have shortOther := shortSecond other List.mem_cons_self
          simp only [List.flatMap_cons, requestBinding, List.append_assoc, List.cons_append,
            List.nil_append, List.cons.injEq, true_and] at same
          obtain ⟨-, lengthByte, rest⟩ := same
          have length : oid.length = other.length := by
            have number := congrArg UInt8.toNat lengthByte
            rw [UInt8.toNat_ofNat', UInt8.toNat_ofNat'] at number
            unfold ShortOid at short shortOther
            omega
          obtain ⟨rfl, tail⟩ := List.append_inj rest length
          have tails : first.flatMap requestBinding = second.flatMap requestBinding := by
            simpa using tail
          rw [ih tails (fun oid member => shortFirst oid (List.mem_cons_of_mem _ member))
            fun oid member => shortSecond oid (List.mem_cons_of_mem _ member)]

/-- The packet is a request for these objects. -/
structure AsksFor (community packet : Memory) (uipLen : Nat) (request : Request)
    (oids : List (List UInt8)) : Prop where
  asks : Asks community packet uipLen request
  list : request.list = oids.flatMap requestBinding

theorem AsksFor.short {request : Request}
    {oids : List (List UInt8)} (asksFor : AsksFor community packet uipLen request oids) :
    ∀ oid ∈ oids, ShortOid oid := by
  intro oid member
  apply shortOid_of_list _ member
  rw [← asksFor.list]
  exact asksFor.asks.list

theorem AsksFor.unique {first second : Request}
    {oids others : List (List UInt8)} (asksFirst : AsksFor community packet uipLen first oids)
    (asksSecond : AsksFor community packet uipLen second others) :
    first = second ∧ oids = others := by
  have same := asksFirst.asks.unique asksSecond.asks
  have lists := asksFirst.list
  rw [same, asksSecond.list] at lists
  exact ⟨same, oids_unique lists.symm asksFirst.short asksSecond.short⟩

/-- The list of bindings in the packet. -/
theorem Asks.vbList {request : Request} (asks : Asks community packet uipLen request) :
    readBlock packet (request.header.vbListHdr + 2) request.header.vbListLen = request.list := by
  have list := asks.pieces.list
  simp only [Request.header]
  rw [show 17 + request.community.length + request.id.length + 2 =
    7 + request.community.length + 4 + request.id.length + 8 by omega]
  exact list

/-- The packets that are answered. -/
theorem snmpNetMain_isSome_iff {agent : Agent} {stack : Nat → Varbinding} {packet : Memory} :
    (snmpNetMain agent stack packet uipLen).isSome ↔
      ∃ request oids, AsksFor agent.community packet uipLen request oids ∧
        oids.length ≤ maxBindCount + 1 := by
  constructor
  · intro sent
    obtain ⟨⟨after, slen⟩, sent⟩ := Option.isSome_iff_exists.mp sent
    simp only [snmpNetMain, Option.bind_eq_bind, Option.bind_eq_some_iff, Option.pure_def,
      Option.some.injEq] at sent
    obtain ⟨header, parsed, final, ran, -⟩ := sent
    obtain ⟨request, asks, rfl⟩ := asks_of_parseHeader parsed
    obtain ⟨oids, list, count, -, -⟩ := processBindings_some ran (by simp) (Nat.zero_le _) le_rfl
    rw [asks.vbList, List.drop_zero] at list
    exact ⟨request, oids, ⟨asks, list⟩, count⟩
  · rintro ⟨request, oids, asksFor, count⟩
    have ran := @processBindings_of_oids agent stack request.header request.list (maxBindCount + 1)
      oids ⟨0, request.header.vbListLen, request.header.vbListHdr + 2,
        writeBlock packet request.header.err [0], 0⟩ (by simp [Request.header]) (Nat.zero_le _)
      asksFor.list asksFor.short count
    obtain ⟨final, ran⟩ := Option.isSome_iff_exists.mp ran
    simp only [snmpNetMain, asksFor.asks.parseHeader, asksFor.asks.vbList, Option.bind_eq_bind,
      Option.bind_some, ran]
    rfl

/-- The configured string in program memory has this length. -/
def Configured (community : Memory) (length : Nat) : Prop :=
  (∀ index < length, community index ≠ 0) ∧ community length = 0

theorem Configured.matches {community : Memory} {length : Nat}
    (configured : Configured community length) :
    Matches community (readBlock community 0 length) := by
  rw [Matches, length_readBlock]
  exact ⟨rfl, configured.2⟩

theorem Configured.not_mem {community : Memory} {length : Nat}
    (configured : Configured community length) : 0 ∉ readBlock community 0 length := by
  intro member
  obtain ⟨index, inside, zero⟩ := List.mem_map.mp member
  rw [Nat.zero_add] at zero
  exact configured.1 index (List.mem_range.mp inside) zero

/-- Octets that match have at least the length of the configured string. -/
theorem Matches.le_length {community : Memory} {length : Nat} {octets : List UInt8}
    (found : Matches community octets) (configured : Configured community length) :
    length ≤ octets.length := by
  by_contra shorter
  exact configured.1 octets.length (Nat.not_le.mp shorter) found.2

/-- Octets that match are the configured string unless there is a zero among them. -/
theorem Matches.eq_configured {community : Memory} {length : Nat} {octets : List UInt8}
    (found : Matches community octets) (configured : Configured community length)
    (nonzero : 0 ∉ octets) : octets = readBlock community 0 length := by
  have enough := found.le_length configured
  rcases Nat.lt_or_eq_of_le enough with longer | same
  · refine absurd ?_ nonzero
    rw [← found.1, ← configured.2]
    exact List.mem_map.mpr ⟨length, List.mem_range.mpr longer, by rw [Nat.zero_add]⟩
  · rw [same, found.1]

/-- A packet is a request for these objects with the configured community string: nested elements
with one-byte lengths, a type that is known, and limits for the bindings. -/
structure InGrammar (configured : List UInt8) (packet : Memory) (uipLen : Nat) (request : Request)
    (oids : List (List UInt8)) : Prop where
  bytes : readBlock packet 0 uipLen = request.bytes
  short : request.content.length < 256
  type : request.type = typeGetReq ∨ request.type = typeGetNextReq
  community : request.community = configured
  list : request.list = oids.flatMap requestBinding
  listLength : request.list.length ≤ maxOidBuffersize
  few : oids.length ≤ maxBindCount

theorem InGrammar.asksFor {length : Nat} {request : Request}
    {oids : List (List UInt8)} (configured : Configured community length)
    (inGrammar : InGrammar (readBlock community 0 length) packet uipLen request oids) :
    AsksFor community packet uipLen request oids where
  asks :=
    { bytes := inGrammar.bytes
      short := inGrammar.short
      type := inGrammar.type
      list := inGrammar.listLength
      community := by
        rw [inGrammar.community]
        exact configured.matches }
  list := inGrammar.list

/-- The response is sent exactly for the packets of the grammar, except for requests with one
binding more than the limit and for community octets with a zero byte that agree with the program
memory up to a zero byte there. -/
theorem responds_right_iff (agent : Agent) (stack : Nat → Varbinding) (packet : Memory)
    (uipLen : Nat) {length : Nat} (configured : Configured agent.community length) :
    ((snmpNetMain agent stack packet uipLen).isSome ↔
        ∃ request oids,
          InGrammar (readBlock agent.community 0 length) packet uipLen request oids) ↔
      ∀ request oids, AsksFor agent.community packet uipLen request oids →
        oids.length ≠ maxBindCount + 1 ∧ (oids.length ≤ maxBindCount → 0 ∉ request.community) := by
  constructor
  · intro right request oids asksFor
    constructor
    · intro tooMany
      obtain ⟨other, others, inGrammar⟩ :=
        right.mp (snmpNetMain_isSome_iff.mpr ⟨request, oids, asksFor, Nat.le_of_eq tooMany⟩)
      obtain ⟨-, same⟩ := asksFor.unique (inGrammar.asksFor configured)
      have few := inGrammar.few
      rw [← same, tooMany] at few
      exact Nat.lt_irrefl _ few
    · intro few
      obtain ⟨other, others, inGrammar⟩ :=
        right.mp (snmpNetMain_isSome_iff.mpr ⟨request, oids, asksFor, Nat.le_succ_of_le few⟩)
      obtain ⟨same, -⟩ := asksFor.unique (inGrammar.asksFor configured)
      rw [same, inGrammar.community]
      exact configured.not_mem
  · intro regular
    rw [snmpNetMain_isSome_iff]
    constructor
    · rintro ⟨request, oids, asksFor, count⟩
      obtain ⟨notTooMany, nonzero⟩ := regular request oids asksFor
      have few : oids.length ≤ maxBindCount :=
        Nat.le_of_lt_succ (Nat.lt_of_le_of_ne count notTooMany)
      exact ⟨request, oids, asksFor.asks.bytes, asksFor.asks.short, asksFor.asks.type,
        asksFor.asks.community.eq_configured configured (nonzero few), asksFor.list,
        asksFor.asks.list, few⟩
    · rintro ⟨request, oids, inGrammar⟩
      exact ⟨request, oids, inGrammar.asksFor configured, Nat.le_succ_of_le inGrammar.few⟩

/-- A packet with the bytes of a request. -/
def requestPacket (request : Request) : Memory :=
  fun position => request.bytes.getD position 0

theorem readBlock_requestPacket (request : Request) :
    readBlock (requestPacket request) 0 request.bytes.length = request.bytes := by
  have whole := readBlock_getD request.bytes (Nat.le_of_eq (Nat.zero_add request.bytes.length))
  rw [List.drop_zero, List.take_length] at whole
  exact whole

/-- The string `public`, with erased program memory behind it. -/
def publicMemory : Memory :=
  fun position => [0x70, 0x75, 0x62, 0x6c, 0x69, 0x63, 0].getD position 0xff

theorem configured_public : Configured publicMemory 6 := by
  unfold Configured
  decide

theorem configured_textAgent (description : List UInt8) :
    Configured (textAgent description).community 6 :=
  configured_public

/-- The request for the description is answered right. -/
theorem responds_right_description :
    ((snmpNetMain (textAgent [0x65]) clearStack descriptionRequest 39).isSome ↔
        ∃ request oids, InGrammar (readBlock (textAgent [0x65]).community 0 6) descriptionRequest 39
          request oids) ↔
      ∀ request oids, AsksFor (textAgent [0x65]).community descriptionRequest 39 request oids →
        oids.length ≠ maxBindCount + 1 ∧ (oids.length ≤ maxBindCount → 0 ∉ request.community) :=
  responds_right_iff (textAgent [0x65]) clearStack descriptionRequest 39
    (configured_textAgent [0x65])

/-- A request with four bindings, each with an empty object identifier. -/
def fourBindings : Request where
  community := [0x70, 0x75, 0x62, 0x6c, 0x69, 0x63]
  type := typeGetReq
  id := [42]
  errorStatus := 0
  errorIndex := 0
  list := (List.replicate 4 []).flatMap requestBinding

/-- A request with four bindings is answered. -/
theorem four_bindings_answered :
    ¬ ∀ (agent : Agent) (stack : Nat → Varbinding) (packet : Memory) (uipLen length : Nat),
        Configured agent.community length →
          ((snmpNetMain agent stack packet uipLen).isSome ↔
            ∃ request oids,
              InGrammar (readBlock agent.community 0 length) packet uipLen request oids) := by
  intro claimed
  have asksFor : AsksFor (textAgent []).community (requestPacket fourBindings)
      fourBindings.bytes.length fourBindings (List.replicate 4 []) :=
    ⟨⟨readBlock_requestPacket fourBindings, by decide, Or.inl rfl, by decide, rfl, rfl⟩, rfl⟩
  have right := claimed (textAgent []) clearStack (requestPacket fourBindings)
    fourBindings.bytes.length 6 (configured_textAgent [])
  obtain ⟨request, oids, inGrammar⟩ :=
    right.mp (snmpNetMain_isSome_iff.mpr ⟨fourBindings, List.replicate 4 [], asksFor, by decide⟩)
  obtain ⟨-, same⟩ := asksFor.unique (inGrammar.asksFor (configured_textAgent []))
  have few := inGrammar.few
  rw [← same] at few
  exact absurd few (by decide)

end Ethersex.Snmp

import Ethersex.SnmpReactions

/-!
# The encoding of SNMP responses

A response is well encoded when every length byte is the number of the bytes behind it and
`uip_slen` is the length of the whole message.  The size of the answers is
computed from the table of reactions, without the packet.
-/

namespace Ethersex.Snmp

open ByteMemory

/-- A type, one length byte and the content. -/
def tlv (type : UInt8) (content : List UInt8) : List UInt8 :=
  [type, UInt8.ofNat content.length] ++ content

/-- A binding of a response. -/
def bindingBytes (binding : List UInt8 × List UInt8) : List UInt8 :=
  tlv typeSequence (tlv typeOid binding.1 ++ binding.2)

/-- The content of a message behind its outer length byte. -/
def messageContent (community id : List UInt8) (err errIndex : UInt8)
    (bindings : List (List UInt8 × List UInt8)) : List UInt8 :=
  [typeInteger, 1, 0] ++ tlv typeString community ++
    tlv typeGetResp (tlv typeInteger id ++ [typeInteger, 1, err] ++ [typeInteger, 1, errIndex] ++
      tlv typeSequence (bindings.flatMap bindingBytes))

/-- A binding of a request. -/
def requestBinding (oid : List UInt8) : List UInt8 :=
  [typeSequence, UInt8.ofNat (oid.length + 4), typeOid, UInt8.ofNat oid.length] ++ oid ++
    [typeNull, 0]

/-- The sub-identifier after the one in the binding. -/
def nextBind (bind : Varbinding) (reaction : Reaction) (reactions : List Reaction) :
    Option (Varbinding × Reaction) :=
  let bind :=
    match reaction.ncb with
    | some ncb => nextVarbinding bind.storeLen (ncb bind.data)
    | none => bind
  if bind.len ≠ 0 then some (bind, reaction)
  else
    match reactions with
    | [] => none
    | next :: _ =>
        let storeLen := UInt8.ofNat next.objName.length
        match next.ncb with
        | some ncb => some (nextVarbinding storeLen (ncb []), next)
        | none => some (⟨storeLen, []⟩, next)

/-- The length of the identifier and the value of the answer to a request, if an object is
found. -/
def selectAnswer (agent : Agent) (stack : Varbinding) (reqType : UInt8) (oid : List UInt8) :
    Option (UInt8 × List UInt8) :=
  let found :=
    if oid = [] ∧ reqType = typeGetNextReq then some (stack, agent.first, agent.more)
    else snmpFindReaction oid (agent.first :: agent.more)
  match found with
  | none => none
  | some (bind, reaction, reactions) =>
      if reqType = typeGetNextReq then
        (nextBind bind reaction reactions).map fun next =>
          (next.1.storeLen + next.1.len, next.2.cb next.1.data)
      else if UInt8.ofNat oid.length < bind.storeLen then none
      else some (UInt8.ofNat oid.length, reaction.cb bind.data)

/-- The answer from the length of the identifier and the value a callback has written.  Without
two bytes of it there is none, nor when the 8-bit size of the binding is zero. -/
def finishAnswer (oidLen : UInt8) (value : List UInt8) : Option (Nat × List UInt8) :=
  if UInt8.ofNat value.length < 2 ∨ 2 + (2 + oidLen + UInt8.ofNat value.length) = 0 then none
  else some (oidLen.toNat, value.take (UInt8.ofNat value.length).toNat)

def bindingAnswer (agent : Agent) (stack : Varbinding) (reqType : UInt8) (oid : List UInt8) :
    Option (Nat × List UInt8) :=
  match selectAnswer agent stack reqType oid with
  | none => none
  | some (oidLen, value) => finishAnswer oidLen value

def answerSize (answer : Nat × List UInt8) : Nat :=
  4 + answer.1 + answer.2.length

/-- The answers to the bindings of a request, from a position of the list on. -/
def answersFrom (agent : Agent) (stack : Nat → Varbinding) (reqType : UInt8) :
    Nat → List (List UInt8) → List (Nat × List UInt8)
  | _, [] => []
  | position, oid :: oids =>
      (bindingAnswer agent (stack position) reqType oid).toList ++
        answersFrom agent stack reqType (position + 1) oids

/-- The community string of a request. -/
def requestCommunity (packet : Memory) (header : Header) : List UInt8 :=
  readBlock packet 7 (header.reqType - 7)

/-- The request id of a request. -/
def requestId (packet : Memory) (header : Header) : List UInt8 :=
  readBlock packet (header.reqType + 4) (header.vbListHdr - header.reqType - 10)

/-- The response is a message with the community and the id of the request and with these
answers, and every length byte is right. -/
def WellEncoded (response community id : List UInt8) (answers : List (Nat × List UInt8)) : Prop :=
  ∃ err errIndex bindings,
    bindings.map (fun binding => (binding.1.length, binding.2)) = answers ∧
    (messageContent community id err errIndex bindings).length < 256 ∧
    response = tlv typeSequence (messageContent community id err errIndex bindings)

/-- The bindings of the response take at most 127 bytes more than those of the request, and the
message fits behind one length byte. -/
def Fits (header : Header) (answers : List (Nat × List UInt8)) : Prop :=
  (answers.map answerSize).sum ≤ header.vbListLen + 127 ∧
    header.vbListHdr + 2 + (answers.map answerSize).sum ≤ 257

theorem snmpNextBind_snd (packet : Memory) (out : Nat) (bind : Varbinding) (reaction : Reaction)
    (reactions : List Reaction) :
    (snmpNextBind packet out bind reaction reactions).2 = nextBind bind reaction reactions := by
  unfold snmpNextBind nextBind
  cases reaction.ncb with
  | some ncb =>
      simp only
      split_ifs
      · rfl
      · cases reactions with
        | nil => rfl
        | cons next reactions => cases h : next.ncb <;> simp [h]
  | none =>
      simp only
      split_ifs
      · rfl
      · cases reactions with
        | nil => rfl
        | cons next reactions => cases h : next.ncb <;> simp [h]

theorem snmpNextBind_below (packet : Memory) (out : Nat) (bind : Varbinding) (reaction : Reaction)
    (reactions : List Reaction) {position : Nat} (below : position < out + 2) :
    (snmpNextBind packet out bind reaction reactions).1 position = packet position := by
  have untouched : ∀ (memory : Memory) (length : Nat) (bytes : List UInt8),
      writeBlock memory (out + 2 + length) bytes position = memory position :=
    fun memory length bytes => writeBlock_outside (Or.inl (by omega))
  unfold snmpNextBind
  cases reaction.ncb with
  | some ncb =>
      simp only
      split_ifs
      · exact untouched _ _ _
      · cases reactions with
        | nil => exact untouched _ _ _
        | cons next reactions => cases h : next.ncb <;> simp [h, untouched]
  | none =>
      simp only
      split_ifs
      · rfl
      · cases reactions with
        | nil => rfl
        | cons next reactions => cases h : next.ncb <;> simp [h, untouched]

/-- What a binding in the packet is, from its answer. -/
structure Answered (packet : Memory) (vb : Nat) (answer : Option (Nat × List UInt8))
    (result : Memory × UInt8) : Prop where
  below : ∀ position < vb, result.1 position = packet position
  unanswered : answer = none → result.2 = 0
  size : ∀ found, answer = some found → result.2 = UInt8.ofNat (answerSize found) ∧ result.2 ≠ 0
  bytes : ∀ found, answer = some found → answerSize found < 256 →
    ∃ name, name.length = found.1 ∧
      readBlock result.1 vb (answerSize found) = bindingBytes (name, found.2)

theorem finishBind_answered (packet : Memory) (vb : Nat) (oidLen : UInt8) (value : List UInt8)
    (sequence : packet vb = typeSequence) (oidType : packet (vb + 2) = typeOid)
    (oidLength : packet (vb + 3) = oidLen) :
    Answered packet vb (finishAnswer oidLen value)
      (finishBind packet vb (vb + 4 + oidLen.toNat) oidLen value) := by
  have retLe : (UInt8.ofNat value.length).toNat ≤ value.length := by
    rw [UInt8.toNat_ofNat']
    exact Nat.mod_le _ _
  unfold finishBind finishAnswer
  generalize ret_eq : UInt8.ofNat value.length = ret at *
  by_cases failed : ret < 2
  · simp only [failed, true_or, if_true]
    exact ⟨fun position below => writeBlock_outside (Or.inl (by omega)), fun _ => rfl,
      fun found none => (by cases none), fun found none => (by cases none)⟩
  simp only [failed, false_or, if_false]
  have taken : (value.take ret.toNat).length = ret.toNat := by
    rw [List.length_take]
    omega
  refine ⟨fun position below => ?_, fun none => ?_, fun found answered => ?_,
    fun found answered short => ?_⟩
  · simp only
    rw [writeBlock_outside (Or.inl (by omega)), writeBlock_outside (Or.inl (by omega))]
  · by_contra nonzero
    rw [if_neg nonzero] at none
    cases none
  · split_ifs at answered with zero
    cases answered
    refine ⟨?_, zero⟩
    apply UInt8.toNat_inj.1
    simp only [answerSize, taken, UInt8.toNat_add, UInt8.toNat_ofNat', UInt8.reduceToNat]
    omega
  · split_ifs at answered with zero
    cases answered
    simp only [answerSize, taken] at short ⊢
    have length : 2 + oidLen + ret = UInt8.ofNat (2 + oidLen.toNat + ret.toNat) := by
      apply UInt8.toNat_inj.1
      simp only [UInt8.toNat_add, UInt8.toNat_ofNat', UInt8.reduceToNat]
      omega
    rw [length]
    generalize final_eq : writeBlock (writeBlock packet (vb + 4 + oidLen.toNat) value) (vb + 1)
      [UInt8.ofNat (2 + oidLen.toNat + ret.toNat)] = final
    have header : ∀ position, position < vb + 4 → position ≠ vb + 1 →
        final position = packet position := by
      intro position before other
      rw [← final_eq, writeBlock_outside (by simp only [List.length_singleton]; omega),
        writeBlock_outside (Or.inl (by omega))]
    have lengthByte : final (vb + 1) = UInt8.ofNat (2 + oidLen.toNat + ret.toNat) := by
      rw [← final_eq, writeBlock_inside le_rfl (by simp)]
      simp
    have stored : readBlock final (vb + 4 + oidLen.toNat) ret.toNat = value.take ret.toNat := by
      rw [← final_eq, readBlock_writeBlock_disjoint
        (Or.inr (by simp only [List.length_singleton]; omega)),
        ← take_readBlock retLe, readBlock_writeBlock_same]
    refine ⟨readBlock final (vb + 4) oidLen.toNat, length_readBlock _ _ _, ?_⟩
    rw [show 4 + oidLen.toNat + ret.toNat = (oidLen.toNat + ret.toNat) + 1 + 1 + 1 + 1 by omega,
      readBlock_succ, readBlock_succ, readBlock_succ, readBlock_succ, readBlock_append, lengthByte,
      header vb (by omega) (by omega), header (vb + 1 + 1) (by omega) (by omega),
      header (vb + 1 + 1 + 1) (by omega) (by omega)]
    rw [show vb + 1 + 1 + 1 + 1 = vb + 4 by omega, stored, sequence]
    have contentLength : (tlv typeOid (readBlock final (vb + 4) oidLen.toNat) ++
        value.take ret.toNat).length = 2 + oidLen.toNat + ret.toNat := by
      rw [List.length_append, taken]
      simp [tlv]
      omega
    rw [bindingBytes, tlv, contentLength]
    simp [tlv, oidType, oidLength]

theorem Answered.congr {first second : Memory} {vb : Nat} {answer : Option (Nat × List UInt8)}
    {result : Memory × UInt8} (answered : Answered first vb answer result)
    (same : ∀ position < vb, first position = second position) :
    Answered second vb answer result :=
  ⟨fun position below => (answered.below position below).trans (same position below),
    answered.unanswered, answered.size, answered.bytes⟩

theorem answered_none {packet after : Memory} {vb : Nat}
    (same : ∀ position < vb, after position = packet position) :
    Answered packet vb none (after, 0) :=
  ⟨same, fun _ => rfl, fun found none => (by cases none), fun found none => (by cases none)⟩

/-- The binding in the packet is the answer. -/
theorem snmpProcBind_answered (agent : Agent) (stack : Varbinding) (reqType : UInt8)
    (oid : List UInt8) (packet : Memory) (vb : Nat) :
    Answered packet vb (bindingAnswer agent stack reqType oid)
      (snmpProcBind agent stack reqType oid packet vb) := by
  unfold snmpProcBind bindingAnswer selectAnswer
  generalize (if oid = [] ∧ reqType = typeGetNextReq then some (stack, agent.first, agent.more)
    else snmpFindReaction oid (agent.first :: agent.more)) = found
  rcases found with _ | ⟨bind, reaction, reactions⟩
  · exact answered_none fun position below => rfl
  have started : ∀ position < vb, writeBlock packet vb [typeSequence, 0] position =
      packet position := fun position below => writeBlock_outside (Or.inl below)
  have sequence : writeBlock packet vb [typeSequence, 0] vb = typeSequence := by
    rw [writeBlock_inside le_rfl (by simp)]
    simp
  generalize writeBlock packet vb [typeSequence, 0] = opened at *
  simp only
  by_cases next : reqType = typeGetNextReq
  · simp only [next, if_true]
    have kept : ∀ position < vb + 4,
        (snmpNextBind opened (vb + 2) bind reaction reactions).1 position = opened position :=
      fun position below => snmpNextBind_below opened (vb + 2) bind reaction reactions below
    rw [← snmpNextBind_snd opened (vb + 2)]
    generalize snmpNextBind opened (vb + 2) bind reaction reactions = searched at *
    obtain ⟨after, _ | ⟨bind, reaction⟩⟩ := searched
    · exact answered_none fun position below =>
        (kept position (by omega)).trans (started position below)
    · simp only [Option.map_some]
      refine Answered.congr (finishBind_answered _ vb _ _ ?_ ?_ ?_) fun position below => ?_
      · rw [writeBlock_outside (Or.inl (by omega)), writeBlock_outside (Or.inl (by omega))]
        exact (kept vb (by omega)).trans sequence
      · rw [writeBlock_outside (Or.inl (by omega)), writeBlock_inside le_rfl (by simp)]
        simp
      · rw [writeBlock_outside (Or.inl (by omega)), writeBlock_inside (by omega) (by simp)]
        simp [show vb + 3 - (vb + 2) = 1 by omega]
      · rw [writeBlock_outside (Or.inl (by omega)), writeBlock_outside (Or.inl (by omega))]
        exact (kept position (by omega)).trans (started position below)
  · simp only [next, if_false]
    split_ifs with short
    · exact answered_none started
    · refine Answered.congr (finishBind_answered _ vb _ _ ?_ ?_ ?_) fun position below => ?_
      · rw [writeBlock_outside (Or.inl (by omega))]
        exact sequence
      · rw [writeBlock_inside le_rfl (by simp)]
        simp
      · rw [writeBlock_inside (by omega) (by simp; omega)]
        simp [show vb + 3 - (vb + 2) = 1 by omega]
      · rw [writeBlock_outside (Or.inl (by omega))]
        exact started position below

theorem readBlock_getD (bytes : List UInt8) {start count : Nat}
    (within : start + count ≤ bytes.length) :
    readBlock (fun position => bytes.getD position 0) start count =
      (bytes.drop start).take count := by
  apply List.ext_getElem
  · simp
    omega
  · intro index readBound _
    rw [length_readBlock] at readBound
    have inside : start + index < bytes.length := by omega
    simp [getElem_readBlock, inside]

theorem parseBinding_some {vbList : List UInt8} {position : Nat} {len : Int} {vbLen : Nat}
    {oid : List UInt8} (parsed : parseBinding vbList position len = some (vbLen, oid))
    (consistent : len = vbList.length - position) :
    vbLen = oid.length + 4 ∧ oid.length < 256 ∧ position + 2 + vbLen ≤ vbList.length ∧
      vbList.drop position = requestBinding oid ++ vbList.drop (position + 2 + vbLen) := by
  simp only [parseBinding, Option.bind_eq_bind, Option.bind_eq_some_iff, Option.guard_eq_some',
    exists_const, Option.pure_def, Option.some.injEq, Prod.mk.injEq] at parsed
  obtain ⟨⟨-, sequence⟩, inside, ⟨-, oidType⟩, -, ⟨exact, null, zero⟩, rfl, found⟩ := parsed
  have bound := (vbList.getD (position + 3) 0).toNat_lt
  generalize lengthByte : vbList.getD (position + 1) 0 = vbLen at *
  generalize oidByte : vbList.getD (position + 3) 0 = oidLen at *
  have fitting : vbLen.toNat = oidLen.toNat + 4 := by omega
  have oidLength : oid.length = oidLen.toNat := by
    rw [← found, List.length_take, List.length_drop]
    omega
  refine ⟨by omega, by omega, by omega, ?_⟩
  have whole := readBlock_getD vbList
    (show position + (oidLen.toNat + 2 + 1 + 1 + 1 + 1) ≤ vbList.length by omega)
  have content := readBlock_getD vbList (show position + 4 + oidLen.toNat ≤ vbList.length by omega)
  rw [readBlock_succ, readBlock_succ, readBlock_succ, readBlock_succ, readBlock_append, content,
    readBlock_succ, readBlock_succ, readBlock_zero] at whole
  rw [← List.take_append_drop (oidLen.toNat + 2 + 1 + 1 + 1 + 1) (vbList.drop position), ← whole,
    List.drop_drop, found]
  have lengthValue : vbLen = UInt8.ofNat (oid.length + 4) := by
    have byteBound := vbLen.toNat_lt
    apply UInt8.toNat_inj.1
    rw [UInt8.toNat_ofNat']
    omega
  have oidValue : oidLen = UInt8.ofNat oid.length := by
    rw [oidLength, UInt8.ofNat_toNat]
  have rest : position + (oidLen.toNat + 2 + 1 + 1 + 1 + 1) = position + 2 + vbLen.toNat := by
    omega
  rw [rest]
  simp only [sequence, lengthByte, oidType, oidByte, show position + 1 + 1 = position + 2 from rfl,
    show position + 1 + 1 + 1 = position + 3 from rfl, null,
    show position + 4 + oidLen.toNat + 1 = position + 5 + oidLen.toNat by omega, zero]
  rw [requestBinding, ← lengthValue, ← oidValue]
  rfl

/-- The loop when the object identifiers of the bindings are known. -/
def answerOids (agent : Agent) (stack : Nat → Varbinding) (header : Header) :
    Nat → List (List UInt8) → Progress → Progress
  | _, [], progress => progress
  | position, oid :: oids, progress =>
      answerOids agent stack header (position + 1) oids
        (answerBinding agent (stack position) header (oid.length + 4) oid progress)

/-- A loop that comes to its end has seen a list of well-formed bindings. -/
theorem processBindings_some {agent : Agent} {stack : Nat → Varbinding} {header : Header}
    {vbList : List UInt8} {budget : Nat} {progress final : Progress}
    (ran : processBindings agent stack header vbList budget progress = some final)
    (consistent : progress.len = vbList.length - progress.vbList)
    (within : progress.vbList ≤ vbList.length) (limit : budget ≤ maxBindCount + 1) :
    ∃ oids, vbList.drop progress.vbList = oids.flatMap requestBinding ∧
      oids.length ≤ budget ∧ (∀ oid ∈ oids, oid.length < 256) ∧
      final = answerOids agent stack header (maxBindCount + 1 - budget) oids progress := by
  induction budget generalizing progress with
  | zero =>
      rw [processBindings] at ran
      split_ifs at ran with finished
      cases ran
      refine ⟨[], ?_, le_rfl, by simp, rfl⟩
      simp only [List.flatMap_nil, List.drop_eq_nil_iff]
      omega
  | succ budget ih =>
      rw [processBindings] at ran
      split_ifs at ran with finished
      · cases ran
        refine ⟨[], ?_, Nat.zero_le _, by simp, rfl⟩
        simp only [List.flatMap_nil, List.drop_eq_nil_iff]
        omega
      · cases parsed : parseBinding vbList progress.vbList progress.len with
        | none => simp [parsed] at ran
        | some found =>
            obtain ⟨vbLen, oid⟩ := found
            simp only [parsed] at ran
            obtain ⟨rfl, short, inside, split⟩ := parseBinding_some parsed consistent
            obtain ⟨oids, rest, count, all, rfl⟩ := ih ran
              (by simp only [answerBinding]; omega) inside (by omega)
            refine ⟨oid :: oids, ?_, by simpa using count, ?_, ?_⟩
            · rw [split, List.flatMap_cons, ← rest]
              rfl
            · simpa using ⟨short, all⟩
            · rw [show maxBindCount + 1 - (budget + 1) = maxBindCount - budget by omega,
                show maxBindCount + 1 - budget = maxBindCount - budget + 1 by omega]
              rfl

/-- What the loop has done when it has written these answers. -/
structure Written (header : Header) (start final : Progress) (answers : List (Nat × List UInt8))
    (requested : Nat) : Prop where
  below : ∀ position < start.req, position ≠ header.err →
    final.packet position = start.packet position
  delta : (final.lenDelta - (start.lenDelta + (answers.map answerSize).sum - requested)) % 256 = 0
  range : -128 ≤ final.lenDelta ∧ final.lenDelta < 128
  bytes : ∃ bindings : List (List UInt8 × List UInt8),
    bindings.map (fun binding => (binding.1.length, binding.2)) = answers ∧
    readBlock final.packet start.req (answers.map answerSize).sum = bindings.flatMap bindingBytes

/-- A number of 8 bits with a sign. -/
theorem bmod_range (value : Int) : -128 ≤ value.bmod 256 ∧ value.bmod 256 < 128 := by
  have lower := Int.le_bmod (x := value) (m := 256) (by decide)
  have upper := Int.bmod_lt (x := value) (m := 256) (by decide)
  constructor <;> omega

theorem bmod_sub_emod (value : Int) : (value.bmod 256 - value) % 256 = 0 := by
  have same : value.bmod 256 % 256 = value % 256 := Int.bmod_emod
  omega

/-- One binding and the rest of the list. -/
theorem Written.cons {agent : Agent} {stack : Varbinding} {header : Header} {oid : List UInt8}
    {start final : Progress} {answers : List (Nat × List UInt8)} {requested : Nat}
    (written : Written header (answerBinding agent stack header (oid.length + 4) oid start) final
      answers requested) (errBelow : header.err < start.req)
    (small : ∀ found, bindingAnswer agent stack header.type oid = some found →
      answerSize found < 256) :
    Written header start final
      ((bindingAnswer agent stack header.type oid).toList ++ answers)
      (oid.length + 6 + requested) := by
  have answered := snmpProcBind_answered agent stack header.type oid start.packet start.req
  have step := bmod_sub_emod (start.lenDelta +
    ((snmpProcBind agent stack header.type oid start.packet start.req).2.toNat -
      (oid.length + 4 : Nat) - 2 : Int).bmod 256)
  have inner := bmod_sub_emod ((snmpProcBind agent stack header.type oid start.packet
    start.req).2.toNat - (oid.length + 4 : Nat) - 2 : Int)
  obtain ⟨below, delta, range, bindings, same, bytes⟩ := written
  simp only [answerBinding] at below delta bytes
  cases answer : bindingAnswer agent stack header.type oid with
  | none =>
      rw [answer] at answered
      have zero :
          (snmpProcBind agent stack header.type oid start.packet start.req).2.toNat = 0 := by
        rw [answered.unanswered rfl]
        rfl
      simp only [zero, Nat.add_zero, if_true] at below delta bytes step inner
      refine ⟨fun position before other => ?_, ?_, range, bindings, ?_, ?_⟩
      · rw [below position before other, writeBlock_outside (by simp; omega)]
        exact answered.below position before
      · simp only [Option.toList_none, List.nil_append]
        omega
      · simpa using same
      · simpa using bytes
  | some found =>
      rw [answer] at answered
      have short := small found answer
      obtain ⟨name, nameLength, binding⟩ := answered.bytes found rfl short
      have size : (snmpProcBind agent stack header.type oid start.packet start.req).2.toNat =
          answerSize found := by
        rw [(answered.size found rfl).1, UInt8.toNat_ofNat']
        exact Nat.mod_eq_of_lt short
      have nonzero : answerSize found ≠ 0 := by
        rw [answerSize]
        omega
      simp only [size, nonzero, if_false] at below delta bytes step inner
      refine ⟨fun position before other => ?_, ?_, range, (name, found.2) :: bindings, ?_, ?_⟩
      · exact (below position (by omega) other).trans (answered.below position before)
      · simp only [Option.toList_some, List.singleton_append, List.map_cons, List.sum_cons]
        omega
      · simp [same, nameLength]
      · have first : readBlock final.packet start.req (answerSize found) =
            bindingBytes (name, found.2) := by
          rw [← binding]
          exact readBlock_congr fun position above before => below position before (by omega)
        simp only [Option.toList_some, List.singleton_append, List.map_cons, List.sum_cons,
          List.flatMap_cons]
        rw [readBlock_append, first, bytes]

/-- The answers are written one behind the other. -/
theorem answerOids_written (agent : Agent) (stack : Nat → Varbinding) (header : Header)
    (oids : List (List UInt8)) (position : Nat) (start : Progress)
    (errBelow : header.err < start.req)
    (range : -128 ≤ start.lenDelta ∧ start.lenDelta < 128)
    (small : ((answersFrom agent stack header.type position oids).map answerSize).sum < 256) :
    Written header start (answerOids agent stack header position oids start)
      (answersFrom agent stack header.type position oids)
      (oids.map fun oid => oid.length + 6).sum := by
  induction oids generalizing position start with
  | nil => exact ⟨fun _ _ _ => rfl, by simp [answersFrom, answerOids], range, [], rfl, rfl⟩
  | cons oid oids ih =>
      simp only [answersFrom, List.map_append, List.sum_append] at small
      refine Written.cons (ih (position + 1) _ ?_ (bmod_range _) (by omega)) errBelow ?_
      · simp only [answerBinding]
        omega
      · intro found answer
        simp only [answer, Option.toList_some, List.map_singleton, List.sum_singleton] at small
        omega

/-- What the checks before the bindings say about a packet, with the lengths of its community
string and of its request id. -/
structure ParsedHeader (packet : Memory) (uipLen : Nat) (header : Header) (csLen idLen : Nat) :
    Prop where
  total : uipLen = header.vbListHdr + 2 + header.vbListLen
  reqType : header.reqType = 7 + csLen
  err : header.err = header.reqType + 6 + idLen
  vbListHdr : header.vbListHdr = header.reqType + 10 + idLen
  limit : header.vbListLen ≤ 64
  outerLength : (packet 1).toNat + 2 = uipLen
  pduLength : (packet (header.reqType + 1)).toNat + header.reqType + 2 = uipLen
  listLength : (packet (header.vbListHdr + 1)).toNat = header.vbListLen
  front : readBlock packet 0 7 =
    [typeSequence, packet 1, typeInteger, 1, 0, typeString, UInt8.ofNat csLen]
  id : readBlock packet (header.reqType + 2) 2 = [typeInteger, UInt8.ofNat idLen]
  errors : readBlock packet (header.reqType + 4 + idLen) 7 =
    [typeInteger, 1, packet header.err, typeInteger, 1, packet (header.err + 3), typeSequence]

theorem parseHeader_some {community packet : Memory} {uipLen : Nat} {header : Header}
    (parsed : parseHeader community packet uipLen = some header) :
    ∃ csLen idLen, ParsedHeader packet uipLen header csLen idLen := by
  simp only [parseHeader, Option.bind_eq_bind, Option.bind_eq_some_iff, Option.guard_eq_some',
    exists_const, Option.pure_def, Option.some.injEq] at parsed
  obtain ⟨⟨-, sequence⟩, outer, ⟨-, version, one, zero⟩, ⟨-, string⟩, -, -, -, -, pdu,
    ⟨-, idType⟩, -, ⟨-, errType, errOne⟩, ⟨-, indexType, indexOne⟩, ⟨positive, listType⟩,
    ⟨listLen, limit⟩, rfl⟩ := parsed
  refine ⟨(packet 6).toNat, (packet (7 + (packet 6).toNat + 3)).toNat, ?_⟩
  constructor
  all_goals simp only [maxOidBuffersize] at *
  · omega
  · omega
  · omega
  · omega
  · omega
  · omega
  · simp [readBlock, List.range_succ, sequence, version, one, zero, string]
  · rw [readBlock_succ, readBlock_succ, readBlock_zero, idType, UInt8.ofNat_toNat]
  · simp [readBlock, List.range_succ, errType, errOne, indexType, indexOne, listType]

theorem addLength_self (packet : Memory) (position : Nat) {lenDelta : Int} {length : Nat}
    (exact : ((packet position).toNat + lenDelta : Int) = length) :
    addLength packet position lenDelta position = UInt8.ofNat length := by
  rw [addLength, writeBlock_singleton, Function.update_self, exact]
  apply UInt8.toNat_inj.1
  rw [UInt8.toNat_ofNat', UInt8.toNat_ofNat']
  omega

theorem addLength_of_ne (packet : Memory) {position other : Nat} (ne : other ≠ position)
    (lenDelta : Int) : addLength packet position lenDelta other = packet other := by
  rw [addLength, writeBlock_singleton, Function.update_of_ne ne]

/-- The bytes of the header that `setResponse` changes. -/
theorem setResponse_bytes {packet after : Memory} {uipLen : Nat} {header : Header}
    {csLen idLen : Nat} (parsed : ParsedHeader packet uipLen header csLen idLen)
    (below : ∀ position < header.vbListHdr + 2, position ≠ header.err →
      after position = packet position)
    {lenDelta : Int} {total : Nat} (exact : lenDelta = total - header.vbListLen) :
    setResponse after header lenDelta 1 = UInt8.ofNat (header.vbListHdr + total) ∧
      setResponse after header lenDelta header.reqType = typeGetResp ∧
      setResponse after header lenDelta (header.reqType + 1) = UInt8.ofNat (idLen + 10 + total) ∧
      setResponse after header lenDelta (header.vbListHdr + 1) = UInt8.ofNat total ∧
      ∀ position, position ≠ 1 → position ≠ header.reqType → position ≠ header.reqType + 1 →
        position ≠ header.vbListHdr + 1 →
          setResponse after header lenDelta position = after position := by
  obtain ⟨totalLength, reqType, err, vbListHdr, limit, outer, pdu, list, -⟩ := parsed
  unfold setResponse
  refine ⟨?_, ?_, ?_, ?_, fun position ne1 neType nePdu neList => ?_⟩
  · rw [addLength_of_ne _ (by omega), addLength_of_ne _ (by omega)]
    apply addLength_self
    rw [writeBlock_singleton, Function.update_of_ne (by omega), below 1 (by omega) (by omega)]
    omega
  · rw [addLength_of_ne _ (by omega), addLength_of_ne _ (by omega), addLength_of_ne _ (by omega),
      writeBlock_singleton, Function.update_self]
  · rw [addLength_of_ne _ (by omega)]
    apply addLength_self
    rw [addLength_of_ne _ (by omega), writeBlock_singleton, Function.update_of_ne (by omega),
      below _ (by omega) (by omega)]
    omega
  · apply addLength_self
    rw [addLength_of_ne _ (by omega), addLength_of_ne _ (by omega), writeBlock_singleton,
      Function.update_of_ne (by omega), below _ (by omega) (by omega)]
    omega
  · rw [addLength_of_ne _ neList, addLength_of_ne _ nePdu, addLength_of_ne _ ne1,
      writeBlock_singleton, Function.update_of_ne neType]

theorem messageContent_length (community id : List UInt8) (err errIndex : UInt8)
    (bindings : List (List UInt8 × List UInt8)) :
    (messageContent community id err errIndex bindings).length =
      community.length + id.length + 17 + (bindings.flatMap bindingBytes).length := by
  simp only [messageContent, tlv, List.length_append, List.length_cons, List.length_nil]
  omega

theorem requestCommunity_length {packet : Memory} {uipLen : Nat} {header : Header}
    {csLen idLen : Nat} (parsed : ParsedHeader packet uipLen header csLen idLen) :
    (requestCommunity packet header).length = csLen := by
  rw [requestCommunity, length_readBlock, parsed.reqType]
  omega

theorem requestId_length {packet : Memory} {uipLen : Nat} {header : Header}
    {csLen idLen : Nat} (parsed : ParsedHeader packet uipLen header csLen idLen) :
    (requestId packet header).length = idLen := by
  rw [requestId, length_readBlock, parsed.vbListHdr]
  omega

/-- With the right difference the buffer holds the message. -/
theorem readBlock_setResponse {packet after : Memory} {uipLen : Nat} {header : Header}
    {csLen idLen : Nat} (parsed : ParsedHeader packet uipLen header csLen idLen)
    (below : ∀ position < header.vbListHdr + 2, position ≠ header.err →
      after position = packet position)
    {bindings : List (List UInt8 × List UInt8)} {total : Nat}
    (bytes : readBlock after (header.vbListHdr + 2) total = bindings.flatMap bindingBytes)
    {lenDelta : Int} (exact : lenDelta = total - header.vbListLen) :
    readBlock (setResponse after header lenDelta) 0 (header.vbListHdr + 2 + total) =
      tlv typeSequence (messageContent (requestCommunity packet header) (requestId packet header)
        (after header.err) (packet (header.err + 3)) bindings) := by
  obtain ⟨outerByte, typeByte, pduByte, listByte, others⟩ := setResponse_bytes parsed below exact
  have community := requestCommunity_length parsed
  have id := requestId_length parsed
  have content := messageContent_length (requestCommunity packet header) (requestId packet header)
    (after header.err) (packet (header.err + 3)) bindings
  have totalBytes : (bindings.flatMap bindingBytes).length = total := by
    rw [← bytes, length_readBlock]
  have reqType := parsed.reqType
  have errPosition := parsed.err
  have vbListHdr := parsed.vbListHdr
  have same : ∀ position < header.vbListHdr + 2, position ≠ 1 → position ≠ header.reqType →
      position ≠ header.reqType + 1 → position ≠ header.err → position ≠ header.vbListHdr + 1 →
        setResponse after header lenDelta position = packet position :=
    fun position before ne1 neType nePdu neErr neList =>
      (others position ne1 neType nePdu neList).trans (below position before neErr)
  have errByte : setResponse after header lenDelta header.err = after header.err :=
    others header.err (by omega) (by omega) (by omega) (by omega)
  have frontBytes := parsed.front
  have idBytes := parsed.id
  have errorBytes := parsed.errors
  generalize setResponse after header lenDelta = final at *
  have split : header.vbListHdr + 2 + total =
      7 + (csLen + (4 + (idLen + (8 + total)))) := by
    omega
  have front : readBlock final 0 7 = [typeSequence, UInt8.ofNat (header.vbListHdr + total),
      typeInteger, 1, 0, typeString, UInt8.ofNat csLen] := by
    rw [show (7 : Nat) = 5 + 1 + 1 from rfl, readBlock_succ, readBlock_succ] at frontBytes ⊢
    simp only [List.cons.injEq, true_and] at frontBytes
    rw [same 0 (by omega) (by omega) (by omega) (by omega) (by omega) (by omega), frontBytes.1,
      ← frontBytes.2, outerByte]
    congr 2
    exact readBlock_congr fun position above before =>
      same position (by omega) (by omega) (by omega) (by omega) (by omega) (by omega)
  have communityBytes : readBlock final 7 csLen = requestCommunity packet header := by
    rw [requestCommunity, show header.reqType - 7 = csLen by omega]
    exact readBlock_congr fun position above before =>
      same position (by omega) (by omega) (by omega) (by omega) (by omega) (by omega)
  have pduBytes : readBlock final header.reqType 4 = [typeGetResp, UInt8.ofNat (idLen + 10 + total),
      typeInteger, UInt8.ofNat idLen] := by
    rw [show (4 : Nat) = 2 + 1 + 1 from rfl, readBlock_succ, readBlock_succ, typeByte, pduByte,
      ← idBytes]
    congr 2
    exact readBlock_congr fun position above before =>
      same position (by omega) (by omega) (by omega) (by omega) (by omega) (by omega)
  have identifier : readBlock final (header.reqType + 4) idLen = requestId packet header := by
    rw [requestId, show header.vbListHdr - header.reqType - 10 = idLen by omega]
    exact readBlock_congr fun position above before =>
      same position (by omega) (by omega) (by omega) (by omega) (by omega) (by omega)
  have errors : readBlock final (header.reqType + 4 + idLen) 8 = [typeInteger, 1, after header.err,
      typeInteger, 1, packet (header.err + 3), typeSequence, UInt8.ofNat total] := by
    have first : readBlock final (header.reqType + 4 + idLen) 2 = [typeInteger, 1] := by
      have bytes : (readBlock packet (header.reqType + 4 + idLen) 7).take 2 =
          readBlock packet (header.reqType + 4 + idLen) 2 := take_readBlock (by decide)
      rw [errorBytes] at bytes
      refine Eq.trans (readBlock_congr fun position above before => ?_) bytes.symm
      exact same position (by omega) (by omega) (by omega) (by omega) (by omega) (by omega)
    have second : readBlock final (header.reqType + 4 + idLen + 3) 4 =
        [typeInteger, 1, packet (header.err + 3), typeSequence] := by
      have bytes : (readBlock packet (header.reqType + 4 + idLen) 7).drop 3 =
          readBlock packet (header.reqType + 4 + idLen + 3) 4 := drop_readBlock (by decide)
      rw [errorBytes] at bytes
      refine Eq.trans (readBlock_congr fun position above before => ?_) bytes.symm
      exact same position (by omega) (by omega) (by omega) (by omega) (by omega) (by omega)
    have single : ∀ position, readBlock final position 1 = [final position] := fun _ => rfl
    rw [show (8 : Nat) = 2 + (1 + (4 + 1)) from rfl, readBlock_append, readBlock_append,
      readBlock_append, first, single, single,
      show header.reqType + 4 + idLen + 2 = header.err by omega, errByte,
      show header.err + 1 = header.reqType + 4 + idLen + 3 by omega, second,
      show header.reqType + 4 + idLen + 3 + 4 = header.vbListHdr + 1 by omega, listByte]
    rfl
  have list : readBlock final (header.vbListHdr + 2) total = bindings.flatMap bindingBytes := by
    rw [← bytes]
    exact readBlock_congr fun position above before =>
      others position (by omega) (by omega) (by omega) (by omega)
  rw [split, readBlock_append, readBlock_append, readBlock_append, readBlock_append,
    readBlock_append, front, Nat.zero_add, communityBytes, ← reqType, pduBytes, identifier, errors,
    show header.reqType + 4 + idLen + 8 = header.vbListHdr + 2 by omega, list]
  rw [tlv, content, community, id, totalBytes, messageContent, tlv, tlv, tlv, tlv, community, id,
    totalBytes]
  simp only [List.length_append, List.length_cons, List.length_nil, id, totalBytes]
  rw [show header.vbListHdr + total = csLen + idLen + 17 + total by omega,
    show 0 + 1 + 1 + idLen + (0 + 1 + 1 + 1) + (0 + 1 + 1 + 1) + (0 + 1 + 1 + total) =
      idLen + 10 + total by omega]
  simp

theorem bindings_length (bindings : List (List UInt8 × List UInt8)) :
    (bindings.flatMap bindingBytes).length =
      ((bindings.map fun binding => (binding.1.length, binding.2)).map answerSize).sum := by
  induction bindings with
  | nil => rfl
  | cons binding bindings ih =>
      simp only [List.flatMap_cons, List.length_append, List.map_cons, List.sum_cons, ih]
      simp only [bindingBytes, tlv, answerSize, List.length_append, List.length_cons,
        List.length_nil]
      omega

theorem requests_length (oids : List (List UInt8)) :
    (oids.flatMap requestBinding).length = (oids.map fun oid => oid.length + 6).sum := by
  induction oids with
  | nil => rfl
  | cons oid oids ih =>
      simp only [List.flatMap_cons, List.length_append, List.map_cons, List.sum_cons, ih]
      simp only [requestBinding, List.length_append, List.length_cons, List.length_nil]
      omega

/-- A response that is sent has a well-formed request with some object identifiers, and the loop
has answered these. -/
theorem snmpNetMain_some {agent : Agent} {stack : Nat → Varbinding} {packet after : Memory}
    {uipLen slen : Nat} (sent : snmpNetMain agent stack packet uipLen = some (after, slen)) :
    ∃ header oids, parseHeader agent.community packet uipLen = some header ∧
      readBlock packet (header.vbListHdr + 2) header.vbListLen = oids.flatMap requestBinding ∧
      ∃ final, final = answerOids agent stack header 0 oids
          ⟨0, header.vbListLen, header.vbListHdr + 2, writeBlock packet header.err [0], 0⟩ ∧
        after = setResponse final.packet header final.lenDelta ∧
        slen = ((uipLen + final.lenDelta : Int) % 65536).toNat := by
  simp only [snmpNetMain, Option.bind_eq_bind, Option.bind_eq_some_iff, Option.pure_def,
    Option.some.injEq, Prod.mk.injEq] at sent
  obtain ⟨header, parsed, final, ran, afterEq, slenEq⟩ := sent
  obtain ⟨oids, list, -, -, finalEq⟩ := processBindings_some ran
    (by simp) (Nat.zero_le _) le_rfl
  exact ⟨header, oids, parsed, list, final, finalEq, afterEq.symm, slenEq.symm⟩

/-- The response is well encoded exactly when its bindings are not longer than those of the request
by more than 127 bytes and the message fits behind one length byte. -/
theorem wellEncoded_iff (agent : Agent) (stack : Nat → Varbinding) (packet after : Memory)
    (uipLen slen : Nat) (sent : snmpNetMain agent stack packet uipLen = some (after, slen)) :
    ∃ header oids, parseHeader agent.community packet uipLen = some header ∧
      readBlock packet (header.vbListHdr + 2) header.vbListLen = oids.flatMap requestBinding ∧
      (WellEncoded (readBlock after 0 slen) (requestCommunity packet header)
          (requestId packet header) (answersFrom agent stack header.type 0 oids) ↔
        Fits header (answersFrom agent stack header.type 0 oids)) := by
  obtain ⟨header, oids, parsed, list, final, finalEq, rfl, rfl⟩ := snmpNetMain_some sent
  refine ⟨header, oids, parsed, list, ?_⟩
  obtain ⟨csLen, idLen, header_eq⟩ := parseHeader_some parsed
  have community := requestCommunity_length header_eq
  have id := requestId_length header_eq
  have requested : (oids.map fun oid => oid.length + 6).sum = header.vbListLen := by
    rw [← requests_length, ← list, length_readBlock]
  have total := header_eq.total
  have limit := header_eq.limit
  have reqType := header_eq.reqType
  have errPosition := header_eq.err
  have vbListHdr := header_eq.vbListHdr
  have written : ((answersFrom agent stack header.type 0 oids).map answerSize).sum < 256 →
      Written header
        ⟨0, header.vbListLen, header.vbListHdr + 2, writeBlock packet header.err [0], 0⟩
        final (answersFrom agent stack header.type 0 oids) header.vbListLen := by
    intro small
    rw [finalEq, ← requested]
    exact answerOids_written agent stack header oids 0 _ (by simp only; omega) (by simp) small
  clear finalEq sent
  generalize answersFrom agent stack header.type 0 oids = answers at *
  constructor
  · rintro ⟨err, errIndex, bindings, same, short, response⟩
    have size := bindings_length bindings
    rw [same] at size
    rw [messageContent_length, community, id, size] at short
    obtain ⟨-, delta, range, -⟩ := written (by omega)
    have length := congrArg List.length response
    simp only [length_readBlock, tlv, List.length_append, List.length_cons, List.length_nil,
      messageContent_length, community, id, size] at length
    simp only at delta
    constructor <;> omega
  · rintro ⟨growth, fits⟩
    obtain ⟨below, delta, range, bindings, same, bytes⟩ := written (by omega)
    simp only at below delta bytes
    have exact : final.lenDelta = ((answers.map answerSize).sum : Int) - header.vbListLen := by
      omega
    have slen : ((uipLen + final.lenDelta : Int) % 65536).toNat =
        header.vbListHdr + 2 + (answers.map answerSize).sum := by
      omega
    have unchanged : ∀ position < header.vbListHdr + 2, position ≠ header.err →
        final.packet position = packet position := by
      intro position before other
      rw [below position before other, writeBlock_singleton, Function.update_of_ne other]
    refine ⟨final.packet header.err, packet (header.err + 3), bindings, same, ?_, ?_⟩
    · rw [messageContent_length, community, id, bindings_length, same]
      omega
    · rw [slen]
      exact readBlock_setResponse header_eq unchanged bytes exact

/-- An agent with only the texts of the configuration and the community `public`. -/
def textAgent (description : List UInt8) : Agent :=
  Config.agent ⟨description, [0x63], [0x68], [0x6c], false, none, none, none, none, none⟩
    fun position => [0x70, 0x75, 0x62, 0x6c, 0x69, 0x63, 0].getD position 0xff

/-- A GetRequest for the description. -/
def descriptionRequest : Memory :=
  fun position => ([0x30, 37, 2, 1, 0, 4, 6, 0x70, 0x75, 0x62, 0x6c, 0x69, 0x63, 0xa0, 24, 2, 1, 42,
    2, 1, 0, 2, 1, 0, 0x30, 13] ++ requestBinding (systemOid 1)).getD position 0

/-- The uninitialised binding, with zeros. -/
def clearStack : Nat → Varbinding :=
  fun _ => ⟨0, []⟩

theorem descriptionRequest_answered (description : List UInt8)
    (sent : (snmpNetMain (textAgent description) clearStack descriptionRequest 39).isSome) :
    snmpNetMain (textAgent description) clearStack descriptionRequest 39 =
      some (((snmpNetMain (textAgent description) clearStack descriptionRequest 39).get sent).1,
        ((snmpNetMain (textAgent description) clearStack descriptionRequest 39).get sent).2) :=
  (Option.some_get sent).symm

theorem wellEncoded_iff_description :
    ∃ header oids, parseHeader (textAgent [0x65]).community descriptionRequest 39 = some header ∧
      readBlock descriptionRequest (header.vbListHdr + 2) header.vbListLen =
        oids.flatMap requestBinding ∧
      (WellEncoded (readBlock ((snmpNetMain (textAgent [0x65]) clearStack descriptionRequest 39).get
            (by decide +kernel)).1 0
          ((snmpNetMain (textAgent [0x65]) clearStack descriptionRequest 39).get
            (by decide +kernel)).2)
          (requestCommunity descriptionRequest header) (requestId descriptionRequest header)
          (answersFrom (textAgent [0x65]) clearStack header.type 0 oids) ↔
        Fits header (answersFrom (textAgent [0x65]) clearStack header.type 0 oids)) :=
  wellEncoded_iff (textAgent [0x65]) clearStack descriptionRequest _ 39 _
    (descriptionRequest_answered [0x65] (by decide +kernel))

/-- With a description of 128 bytes the difference of the lengths does not fit into 8 bits with a
sign, and `uip_slen` is negative as a 16-bit number. -/
theorem long_description_not_wellEncoded :
    ¬ ∀ (agent : Agent) (stack : Nat → Varbinding) (packet after : Memory) (uipLen slen : Nat),
      snmpNetMain agent stack packet uipLen = some (after, slen) →
        ∃ header oids, parseHeader agent.community packet uipLen = some header ∧
          readBlock packet (header.vbListHdr + 2) header.vbListLen = oids.flatMap requestBinding ∧
          WellEncoded (readBlock after 0 slen) (requestCommunity packet header)
            (requestId packet header) (answersFrom agent stack header.type 0 oids) := by
  intro always
  have sent : (snmpNetMain (textAgent (List.replicate 128 0x65)) clearStack descriptionRequest
      39).isSome := by
    decide +kernel
  have slen : ∀ sent, ((snmpNetMain (textAgent (List.replicate 128 0x65)) clearStack
      descriptionRequest 39).get sent).2 = 65447 := by
    decide +kernel
  obtain ⟨header, oids, -, -, err, errIndex, bindings, -, short, response⟩ := always _ _ _ _ _ _
    (descriptionRequest_answered (List.replicate 128 0x65) sent)
  have length := congrArg List.length response
  rw [length_readBlock, slen sent] at length
  simp only [tlv, List.length_append, List.length_cons, List.length_nil] at length
  omega

end Ethersex.Snmp

import Ethersex.ObjectIdentifiers
import Ethersex.SnmpEncoding

/-!
# The order of GetNextRequest

The objects of the agent as a table of names, each with a single value or with a column of
values.  The table is ordered and no name begins another one, so the instance after an
identifier is in the first entry with a greater instance.  The agent finds it in the cases
listed here and misses it in all others.
-/

namespace Ethersex.Snmp

open ByteMemory ObjectIdentifiers

/-- The value of a name, or the values of a number of sensors below it. -/
inductive Kind where
  | scalar (value : List UInt8)
  | column (count : Nat) (value : UInt8 → List UInt8)
      (sized : ∀ index, 2 ≤ (value index).length ∧ (value index).length ≤ 40)

structure Entry where
  name : List Nat
  short : (encodeOid name).length ≤ 20
  kind : Kind

namespace Entry

def reaction (entry : Entry) : Reaction :=
  match entry.kind with
  | .scalar value => ⟨encodeOid entry.name, scalarReaction value, none⟩
  | .column count value _ =>
      ⟨encodeOid entry.name, columnReaction count value, some (onelevelNext (UInt8.ofNat count))⟩

/-- The agent serves an instance of the entry.  A value the agent cannot send is none. -/
def HasInstance (entry : Entry) : Prop :=
  match entry.kind with
  | .scalar value => (finishAnswer (UInt8.ofNat (encodeOid entry.name).length) value).isSome
  | .column count _ _ => 0 < count

/-- The agent serves the instance with the rest behind the name. -/
def Serves (entry : Entry) (rest : List Nat) : Prop :=
  match entry.kind with
  | .scalar _ => rest = [] ∧ entry.HasInstance
  | .column count _ _ => ∃ index, rest = [index] ∧ index < count ∧ index < 128

theorem reaction_objName (entry : Entry) : entry.reaction.objName = encodeOid entry.name := by
  unfold reaction
  split <;> rfl

end Entry

/-- The names are in order and no name begins another one. -/
def Ordered (entries : List Entry) : Prop :=
  entries.Pairwise fun first second =>
    first.name < second.name ∧ ¬ Compatible first.name second.name

/-- The first entry whose name begins the identifier or is begun by it. -/
def findEntry (ids : List Nat) : List Entry → Option (Entry × List Entry)
  | [] => none
  | entry :: entries =>
      if Compatible entry.name ids then some (entry, entries) else findEntry ids entries

theorem toNat_ofNat_of_lt {value : Nat} (small : value < 256) :
    (UInt8.ofNat value).toNat = value := by
  rw [UInt8.toNat_ofNat']
  exact Nat.mod_eq_of_lt small

theorem ofNat_lt_ofNat {first second : Nat} (firstSmall : first < 256)
    (secondSmall : second < 256) :
    UInt8.ofNat first < UInt8.ofNat second ↔ first < second := by
  rw [UInt8.lt_iff_toNat_lt, toNat_ofNat_of_lt firstSmall, toNat_ofNat_of_lt secondSmall]

/-- An identifier that goes on behind a name. -/
theorem snmpFindReaction_extends {name rest : List Nat} {reaction : Reaction}
    (objName : reaction.objName = encodeOid name)
    (short : (encodeOid (name ++ rest)).length < 256) (reactions : List Reaction) :
    snmpFindReaction (encodeOid (name ++ rest)) (reaction :: reactions) =
      some (⟨UInt8.ofNat (encodeOid name).length, encodeOid rest⟩, reaction, reactions) := by
  rw [encodeOid_append] at *
  rw [List.length_append] at short
  have longer : ¬ UInt8.ofNat ((encodeOid name).length + (encodeOid rest).length) <
      UInt8.ofNat (encodeOid name).length := by
    rw [ofNat_lt_ofNat (by omega) (by omega)]
    omega
  have difference : (UInt8.ofNat ((encodeOid name).length + (encodeOid rest).length) -
      UInt8.ofNat (encodeOid name).length).toNat = (encodeOid rest).length := by
    rw [UInt8.toNat_sub, toNat_ofNat_of_lt (by omega), toNat_ofNat_of_lt (by omega)]
    omega
  simp only [snmpFindReaction, objName, List.length_append, longer, if_false, difference]
  rw [toNat_ofNat_of_lt (by omega), List.take_left, List.take_length, if_pos rfl, List.drop_left,
    List.take_length]

/-- An identifier that a name goes on behind. -/
theorem snmpFindReaction_begins {ids rest : List Nat} {reaction : Reaction}
    (objName : reaction.objName = encodeOid (ids ++ rest)) (more : rest ≠ [])
    (short : (encodeOid (ids ++ rest)).length < 256) (reactions : List Reaction) :
    snmpFindReaction (encodeOid ids) (reaction :: reactions) =
      some (⟨UInt8.ofNat (encodeOid (ids ++ rest)).length, []⟩, reaction, reactions) := by
  have positive : 0 < (encodeOid rest).length := by
    rw [List.length_pos_iff, ne_eq, encodeOid_eq_nil]
    exact more
  have shorter : UInt8.ofNat (encodeOid ids).length <
      UInt8.ofNat (encodeOid (ids ++ rest)).length := by
    rw [encodeOid_append, List.length_append] at *
    rw [ofNat_lt_ofNat (by omega) (by omega)]
    omega
  have idsShort : (encodeOid ids).length < 256 := by
    rw [encodeOid_append, List.length_append] at short
    omega
  simp only [snmpFindReaction, objName, shorter, if_true]
  rw [toNat_ofNat_of_lt idsShort, List.take_length, encodeOid_append, List.take_left, if_pos rfl]
  simp

theorem snmpFindReaction_other {name ids : List Nat} {reaction : Reaction}
    (objName : reaction.objName = encodeOid name) (nameShort : (encodeOid name).length < 256)
    (idsShort : (encodeOid ids).length < 256) (different : ¬ Compatible name ids)
    (reactions : List Reaction) :
    snmpFindReaction (encodeOid ids) (reaction :: reactions) =
      snmpFindReaction (encodeOid ids) reactions := by
  rw [snmpFindReaction]
  simp only [objName]
  apply if_neg
  intro same
  apply different
  by_cases shorter : (encodeOid ids).length < (encodeOid name).length
  · rw [if_pos ((ofNat_lt_ofNat idsShort nameShort).2 shorter), toNat_ofNat_of_lt idsShort,
      List.take_length] at same
    exact Or.inr (encodeOid_prefix_iff.1 (List.prefix_iff_eq_take.2 same))
  · rw [if_neg (fun less => shorter ((ofNat_lt_ofNat idsShort nameShort).1 less)),
      toNat_ofNat_of_lt nameShort, List.take_length] at same
    exact Or.inl (encodeOid_prefix_iff.1 (List.prefix_iff_eq_take.2 same.symm))

/-- The search of the code is the search on names. -/
theorem snmpFindReaction_entries {ids : List Nat} (idsShort : (encodeOid ids).length < 256)
    (entries : List Entry) :
    snmpFindReaction (encodeOid ids) (entries.map Entry.reaction) =
      (findEntry ids entries).map fun found =>
        (⟨UInt8.ofNat (encodeOid found.1.name).length, encodeOid (ids.drop found.1.name.length)⟩,
          found.1.reaction, found.2.map Entry.reaction) := by
  induction entries with
  | nil => rfl
  | cons entry entries ih =>
      have nameShort := entry.short
      rw [List.map_cons, findEntry]
      split_ifs with compatible
      · rw [Option.map_some]
        by_cases extends_ : entry.name <+: ids
        · obtain ⟨rest, rfl⟩ := extends_
          rw [snmpFindReaction_extends entry.reaction_objName idsShort, List.drop_left]
        · obtain ⟨rest, name⟩ := compatible.resolve_left extends_
          have more : rest ≠ [] := by
            rintro rfl
            rw [List.append_nil] at name
            exact extends_ (name ▸ List.prefix_rfl)
          have objName : entry.reaction.objName = encodeOid (ids ++ rest) := by
            rw [entry.reaction_objName, name]
          rw [snmpFindReaction_begins objName more (by rw [name]; omega), ← name,
            List.drop_eq_nil_of_le
            (by simp)]
          rfl
      · rw [snmpFindReaction_other entry.reaction_objName (by omega) idsShort compatible, ih]

theorem finishAnswer_nil (oidLen : UInt8) : finishAnswer oidLen [] = none := by
  simp [finishAnswer]

theorem finishAnswer_isSome {oidLen : Nat} {value : List UInt8} (oidShort : oidLen ≤ 30)
    (sized : 2 ≤ value.length ∧ value.length ≤ 40) :
    (finishAnswer (UInt8.ofNat oidLen) value).isSome := by
  have long : ¬ UInt8.ofNat value.length < 2 := by
    rw [UInt8.lt_iff_toNat_lt, toNat_ofNat_of_lt (by omega)]
    simp only [UInt8.reduceToNat]
    omega
  have nonzero : 2 + (2 + UInt8.ofNat oidLen + UInt8.ofNat value.length) ≠ 0 := by
    intro zero
    have sum := congrArg UInt8.toNat zero
    simp only [UInt8.toNat_add, UInt8.toNat_ofNat', UInt8.reduceToNat] at sum
    omega
  simp [finishAnswer, long, nonzero]

theorem columnReaction_long {count : Nat} {value : UInt8 → List UInt8} {bytes : List UInt8}
    (long : 2 ≤ bytes.length) : columnReaction count value bytes = [] := by
  match bytes, long with
  | _ :: _ :: _, _ => rfl

theorem two_le_encodeOid_length {id : Nat} {ids : List Nat} (long : 128 ≤ id ∨ ids ≠ []) :
    2 ≤ (encodeOid (id :: ids)).length := by
  rw [encodeOid_cons, List.length_append]
  rcases long with large | more
  · have := two_le_encodeId_length large
    omega
  · have first : 0 < (encodeId id).length := List.length_pos_iff.2 (encodeId_ne_nil id)
    have second : 0 < (encodeOid ids).length := by
      rw [List.length_pos_iff, ne_eq, encodeOid_eq_nil]
      exact more
    omega

/-- A callback gives a value exactly for the instances that are served. -/
theorem Entry.cb_isSome_iff (entry : Entry) (rest : List Nat) :
    (finishAnswer (UInt8.ofNat ((encodeOid entry.name).length + (encodeOid rest).length))
      (entry.reaction.cb (encodeOid rest))).isSome ↔ entry.Serves rest := by
  have nameShort := entry.short
  unfold Entry.reaction Entry.Serves
  cases kind : entry.kind with
  | scalar value =>
      simp only [scalarReaction, Entry.HasInstance, kind]
      by_cases empty : rest = []
      · simp [empty]
      · simp [empty, finishAnswer_nil]
  | column count value sized =>
      simp only
      cases rest with
      | nil => simp [columnReaction, finishAnswer_nil]
      | cons index rest =>
          by_cases long : 128 ≤ index ∨ rest ≠ []
          · rw [columnReaction_long (two_le_encodeOid_length long), finishAnswer_nil]
            simp only [Option.isSome_none, Bool.false_eq_true, List.cons.injEq, false_iff]
            rintro ⟨other, ⟨rfl, rfl⟩, -, small⟩
            exact long.elim (by omega) (fun more => more rfl)
          · obtain ⟨small, rfl⟩ : index < 128 ∧ rest = [] := by
              simpa [not_or, ne_eq] using long
            rw [encodeOid_cons, encodeOid_nil, List.append_nil, encodeId_of_lt small]
            simp only [columnReaction, toNat_ofNat_of_lt (show index < 256 by omega)]
            by_cases outside : count ≤ index
            · simp [outside, finishAnswer_nil]
            · rw [if_neg outside]
              have answered : (finishAnswer (UInt8.ofNat ((encodeOid entry.name).length +
                  [UInt8.ofNat index].length)) (value (UInt8.ofNat index))).isSome :=
                finishAnswer_isSome (by simp; omega) (sized _)
              simp only [answered, List.cons.injEq, and_true, true_iff]
              exact ⟨index, rfl, by omega, small⟩

/-- The table of an agent. -/
def Represents (agent : Agent) (entries : List Entry) : Prop :=
  agent.first :: agent.more = entries.map Entry.reaction

/-- A GetRequest for the identifier succeeds. -/
def Served (agent : Agent) (ids : List Nat) : Prop :=
  (encodeOid ids).length < 256 ∧
    (snmpProcBind agent ⟨0, []⟩ typeGetReq (encodeOid ids) (fun _ => 0) 0).2 ≠ 0

theorem snmpProcBind_ne_zero_iff (agent : Agent) (stack : Varbinding) (reqType : UInt8)
    (oid : List UInt8) (packet : Memory) (vb : Nat) :
    (snmpProcBind agent stack reqType oid packet vb).2 ≠ 0 ↔
      (bindingAnswer agent stack reqType oid).isSome := by
  have answered := snmpProcBind_answered agent stack reqType oid packet vb
  cases answer : bindingAnswer agent stack reqType oid with
  | none => simp [answered.unanswered answer]
  | some found => simpa using (answered.size found answer).2

theorem findEntry_some {ids : List Nat} {entries : List Entry} {entry : Entry} {rest : List Entry}
    (found : findEntry ids entries = some (entry, rest)) :
    ∃ before, entries = before ++ entry :: rest ∧ Compatible entry.name ids ∧
      ∀ other ∈ before, ¬ Compatible other.name ids := by
  induction entries with
  | nil => cases found
  | cons head entries ih =>
      rw [findEntry] at found
      split_ifs at found with compatible
      · cases found
        exact ⟨[], rfl, compatible, by simp⟩
      · obtain ⟨before, rfl, belongs, others⟩ := ih found
        exact ⟨head :: before, rfl, belongs, by simpa using ⟨compatible, others⟩⟩

theorem findEntry_none {ids : List Nat} {entries : List Entry}
    (missing : findEntry ids entries = none) :
    ∀ entry ∈ entries, ¬ Compatible entry.name ids := by
  induction entries with
  | nil => simp
  | cons head entries ih =>
      rw [findEntry] at missing
      split_ifs at missing with compatible
      simpa using ⟨compatible, ih missing⟩

/-- The entry of an instance is the one the search finds. -/
theorem findEntry_instance {entries : List Entry} (ordered : Ordered entries) {entry : Entry}
    (member : entry ∈ entries) (rest : List Nat) :
    ∃ later, findEntry (entry.name ++ rest) entries = some (entry, later) := by
  have belongs : Compatible entry.name (entry.name ++ rest) := Or.inl (List.prefix_append _ _)
  cases found : findEntry (entry.name ++ rest) entries with
  | none => exact absurd belongs (findEntry_none found entry member)
  | some result =>
      obtain ⟨other, later⟩ := result
      obtain ⟨before, rfl, compatible, others⟩ := findEntry_some found
      rw [List.mem_append, List.mem_cons] at member
      rcases member with early | rfl | late
      · exact absurd belongs (others entry early)
      · exact ⟨later, rfl⟩
      · have order := (List.pairwise_cons.1 (List.pairwise_append.1 ordered).2.1).1 entry late
        refine absurd ?_ order.2
        rcases compatible with starts | starts
        · exact List.prefix_or_prefix_of_prefix starts (List.prefix_append _ _)
        · exact Or.inr ((List.prefix_append _ _).trans starts)

theorem bindingAnswer_get {agent : Agent} {entries : List Entry}
    (represents : Represents agent entries) (stack : Varbinding) {ids : List Nat}
    (short : (encodeOid ids).length < 256) :
    bindingAnswer agent stack typeGetReq (encodeOid ids) =
      (findEntry ids entries).bind fun found =>
        if (encodeOid ids).length < (encodeOid found.1.name).length then none
        else finishAnswer (UInt8.ofNat (encodeOid ids).length)
          (found.1.reaction.cb (encodeOid (ids.drop found.1.name.length))) := by
  have isGet : typeGetReq ≠ typeGetNextReq := by decide
  simp only [bindingAnswer, selectAnswer, isGet, and_false, if_false]
  rw [represents, snmpFindReaction_entries short]
  cases findEntry ids entries with
  | none => rfl
  | some found =>
      have nameShort := found.1.short
      simp only [Option.map_some, Option.bind_some,
        ofNat_lt_ofNat short (show (encodeOid found.1.name).length < 256 by omega)]
      split_ifs <;> rfl

/-- The instances the agent serves are those of the entries. -/
theorem served_iff {agent : Agent} {entries : List Entry} (represents : Represents agent entries)
    (ordered : Ordered entries) (ids : List Nat) :
    Served agent ids ↔ ∃ entry ∈ entries, ∃ rest, ids = entry.name ++ rest ∧ entry.Serves rest := by
  unfold Served
  rw [snmpProcBind_ne_zero_iff]
  constructor
  · rintro ⟨short, answered⟩
    rw [bindingAnswer_get represents _ short] at answered
    cases found : findEntry ids entries with
    | none => simp [found] at answered
    | some result =>
        obtain ⟨entry, later⟩ := result
        obtain ⟨before, rfl, compatible, -⟩ := findEntry_some found
        rw [found, Option.bind_some] at answered
        dsimp only at answered
        split_ifs at answered with shorter
        · simp at answered
        · have starts : entry.name <+: ids := by
            rcases compatible with starts | starts
            · exact starts
            · have longer := (encodeOid_prefix_iff.2 starts).length_le
              have same := (encodeOid_prefix_iff.2 starts).eq_of_length (by omega)
              rw [encodeOid_injective same]
          obtain ⟨rest, rfl⟩ := starts
          rw [List.drop_left, encodeOid_append, List.length_append, entry.cb_isSome_iff] at answered
          exact ⟨entry, by simp, rest, rfl, answered⟩
  · rintro ⟨entry, member, rest, rfl, serves⟩
    have restShort : (encodeOid rest).length ≤ 1 := by
      unfold Entry.Serves at serves
      split at serves
      · simp [serves.1]
      · obtain ⟨index, rfl, -, small⟩ := serves
        simp [encodeOid_cons, encodeId_of_lt small]
    have nameShort := entry.short
    have short : (encodeOid (entry.name ++ rest)).length < 256 := by
      rw [encodeOid_append, List.length_append]
      omega
    obtain ⟨later, found⟩ := findEntry_instance ordered member rest
    refine ⟨short, ?_⟩
    rw [bindingAnswer_get represents _ short, found, Option.bind_some]
    dsimp only
    rw [List.drop_left, encodeOid_append, List.length_append, if_neg (by omega),
      entry.cb_isSome_iff]
    exact serves

/-- A binding with this object identifier is in the packet. -/
def Names (result : Memory × UInt8) (vb : Nat) (oid : List UInt8) : Prop :=
  result.2 ≠ 0 ∧ readBlock result.1 (vb + 2) (2 + oid.length) = tlv typeOid oid

/-- The smallest instance above the identifier. -/
structure IsNext (agent : Agent) (ids next : List Nat) : Prop where
  served : Served agent next
  above : ids < next
  smallest : ∀ other, Served agent other → ids < other → next ≤ other

/-- The answer names the next instance, or there is none and the binding is not answered; then
`answerBinding` sets the error `noSuchName`. -/
def NextRight (agent : Agent) (stack : Varbinding) (packet : Memory) (vb : Nat) (ids : List Nat) :
    Prop :=
  (∃ next, IsNext agent ids next ∧
    Names (snmpProcBind agent stack typeGetNextReq (encodeOid ids) packet vb) vb (encodeOid next)) ∨
  ((∀ other, Served agent other → ¬ ids < other) ∧
    (snmpProcBind agent stack typeGetNextReq (encodeOid ids) packet vb).2 = 0)

theorem copyName_self {name : List UInt8} (short : name.length < 256) :
    copyName name (UInt8.ofNat name.length) = name := by
  rw [copyName, toNat_ofNat_of_lt short]
  apply List.ext_getElem
  · simp
  · intro index _ bound
    simp [bound]

theorem finishBind_below (packet : Memory) (vb out : Nat) (oidLen : UInt8) (value : List UInt8)
    {position : Nat} (before : position < out) (other : position ≠ vb + 1) :
    (finishBind packet vb out oidLen value).1 position = packet position := by
  unfold finishBind
  dsimp only
  split_ifs
  · exact writeBlock_outside (Or.inl before)
  · dsimp only
    rw [writeBlock_singleton, Function.update_of_ne other]
    exact writeBlock_outside (Or.inl before)

/-- The identifier of the answer stands in the packet, whatever is written behind it. -/
theorem readBlock_answer (packet : Memory) (vb : Nat) (name sub value : List UInt8)
    (short : name.length < 256) :
    readBlock (finishBind (writeBlock (writeBlock (writeBlock packet (vb + 2 + 2 + name.length) sub)
        (vb + 2) [typeOid, UInt8.ofNat (name.length + sub.length)]) (vb + 2 + 2)
        (copyName name (UInt8.ofNat name.length))) vb (vb + 2 + 2 + (name.length + sub.length))
        (UInt8.ofNat (name.length + sub.length)) value).1 (vb + 2) (2 + (name ++ sub).length) =
      tlv typeOid (name ++ sub) := by
  rw [copyName_self short, List.length_append]
  generalize withSub_eq : writeBlock packet (vb + 2 + 2 + name.length) sub = withSub
  generalize withHeader_eq : writeBlock withSub (vb + 2)
    [typeOid, UInt8.ofNat (name.length + sub.length)] = withHeader
  generalize withName_eq : writeBlock withHeader (vb + 2 + 2) name = withName
  have behind : ∀ index, vb + 2 ≤ index → index < vb + 2 + (2 + (name.length + sub.length)) →
      (finishBind withName vb (vb + 2 + 2 + (name.length + sub.length))
        (UInt8.ofNat (name.length + sub.length)) value).1 index = withName index :=
    fun index above below => finishBind_below _ _ _ _ _ (by omega) (by omega)
  have header : readBlock withName (vb + 2) 2 =
      [typeOid, UInt8.ofNat (name.length + sub.length)] := by
    rw [← withName_eq, readBlock_writeBlock_disjoint (Or.inl le_rfl), ← withHeader_eq]
    exact readBlock_writeBlock_same _ _ _
  have named : readBlock withName (vb + 2 + 2) name.length = name := by
    rw [← withName_eq, readBlock_writeBlock_same]
  have subStored : readBlock withName (vb + 2 + 2 + name.length) sub.length = sub := by
    rw [← withName_eq, readBlock_writeBlock_disjoint (Or.inr le_rfl), ← withHeader_eq,
      readBlock_writeBlock_disjoint
        (Or.inr (by simp only [List.length_cons, List.length_nil]; omega)),
      ← withSub_eq, readBlock_writeBlock_same]
  rw [readBlock_congr behind, readBlock_append, readBlock_append, header, named, subStored, tlv,
    List.length_append]

/-- The entry and the sub-identifier where the search for the next instance ends. -/
def Lands (bind : Varbinding) (reaction : Reaction) (reactions : List Reaction) (target : Reaction)
    (sub : List UInt8) : Prop :=
  ∀ packet out, snmpNextBind packet out bind reaction reactions =
    (writeBlock packet (out + 2 + target.objName.length) sub,
      some (⟨UInt8.ofNat target.objName.length, sub⟩, target))

/-- What stands behind the name in the first instance of an entry. -/
def Entry.firstRest (entry : Entry) : List Nat :=
  match entry.kind with
  | .scalar _ => []
  | .column _ _ _ => [0]

/-- There is no sub-identifier of the entry behind the one in the binding. -/
def Exhausted (bind : Varbinding) (reaction : Reaction) : Prop :=
  match reaction.ncb with
  | some ncb => ncb bind.data = []
  | none => bind.len = 0

theorem encodeOid_index {index : Nat} (small : index < 128) :
    encodeOid [index] = [UInt8.ofNat index] := by
  rw [encodeOid_cons, encodeOid_nil, List.append_nil, encodeId_of_lt small]

theorem nextVarbinding_singleton (storeLen byte : UInt8) :
    nextVarbinding storeLen [byte] = ⟨storeLen, [byte]⟩ :=
  rfl

theorem nextVarbinding_nil_len (storeLen : UInt8) : (nextVarbinding storeLen []).len = 0 :=
  rfl

theorem nextBind_exhausted {bind : Varbinding} {reaction : Reaction}
    (exhausted : Exhausted bind reaction) : nextBind bind reaction [] = none := by
  unfold Exhausted at exhausted
  cases ncb : reaction.ncb with
  | none =>
      simp only [ncb] at exhausted
      simp [nextBind, ncb, exhausted]
  | some next =>
      simp only [ncb] at exhausted
      simp [nextBind, ncb, exhausted, nextVarbinding_nil_len]

theorem snmpNextBind_leave_scalar {bind : Varbinding} {reaction next : Reaction}
    (exhausted : Exhausted bind reaction) (ncbNext : next.ncb = none) (reactions : List Reaction)
    (packet : Memory) (out : Nat) :
    snmpNextBind packet out bind reaction (next :: reactions) =
      (packet, some (⟨UInt8.ofNat next.objName.length, []⟩, next)) := by
  unfold Exhausted at exhausted
  cases ncb : reaction.ncb with
  | none =>
      simp only [ncb] at exhausted
      simp [snmpNextBind, ncb, exhausted, ncbNext]
  | some step =>
      simp only [ncb] at exhausted
      simp [snmpNextBind, ncb, exhausted, nextVarbinding_nil_len, ncbNext]

theorem snmpNextBind_leave_column {bind : Varbinding} {reaction next : Reaction}
    (exhausted : Exhausted bind reaction) {stepNext : List UInt8 → List UInt8}
    (ncbNext : next.ncb = some stepNext) (reactions : List Reaction) (packet : Memory) (out : Nat) :
    snmpNextBind packet out bind reaction (next :: reactions) =
      (writeBlock packet (out + 2 + (UInt8.ofNat next.objName.length).toNat) (stepNext []),
        some (nextVarbinding (UInt8.ofNat next.objName.length) (stepNext []), next)) := by
  unfold Exhausted at exhausted
  cases ncb : reaction.ncb with
  | none =>
      simp only [ncb] at exhausted
      simp [snmpNextBind, ncb, exhausted, ncbNext]
  | some step =>
      simp only [ncb] at exhausted
      simp [snmpNextBind, ncb, exhausted, nextVarbinding_nil_len, ncbNext]

/-- Without a sub-identifier the search goes on to the first instance of the next entry. -/
theorem lands_next {bind : Varbinding} {reaction : Reaction} (exhausted : Exhausted bind reaction)
    (next : Entry) (reactions : List Reaction) :
    Lands bind reaction (next.reaction :: reactions) next.reaction (encodeOid next.firstRest) := by
  intro packet out
  have nameShort : next.reaction.objName.length < 256 := by
    have short := next.short
    rw [next.reaction_objName]
    omega
  cases kind : next.kind with
  | scalar value =>
      have ncbNext : next.reaction.ncb = none := by
        rw [Entry.reaction, kind]
      have first : next.firstRest = [] := by
        rw [Entry.firstRest, kind]
      rw [snmpNextBind_leave_scalar exhausted ncbNext, first, encodeOid_nil, writeBlock_nil]
  | column count value sized =>
      have ncbNext : next.reaction.ncb = some (onelevelNext (UInt8.ofNat count)) := by
        rw [Entry.reaction, kind]
      have first : encodeOid next.firstRest = [0] := by
        rw [Entry.firstRest, kind]
        exact encodeOid_index (by omega)
      rw [snmpNextBind_leave_column exhausted ncbNext, first, onelevelNext,
        nextVarbinding_singleton, toNat_ofNat_of_lt nameShort]

/-- A column that goes on after the sub-identifier in the binding. -/
theorem lands_column {entry : Entry} {count : Nat} {value : UInt8 → List UInt8}
    {sized : ∀ index, 2 ≤ (value index).length ∧ (value index).length ≤ 40}
    (kind : entry.kind = .column count value sized) {data : List UInt8} {index : UInt8}
    (step : onelevelNext (UInt8.ofNat count) data = [index]) (reactions : List Reaction) :
    Lands ⟨UInt8.ofNat (encodeOid entry.name).length, data⟩ entry.reaction reactions
      entry.reaction [index] := by
  intro packet out
  have nameShort := entry.short
  have someLen : (⟨UInt8.ofNat (encodeOid entry.name).length, [index]⟩ : Varbinding).len ≠ 0 :=
    show UInt8.ofNat 1 ≠ 0 by decide
  have ncb : entry.reaction.ncb = some (onelevelNext (UInt8.ofNat count)) := by
    rw [Entry.reaction, kind]
  simp only [snmpNextBind, ncb, step, nextVarbinding_singleton, someLen, ne_eq, not_false_eq_true,
    if_true, entry.reaction_objName,
    toNat_ofNat_of_lt (show (encodeOid entry.name).length < 256 by omega)]

/-- A value without sub-identifiers and an identifier that goes on behind its name. -/
theorem snmpNextBind_scalar {entry : Entry} {value : List UInt8} (kind : entry.kind = .scalar value)
    {bind : Varbinding} (more : bind.len ≠ 0) (reactions : List Reaction) (packet : Memory)
    (out : Nat) :
    snmpNextBind packet out bind entry.reaction reactions =
      (packet, some (bind, entry.reaction)) := by
  have ncb : entry.reaction.ncb = none := by
    rw [Entry.reaction, kind]
  simp only [snmpNextBind, ncb, more, ne_eq, not_false_eq_true, if_true]

section Next

variable {agent : Agent} {stack : Varbinding} {oid : List UInt8} {bind : Varbinding}
  {reaction target : Reaction} {reactions : List Reaction} {sub : List UInt8}
  (found : (if oid = [] then some (stack, agent.first, agent.more)
    else snmpFindReaction oid (agent.first :: agent.more)) = some (bind, reaction, reactions))

include found

theorem snmpProcBind_next {packet after : Memory} {vb : Nat} {next : Varbinding}
    (searched : snmpNextBind (writeBlock packet vb [typeSequence, 0]) (vb + 2) bind reaction
      reactions = (after, some (next, target))) :
    snmpProcBind agent stack typeGetNextReq oid packet vb =
      finishBind (writeBlock (writeBlock after (vb + 2) [typeOid, next.storeLen + next.len])
        (vb + 2 + 2) (copyName target.objName next.storeLen)) vb
        (vb + 2 + 2 + (next.storeLen + next.len).toNat) (next.storeLen + next.len)
        (target.cb next.data) := by
  simp only [snmpProcBind, and_true, found, if_true, searched]

theorem snmpProcBind_of_lands (lands : Lands bind reaction reactions target sub)
    (short : target.objName.length + sub.length < 256) (packet : Memory) (vb : Nat) :
    ((finishAnswer (UInt8.ofNat (target.objName.length + sub.length)) (target.cb sub)).isSome →
      Names (snmpProcBind agent stack typeGetNextReq oid packet vb) vb (target.objName ++ sub)) ∧
    (¬ (finishAnswer (UInt8.ofNat (target.objName.length + sub.length)) (target.cb sub)).isSome →
      (snmpProcBind agent stack typeGetNextReq oid packet vb).2 = 0) := by
  have length : UInt8.ofNat target.objName.length + UInt8.ofNat sub.length =
      UInt8.ofNat (target.objName.length + sub.length) := by
    rw [UInt8.ofNat_add]
  have next : nextBind bind reaction reactions =
      some (⟨UInt8.ofNat target.objName.length, sub⟩, target) := by
    rw [← snmpNextBind_snd packet vb, lands]
  have answer : bindingAnswer agent stack typeGetNextReq oid =
      finishAnswer (UInt8.ofNat (target.objName.length + sub.length)) (target.cb sub) := by
    simp only [bindingAnswer, selectAnswer, and_true, found, if_true, next, Option.map_some,
      Varbinding.len, length]
  have nonzero := snmpProcBind_ne_zero_iff agent stack typeGetNextReq oid packet vb
  rw [answer] at nonzero
  refine ⟨fun answered => ⟨nonzero.2 answered, ?_⟩, fun unanswered => ?_⟩
  · rw [snmpProcBind_next found (lands _ _)]
    simp only [Varbinding.len, length, toNat_ofNat_of_lt short]
    exact readBlock_answer _ vb target.objName sub _ (by omega)
  · by_contra answered
    exact unanswered (nonzero.1 answered)

/-- The answer at the entry where the search ends. -/
theorem snmpProcBind_landed {entry : Entry} {rest : List Nat}
    (lands : Lands bind reaction reactions entry.reaction (encodeOid rest))
    (restShort : (encodeOid rest).length ≤ 1) (packet : Memory) (vb : Nat) :
    (entry.Serves rest → Names (snmpProcBind agent stack typeGetNextReq oid packet vb) vb
      (encodeOid (entry.name ++ rest))) ∧
    (¬ entry.Serves rest → (snmpProcBind agent stack typeGetNextReq oid packet vb).2 = 0) := by
  have nameShort := entry.short
  have landed := snmpProcBind_of_lands found lands
    (by rw [entry.reaction_objName]; omega) packet vb
  rw [entry.reaction_objName, entry.cb_isSome_iff, ← encodeOid_append] at landed
  exact landed

theorem snmpProcBind_exhausted (exhausted : Exhausted bind reaction) (last : reactions = [])
    (packet : Memory) (vb : Nat) :
    (snmpProcBind agent stack typeGetNextReq oid packet vb).2 = 0 := by
  by_contra answered
  rw [← ne_eq, snmpProcBind_ne_zero_iff] at answered
  simp [bindingAnswer, selectAnswer, found, last, nextBind_exhausted exhausted] at answered

theorem snmpProcBind_scalar {entry : Entry} {value : List UInt8} (kind : entry.kind = .scalar value)
    (same : reaction = entry.reaction) (more : bind.len ≠ 0) (packet : Memory) (vb : Nat) :
    (snmpProcBind agent stack typeGetNextReq oid packet vb).2 = 0 := by
  by_contra answered
  have someData : bind.data ≠ [] := by
    intro empty
    rw [Varbinding.len, empty] at more
    exact more rfl
  have next : nextBind bind reaction reactions = some (bind, reaction) := by
    rw [← snmpNextBind_snd packet vb, same, snmpNextBind_scalar kind more]
  have silent : reaction.cb bind.data = [] := by
    rw [same, Entry.reaction, kind]
    simp [scalarReaction, someData]
  rw [← ne_eq, snmpProcBind_ne_zero_iff] at answered
  simp [bindingAnswer, selectAnswer, found, next, silent, finishAnswer_nil] at answered

end Next

end Ethersex.Snmp

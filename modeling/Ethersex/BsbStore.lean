import Ethersex.BsbReception

/-!
# The store of boiler messages

`bsbport_store_msg` and `bsbport_calc_value` of `protocols/bsbport/bsbport_rx.c`, in builds with
`BSBPORT_MQTT_SUPPORT`.  A copy of a negative number of bytes goes through the whole memory and has
no result.
-/

namespace Ethersex.Bsbport

open ByteMemory

/-- `bsbport_msg`. -/
structure Entry where
  p1 : UInt8
  p2 : UInt8
  p3 : UInt8
  p4 : UInt8
  src : UInt8
  dest : UInt8
  type : UInt8
  value : Int16
  dataLength : UInt8
  data : Memory
  mqttNew : UInt8

/-- `bsbport_buffer_msg`. -/
structure MsgBuffer where
  act : Nat
  entries : List Entry

/-- `bsbport_rx_init`. -/
def bsbportRxInit (config : Config) : MsgBuffer :=
  ⟨0, List.replicate config.messageBufferLen ⟨0, 0, 0, 0, 0, 0, 0, 0, 0, fun _ => 0, 0⟩⟩

/-- `bsbport_ConvertToInt16` of the bytes from a position on. -/
def convertToInt16 (data : Memory) (position : Nat) : Int16 :=
  ((data position).toUInt16 <<< 8 + (data (position + 1)).toUInt16).toInt16

/-- `bsbport_calc_value`. -/
def bsbportCalcValue (msg : Entry) : Entry :=
  if msg.type = typeInfo then { msg with value := convertToInt16 msg.data 0 }
  else if msg.type = typeSet then { msg with value := convertToInt16 msg.data 0 }
  else if msg.type = typeAck then msg
  else if msg.type = typeQuery then msg
  else if msg.type = typeAnswer ∧ msg.dataLength = 12 ∧ msg.p1 = 0x05 ∧ msg.p2 = 0x3D ∧
      msg.p3 = 0x00 ∧ msg.p4 = 0x9A then
    { msg with value := (msg.data 1).toUInt16.toInt16 }
  else if msg.type = typeAnswer ∧ msg.dataLength = 3 then
    { msg with value := convertToInt16 msg.data 1 }
  else if msg.type = typeAnswer ∧ msg.dataLength = 2 then
    { msg with value := convertToInt16 msg.data 0 }
  else if msg.type = typeAnswer then { msg with value := convertToInt16 msg.data 1 }
  else msg

/-- The number of bytes `msg[LEN] - DATA - 2` that are copied. -/
def copyLength (msg : Memory) : Int :=
  (msg posLen).toNat - posData - 2

/-- The `memcpy` into the array `data` of an entry. -/
def copyData (config : Config) (msg : Memory) (data : Memory) : Option Memory :=
  if 0 ≤ copyLength msg ∧ copyLength msg ≤ config.messageMaxLen - 11 then
    some (writeBlock data 0 (readBlock msg posData (copyLength msg).toNat))
  else none

/-- The entry is that of the source and the parameter of a message. -/
def Matches (msg : Memory) (entry : Entry) : Prop :=
  0x7F &&& entry.src = 0x7F &&& msg posSrc ∧ entry.p1 = msg posP1 ∧ entry.p2 = msg posP2 ∧
    entry.p3 = msg posP3 ∧ entry.p4 = msg posP4

instance (msg : Memory) (entry : Entry) : Decidable (Matches msg entry) :=
  inferInstanceAs (Decidable (_ ∧ _))

/-- The update of an entry. -/
def updateEntry (config : Config) (msg : Memory) (entry : Entry) : Option Entry :=
  (copyData config msg entry.data).map fun data =>
    { bsbportCalcValue { entry with data := data, dataLength := msg posLen - 9 - 2 } with
      mqttNew := 1 }

/-- The loop over the entries, and whether one has been updated. -/
def updateLoop (config : Config) (msg : Memory) : List Entry → Option (List Entry × Bool)
  | [] => some ([], false)
  | entry :: entries =>
      if Matches msg entry then do
        let entry ← updateEntry config msg entry
        let (entries, _) ← updateLoop config msg entries
        return (entry :: entries, true)
      else do
        let (entries, saved) ← updateLoop config msg entries
        return (entry :: entries, saved)

/-- The insertion in the place of an entry. -/
def insertEntry (config : Config) (msg : Memory) (entry : Entry) : Option Entry :=
  (copyData config msg entry.data).map fun data =>
    bsbportCalcValue
      { entry with
        data := data, dataLength := msg posLen - 9 - 2, src := msg posSrc, dest := msg posDest
        type := msg posType, p1 := msg posP1, p2 := msg posP2, p3 := msg posP3, p4 := msg posP4
        mqttNew := 1 }

/-- `bsbport_store_msg`. -/
def bsbportStoreMsg (config : Config) (msg : Memory) (buffer : MsgBuffer) : Option MsgBuffer := do
  let (entries, saved) ← updateLoop config msg buffer.entries
  let buffer := { buffer with entries := entries }
  let buffer ←
    if saved then some buffer
    else do
      let entry ← buffer.entries[buffer.act]?
      let entry ← insertEntry config msg entry
      pure { buffer with entries := buffer.entries.set buffer.act entry, act := buffer.act + 1 }
  return if config.messageBufferLen ≤ buffer.act then { buffer with act := 0 } else buffer

/-- The value by a type that has one. -/
def decode (type : UInt8) (entry : Entry) : Option Int16 :=
  if type = typeInfo ∨ type = typeSet then some (convertToInt16 entry.data 0)
  else if type = typeAnswer then
    if entry.dataLength = 12 ∧ entry.p1 = 0x05 ∧ entry.p2 = 0x3D ∧ entry.p3 = 0x00 ∧
        entry.p4 = 0x9A then
      some (entry.data 1).toUInt16.toInt16
    else if entry.dataLength = 2 then some (convertToInt16 entry.data 0)
    else some (convertToInt16 entry.data 1)
  else none

/-- Only the value is calculated. -/
theorem bsbportCalcValue_eq (msg : Entry) :
    bsbportCalcValue msg = { msg with value := (decode msg.type msg).getD msg.value } := by
  rw [bsbportCalcValue, decode]
  by_cases info : msg.type = typeInfo
  · rw [if_pos info, if_pos (Or.inl info), Option.getD_some]
  · by_cases set : msg.type = typeSet
    · rw [if_neg info, if_pos set, if_pos (Or.inr set), Option.getD_some]
    · rw [if_neg info, if_neg set, if_neg (not_or.mpr ⟨info, set⟩)]
      by_cases answer : msg.type = typeAnswer
      · have notAck : msg.type ≠ typeAck := by rw [answer]; decide
        have notQuery : msg.type ≠ typeQuery := by rw [answer]; decide
        rw [if_neg notAck, if_neg notQuery, if_pos answer]
        simp only [answer, true_and, if_true]
        split_ifs with error three two
        · rfl
        · rw [three] at two
          exact absurd two (by decide)
        · rfl
        · rfl
        · rfl
      · simp only [answer, false_and, if_false, ite_self, Option.getD_none]

/-- What `bsbport_rx_periodic` accepts. -/
def Accepted (config : Config) (msg : Memory) (len : Nat) : Prop :=
  posLen < len ∧ len = (msg posLen).toNat ∧ len ≤ config.messageMaxLen ∧ bsbportCrc msg len = 0

instance (config : Config) (msg : Memory) (len : Nat) : Decidable (Accepted config msg len) :=
  inferInstanceAs (Decidable (_ ∧ _))

section Copies

variable {config : Config} {msg : Memory} {len : Nat}

theorem copyData_eq (accepted : Accepted config msg len) (data : Memory) :
    copyData config msg data =
      if 11 ≤ len then some (writeBlock data 0 (readBlock msg posData (len - 11))) else none := by
  obtain ⟨-, length, fits, -⟩ := accepted
  have number : copyLength msg = (len : Int) - 11 := by
    rw [copyLength, ← length, show (posData : Int) = 9 from rfl]
    omega
  have room := config.dataFits
  rw [copyData, number]
  by_cases long : 11 ≤ len
  · have count : ((len : Int) - 11).toNat = len - 11 := by omega
    rw [if_pos (by omega), if_pos long, count]
  · rw [if_neg (by omega), if_neg long]

/-- The entry behind an update. -/
def updated (msg : Memory) (len : Nat) (entry : Entry) : Entry :=
  { bsbportCalcValue
      { entry with
        data := writeBlock entry.data 0 (readBlock msg posData (len - 11))
        dataLength := msg posLen - 9 - 2 } with
    mqttNew := 1 }

/-- The entry behind an insertion. -/
def inserted (msg : Memory) (len : Nat) (entry : Entry) : Entry :=
  bsbportCalcValue
    { entry with
      data := writeBlock entry.data 0 (readBlock msg posData (len - 11))
      dataLength := msg posLen - 9 - 2, src := msg posSrc, dest := msg posDest
      type := msg posType, p1 := msg posP1, p2 := msg posP2, p3 := msg posP3, p4 := msg posP4
      mqttNew := 1 }

theorem updateEntry_eq (accepted : Accepted config msg len) (entry : Entry) :
    updateEntry config msg entry = if 11 ≤ len then some (updated msg len entry) else none := by
  rw [updateEntry, copyData_eq accepted]
  split_ifs
  · rfl
  · rfl

theorem insertEntry_eq (accepted : Accepted config msg len) (entry : Entry) :
    insertEntry config msg entry = if 11 ≤ len then some (inserted msg len entry) else none := by
  rw [insertEntry, copyData_eq accepted]
  split_ifs
  · rfl
  · rfl

/-- The loop over the entries updates those of the message. -/
theorem updateLoop_eq (accepted : Accepted config msg len) (long : 11 ≤ len)
    (entries : List Entry) :
    updateLoop config msg entries =
      some (entries.map fun entry => if Matches msg entry then updated msg len entry else entry,
        decide (∃ entry ∈ entries, Matches msg entry)) := by
  induction entries with
  | nil => simp [updateLoop]
  | cons entry entries ih =>
      rw [updateLoop, ih, updateEntry_eq accepted, if_pos long]
      by_cases same : Matches msg entry
      · simp [same]
      · simp [same]

/-- For a short message there is no result when an entry is that of the message. -/
theorem updateLoop_short (accepted : Accepted config msg len) (short : ¬11 ≤ len)
    (entries : List Entry) :
    updateLoop config msg entries =
      if ∃ entry ∈ entries, Matches msg entry then none else some (entries, false) := by
  induction entries with
  | nil => simp [updateLoop]
  | cons entry entries ih =>
      rw [updateLoop, ih, updateEntry_eq accepted, if_neg short]
      by_cases same : Matches msg entry
      · simp [same]
      · by_cases more : ∃ entry ∈ entries, Matches msg entry
        · simp [same, more]
        · simp [same, more]

end Copies

/-- No entry is that of the message. -/
def IsNew (msg : Memory) (buffer : MsgBuffer) : Prop :=
  ∀ entry ∈ buffer.entries, ¬Matches msg entry

/-- The entry behind those that are left. -/
def nextAct (config : Config) (act : Nat) : Nat :=
  if config.messageBufferLen ≤ act + 1 then 0 else act + 1

section Store

variable {config : Config} {msg : Memory} {len : Nat} {buffer : MsgBuffer}

theorem bsbportStoreMsg_short (accepted : Accepted config msg len) (short : ¬11 ≤ len) :
    bsbportStoreMsg config msg buffer = none := by
  rw [bsbportStoreMsg, updateLoop_short accepted short]
  by_cases found : ∃ entry ∈ buffer.entries, Matches msg entry
  · rw [if_pos found]
    rfl
  · rw [if_neg found]
    cases oldest : buffer.entries[buffer.act]? with
    | none => simp [oldest]
    | some entry => simp [insertEntry_eq accepted, short]

theorem bsbportStoreMsg_update (accepted : Accepted config msg len) (long : 11 ≤ len)
    (inside : buffer.act < config.messageBufferLen) (known : ¬IsNew msg buffer) :
    bsbportStoreMsg config msg buffer = some { buffer with
      entries := buffer.entries.map fun entry =>
        if Matches msg entry then updated msg len entry else entry } := by
  have found : ∃ entry ∈ buffer.entries, Matches msg entry := by
    simpa [IsNew] using known
  rw [bsbportStoreMsg, updateLoop_eq accepted long]
  simp [found, Nat.not_le.mpr inside]

theorem bsbportStoreMsg_insert (accepted : Accepted config msg len) (long : 11 ≤ len)
    {oldest : Entry} (first : buffer.entries[buffer.act]? = some oldest) (new : IsNew msg buffer) :
    bsbportStoreMsg config msg buffer = some
      ⟨nextAct config buffer.act, buffer.entries.set buffer.act (inserted msg len oldest)⟩ := by
  have none : ¬∃ entry ∈ buffer.entries, Matches msg entry := by
    simpa [IsNew] using new
  have same : (buffer.entries.map fun entry =>
      if Matches msg entry then updated msg len entry else entry) = buffer.entries :=
    (List.map_congr_left fun entry member => if_neg (new entry member)).trans (List.map_id' _)
  rw [bsbportStoreMsg, updateLoop_eq accepted long, same, decide_eq_false none]
  simp [first, insertEntry_eq accepted, long, nextAct]
  split_ifs
  · rfl
  · rfl

end Store

/-- The stores of a run, with the number of insertions and that of each entry's insertion.  In
between `bsbport_mqtt` takes the mark of new entries away. -/
inductive Run (config : Config) : MsgBuffer → Nat → (Nat → Nat) → Prop
  | init : Run config (bsbportRxInit config) 0 fun _ => 0
  | published {buffer : MsgBuffer} {count : Nat} {born : Nat → Nat} (i : Nat)
      (before : Run config buffer count born) :
      Run config
        { buffer with entries := buffer.entries.modify i fun entry => { entry with mqttNew := 0 } }
        count born
  | update {buffer after : MsgBuffer} {count : Nat} {born : Nat → Nat} {msg : Memory} {len : Nat}
      (before : Run config buffer count born) (accepted : Accepted config msg len)
      (known : ¬IsNew msg buffer) (stored : bsbportStoreMsg config msg buffer = some after) :
      Run config after count born
  | insert {buffer after : MsgBuffer} {count : Nat} {born : Nat → Nat} {msg : Memory} {len : Nat}
      (before : Run config buffer count born) (accepted : Accepted config msg len)
      (new : IsNew msg buffer) (stored : bsbportStoreMsg config msg buffer = some after) :
      Run config after (count + 1) (Function.update born buffer.act (count + 1))

/-- The entries from `act` on are in the order of their insertions. -/
structure Aged (config : Config) (buffer : MsgBuffer) (count : Nat) (born : Nat → Nat) : Prop where
  length : buffer.entries.length = config.messageBufferLen
  inside : buffer.act < config.messageBufferLen
  ages : ∀ j < config.messageBufferLen,
    born ((buffer.act + j) % config.messageBufferLen) = count + (j + 1) - config.messageBufferLen

section Runs

variable {config : Config} {buffer : MsgBuffer} {count : Nat} {born : Nat → Nat}

theorem nextAct_eq {act : Nat} (inside : act < config.messageBufferLen) :
    nextAct config act = (act + 1) % config.messageBufferLen := by
  rw [nextAct]
  split_ifs with last
  · have full : act + 1 = config.messageBufferLen := by omega
    rw [full, Nat.mod_self]
  · rw [Nat.mod_eq_of_lt (by omega)]

/-- The result of a store has a message that is long enough. -/
theorem long_of_stored {msg : Memory} {len : Nat} {after : MsgBuffer}
    (accepted : Accepted config msg len)
    (stored : bsbportStoreMsg config msg buffer = some after) : 11 ≤ len := by
  by_contra short
  rw [bsbportStoreMsg_short accepted short] at stored
  cases stored

theorem Run.aged (run : Run config buffer count born) : Aged config buffer count born := by
  induction run with
  | init =>
      have positive := config.someMessage
      refine ⟨List.length_replicate, positive, fun j inside => ?_⟩
      omega
  | published i before ih =>
      refine ⟨?_, ih.inside, ih.ages⟩
      rw [List.length_modify]
      exact ih.length
  | update before accepted known stored ih =>
      rw [bsbportStoreMsg_update accepted (long_of_stored accepted stored) ih.inside known,
        Option.some.injEq] at stored
      rw [← stored]
      refine ⟨?_, ih.inside, ih.ages⟩
      rw [List.length_map]
      exact ih.length
  | @insert buffer after count born msg len before accepted new stored ih =>
      have present : buffer.act < buffer.entries.length := ih.length ▸ ih.inside
      rw [bsbportStoreMsg_insert accepted (long_of_stored accepted stored)
        (List.getElem?_eq_getElem present) new, Option.some.injEq] at stored
      rw [← stored]
      have positive := config.someMessage
      refine ⟨?_, ?_, fun j inside => ?_⟩
      · rw [List.length_set]
        exact ih.length
      · rw [nextAct_eq ih.inside]
        exact Nat.mod_lt _ positive
      · simp only [nextAct_eq ih.inside, Nat.mod_add_mod]
        rw [Nat.add_assoc, Nat.add_comm 1 j]
        by_cases last : j + 1 = config.messageBufferLen
        · rw [last, Nat.add_mod_right, Nat.mod_eq_of_lt ih.inside, Function.update_self]
          omega
        · have apart : (buffer.act + (j + 1)) % config.messageBufferLen ≠ buffer.act := by
            have actInside := ih.inside
            intro same
            by_cases wraps : buffer.act + (j + 1) < config.messageBufferLen
            · rw [Nat.mod_eq_of_lt wraps] at same
              omega
            · have once : buffer.act + (j + 1) - config.messageBufferLen <
                  config.messageBufferLen := by omega
              rw [Nat.mod_eq_sub_mod (Nat.not_lt.mp wraps), Nat.mod_eq_of_lt once] at same
              omega
          rw [Function.update_of_ne apart, ih.ages (j + 1) (by omega)]
          omega

/-- The entry at `act` is the oldest one. -/
theorem Run.oldest (run : Run config buffer count born) :
    ∀ i < config.messageBufferLen, born buffer.act ≤ born i := by
  intro i inside
  have aged := run.aged
  have actInside := aged.inside
  have positive := config.someMessage
  have first := aged.ages 0 positive
  rw [Nat.add_zero, Nat.mod_eq_of_lt aged.inside] at first
  obtain ⟨j, small, position⟩ : ∃ j < config.messageBufferLen,
      (buffer.act + j) % config.messageBufferLen = i := by
    by_cases behind : buffer.act ≤ i
    · refine ⟨i - buffer.act, by omega, ?_⟩
      rw [Nat.add_sub_cancel' behind, Nat.mod_eq_of_lt inside]
    · refine ⟨config.messageBufferLen + i - buffer.act, by omega, ?_⟩
      rw [Nat.add_sub_cancel' (by omega), Nat.add_mod_left, Nat.mod_eq_of_lt inside]
  have age := aged.ages j small
  rw [position] at age
  omega

end Runs

/-- An entry holds the type and the data of a message, and a value by that type. -/
structure Holds (msg : Memory) (len : Nat) (entry : Entry) : Prop where
  type : entry.type = msg posType
  data : ∀ k < len - 11, entry.data k = msg (posData + k)
  dataLength : entry.dataLength.toNat = len - 11
  value : ∀ value ∈ decode (msg posType) entry, entry.value = value

/-- A message is stored: its data fit, every entry of its source and parameter holds it, and the
others are unchanged, but for the oldest one when no entry was that of the message. -/
structure Stores (config : Config) (msg : Memory) (len : Nat) (born : Nat → Nat)
    (before after : MsgBuffer) : Prop where
  notNegative : 0 ≤ copyLength msg
  fits : copyLength msg ≤ config.messageMaxLen - 11
  holds : ∀ entry ∈ after.entries, Matches msg entry → Holds msg len entry
  others : ∀ i entry, before.entries[i]? = some entry → ¬Matches msg entry →
    after.entries[i]? = some entry ∨
      i = before.act ∧ IsNew msg before ∧ ∀ j < config.messageBufferLen, born i ≤ born j

section Every

variable {config : Config} {msg : Memory} {len : Nat} {buffer : MsgBuffer} {count : Nat}
  {born : Nat → Nat}

theorem dataLength_eq (accepted : Accepted config msg len) (long : 11 ≤ len) :
    (msg posLen - 9 - 2).toNat = len - 11 := by
  obtain ⟨-, length, -, -⟩ := accepted
  have nine : (msg posLen - 9).toNat = (msg posLen).toNat - 9 := by
    apply UInt8.toNat_sub_of_le
    rw [UInt8.le_iff_toNat_le, ← length]
    exact Nat.le_trans (by decide) long
  rw [UInt8.toNat_sub_of_le, nine, ← length]
  · exact Nat.sub_sub len 9 2
  · rw [UInt8.le_iff_toNat_le, nine, ← length]
    exact Nat.le_sub_of_add_le long

/-- An entry with the type and the data of a message holds it when its value is calculated. -/
theorem holds_calcValue (accepted : Accepted config msg len) (long : 11 ≤ len) {entry : Entry}
    (type : entry.type = msg posType) {before : Memory}
    (data : entry.data = writeBlock before 0 (readBlock msg posData (len - 11)))
    (dataLength : entry.dataLength = msg posLen - 9 - 2) :
    Holds msg len (bsbportCalcValue entry) := by
  rw [bsbportCalcValue_eq]
  constructor
  · exact type
  · intro k inside
    rw [data, writeBlock_inside (Nat.zero_le k) (by rw [length_readBlock]; omega), Nat.sub_zero,
      getD_readBlock inside]
  · rw [dataLength]
    exact dataLength_eq accepted long
  · intro value decoded
    have same : decode entry.type entry = some value := by
      rw [type]
      exact decoded
    rw [same, Option.getD_some]

theorem updated_eq (entry : Entry) : updated msg len entry = bsbportCalcValue
    { entry with
      data := writeBlock entry.data 0 (readBlock msg posData (len - 11))
      dataLength := msg posLen - 9 - 2, mqttNew := 1 } := by
  rw [updated, bsbportCalcValue_eq, bsbportCalcValue_eq]
  rfl

theorem type_updated (entry : Entry) : (updated msg len entry).type = entry.type := by
  rw [updated_eq, bsbportCalcValue_eq]

theorem matches_updated (entry : Entry) :
    Matches msg (updated msg len entry) ↔ Matches msg entry := by
  rw [updated_eq, bsbportCalcValue_eq]
  exact Iff.rfl

theorem holds_updated (accepted : Accepted config msg len) (long : 11 ≤ len) {entry : Entry}
    (type : entry.type = msg posType) : Holds msg len (updated msg len entry) := by
  rw [updated_eq]
  exact holds_calcValue accepted long type rfl rfl

theorem holds_inserted (accepted : Accepted config msg len) (long : 11 ≤ len) (entry : Entry) :
    Holds msg len (inserted msg len entry) :=
  holds_calcValue accepted long rfl rfl rfl

theorem copyLength_eq (accepted : Accepted config msg len) :
    copyLength msg = (len : Int) - 11 := by
  rw [copyLength, ← accepted.2.1, show (posData : Int) = 9 from rfl]
  omega

/-- An update stores the message when the entries that it matches have its type. -/
theorem stores_of_known (run : Run config buffer count born) (accepted : Accepted config msg len)
    (long : 11 ≤ len) (known : ¬IsNew msg buffer)
    (types : ∀ entry ∈ buffer.entries, Matches msg entry → entry.type = msg posType) :
    ∃ after, bsbportStoreMsg config msg buffer = some after ∧
      Stores config msg len born buffer after := by
  have number := copyLength_eq accepted
  have room := accepted.2.2.1
  refine ⟨_, bsbportStoreMsg_update accepted long run.aged.inside known, ?_, ?_, ?_, ?_⟩
  · omega
  · omega
  · intro entry member same
    obtain ⟨old, oldMember, rfl⟩ := List.mem_map.mp member
    split_ifs at same ⊢ with matched
    · exact holds_updated accepted long (types old oldMember matched)
    · exact absurd same matched
  · intro i entry at_ other
    left
    rw [List.getElem?_map, at_, Option.map_some, if_neg other]

/-- An insertion replaces the oldest entry. -/
theorem stores_of_new (run : Run config buffer count born) (accepted : Accepted config msg len)
    (long : 11 ≤ len) (new : IsNew msg buffer) :
    ∃ after, bsbportStoreMsg config msg buffer = some after ∧
      Stores config msg len born buffer after := by
  have number := copyLength_eq accepted
  have room := accepted.2.2.1
  have present : buffer.act < buffer.entries.length := run.aged.length ▸ run.aged.inside
  refine ⟨_, bsbportStoreMsg_insert accepted long (List.getElem?_eq_getElem present) new,
    ?_, ?_, ?_, ?_⟩
  · omega
  · omega
  · intro entry member same
    rcases List.mem_or_eq_of_mem_set member with old | rfl
    · exact absurd same (new entry old)
    · exact holds_inserted accepted long _
  · intro i entry at_ other
    by_cases replaced : i = buffer.act
    · right
      rw [replaced]
      exact ⟨rfl, new, run.oldest⟩
    · left
      rw [List.getElem?_set_ne (Ne.symm replaced)]
      exact at_

/-- Where a message is stored every entry that it matches has had its type before. -/
theorem types_of_stores (run : Run config buffer count born) (accepted : Accepted config msg len)
    {after : MsgBuffer} (stored : bsbportStoreMsg config msg buffer = some after)
    (stores : Stores config msg len born buffer after) :
    ∀ entry ∈ buffer.entries, Matches msg entry → entry.type = msg posType := by
  intro entry member same
  have known : ¬IsNew msg buffer := fun new => new entry member same
  rw [bsbportStoreMsg_update accepted (long_of_stored accepted stored) run.aged.inside known,
    Option.some.injEq] at stored
  have present : updated msg len entry ∈ after.entries := by
    rw [← stored]
    exact List.mem_map.mpr ⟨entry, member, if_pos same⟩
  have holds := stores.holds _ present ((matches_updated entry).mpr same)
  rw [← holds.type, type_updated]

/-- `bsbport_store_msg` stores a message exactly when it has the bytes in front of the data and
behind them, and no entry of its source and parameter has another type. -/
theorem bsbportStoreMsg_stores_iff (run : Run config buffer count born)
    (accepted : Accepted config msg len) :
    (∃ after, bsbportStoreMsg config msg buffer = some after ∧
        Stores config msg len born buffer after) ↔
      11 ≤ len ∧ ∀ entry ∈ buffer.entries, Matches msg entry → entry.type = msg posType := by
  constructor
  · rintro ⟨after, stored, stores⟩
    exact ⟨long_of_stored accepted stored, types_of_stores run accepted stored stores⟩
  · rintro ⟨long, types⟩
    by_cases new : IsNew msg buffer
    · exact stores_of_new run accepted long new
    · exact stores_of_known run accepted long new types

end Every

theorem accepted_answerMessage : Accepted defaultConfig (asBuffer answerMessage) 13 := by
  decide +kernel

theorem bsbportStoreMsg_stores_answer :
    (∃ after, bsbportStoreMsg defaultConfig (asBuffer answerMessage)
          (bsbportRxInit defaultConfig) = some after ∧
        Stores defaultConfig (asBuffer answerMessage) 13 (fun _ => 0)
          (bsbportRxInit defaultConfig) after) ↔
      11 ≤ 13 ∧ ∀ entry ∈ (bsbportRxInit defaultConfig).entries,
        Matches (asBuffer answerMessage) entry → entry.type = asBuffer answerMessage posType :=
  bsbportStoreMsg_stores_iff Run.init accepted_answerMessage

/-- A message without a complete parameter. -/
def shortMessage : List UInt8 :=
  [0xDC, 0x80, 0x47, 0x0A, 0x07, 0x3D, 0x05, 0x05, 0x11, 0xDD]

/-- An information with the source and the parameter of the answer. -/
def infoMessage : List UInt8 :=
  [0xDC, 0x80, 0x7F, 0x0D, 0x02, 0x3D, 0x05, 0x05, 0x19, 0x01, 0x03, 0xAA, 0xCA]

theorem accepted_shortMessage : Accepted defaultConfig (asBuffer shortMessage) 10 := by
  decide +kernel

theorem accepted_infoMessage : Accepted defaultConfig (asBuffer infoMessage) 13 := by
  decide +kernel

/-- The store after the answer. -/
def answerBuffer : MsgBuffer :=
  let buffer := bsbportRxInit defaultConfig
  ⟨1, buffer.entries.set 0 (inserted (asBuffer answerMessage) 13
    ⟨0, 0, 0, 0, 0, 0, 0, 0, 0, fun _ => 0, 0⟩)⟩

/-- A short message has a negative number of data bytes, and an information about the same parameter
as an earlier answer leaves the type of the answer. -/
theorem short_and_retyped_not_stored :
    (Accepted defaultConfig (asBuffer shortMessage) 10 ∧
      ¬∃ after, bsbportStoreMsg defaultConfig (asBuffer shortMessage)
          (bsbportRxInit defaultConfig) = some after ∧
        Stores defaultConfig (asBuffer shortMessage) 10 (fun _ => 0)
          (bsbportRxInit defaultConfig) after) ∧
    Run defaultConfig answerBuffer 1 (Function.update (fun _ => 0) 0 1) ∧
      Accepted defaultConfig (asBuffer infoMessage) 13 ∧
      ¬∃ after, bsbportStoreMsg defaultConfig (asBuffer infoMessage) answerBuffer = some after ∧
        Stores defaultConfig (asBuffer infoMessage) 13 (Function.update (fun _ => 0) 0 1)
          answerBuffer after := by
  have run : Run defaultConfig answerBuffer 1 (Function.update (fun _ => 0) 0 1) := by
    have new : IsNew (asBuffer answerMessage) (bsbportRxInit defaultConfig) := by
      intro entry member
      rw [List.eq_of_mem_replicate member]
      decide
    exact Run.insert Run.init accepted_answerMessage new
      (bsbportStoreMsg_insert accepted_answerMessage (by decide) rfl new)
  refine ⟨⟨accepted_shortMessage, ?_⟩, run, accepted_infoMessage, ?_⟩
  · rintro ⟨after, stored, -⟩
    exact absurd (long_of_stored accepted_shortMessage stored) (by decide)
  · rintro ⟨after, stored, stores⟩
    have first := types_of_stores run accepted_infoMessage stored stores _
      (List.mem_of_getElem? (i := 0) rfl) (by decide)
    exact absurd first (by decide)

end Ethersex.Bsbport

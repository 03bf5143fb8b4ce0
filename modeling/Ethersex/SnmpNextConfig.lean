import Ethersex.SnmpNextOrder

/-!
# GetNextRequest and the table of a configuration

`snmp_reactions` is ordered in every configuration, and no name in it begins another one: leaving
out entries does not change that.  So the agent of a configuration answers with the next instance
exactly under the condition `NextHolds` on its table.
-/

namespace Ethersex.Snmp

open ByteMemory ObjectIdentifiers

/-- The sub-identifiers of an object of `system`. -/
def systemIds (object : Nat) : List Nat :=
  [43, 6, 1, 2, 1, 1, object]

/-- The sub-identifiers of `SNMP_OID_ETHERSEX`. -/
def ethersexIds (ucdExperimental : Bool) : List Nat :=
  [43, 6, 1, 4, 1] ++ if ucdExperimental then [2021, 13, 23] else [39967]

theorem encodeOid_of_small {ids : List Nat} (small : ∀ id ∈ ids, id < 128) :
    encodeOid ids = ids.map UInt8.ofNat := by
  induction ids with
  | nil => rfl
  | cons id ids ih =>
      rw [encodeOid_cons, encodeId_of_lt (small id (by simp)),
        ih fun other member => small other (by simp [member])]
      rfl

theorem encodeOid_systemIds {object : Nat} (small : object < 128) :
    encodeOid (systemIds object) = systemOid (UInt8.ofNat object) := by
  rw [encodeOid_of_small]
  · rfl
  · simp only [systemIds, List.mem_cons, List.not_mem_nil, or_false]
    omega

theorem encodeId_ucd : encodeId 2021 = [0x8f, 0x65] := by
  rw [encodeId, encodeHigh_of_ne_zero (by decide), Nat.div_eq_of_lt (by decide), encodeHigh_zero]
  rfl

theorem encodeId_ethersex : encodeId 39967 = [0x82, 0xb8, 0x1f] := by
  rw [encodeId, encodeHigh_of_ne_zero (by decide), encodeHigh_of_ne_zero (by decide),
    Nat.div_eq_of_lt (by decide), encodeHigh_zero]
  rfl

theorem encodeOid_ethersexIds (ucdExperimental : Bool) :
    encodeOid (ethersexIds ucdExperimental) = ethersexOid ucdExperimental := by
  have start : encodeOid [43, 6, 1, 4, 1] = [0x2b, 0x06, 0x01, 0x04, 0x01] :=
    encodeOid_of_small (by decide)
  have ucdEnd : encodeOid [13, 23] = [0x0d, 0x17] :=
    encodeOid_of_small (by decide)
  rw [ethersexIds, encodeOid_append, start, ethersexOid]
  cases ucdExperimental with
  | true => simp [encodeOid_cons 2021, encodeId_ucd, ucdEnd]
  | false => simp [encodeOid_cons 39967, encodeId_ethersex]

/-- A name behind `SNMP_OID_ETHERSEX`, with at most two small sub-identifiers. -/
structure ColumnName where
  ids : List Nat
  few : ids.length ≤ 2
  small : ∀ id ∈ ids, id < 128

def systemEntry (object : Fin 128) (value : List UInt8) : Entry :=
  ⟨systemIds object, by rw [encodeOid_systemIds object.isLt]; simp [systemOid], .scalar value⟩

theorem ethersexOid_length (ucdExperimental : Bool) : (ethersexOid ucdExperimental).length ≤ 9 := by
  cases ucdExperimental <;> decide

def columnEntry (ucdExperimental : Bool) (name : ColumnName) (count : Nat)
    (value : UInt8 → List UInt8)
    (sized : ∀ index, 2 ≤ (value index).length ∧ (value index).length ≤ 40) : Entry where
  name := ethersexIds ucdExperimental ++ name.ids
  short := by
    have few := name.few
    have base := ethersexOid_length ucdExperimental
    rw [encodeOid_append, encodeOid_ethersexIds, encodeOid_of_small name.small, List.length_append,
      List.length_map]
    omega
  kind := .column count value sized

theorem systemEntry_reaction (object : Fin 128) (value : List UInt8) :
    (systemEntry object value).reaction =
      ⟨systemOid (UInt8.ofNat object), scalarReaction value, none⟩ := by
  simp only [Entry.reaction, systemEntry, encodeOid_systemIds object.isLt]

theorem columnEntry_reaction (ucdExperimental : Bool) (name : ColumnName) (count : Nat)
    (value : UInt8 → List UInt8)
    (sized : ∀ index, 2 ≤ (value index).length ∧ (value index).length ≤ 40) :
    (columnEntry ucdExperimental name count value sized).reaction =
      ⟨ethersexOid ucdExperimental ++ name.ids.map UInt8.ofNat, columnReaction count value,
        some (onelevelNext (UInt8.ofNat count))⟩ := by
  simp only [Entry.reaction, columnEntry, encodeOid_append, encodeOid_ethersexIds,
    encodeOid_of_small name.small]

theorem encodeShort_sized (type : UInt8) (val : UInt16) :
    2 ≤ (encodeShort type val).length ∧ (encodeShort type val).length ≤ 40 := by
  simp [encodeShort]

theorem encodeLong_sized (type : UInt8) (val : UInt32) :
    2 ≤ (encodeLong type val).length ∧ (encodeLong type val).length ≤ 40 := by
  simp [encodeLong]

theorem encodeText_sized {text : List UInt8} (short : text.length ≤ 38) :
    2 ≤ (encodeText text).length ∧ (encodeText text).length ≤ 40 := by
  simp only [encodeText, List.length_append, List.length_cons, List.length_nil, List.length_take]
  omega

theorem romCode_sized (sensor : OnewireSensor) :
    ((List.ofFn sensor.romCode).flatMap hexByte).length ≤ 38 := by
  simp [hexByte]

theorem sensorName_sized (sensor : OnewireSensor) : (sensor.name.getD []).length ≤ 38 := by
  cases name : sensor.name with
  | none => simp
  | some text =>
      have short := sensor.nameLength text (by rw [name]; rfl)
      simp only [Option.getD_some]
      omega

/-- The values of a tank. -/
def tankValue (tank : Tank) (index : UInt8) : List UInt8 :=
  match index with
  | 0 => encodeShort typeInteger tank.level
  | 1 => encodeShort typeInteger tank.ltrFull
  | 2 => encodeLong typeCounter tank.ts
  | _ => encodeText tank.tsText

theorem tankValue_sized (tank : Tank) (index : UInt8) :
    2 ≤ (tankValue tank index).length ∧ (tankValue tank index).length ≤ 40 := by
  have short := tank.tsTextLength
  unfold tankValue
  split
  · exact encodeShort_sized _ _
  · exact encodeShort_sized _ _
  · exact encodeLong_sized _ _
  · exact encodeText_sized (by omega)

/-- The tank is a column of four values. -/
theorem tankReaction_eq (tank : Tank) : tankReaction tank = columnReaction 4 (tankValue tank) := by
  funext sub
  match sub with
  | [] => rfl
  | [index] =>
      simp only [tankReaction, columnReaction, tankValue]
      split
      · rfl
      · rfl
      · rfl
      · rfl
      · rename_i notZero notOne notTwo notThree
        rw [if_pos]
        by_contra less
        have cases : index = 0 ∨ index = 1 ∨ index = 2 ∨ index = 3 := by
          simp only [← UInt8.toNat_inj, UInt8.reduceToNat]
          omega
        rcases cases with rfl | rfl | rfl | rfl
        · exact notZero rfl
        · exact notOne rfl
        · exact notTwo rfl
        · exact notThree rfl
  | _ :: _ :: _ => rfl

def adcEntries (ucdExperimental : Bool) (adc : Adc) : List Entry :=
  columnEntry ucdExperimental ⟨[1], by decide, by decide⟩ adc.channels
      (fun index => encodeShort typeInteger (adc.get index)) (fun _ => encodeShort_sized _ _) ::
    match adc.voltage with
    | some voltage =>
        [columnEntry ucdExperimental ⟨[2, 2], by decide, by decide⟩ adc.channels
            (fun index => encodeShort typeInteger (voltage.getVoltage index))
            (fun _ => encodeShort_sized _ _),
          columnEntry ucdExperimental ⟨[2, 3], by decide, by decide⟩ adc.channels
            (fun _ => encodeShort typeInteger voltage.getVref) (fun _ => encodeShort_sized _ _)]
    | none => []

def onewireEntries (ucdExperimental : Bool) (onewire : Onewire) : List Entry :=
  [columnEntry ucdExperimental ⟨[3, 1], by decide, by decide⟩ onewire.sensorsCount
      (fun index => encodeText ((List.ofFn (onewire.sensors index).romCode).flatMap hexByte))
      (fun _ => encodeText_sized (romCode_sized _))] ++
    (if onewire.naming then
      [columnEntry ucdExperimental ⟨[3, 2], by decide, by decide⟩ onewire.sensorsCount
        (fun index => encodeText ((onewire.sensors index).name.getD []))
        (fun _ => encodeText_sized (sensorName_sized _))]
    else []) ++
    [columnEntry ucdExperimental ⟨[3, 3], by decide, by decide⟩ onewire.sensorsCount
        (fun index => encodeShort typeInteger (if (onewire.sensors index).twodigits
          then (onewire.sensors index).val else (onewire.sensors index).val * 10))
        (fun _ => encodeShort_sized _ _),
      columnEntry ucdExperimental ⟨[3, 4], by decide, by decide⟩ onewire.sensorsCount
        (fun index => encodeShort typeInteger (if (onewire.sensors index).present then 1 else 0))
        (fun _ => encodeShort_sized _ _)]

def tankEntries (ucdExperimental : Bool) (tank : Tank) : List Entry :=
  [columnEntry ucdExperimental ⟨[4], by decide, by decide⟩ 4 (tankValue tank)
    (tankValue_sized tank)]

def dhtEntries (ucdExperimental : Bool) (dht : Dht) : List Entry :=
  [columnEntry ucdExperimental ⟨[5, 1], by decide, by decide⟩ dht.sensorsCount.toNat
      (fun index => encodeShort typeInteger (dht.pollingDelay index))
        (fun _ => encodeShort_sized _ _),
    columnEntry ucdExperimental ⟨[5, 2], by decide, by decide⟩ dht.sensorsCount.toNat
      (fun index => encodeShort typeInteger (dht.temp index)) (fun _ => encodeShort_sized _ _),
    columnEntry ucdExperimental ⟨[5, 3], by decide, by decide⟩ dht.sensorsCount.toNat
      (fun index => encodeShort typeInteger (dht.humid index)) (fun _ => encodeShort_sized _ _)]

/-- The entries behind the first one. -/
def moreEntries (config : Config) : List Entry :=
  (config.uptime.toList.map fun uptime => systemEntry 3 (encodeTimeticks uptime)) ++
    [systemEntry 4 (encodeText config.contact), systemEntry 5 (encodeText config.hostname),
      systemEntry 6 (encodeText config.location)] ++
    config.adc.toList.flatMap (adcEntries config.ucdExperimental) ++
    config.onewire.toList.flatMap (onewireEntries config.ucdExperimental) ++
    config.tank.toList.flatMap (tankEntries config.ucdExperimental) ++
    config.dht.toList.flatMap (dhtEntries config.ucdExperimental)

/-- `snmp_reactions` as a table of names. -/
def configEntries (config : Config) : List Entry :=
  systemEntry 1 (encodeText config.description) :: moreEntries config

theorem adcEntries_reaction (ucdExperimental : Bool) (adc : Adc) :
    (adcEntries ucdExperimental adc).map Entry.reaction =
      adcReactions (ethersexOid ucdExperimental) adc := by
  unfold adcEntries adcReactions
  cases adc.voltage with
  | none =>
      simp only [List.map_cons, List.map_nil, columnEntry_reaction]
      rfl
  | some voltage =>
      simp only [List.map_cons, List.map_nil, columnEntry_reaction]
      rfl

theorem onewireEntries_reaction (ucdExperimental : Bool) (onewire : Onewire) :
    (onewireEntries ucdExperimental onewire).map Entry.reaction =
      onewireReactions (ethersexOid ucdExperimental) onewire := by
  unfold onewireEntries onewireReactions
  cases onewire.naming with
  | false =>
      simp only [Bool.false_eq_true, if_false, List.map_append, List.map_cons, List.map_nil,
        columnEntry_reaction]
      rfl
  | true =>
      simp only [if_true, List.map_append, List.map_cons, List.map_nil, columnEntry_reaction]
      rfl

theorem tankEntries_reaction (ucdExperimental : Bool) (tank : Tank) :
    (tankEntries ucdExperimental tank).map Entry.reaction =
      tankReactions (ethersexOid ucdExperimental) tank := by
  simp only [tankEntries, tankReactions, List.map_cons, List.map_nil, columnEntry_reaction,
    tankReaction_eq]
  rfl

theorem dhtEntries_reaction (ucdExperimental : Bool) (dht : Dht) :
    (dhtEntries ucdExperimental dht).map Entry.reaction =
      dhtReactions (ethersexOid ucdExperimental) dht := by
  simp only [dhtEntries, dhtReactions, List.map_cons, List.map_nil, columnEntry_reaction,
    UInt8.ofNat_toNat]
  rfl

theorem map_flatMap_toList {α : Type} (option : Option α) {entries : α → List Entry}
    {reactions : α → List Reaction}
    (same : ∀ value, (entries value).map Entry.reaction = reactions value) :
    (option.toList.flatMap entries).map Entry.reaction = option.toList.flatMap reactions := by
  cases option with
  | none => rfl
  | some value => simp [same]

/-- The table of a configuration is the one the agent searches. -/
theorem represents_configEntries (config : Config) (community : Memory) :
    Represents (config.agent community) (configEntries config) := by
  have uptime : (config.uptime.toList.map fun uptime =>
      systemEntry 3 (encodeTimeticks uptime)).map Entry.reaction =
        config.uptime.toList.map fun uptime => ⟨systemOid 0x03, uptimeReaction uptime, none⟩ := by
    simp only [List.map_map]
    apply List.map_congr_left
    intro uptime _
    exact systemEntry_reaction 3 _
  unfold Represents Config.agent configEntries moreEntries descReaction moreReactions
  simp only [List.map_cons, List.map_append, List.map_nil, systemEntry_reaction, uptime,
    map_flatMap_toList _ (adcEntries_reaction _), map_flatMap_toList _ (onewireEntries_reaction _),
    map_flatMap_toList _ (tankEntries_reaction _), map_flatMap_toList _ (dhtEntries_reaction _)]
  rfl

/-- The names of the table with all options. -/
def allNames (ucdExperimental : Bool) : List (List Nat) :=
  systemIds 1 :: ([systemIds 3] ++ [systemIds 4, systemIds 5, systemIds 6] ++
    [[1], [2, 2], [2, 3]].map (ethersexIds ucdExperimental ++ ·) ++
    [[3, 1], [3, 2], [3, 3], [3, 4]].map (ethersexIds ucdExperimental ++ ·) ++
    [[4]].map (ethersexIds ucdExperimental ++ ·) ++
    [[5, 1], [5, 2], [5, 3]].map (ethersexIds ucdExperimental ++ ·))

theorem toList_flatMap_sublist {α : Type} (option : Option α) {entries : α → List Entry}
    {names : List (List Nat)}
    (contained : ∀ value, ((entries value).map Entry.name).Sublist names) :
    ((option.toList.flatMap entries).map Entry.name).Sublist names := by
  cases option with
  | none => simp
  | some value => simpa using contained value

theorem configEntries_names (config : Config) :
    ((configEntries config).map Entry.name).Sublist (allNames config.ucdExperimental) := by
  unfold configEntries moreEntries allNames
  simp only [List.map_cons, List.map_append]
  refine List.Sublist.cons_cons _
    (((((List.Sublist.append ?_ ?_).append ?_).append ?_).append ?_).append
    ?_)
  · cases config.uptime with
    | none => simp
    | some uptime => exact List.Sublist.refl _
  · exact List.Sublist.refl _
  · apply toList_flatMap_sublist
    intro adc
    unfold adcEntries
    cases adc.voltage with
    | none => exact List.Sublist.cons_cons _ (List.nil_sublist _)
    | some voltage => exact List.Sublist.refl _
  · apply toList_flatMap_sublist
    intro onewire
    unfold onewireEntries
    cases onewire.naming with
    | false => exact List.Sublist.cons_cons _ (List.Sublist.cons _ (List.Sublist.refl _))
    | true => exact List.Sublist.refl _
  · exact toList_flatMap_sublist _ fun tank => List.Sublist.refl _
  · exact toList_flatMap_sublist _ fun dht => List.Sublist.refl _

theorem allNames_ordered : ∀ ucdExperimental,
    (allNames ucdExperimental).Pairwise fun first second =>
    first < second ∧ ¬ Compatible first second := by
  decide +kernel

theorem ordered_configEntries (config : Config) : Ordered (configEntries config) := by
  have names := (allNames_ordered config.ucdExperimental).sublist (configEntries_names config)
  rwa [List.pairwise_map] at names

/-- The agent names the smallest instance above the identifier, or none when there is none,
exactly under the condition on the table. -/
theorem nextRight_iff (config : Config) (community : Memory) (stack : Varbinding) (packet : Memory)
    (vb : Nat) (ids : List Nat) (short : (encodeOid ids).length < 256) :
    NextRight (config.agent community) stack packet vb ids ↔
      NextHolds (configEntries config) stack ids :=
  nextRight_iff_nextHolds (represents_configEntries config community) (ordered_configEntries config)
    rfl rfl (List.cons_ne_nil _ _) short packet vb

/-- The texts of a configuration without options. -/
def plainConfig : Config :=
  ⟨[0x65], [0x63], [0x68], [0x6c], false, none, none, none, none, none⟩

theorem systemEntry_hasInstance (object : Fin 128) {value : List UInt8}
    (sized : 2 ≤ value.length ∧ value.length ≤ 40) : (systemEntry object value).HasInstance :=
  finishAnswer_isSome (Nat.le_trans (systemEntry object value).short (by omega)) sized

theorem nextRight_iff_description :
    (encodeOid (systemIds 1)).length < 256 ∧
      NextRight (plainConfig.agent fun _ => 0) ⟨0, []⟩ (fun _ => 0) 0 (systemIds 1) := by
  have short : (encodeOid (systemIds 1)).length < 256 := by
    rw [encodeOid_systemIds (by decide)]
    decide
  have contact : (systemEntry 4 (encodeText plainConfig.contact)).HasInstance :=
    systemEntry_hasInstance 4 (by decide)
  refine ⟨short, (nextRight_iff plainConfig (fun _ => 0) ⟨0, []⟩ (fun _ => 0) 0 _ short).2 ?_⟩
  exact ⟨Or.inl rfl, Or.inl fun entry member => Option.some.inj member ▸ contact⟩

/-- The name of `system` begins the name of the description.  The agent takes the description as
found and goes on to the contact. -/
theorem system_not_nextRight :
    (encodeOid [43, 6, 1, 2, 1, 1]).length < 256 ∧
      ¬ NextRight (plainConfig.agent fun _ => 0) ⟨0, []⟩ (fun _ => 0) 0 [43, 6, 1, 2, 1, 1] := by
  have short : (encodeOid [43, 6, 1, 2, 1, 1]).length < 256 := by
    rw [encodeOid_of_small (by decide)]
    decide
  have description : (systemEntry 1 (encodeText plainConfig.description)).HasInstance :=
    systemEntry_hasInstance 1 (by decide)
  refine ⟨short, fun right => ?_⟩
  rw [nextRight_iff_nextHolds (represents_configEntries plainConfig _)
    (ordered_configEntries plainConfig) rfl rfl (List.cons_ne_nil _ _) short] at right
  obtain ⟨named | empty, -⟩ := right
  · exact absurd named (by decide)
  · exact empty description

end Ethersex.Snmp

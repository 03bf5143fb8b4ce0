import Ethersex.SnmpAgent

/-!
# The objects of the SNMP agent

The callbacks of `protocols/snmp/snmp.c` and the table `snmp_reactions`.  What the callbacks
read from the rest of the firmware (sensor values, texts of the configuration, the uptime) is
part of the configuration.  An entry without the option it belongs to is not in the table.
-/

namespace Ethersex.Snmp

def encodeShort (type : UInt8) (val : UInt16) : List UInt8 :=
  [type, 2, (val >>> 8).toUInt8, val.toUInt8]

def encodeLong (type : UInt8) (val : UInt32) : List UInt8 :=
  [type, 4, (val >>> 24).toUInt8, (val >>> 16).toUInt8, (val >>> 8).toUInt8, val.toUInt8]

def encodeTimeticks (uptime : UInt32) : List UInt8 :=
  encodeLong typeTimeticks (uptime * 100)

/-- A text with its length in one byte. -/
def encodeText (text : List UInt8) : List UInt8 :=
  [typeString, UInt8.ofNat text.length] ++ text.take (UInt8.ofNat text.length).toNat

def hexDigit (digit : UInt8) : UInt8 :=
  if digit < 10 then 0x30 + digit else 0x57 + digit

/-- The format `%02x`. -/
def hexByte (byte : UInt8) : List UInt8 :=
  [hexDigit (byte / 16), hexDigit (byte % 16)]

def onelevelNext (count : UInt8) : List UInt8 → List UInt8
  | [] => [0]
  | [index] => if (index.toNat : Int) < count.toNat - 1 then [index + 1] else []
  | _ => []

/-- The value of an object without instances below it. -/
def scalarReaction (value : List UInt8) (sub : List UInt8) : List UInt8 :=
  if sub ≠ [] then [] else value

/-- The values of a list of sensors. -/
def columnReaction (count : Nat) (value : UInt8 → List UInt8) : List UInt8 → List UInt8
  | [index] => if count ≤ index.toNat then [] else value index
  | _ => []

def stringPgmReaction (userdata : List UInt8) : List UInt8 → List UInt8 :=
  scalarReaction (encodeText userdata)

def uptimeReaction (uptime : UInt32) : List UInt8 → List UInt8 :=
  scalarReaction (encodeTimeticks uptime)

structure AdcVoltage where
  getVoltage : UInt8 → UInt16
  getVref : UInt16

structure Adc where
  channels : Nat
  get : UInt8 → UInt16
  voltage : Option AdcVoltage

def adcReaction (adc : Adc) : List UInt8 → List UInt8 :=
  columnReaction adc.channels fun index => encodeShort typeInteger (adc.get index)

def adcVoltReaction (adc : Adc) (voltage : AdcVoltage) : List UInt8 → List UInt8 :=
  columnReaction adc.channels fun index => encodeShort typeInteger (voltage.getVoltage index)

def adcVrefReaction (adc : Adc) (voltage : AdcVoltage) : List UInt8 → List UInt8 :=
  columnReaction adc.channels fun _ => encodeShort typeInteger voltage.getVref

def adcNext (adc : Adc) : List UInt8 → List UInt8 :=
  onelevelNext (UInt8.ofNat adc.channels)

structure OnewireSensor where
  romCode : Fin 8 → UInt8
  name : Option (List UInt8)
  /-- A name is shorter than `OW_NAME_LENGTH`. -/
  nameLength : ∀ text ∈ name, text.length < 16
  twodigits : Bool
  val : UInt16
  present : Bool

structure Onewire where
  sensorsCount : Nat
  sensors : UInt8 → OnewireSensor
  naming : Bool

def owRomReaction (onewire : Onewire) : List UInt8 → List UInt8 :=
  columnReaction onewire.sensorsCount fun index =>
    encodeText ((List.ofFn (onewire.sensors index).romCode).flatMap hexByte)

def owNameReaction (onewire : Onewire) : List UInt8 → List UInt8 :=
  columnReaction onewire.sensorsCount fun index =>
    encodeText ((onewire.sensors index).name.getD [])

def owTempReaction (onewire : Onewire) : List UInt8 → List UInt8 :=
  columnReaction onewire.sensorsCount fun index =>
    let sensor := onewire.sensors index
    encodeShort typeInteger (if sensor.twodigits then sensor.val else sensor.val * 10)

def owPresentReaction (onewire : Onewire) : List UInt8 → List UInt8 :=
  columnReaction onewire.sensorsCount fun index =>
    encodeShort typeInteger (if (onewire.sensors index).present then 1 else 0)

def owNext (onewire : Onewire) : List UInt8 → List UInt8 :=
  onelevelNext (UInt8.ofNat onewire.sensorsCount)

structure Tank where
  level : UInt16
  ltrFull : UInt16
  ts : UInt32
  /-- The text of the timestamp, no longer than `TIMESTAMP_TEXT_LENGTH`. -/
  tsText : List UInt8
  tsTextLength : tsText.length ≤ 20

def tankReaction (tank : Tank) : List UInt8 → List UInt8
  | [index] =>
      match index with
      | 0 => encodeShort typeInteger tank.level
      | 1 => encodeShort typeInteger tank.ltrFull
      | 2 => encodeLong typeCounter tank.ts
      | 3 => encodeText tank.tsText
      | _ => []
  | _ => []

def tankNext : List UInt8 → List UInt8 :=
  onelevelNext 4

structure Dht where
  sensorsCount : UInt8
  pollingDelay : UInt8 → UInt16
  temp : UInt8 → UInt16
  humid : UInt8 → UInt16

def dhtPollingDelayReaction (dht : Dht) : List UInt8 → List UInt8 :=
  columnReaction dht.sensorsCount.toNat fun index =>
    encodeShort typeInteger (dht.pollingDelay index)

def dhtTempReaction (dht : Dht) : List UInt8 → List UInt8 :=
  columnReaction dht.sensorsCount.toNat fun index => encodeShort typeInteger (dht.temp index)

def dhtHumidReaction (dht : Dht) : List UInt8 → List UInt8 :=
  columnReaction dht.sensorsCount.toNat fun index => encodeShort typeInteger (dht.humid index)

def dhtNext (dht : Dht) : List UInt8 → List UInt8 :=
  onelevelNext dht.sensorsCount

structure Config where
  description : List UInt8
  contact : List UInt8
  hostname : List UInt8
  location : List UInt8
  ucdExperimental : Bool
  uptime : Option UInt32
  adc : Option Adc
  onewire : Option Onewire
  tank : Option Tank
  dht : Option Dht

/-- The object `system` of MIB-2. -/
def systemOid (object : UInt8) : List UInt8 :=
  [0x2b, 0x06, 0x01, 0x02, 0x01, 0x01, object]

/-- `SNMP_OID_ETHERSEX`. -/
def ethersexOid (ucdExperimental : Bool) : List UInt8 :=
  [0x2b, 0x06, 0x01, 0x04, 0x01] ++
    if ucdExperimental then [0x8f, 0x65, 0x0d, 0x17] else [0x82, 0xb8, 0x1f]

def adcReactions (oid : List UInt8) (adc : Adc) : List Reaction :=
  ⟨oid ++ [0x01], adcReaction adc, some (adcNext adc)⟩ ::
    match adc.voltage with
    | some voltage =>
        [⟨oid ++ [0x02, 0x02], adcVoltReaction adc voltage, some (adcNext adc)⟩,
          ⟨oid ++ [0x02, 0x03], adcVrefReaction adc voltage, some (adcNext adc)⟩]
    | none => []

def onewireReactions (oid : List UInt8) (onewire : Onewire) : List Reaction :=
  [⟨oid ++ [0x03, 0x01], owRomReaction onewire, some (owNext onewire)⟩] ++
    (if onewire.naming then
      [⟨oid ++ [0x03, 0x02], owNameReaction onewire, some (owNext onewire)⟩]
    else []) ++
    [⟨oid ++ [0x03, 0x03], owTempReaction onewire, some (owNext onewire)⟩,
      ⟨oid ++ [0x03, 0x04], owPresentReaction onewire, some (owNext onewire)⟩]

def tankReactions (oid : List UInt8) (tank : Tank) : List Reaction :=
  [⟨oid ++ [0x04], tankReaction tank, some tankNext⟩]

def dhtReactions (oid : List UInt8) (dht : Dht) : List Reaction :=
  [⟨oid ++ [0x05, 0x01], dhtPollingDelayReaction dht, some (dhtNext dht)⟩,
    ⟨oid ++ [0x05, 0x02], dhtTempReaction dht, some (dhtNext dht)⟩,
    ⟨oid ++ [0x05, 0x03], dhtHumidReaction dht, some (dhtNext dht)⟩]

/-- The first entry of `snmp_reactions`. -/
def descReaction (config : Config) : Reaction :=
  ⟨systemOid 0x01, stringPgmReaction config.description, none⟩

/-- The other entries of `snmp_reactions`. -/
def moreReactions (config : Config) : List Reaction :=
  let oid := ethersexOid config.ucdExperimental
  (config.uptime.toList.map fun uptime => ⟨systemOid 0x03, uptimeReaction uptime, none⟩) ++
    [⟨systemOid 0x04, stringPgmReaction config.contact, none⟩,
      ⟨systemOid 0x05, stringPgmReaction config.hostname, none⟩,
      ⟨systemOid 0x06, stringPgmReaction config.location, none⟩] ++
    config.adc.toList.flatMap (adcReactions oid) ++
    config.onewire.toList.flatMap (onewireReactions oid) ++
    config.tank.toList.flatMap (tankReactions oid) ++
    config.dht.toList.flatMap (dhtReactions oid)

/-- The agent of a configuration. -/
def Config.agent (config : Config) (community : ByteMemory.Memory) : Agent :=
  ⟨community, descReaction config, moreReactions config⟩

end Ethersex.Snmp

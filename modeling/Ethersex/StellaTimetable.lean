import Ethersex.LinkedSegments
import Ethersex.SortedInsertion
import Mathlib.Data.List.Nodup
import Mathlib.Data.List.Perm.Subperm
import Mathlib.Data.Nat.Bitwise
import Mathlib.Data.UInt

/-!
# The timetable of the software PWM

`stella_sort` of `services/stella/stella.c` links the preallocated entries of the channels into a
list of time points, without the luminance table.  The entries of an earlier sort are still there.
-/

namespace Ethersex.Stella

open LinkedSegments

/-- `STELLA_PORT1` and `STELLA_PORT2`. -/
inductive Port
  | port1
  | port2
  deriving DecidableEq

/-- The channels of a port begin at one of its pins. -/
structure Pins where
  pins : Nat
  offset : Nat
  inPort : offset + pins ≤ 8

/-- The settings `STELLA_PINS_PORT1`, `STELLA_OFFSET_PORT1` and those of the second port. -/
structure Config where
  port1 : Pins
  port2 : Option Pins

def stellaChannels (config : Config) : Nat :=
  match config.port2 with
  | some port2 => config.port1.pins + port2.pins
  | none => config.port1.pins

/-- The port of a channel, and its pin. -/
def channelPin (config : Config) (i : Nat) : Port × Nat :=
  match config.port2 with
  | some port2 =>
      if config.port1.pins ≤ i then (.port2, i - config.port1.pins + port2.offset)
      else (.port1, i + config.port1.offset)
  | none => (.port1, i + config.port1.offset)

/-- `_BV` of the pin of a channel. -/
def pinMask (config : Config) (i : Nat) : UInt8 :=
  UInt8.ofNat (2 ^ (channelPin config i).2)

/-- `stella_port_with_portmask`. -/
structure PortWithPortmask where
  port : Port
  mask : UInt8

/-- What happens at a time point: the pins of a port go on. -/
structure Switching where
  value : UInt8
  port : PortWithPortmask

/-- `stella_timetable_entry`, with the index of the next entry. -/
structure Entry extends Switching where
  next : Option Nat

/-- `stella_timetable_struct`, with the masks of the ports at the start of a period. -/
structure Table where
  channel : Nat → Entry
  head : Option Nat
  startMask : Port → UInt8

namespace Table

def setEntry (table : Table) (i : Nat) (entry : Entry) : Table :=
  { table with channel := Function.update table.channel i entry }

def setNext (table : Table) (i : Nat) (next : Option Nat) : Table :=
  table.setEntry i { table.channel i with next := next }

/-- The statement `port.mask |= mask` for an entry. -/
def orMask (table : Table) (i : Nat) (mask : UInt8) : Table :=
  let entry := table.channel i
  table.setEntry i { entry with port := ⟨entry.port.port, entry.port.mask ||| mask⟩ }

/-- The statement `port[].mask |= mask`. -/
def orStartMask (table : Table) (port : Port) (mask : UInt8) : Table :=
  { table with
    startMask := Function.update table.startMask port (table.startMask port ||| mask) }

end Table

/-- The loop of `stella_sort` that finds the place of a channel. -/
def place (config : Config) (i : Nat) (table : Table) : Nat → Nat → Option Nat → Option Table
  | 0, _, _ => none
  | rounds + 1, current, last =>
      let entry := table.channel current
      let new := table.channel i
      if entry.value = new.value ∧ entry.port.port = new.port.port then
        some (table.orMask current (pinMask config i))
      else if new.value < entry.value then
        match last with
        | none => some { table.setNext i table.head with head := some i }
        | some last => some ((table.setNext i (table.channel last).next).setNext last (some i))
      else
        match entry.next with
        | none => some (table.setNext current (some i))
        | some next => place config i table rounds next (some current)

/-- A round of `stella_sort`. -/
def sortChannel (config : Config) (brightness : Nat → UInt8) (table : Table) (i : Nat) :
    Option Table :=
  let port := (channelPin config i).1
  let value := 255 - brightness i
  let table := table.setEntry i ⟨⟨value, ⟨port, pinMask config i⟩⟩, none⟩
  if value = 255 then some table
  else if value = 0 then some (table.orStartMask port (pinMask config i))
  else
    match table.head with
    | none => some { table with head := some i }
    | some head => place config i table (stellaChannels config) head none

/-- `stella_sort` up to the flag for the interrupt. -/
def sortTable (config : Config) (brightness : Nat → UInt8) (table : Table) : Option Table :=
  (List.range (stellaChannels config)).foldlM (sortChannel config brightness)
    { table with head := none, startMask := fun _ => 0 }

/-- The position of a pin in the channels of its port. -/
def Pins.position (pins : Pins) (pin : Nat) : Option Nat :=
  if pins.offset ≤ pin ∧ pin < pins.offset + pins.pins then some (pin - pins.offset) else none

/-- The channel of a pin. -/
def channelAt (config : Config) (port : Port) (pin : Nat) : Option Nat :=
  match port with
  | .port1 => config.port1.position pin
  | .port2 => config.port2.bind fun port2 => (port2.position pin).map (config.port1.pins + ·)

theorem Pins.position_eq_some_iff {pins : Pins} {pin i : Nat} :
    pins.position pin = some i ↔ i < pins.pins ∧ i + pins.offset = pin := by
  rw [Pins.position]
  split_ifs with inside
  · rw [Option.some.injEq]
    omega
  · constructor
    · intro impossible
      cases impossible
    · omega

theorem channelAt_eq_some_iff {config : Config} {i : Nat} {port : Port} {pin : Nat} :
    channelAt config port pin = some i ↔
      i < stellaChannels config ∧ channelPin config i = (port, pin) := by
  obtain ⟨port1, port2⟩ := config
  cases port with
  | port1 =>
      simp only [channelAt, Pins.position_eq_some_iff, channelPin, stellaChannels]
      cases port2 with
      | none => simp
      | some port2 =>
          simp only
          split_ifs with second
          · simp only [Prod.mk.injEq, reduceCtorEq, false_and, and_false, iff_false]
            omega
          · simp only [Prod.mk.injEq, true_and]
            omega
  | port2 =>
      cases port2 with
      | none => simp [channelAt, channelPin]
      | some port2 =>
          simp only [channelAt, Option.bind_some, Option.map_eq_some_iff,
            Pins.position_eq_some_iff, channelPin, stellaChannels]
          split_ifs with second
          · simp only [Prod.mk.injEq, true_and]
            constructor
            · rintro ⟨position, inside, rfl⟩
              omega
            · intro inside
              exact ⟨i - port1.pins, by omega, by omega⟩
          · simp only [Prod.mk.injEq, reduceCtorEq, false_and, and_false, iff_false]
            rintro ⟨position, inside, rfl⟩
            omega

theorem pin_lt {config : Config} {i : Nat} (inside : i < stellaChannels config) :
    (channelPin config i).2 < 8 := by
  obtain ⟨⟨pins, offset, inPort⟩, port2⟩ := config
  cases port2 with
  | none =>
      simp only [stellaChannels] at inside
      simp only [channelPin]
      omega
  | some port2 =>
      have inPort2 := port2.inPort
      simp only [stellaChannels] at inside
      simp only [channelPin]
      split_ifs
      · simp only
        omega
      · simp only
        omega

theorem testBit_pinMask {config : Config} {i : Nat} (inside : i < stellaChannels config)
    (pin : Nat) :
    (pinMask config i).toNat.testBit pin = decide ((channelPin config i).2 = pin) := by
  have small : 2 ^ (channelPin config i).2 < 256 := Nat.pow_lt_pow_right (by decide) (pin_lt inside)
  rw [pinMask, UInt8.toNat_ofNat_of_lt' small, Nat.testBit_two_pow]

namespace Table

variable {table : Table} {i j : Nat}

@[simp]
theorem setEntry_self (entry : Entry) : (table.setEntry i entry).channel i = entry :=
  Function.update_self ..

theorem setEntry_of_ne (other : j ≠ i) (entry : Entry) :
    (table.setEntry i entry).channel j = table.channel j :=
  Function.update_of_ne other ..

@[simp]
theorem setNext_self (next : Option Nat) : ((table.setNext i next).channel i).next = next := by
  rw [setNext, setEntry_self]

theorem setNext_of_ne (other : j ≠ i) (next : Option Nat) :
    (table.setNext i next).channel j = table.channel j :=
  setEntry_of_ne other _

@[simp]
theorem setNext_toSwitching (next : Option Nat) :
    ((table.setNext i next).channel j).toSwitching = (table.channel j).toSwitching := by
  by_cases same : j = i
  · rw [same, setNext, setEntry_self]
  · rw [setNext_of_ne same]

@[simp]
theorem orMask_next (mask : UInt8) :
    ((table.orMask i mask).channel j).next = (table.channel j).next := by
  by_cases same : j = i
  · rw [same, orMask, setEntry_self]
  · rw [orMask, setEntry_of_ne same]

/-- The successor of a pointer to an entry. -/
def next (table : Table) (pointer : Option Nat) : Option Nat :=
  pointer.bind fun i => (table.channel i).next

/-- The time points of some entries. -/
def switchings (table : Table) (nodes : List Nat) : List Switching :=
  nodes.map fun node => (table.channel node).toSwitching

theorem switchings_congr {table' : Table} {nodes : List Nat}
    (same : ∀ node ∈ nodes,
      (table'.channel node).toSwitching = (table.channel node).toSwitching) :
    table'.switchings nodes = table.switchings nodes :=
  List.map_congr_left same

end Table

/-- The entries that the list from `head` consists of. -/
structure Linked (table : Table) (nodes : List Nat) : Prop where
  segment : Segment table.next table.head (nodes.map some) none
  nodup : nodes.Nodup

section Linked

variable {table table' : Table} {nodes front back : List Nat} {i current : Nat}

theorem Linked.congr (linked : Linked table nodes) (head : table'.head = table.head)
    (same : ∀ node ∈ nodes, (table'.channel node).next = (table.channel node).next) :
    Linked table' nodes where
  segment := by
    rw [head]
    apply linked.segment.congr
    intro pointer member
    obtain ⟨node, inside, rfl⟩ := List.mem_map.mp member
    exact same node inside
  nodup := linked.nodup

/-- A new first entry. -/
theorem Linked.cons (linked : Linked table nodes) (fresh : i ∉ nodes)
    (head : table'.head = some i) (next : (table'.channel i).next = table.head)
    (same : ∀ node ∈ nodes, (table'.channel node).next = (table.channel node).next) :
    Linked table' (i :: nodes) where
  segment := by
    refine ⟨head, ?_⟩
    change Segment table'.next (table'.channel i).next _ none
    rw [next]
    apply linked.segment.congr
    intro pointer member
    obtain ⟨node, inside, rfl⟩ := List.mem_map.mp member
    exact same node inside
  nodup := List.nodup_cons.mpr ⟨fresh, linked.nodup⟩

/-- A new entry behind one of the list. -/
theorem Linked.insert (linked : Linked table (front ++ current :: back))
    (fresh : i ∉ front ++ current :: back) (head : table'.head = table.head)
    (previous : (table'.channel current).next = some i)
    (next : (table'.channel i).next = (table.channel current).next)
    (same : ∀ node, node ≠ current → node ≠ i →
      (table'.channel node).next = (table.channel node).next) :
    Linked table' (front ++ current :: i :: back) := by
  have nodup := linked.nodup
  have apart : ∀ node ∈ front ++ back, node ≠ current ∧ node ≠ i := by
    intro node member
    rw [List.nodup_middle, List.nodup_cons] at nodup
    constructor
    · rintro rfl
      exact nodup.1 member
    · rintro rfl
      apply fresh
      simp only [List.mem_append, List.mem_cons] at member ⊢
      tauto
  have agree : ∀ part : List Nat, part ⊆ front ++ back →
      ∀ pointer ∈ part.map some, table'.next pointer = table.next pointer := by
    intro part inside pointer member
    obtain ⟨node, inPart, rfl⟩ := List.mem_map.mp member
    obtain ⟨notCurrent, notNew⟩ := apart node (inside inPart)
    exact same node notCurrent notNew
  constructor
  · have segment := linked.segment
    rw [List.map_append, List.map_cons] at segment
    rw [head, List.map_append, List.map_cons, List.map_cons]
    exact segment.link (agree front (List.subset_append_left _ _))
      (agree back (List.subset_append_right _ _)) previous next
  · have middle : front ++ current :: i :: back = front ++ [current] ++ i :: back := by simp
    rw [middle, List.nodup_middle, List.append_assoc, List.singleton_append, List.nodup_cons]
    exact ⟨fresh, nodup⟩

theorem Linked.head_eq (linked : Linked table nodes) : table.head = nodes.head? := by
  cases nodes with
  | nil => exact linked.segment
  | cons first nodes => exact linked.segment.1

/-- The entry behind one of the list. -/
theorem Linked.next_eq (linked : Linked table (front ++ current :: back)) :
    (table.channel current).next = back.head? := by
  have segment := linked.segment
  rw [List.map_append, List.map_cons] at segment
  obtain ⟨middle, -, -, rest⟩ := segment_append.mp segment
  cases back with
  | nil => exact rest
  | cons following back => exact rest.1

end Linked

/-- The pins of a later time point at the same port go on with those of the item. -/
def Switching.join (item new : Switching) : Switching :=
  { item with port := ⟨item.port.port, item.port.mask ||| new.port.mask⟩ }

/-- The counter value of a time point. -/
def Switching.time (item : Switching) : Nat :=
  item.value.toNat

theorem time_join (item new : Switching) : (item.join new).time = item.time :=
  rfl

/-- A time point among others in their order. -/
def insertSwitching (new : Switching) (items : List Switching) : List Switching :=
  SortedInsertion.insert Switching.time (fun item new => item.port.port = new.port.port)
    Switching.join new items

theorem insertSwitching_cons (new item : Switching) (items : List Switching) :
    insertSwitching new (item :: items) =
      if item.value = new.value ∧ item.port.port = new.port.port then item.join new :: items
      else if new.value < item.value then new :: item :: items
      else item :: insertSwitching new items := by
  simp only [insertSwitching, SortedInsertion.insert, Switching.time, UInt8.toNat_inj]
  rfl

theorem Table.switchings_cons (table : Table) (node : Nat) (nodes : List Nat) :
    table.switchings (node :: nodes) =
      (table.channel node).toSwitching :: table.switchings nodes :=
  rfl

theorem Table.switchings_append (table : Table) (front back : List Nat) :
    table.switchings (front ++ back) = table.switchings front ++ table.switchings back :=
  List.map_append

/-- The switchings behind the statement that adds pins to one of them. -/
theorem Table.switchings_orMask {table : Table} {front back : List Nat} {current : Nat}
    (nodup : (front ++ current :: back).Nodup) (mask : UInt8) :
    (table.orMask current mask).switchings (front ++ current :: back) =
      table.switchings front ++
        { (table.channel current).toSwitching with
          port := ⟨(table.channel current).port.port, (table.channel current).port.mask ||| mask⟩ }
          :: table.switchings back := by
  have others : ∀ part : List Nat, part ⊆ front ++ back →
      (table.orMask current mask).switchings part = table.switchings part := by
    intro part inside
    apply switchings_congr
    intro node member
    have notCurrent : node ≠ current := by
      rintro rfl
      rw [List.nodup_middle, List.nodup_cons] at nodup
      exact nodup.1 (inside member)
    rw [orMask, setEntry_of_ne notCurrent]
  have split : ∀ table' : Table, table'.switchings (front ++ current :: back) =
      table'.switchings front ++
        (table'.channel current).toSwitching :: table'.switchings back := by
    intro table'
    simp only [switchings, List.map_append, List.map_cons]
  rw [split, others front (List.subset_append_left _ _), others back (List.subset_append_right _ _),
    orMask, setEntry_self]

/-- What the loop leaves: the list with the channel among the entries that come next. -/
structure Placed (table : Table) (i : Nat) (front rest : List Nat) (table' : Table)
    (nodes : List Nat) : Prop where
  linked : Linked table' nodes
  subset : nodes ⊆ i :: (front ++ rest)
  startMask : table'.startMask = table.startMask
  switchings : table'.switchings nodes = table.switchings front ++
    insertSwitching (table.channel i).toSwitching (table.switchings rest)

/-- The loop puts a channel into the list behind the entries that it has passed. -/
theorem place_spec {config : Config} {i : Nat} {table : Table} {rounds current : Nat}
    {front back : List Nat} (linked : Linked table (front ++ current :: back))
    (fresh : i ∉ front ++ current :: back) (unlinked : (table.channel i).next = none)
    (mask : (table.channel i).port.mask = pinMask config i) (room : back.length < rounds) :
    ∃ table' nodes, place config i table rounds current front.getLast? = some table' ∧
      Placed table i front (current :: back) table' nodes := by
  induction rounds generalizing front current back with
  | zero => cases room
  | succ rounds ih =>
      have notIn : ∀ node ∈ front ++ current :: back, node ≠ i := by
        rintro node member rfl
        exact fresh member
      have following := linked.next_eq
      have currentNotNew : current ≠ i := notIn current (by simp)
      have cases := insertSwitching_cons (table.channel i).toSwitching
        (table.channel current).toSwitching (table.switchings back)
      simp only [place]
      split_ifs with same before
      · -- The entry at hand gets the pin.
        rw [if_pos same] at cases
        refine ⟨_, front ++ current :: back, rfl, linked.congr rfl (fun _ _ => ?_), ?_, rfl, ?_⟩
        · rw [Table.orMask_next]
        · exact List.subset_cons_self ..
        · rw [Table.switchings_orMask linked.nodup, Table.switchings_cons, cases, ← mask]
          rfl
      · rw [if_neg same, if_pos before] at cases
        rcases List.eq_nil_or_concat front with rfl | ⟨front, last, rfl⟩
        · -- The channel comes before the first entry.
          have keeps := fun node member => congrArg Entry.next
            (@Table.setNext_of_ne table i node (notIn node member) table.head)
          refine ⟨_, i :: current :: back, rfl,
            linked.cons fresh rfl (Table.setNext_self _) keeps, List.Subset.refl _, rfl, ?_⟩
          rw [Table.switchings_cons table current, cases, ← Table.switchings_cons,
            ← Table.switchings_cons]
          exact Table.switchings_congr fun _ _ => Table.setNext_toSwitching _
        · -- The channel comes behind the entry before the one at hand.
          rw [List.concat_eq_append] at linked fresh notIn ⊢
          rw [List.append_assoc, List.singleton_append] at linked fresh notIn
          have lastNotNew : last ≠ i := notIn last (by simp)
          rw [List.getLast?_append, List.getLast?_singleton, Option.some_or]
          refine ⟨_, front ++ last :: i :: current :: back, rfl, linked.insert fresh rfl ?_ ?_ ?_,
            ?_, rfl, ?_⟩
          · rw [Table.setNext_self]
          · rw [Table.setNext_of_ne lastNotNew.symm, Table.setNext_self]
          · intro node notLast notNew
            rw [Table.setNext_of_ne notLast, Table.setNext_of_ne notNew]
          · grind
          · rw [Table.switchings_cons table current, cases,
              @Table.switchings_congr table _ (front ++ last :: i :: current :: back) fun _ _ => by
                rw [Table.setNext_toSwitching, Table.setNext_toSwitching]]
            simp [Table.switchings]
      · rw [if_neg same, if_neg before] at cases
        cases back with
        | nil =>
            -- The channel comes behind the last entry.
            rw [following]
            refine ⟨_, front ++ [current, i], rfl, linked.insert fresh rfl ?_ ?_ ?_, ?_, rfl, ?_⟩
            · rw [Table.setNext_self]
            · rw [Table.setNext_of_ne currentNotNew.symm, unlinked, following]
              rfl
            · intro node notCurrent notNew
              rw [Table.setNext_of_ne notCurrent]
            · grind
            · rw [Table.switchings_cons table current, cases,
                @Table.switchings_congr table _ (front ++ [current, i]) fun _ _ =>
                  Table.setNext_toSwitching _]
              simp [Table.switchings, insertSwitching, SortedInsertion.insert]
        | cons next back =>
            rw [following]
            have moved : front ++ current :: next :: back = front ++ [current] ++ next :: back := by
              simp
            rw [moved] at linked fresh
            rw [List.length_cons] at room
            obtain ⟨table', nodes, ran, placed⟩ := ih linked fresh (by omega)
            rw [List.getLast?_append, List.getLast?_singleton, Option.some_or] at ran
            refine ⟨table', nodes, ran, placed.linked, ?_, placed.startMask, ?_⟩
            · rw [moved]
              exact placed.subset
            · rw [placed.switchings, Table.switchings_cons table current, cases]
              simp [Table.switchings]

/-- An item switches a pin on. -/
def Switching.drives (port : Port) (pin : Nat) (item : Switching) : Bool :=
  decide (item.port.port = port) && item.port.mask.toNat.testBit pin

/-- The times at which a pin goes on. -/
def switchTimes (port : Port) (pin : Nat) (items : List Switching) : List Nat :=
  SortedInsertion.keysOf Switching.time (Switching.drives port pin) items

theorem mem_switchTimes {port : Port} {pin time : Nat} {table : Table} {nodes : List Nat} :
    time ∈ switchTimes port pin (table.switchings nodes) ↔
      ∃ node ∈ nodes, (table.channel node).drives port pin = true ∧
        (table.channel node).time = time := by
  simp only [switchTimes, SortedInsertion.keysOf, Table.switchings, List.mem_map, List.mem_filter]
  constructor
  · rintro ⟨item, ⟨⟨node, member, rfl⟩, drives⟩, at_⟩
    exact ⟨node, member, drives, at_⟩
  · rintro ⟨node, member, drives, at_⟩
    exact ⟨_, ⟨⟨node, member, rfl⟩, drives⟩, at_⟩

theorem drives_join {port : Port} {pin : Nat} {item new : Switching}
    (samePort : item.port.port = new.port.port) :
    (item.join new).drives port pin = (item.drives port pin || new.drives port pin) := by
  rw [Switching.drives, Switching.drives, Switching.drives, ← samePort, ← Bool.and_or_distrib_left,
    ← Nat.testBit_or, ← UInt8.toNat_or]
  rfl

/-- A channel that is neither dark nor full. -/
def Dimmed (brightness : UInt8) : Prop :=
  0 < brightness ∧ brightness < 255

instance (brightness : UInt8) : Decidable (Dimmed brightness) :=
  inferInstanceAs (Decidable (_ ∧ _))

/-- The times of a pin by the brightness of its channel, if that is one of the first. -/
def dimmedTimes (config : Config) (brightness : Nat → UInt8) (count : Nat) (port : Port)
    (pin : Nat) : List Nat :=
  match channelAt config port pin with
  | some i => if i < count ∧ Dimmed (brightness i) then [255 - (brightness i).toNat] else []
  | none => []

/-- The pin is that of a full channel among the first ones. -/
def fullAt (config : Config) (brightness : Nat → UInt8) (count : Nat) (port : Port) (pin : Nat) :
    Bool :=
  match channelAt config port pin with
  | some i => decide (i < count ∧ brightness i = 255)
  | none => false

section Count

variable {config : Config} {brightness : Nat → UInt8} {count : Nat} {port : Port} {pin : Nat}

theorem count_zero : dimmedTimes config brightness 0 port pin = [] ∧
    fullAt config brightness 0 port pin = false := by
  rw [dimmedTimes, fullAt]
  cases channelAt config port pin with
  | none => exact ⟨rfl, rfl⟩
  | some i => simp

theorem count_of_ne (inside : count < stellaChannels config)
    (other : channelPin config count ≠ (port, pin)) :
    dimmedTimes config brightness (count + 1) port pin =
        dimmedTimes config brightness count port pin ∧
      fullAt config brightness (count + 1) port pin = fullAt config brightness count port pin := by
  rw [dimmedTimes, dimmedTimes, fullAt, fullAt]
  cases found : channelAt config port pin with
  | none => exact ⟨rfl, rfl⟩
  | some i =>
      have notLast : i ≠ count := by
        rintro rfl
        exact other (channelAt_eq_some_iff.mp found).2
      have before : i < count + 1 ↔ i < count := by omega
      simp only [before, and_self]

theorem count_of_eq (inside : count < stellaChannels config)
    (same : channelPin config count = (port, pin)) :
    dimmedTimes config brightness count port pin = [] ∧
      dimmedTimes config brightness (count + 1) port pin =
        (if Dimmed (brightness count) then [255 - (brightness count).toNat] else []) ∧
      fullAt config brightness count port pin = false ∧
      fullAt config brightness (count + 1) port pin = decide (brightness count = 255) := by
  have found := channelAt_eq_some_iff.mpr ⟨inside, same⟩
  simp [dimmedTimes, fullAt, found]

end Count

/-- The timetable of the first channels. -/
structure Sorted (config : Config) (brightness : Nat → UInt8) (count : Nat) (table : Table)
    (nodes : List Nat) : Prop where
  linked : Linked table nodes
  below : ∀ node ∈ nodes, node < count
  order : (table.switchings nodes).Pairwise fun first second => first.time ≤ second.time
  times : ∀ port pin, switchTimes port pin (table.switchings nodes) =
    dimmedTimes config brightness count port pin
  start : ∀ port pin, (table.startMask port).toNat.testBit pin =
    fullAt config brightness count port pin

section Sorted

variable {config : Config} {brightness : Nat → UInt8} {count : Nat} {table table' : Table}
  {nodes : List Nat}

/-- The entry of a further channel is not in the list yet. -/
theorem Sorted.setEntry (sorted : Sorted config brightness count table nodes) (entry : Entry) :
    Sorted config brightness count (table.setEntry count entry) nodes := by
  have keeps : ∀ node ∈ nodes,
      (table.setEntry count entry).channel node = table.channel node := fun node member =>
    Table.setEntry_of_ne (Nat.ne_of_lt (sorted.below node member)) entry
  have items : (table.setEntry count entry).switchings nodes = table.switchings nodes :=
    Table.switchings_congr fun node member => congrArg Entry.toSwitching (keeps node member)
  constructor
  · exact sorted.linked.congr rfl fun node member => congrArg Entry.next (keeps node member)
  · exact sorted.below
  · rw [items]
    exact sorted.order
  · rw [items]
    exact sorted.times
  · exact sorted.start

theorem Sorted.length_le (sorted : Sorted config brightness count table nodes) :
    nodes.length ≤ count := by
  have inside : nodes ⊆ List.range count := fun node member =>
    List.mem_range.mpr (sorted.below node member)
  have length := (List.subperm_of_subset sorted.linked.nodup inside).length_le
  rwa [List.length_range] at length

/-- The new entry of a channel. -/
def newSwitching (config : Config) (brightness : Nat → UInt8) (i : Nat) : Switching :=
  ⟨255 - brightness i, (channelPin config i).1, pinMask config i⟩

theorem drives_newSwitching (inside : count < stellaChannels config) (port : Port) (pin : Nat) :
    (newSwitching config brightness count).drives port pin =
      decide (channelPin config count = (port, pin)) := by
  rw [Switching.drives, newSwitching, testBit_pinMask inside, ← Bool.decide_and]
  congr 1
  rw [Prod.ext_iff]

/-- A channel that is not in the timetable. -/
theorem Sorted.skip (sorted : Sorted config brightness count table nodes)
    (inside : count < stellaChannels config) (notDimmed : ¬Dimmed (brightness count))
    (linked : Linked table' nodes) (items : table'.switchings nodes = table.switchings nodes)
    (start : ∀ port pin, (table'.startMask port).toNat.testBit pin =
      ((table.startMask port).toNat.testBit pin ||
        decide (channelPin config count = (port, pin) ∧ brightness count = 255))) :
    Sorted config brightness (count + 1) table' nodes where
  linked := linked
  below := fun node member => Nat.lt_succ_of_lt (sorted.below node member)
  order := by
    rw [items]
    exact sorted.order
  times := fun port pin => by
    rw [items, sorted.times]
    by_cases same : channelPin config count = (port, pin)
    · obtain ⟨before, behind, -⟩ := @count_of_eq config brightness count port pin inside same
      rw [before, behind, if_neg notDimmed]
    · exact (count_of_ne inside same).1.symm
  start := fun port pin => by
    rw [start, sorted.start]
    by_cases same : channelPin config count = (port, pin)
    · obtain ⟨-, -, before, behind⟩ := @count_of_eq config brightness count port pin inside same
      rw [before, behind]
      simp [same]
    · rw [(count_of_ne inside same).2]
      simp [same]

/-- A channel that is in the timetable. -/
theorem Sorted.add (sorted : Sorted config brightness count table nodes)
    (inside : count < stellaChannels config) (dimmed : Dimmed (brightness count))
    {nodes' : List Nat} (linked : Linked table' nodes') (subset : nodes' ⊆ count :: nodes)
    (items : table'.switchings nodes' =
      insertSwitching (newSwitching config brightness count) (table.switchings nodes))
    (start : table'.startMask = table.startMask) :
    Sorted config brightness (count + 1) table' nodes' where
  linked := linked
  below := by
    intro node member
    rcases List.mem_cons.mp (subset member) with rfl | old
    · exact Nat.lt_succ_self node
    · exact Nat.lt_succ_of_lt (sorted.below node old)
  order := by
    rw [items]
    exact SortedInsertion.pairwise_insert time_join sorted.order
  times := fun port pin => by
    have drives := @drives_newSwitching config brightness count inside port pin
    have joined : ∀ item new : Switching, item.port.port = new.port.port →
        (item.join new).drives port pin = (item.drives port pin || new.drives port pin) :=
      fun _ _ samePort => drives_join samePort
    have time : (newSwitching config brightness count).time = 255 - (brightness count).toNat :=
      UInt8.toNat_sub_of_le _ _ (UInt8.le_of_lt dimmed.2)
    rw [items]
    by_cases same : channelPin config count = (port, pin)
    · obtain ⟨before, behind, -⟩ := @count_of_eq config brightness count port pin inside same
      rw [decide_eq_true same] at drives
      rw [behind, if_pos dimmed, ← time]
      apply SortedInsertion.keysOf_insert_of_pos time_join joined drives
      rw [← before]
      exact sorted.times port pin
    · rw [decide_eq_false same] at drives
      rw [(count_of_ne inside same).1, ← sorted.times]
      exact SortedInsertion.keysOf_insert_of_neg time_join joined drives
  start := fun port pin => by
    have notFull : brightness count ≠ 255 := by
      intro full
      have less := dimmed.2
      rw [full] at less
      exact absurd less (by decide)
    rw [start, sorted.start]
    by_cases same : channelPin config count = (port, pin)
    · obtain ⟨-, -, before, behind⟩ := @count_of_eq config brightness count port pin inside same
      rw [before, behind, decide_eq_false notFull]
    · rw [(count_of_ne inside same).2]

theorem toNat_value (brightness : UInt8) :
    (255 - brightness).toNat = 255 - brightness.toNat := by
  have small := brightness.toNat_lt
  exact UInt8.toNat_sub_of_le _ _ (UInt8.le_iff_toNat_le.mpr (Nat.lt_succ_iff.mp small))

theorem value_eq_full_iff (brightness : UInt8) : 255 - brightness = 255 ↔ brightness = 0 := by
  have small := brightness.toNat_lt
  have full : (255 : UInt8).toNat = 255 := rfl
  have dark : (0 : UInt8).toNat = 0 := rfl
  rw [← UInt8.toNat_inj, ← UInt8.toNat_inj, toNat_value, full, dark]
  omega

theorem value_eq_zero_iff (brightness : UInt8) : 255 - brightness = 0 ↔ brightness = 255 := by
  have small := brightness.toNat_lt
  have full : (255 : UInt8).toNat = 255 := rfl
  have dark : (0 : UInt8).toNat = 0 := rfl
  rw [← UInt8.toNat_inj, ← UInt8.toNat_inj, toNat_value, full, dark]
  omega

theorem dimmed_iff (brightness : UInt8) :
    Dimmed brightness ↔ brightness ≠ 0 ∧ brightness ≠ 255 := by
  have small := brightness.toNat_lt
  have full : (255 : UInt8).toNat = 255 := rfl
  have dark : (0 : UInt8).toNat = 0 := rfl
  rw [Dimmed, UInt8.lt_iff_toNat_lt, UInt8.lt_iff_toNat_lt, ne_eq, ne_eq, ← UInt8.toNat_inj,
    ← UInt8.toNat_inj, full, dark]
  omega

theorem sortChannel_eq (config : Config) (brightness : Nat → UInt8) (table : Table) (i : Nat) :
    sortChannel config brightness table i =
      let table := table.setEntry i ⟨newSwitching config brightness i, none⟩
      if brightness i = 0 then some table
      else if brightness i = 255 then
        some (table.orStartMask (channelPin config i).1 (pinMask config i))
      else
        match table.head with
        | none => some { table with head := some i }
        | some head => place config i table (stellaChannels config) head none := by
  simp only [sortChannel, value_eq_full_iff, value_eq_zero_iff, newSwitching]

theorem Table.testBit_orStartMask (inside : count < stellaChannels config) (port : Port)
    (pin : Nat) :
    ((table.orStartMask (channelPin config count).1 (pinMask config count)).startMask
        port).toNat.testBit pin =
      ((table.startMask port).toNat.testBit pin ||
        decide (channelPin config count = (port, pin))) := by
  rw [orStartMask]
  by_cases same : port = (channelPin config count).1
  · subst same
    simp only [Function.update_self, UInt8.toNat_or, Nat.testBit_or, testBit_pinMask inside,
      Prod.ext_iff, true_and]
  · simp only [Function.update_of_ne same]
    simp [Prod.ext_iff, Ne.symm same]

/-- A round of the sort. -/
theorem sortChannel_spec (sorted : Sorted config brightness count table nodes)
    (inside : count < stellaChannels config) :
    ∃ table' nodes', sortChannel config brightness table count = some table' ∧
      Sorted config brightness (count + 1) table' nodes' := by
  have entered := sorted.setEntry ⟨newSwitching config brightness count, none⟩
  have entry : (table.setEntry count ⟨newSwitching config brightness count, none⟩).channel count =
      ⟨newSwitching config brightness count, none⟩ := Table.setEntry_self _
  rw [sortChannel_eq]
  generalize table.setEntry count _ = table at entered entry
  simp only
  split_ifs with dark full
  · have notDimmed : ¬Dimmed (brightness count) := by
      rw [dark]
      decide
    refine ⟨table, nodes, rfl, entered.skip inside notDimmed entered.linked rfl fun _ _ => ?_⟩
    simp [dark]
  · have notDimmed : ¬Dimmed (brightness count) := by
      rw [full]
      decide
    refine ⟨_, nodes, rfl, entered.skip inside notDimmed
      (entered.linked.congr rfl fun _ _ => rfl) rfl fun port pin => ?_⟩
    rw [Table.testBit_orStartMask inside]
    simp only [full, and_true]
  · have dimmed := (dimmed_iff (brightness count)).mpr ⟨dark, full⟩
    have fresh : count ∉ nodes := fun member => Nat.lt_irrefl count (entered.below count member)
    cases nodes with
    | nil =>
        have empty : table.head = none := entered.linked.segment
        rw [empty]
        refine ⟨_, [count], rfl, entered.add inside dimmed ?_ (List.Subset.refl _) ?_ rfl⟩
        · apply entered.linked.cons fresh rfl
          · rw [empty, entry]
          · intro node member
            cases member
        · rw [Table.switchings_cons, entry]
          rfl
    | cons first rest =>
        have head : table.head = some first := entered.linked.segment.1
        have room := entered.length_le
        rw [List.length_cons] at room
        obtain ⟨table', nodes', ran, placed⟩ := @place_spec config count table
          (stellaChannels config) first [] rest entered.linked fresh (by rw [entry])
          (by rw [entry, newSwitching]) (by omega)
        have items := placed.switchings
        rw [entry] at items
        rw [head]
        exact ⟨table', nodes', ran, entered.add inside dimmed placed.linked placed.subset items
          placed.startMask⟩

end Sorted

/-- The sort lists the channels of the timetable. -/
theorem sortTable_spec (config : Config) (brightness : Nat → UInt8) (table : Table) :
    ∃ table' nodes, sortTable config brightness table = some table' ∧
      Sorted config brightness (stellaChannels config) table' nodes := by
  have rounds : ∀ count ≤ stellaChannels config, ∃ table' nodes,
      (List.range count).foldlM (sortChannel config brightness)
        { table with head := none, startMask := fun _ => 0 } = some table' ∧
      Sorted config brightness count table' nodes := by
    intro count
    induction count with
    | zero =>
        intro _
        refine ⟨_, [], rfl, ⟨rfl, List.nodup_nil⟩, nofun, List.Pairwise.nil, ?_, ?_⟩
        · intro port pin
          exact count_zero.1.symm
        · intro port pin
          rw [count_zero.2, UInt8.toNat_zero, Nat.zero_testBit]
    | succ count ih =>
        intro inside
        obtain ⟨table', nodes, ran, sorted⟩ := ih (Nat.le_of_succ_le inside)
        obtain ⟨table'', nodes', ran', sorted'⟩ := sortChannel_spec sorted inside
        refine ⟨table'', nodes', ?_, sorted'⟩
        simp [List.range_succ, List.foldlM_append, ran, ran']
  exact rounds _ (Nat.le_refl _)

end Ethersex.Stella

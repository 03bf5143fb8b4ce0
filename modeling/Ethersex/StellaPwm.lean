import Ethersex.StellaTimetable

/-!
# A period of the software PWM

The interrupts of `services/stella/stella_pwm.c`, and a period of the counter from its overflow on.
A compare interrupt is handled at the counter value of the compare register.
-/

namespace Ethersex.Stella

open LinkedSegments

/-- `stella_update_sync_e`. -/
inductive Sync
  | nothingNew
  | newValues
  | updateValues
  deriving DecidableEq

/-- The variables of the service, the compare register and the ports. -/
structure State where
  brightness : Nat → UInt8
  calTable : Table
  intTable : Table
  sync : Sync
  fadeCounter : UInt8
  current : Option Nat
  compareReg : UInt8
  io : Port → UInt8

/-- `stella_sort`. -/
def stellaSort (config : Config) (stella : State) : Option State :=
  (sortTable config stella.brightness stella.calTable).map fun table =>
    { stella with calTable := table, sync := .newValues }

/-- The value of `stella_portmask` for the pins of a port. -/
def Pins.portmask (pins : Pins) : UInt8 :=
  UInt8.ofNat ((2 ^ pins.pins - 1) <<< pins.offset)

/-- The pins of all ports at the start of a period. -/
def startPorts (config : Config) (table : Table) (io : Port → UInt8) : Port → UInt8
  | .port1 => io .port1 &&& ~~~config.port1.portmask ||| table.startMask .port1
  | .port2 =>
      match config.port2 with
      | some port2 => io .port2 &&& ~~~port2.portmask ||| table.startMask .port2
      | none => io .port2

/-- The statement `ACCESS_IO(current->port.port) |= current->port.mask`. -/
def switchOn (io : Port → UInt8) (port : PortWithPortmask) : Port → UInt8 :=
  Function.update io port.port (io port.port ||| port.mask)

/-- The pins of an entry go on, and the next entry is waited for. -/
def activate (stella : State) (i : Nat) : State :=
  let entry := stella.intTable.channel i
  { stella with io := switchOn stella.io entry.port, current := entry.next }

/-- The loop of the compare interrupt. -/
def compareLoop : Nat → State → Option State
  | 0, _ => none
  | rounds + 1, stella =>
      match stella.current with
      | none => some stella
      | some i =>
          let stella := activate stella i
          match stella.current with
          | none => compareLoop rounds stella
          | some next =>
              let value := (stella.intTable.channel next).value
              if stella.compareReg ≠ value then some { stella with compareReg := value }
              else compareLoop rounds stella

/-- The interrupt `STELLA_TC_VECTOR_COMPARE`. -/
def compareInterrupt (config : Config) (stella : State) : Option State :=
  compareLoop (stellaChannels config + 1) stella

/-- The interrupt `STELLA_TC_VECTOR_OVERFLOW`. -/
def overflowInterrupt (config : Config) (stella : State) : State :=
  let stella :=
    if stella.sync = .newValues then
      { stella with
        intTable := stella.calTable, calTable := stella.intTable, sync := .nothingNew }
    else stella
  let stella :=
    if stella.fadeCounter ≠ 0 then { stella with fadeCounter := stella.fadeCounter - 1 }
    else stella
  let stella :=
    { stella with
      current := stella.intTable.head, io := startPorts config stella.intTable stella.io }
  match stella.current with
  | some i => { stella with compareReg := (stella.intTable.channel i).value }
  | none => stella

/-- A period up to a counter value that is not handled yet. -/
def periodTo (config : Config) (stella : State) : Nat → Option State
  | 0 => some (overflowInterrupt config stella)
  | counter + 1 =>
      (periodTo config stella counter).bind fun stella =>
        if stella.compareReg.toNat = counter then compareInterrupt config stella else some stella

theorem Pins.testBit_portmask (pins : Pins) {i : Nat} (inside : i < pins.pins) :
    pins.portmask.toNat.testBit (i + pins.offset) = true := by
  have inPort := pins.inPort
  rw [portmask, UInt8.toNat_ofNat', Nat.testBit_mod_two_pow, decide_eq_true (by omega),
    Bool.true_and, Nat.testBit_shiftLeft, decide_eq_true (by omega), Bool.true_and,
    Nat.add_sub_cancel, Nat.testBit_two_pow_sub_one, decide_eq_true inside]

theorem testBit_cleared {before mask start : UInt8} {pin : Nat} (inside : pin < 8)
    (masked : mask.toNat.testBit pin = true) :
    (before &&& ~~~mask ||| start).toNat.testBit pin = start.toNat.testBit pin := by
  have outside : (~~~mask).toNat.testBit pin = false := by
    change (~~~mask).toBitVec.getLsbD pin = false
    rw [UInt8.toBitVec_not, BitVec.getLsbD_not, decide_eq_true inside, Bool.true_and]
    exact congrArg Bool.not masked
  rw [UInt8.toNat_or, Nat.testBit_or, UInt8.toNat_and, Nat.testBit_and, outside, Bool.and_false,
    Bool.false_or]

/-- A pin of a channel. -/
def IsPin (config : Config) (port : Port) (pin : Nat) : Prop :=
  ∃ i < stellaChannels config, channelPin config i = (port, pin)

theorem testBit_startPorts {config : Config} {port : Port} {pin : Nat}
    (isPin : IsPin config port pin) (table : Table) (io : Port → UInt8) :
    (startPorts config table io port).toNat.testBit pin =
      (table.startMask port).toNat.testBit pin := by
  obtain ⟨i, inside, wired⟩ := isPin
  have small := pin_lt inside
  have found := channelAt_eq_some_iff.mpr ⟨inside, wired⟩
  rw [wired] at small
  cases port with
  | port1 =>
      obtain ⟨below, rfl⟩ := Pins.position_eq_some_iff.mp found
      exact testBit_cleared small (Pins.testBit_portmask _ below)
  | port2 =>
      obtain ⟨port2, second, positions⟩ := Option.bind_eq_some_iff.mp found
      obtain ⟨position, at_, -⟩ := Option.map_eq_some_iff.mp positions
      obtain ⟨below, rfl⟩ := Pins.position_eq_some_iff.mp at_
      rw [startPorts, second]
      exact testBit_cleared small (Pins.testBit_portmask _ below)

theorem testBit_switchOn (io : Port → UInt8) (item : Switching) (port : Port) (pin : Nat) :
    (switchOn io item.port port).toNat.testBit pin =
      ((io port).toNat.testBit pin || item.drives port pin) := by
  rw [switchOn, Switching.drives]
  by_cases same : item.port.port = port
  · subst same
    rw [Function.update_self, UInt8.toNat_or, Nat.testBit_or, decide_eq_true rfl, Bool.true_and]
  · rw [Function.update_of_ne (Ne.symm same), decide_eq_false same, Bool.false_and, Bool.or_false]

/-- The interrupts have switched on the pins of the entries in front. -/
structure Switched (config : Config) (table : Table) (front back : List Nat) (stella : State) :
    Prop where
  intTable : stella.intTable = table
  current : stella.current = back.head?
  io : ∀ port pin, IsPin config port pin → (stella.io port).toNat.testBit pin =
    ((table.startMask port).toNat.testBit pin ||
      (table.switchings front).any (Switching.drives port pin))

/-- The compare register holds the value of the next entry. -/
def Awaits (table : Table) (back : List Nat) (stella : State) : Prop :=
  ∀ next ∈ back.head?, stella.compareReg = (table.channel next).value

section Period

variable {config : Config} {table : Table} {front back : List Nat} {stella : State}

/-- The pins of the next entry go on. -/
theorem any_drives_concat (i : Nat) (port : Port) (pin : Nat) :
    (table.switchings (front ++ [i])).any (Switching.drives port pin) =
      ((table.switchings front).any (Switching.drives port pin) ||
        (table.channel i).toSwitching.drives port pin) := by
  rw [Table.switchings_append, List.any_append, Table.switchings_cons]
  simp [Table.switchings]

theorem Switched.activate {i : Nat} (switched : Switched config table front (i :: back) stella)
    (linked : Linked table (front ++ i :: back)) :
    Switched config table (front ++ [i]) back (activate stella i) where
  intTable := switched.intTable
  current := by
    rw [Stella.activate, switched.intTable]
    exact linked.next_eq
  io := fun port pin isPin => by
    rw [Stella.activate, switched.intTable, testBit_switchOn, switched.io port pin isPin,
      any_drives_concat, Bool.or_assoc]

/-- A compare interrupt goes through the entries with the value of the register. -/
structure Handled (config : Config) (table : Table) (front back : List Nat) (register : UInt8)
    (stella' : State) (passed remaining : List Nat) : Prop where
  split : back = passed ++ remaining
  switched : Switched config table (front ++ passed) remaining stella'
  awaits : Awaits table remaining stella'
  values : ∀ i ∈ passed, (table.channel i).value = register
  stops : ∀ next ∈ remaining.head?, (table.channel next).value ≠ register

theorem Handled.cons {i : Nat} {register : UInt8} {stella' : State} {passed remaining : List Nat}
    (handled : Handled config table (front ++ [i]) back register stella' passed remaining)
    (value : (table.channel i).value = register) :
    Handled config table front (i :: back) register stella' (i :: passed) remaining where
  split := congrArg (List.cons i) handled.split
  switched := by
    have switched := handled.switched
    rwa [← List.append_cons] at switched
  awaits := handled.awaits
  values := List.forall_mem_cons.mpr ⟨value, handled.values⟩
  stops := handled.stops

theorem compareLoop_spec {rounds : Nat} (linked : Linked table (front ++ back))
    (switched : Switched config table front back stella) (awaits : Awaits table back stella)
    (room : back.length < rounds) :
    ∃ stella' passed remaining, compareLoop rounds stella = some stella' ∧
      Handled config table front back stella.compareReg stella' passed remaining := by
  induction rounds generalizing front back stella with
  | zero => cases room
  | succ rounds ih =>
      rw [compareLoop]
      cases back with
      | nil =>
          rw [switched.current]
          refine ⟨stella, [], [], rfl, rfl, ?_, awaits, nofun, nofun⟩
          rwa [List.append_nil]
      | cons i back =>
          have value : (table.channel i).value = stella.compareReg := (awaits i rfl).symm
          have activated := switched.activate linked
          have register : (activate stella i).compareReg = stella.compareReg := rfl
          rw [List.append_cons] at linked
          rw [List.length_cons] at room
          rw [switched.current]
          simp only [List.head?_cons, activated.current]
          have more := @ih (front ++ [i]) back (activate stella i) linked activated
          generalize activate stella i = stella' at activated register more ⊢
          cases back with
          | nil =>
              -- The list is at its end.
              obtain ⟨last, passed, remaining, ran, handled⟩ := more nofun (by omega)
              rw [register] at handled
              exact ⟨last, i :: passed, remaining, ran, handled.cons value⟩
          | cons next back =>
              simp only [List.head?_cons]
              split_ifs with later
              · -- The next entry is that of a later time.
                refine ⟨_, [i], next :: back, rfl, rfl, ⟨activated.intTable, rfl,
                  activated.io⟩, ?_, List.forall_mem_singleton.mpr value, ?_⟩
                · intro _ isNext
                  cases Option.some.inj isNext
                  rw [activated.intTable]
                · intro _ isNext
                  cases Option.some.inj isNext
                  rw [register, activated.intTable] at later
                  exact Ne.symm later
              · have again : Awaits table (next :: back) stella' := by
                  intro _ isNext
                  cases Option.some.inj isNext
                  rw [activated.intTable] at later
                  exact not_not.mp later
                obtain ⟨last, passed, remaining, ran, handled⟩ := more again (by omega)
                rw [register] at handled
                exact ⟨last, i :: passed, remaining, ran, handled.cons value⟩

/-- A period up to a counter value: the entries in front are those of earlier ones. -/
structure Running (config : Config) (table : Table) (counter : Nat) (front back : List Nat)
    (stella : State) : Prop where
  switched : Switched config table front back stella
  awaits : Awaits table back stella
  past : ∀ i ∈ front, (table.channel i).time < counter
  ahead : ∀ i ∈ back, counter ≤ (table.channel i).time

end Period

section Sorted

variable {config : Config} {brightness : Nat → UInt8} {table : Table} {nodes : List Nat}

theorem Sorted.order_of_append {front back : List Nat} {next i : Nat}
    (sorted : Sorted config brightness (stellaChannels config) table (front ++ next :: back))
    (member : i ∈ next :: back) : (table.channel next).time ≤ (table.channel i).time := by
  have order := sorted.order
  rw [Table.switchings_append, List.pairwise_append, Table.switchings_cons,
    List.pairwise_cons] at order
  rcases List.mem_cons.mp member with rfl | behind
  · exact Nat.le_refl _
  · exact order.2.1.1 _ (List.mem_map_of_mem behind)

/-- When the next entry is that of a later time, all are. -/
theorem Sorted.later {front back : List Nat} {counter : Nat}
    (sorted : Sorted config brightness (stellaChannels config) table (front ++ back))
    (ahead : ∀ i ∈ back, counter ≤ (table.channel i).time)
    (next : ∀ next ∈ back.head?, (table.channel next).time ≠ counter) :
    ∀ i ∈ back, counter + 1 ≤ (table.channel i).time := by
  cases back with
  | nil => exact nofun
  | cons first back =>
      intro i member
      have order := sorted.order_of_append member
      have least := ahead first List.mem_cons_self
      have apart := next first rfl
      omega

/-- A counter value of the period. -/
theorem Running.tick {counter : Nat} {front back : List Nat} {stella : State}
    (sorted : Sorted config brightness (stellaChannels config) table (front ++ back))
    (running : Running config table counter front back stella) :
    ∃ stella' passed remaining, back = passed ++ remaining ∧
      (if stella.compareReg.toNat = counter then compareInterrupt config stella
        else some stella) = some stella' ∧
      Running config table (counter + 1) (front ++ passed) remaining stella' := by
  have past : ∀ i ∈ front, (table.channel i).time < counter + 1 := fun i member =>
    Nat.lt_succ_of_lt (running.past i member)
  split_ifs with now
  · have room : back.length < stellaChannels config + 1 := by
      have length := sorted.length_le
      rw [List.length_append] at length
      omega
    obtain ⟨stella', passed, remaining, ran, handled⟩ :=
      compareLoop_spec sorted.linked running.switched running.awaits room
    obtain rfl := handled.split
    refine ⟨stella', passed, remaining, rfl, ran, handled.switched, handled.awaits, ?_, ?_⟩
    · intro i member
      rcases List.mem_append.mp member with before | passing
      · exact past i before
      · rw [Switching.time, handled.values i passing, now]
        exact Nat.lt_succ_self counter
    · rw [← List.append_assoc] at sorted
      apply sorted.later
      · intro i member
        exact running.ahead i (List.mem_append_right passed member)
      · intro next isNext same
        rw [Switching.time, ← now] at same
        exact handled.stops next isNext (UInt8.toNat_inj.mp same)
  · refine ⟨stella, [], back, rfl, rfl, ?_, running.awaits, ?_, ?_⟩
    · rw [List.append_nil]
      exact running.switched
    · rw [List.append_nil]
      exact past
    · apply sorted.later running.ahead
      intro next isNext
      rw [Switching.time, ← running.awaits next isNext]
      exact now

/-- The overflow begins a period with the new timetable. -/
theorem Running.overflow (sorted : Sorted config brightness (stellaChannels config) table nodes)
    {stella : State} (calculated : stella.calTable = table) (new : stella.sync = .newValues) :
    Running config table 0 [] nodes (overflowInterrupt config stella) := by
  have head : table.head = nodes.head? := sorted.linked.head_eq
  have io : ∀ port pin, IsPin config port pin →
      (startPorts config table stella.io port).toNat.testBit pin =
        ((table.startMask port).toNat.testBit pin || [].any (Switching.drives port pin)) := by
    intro port pin isPin
    rw [testBit_startPorts isPin, List.any_nil, Bool.or_false]
  have past : ∀ i ∈ ([] : List Nat), (table.channel i).time < 0 := nofun
  have ahead : ∀ i ∈ nodes, 0 ≤ (table.channel i).time := fun _ _ => Nat.zero_le _
  simp only [overflowInterrupt, if_pos new, calculated, apply_ite State.intTable,
    apply_ite State.io, ite_self, head]
  cases nodes with
  | nil => exact ⟨⟨rfl, rfl, io⟩, nofun, past, ahead⟩
  | cons first nodes =>
      refine ⟨⟨rfl, rfl, io⟩, ?_, past, ahead⟩
      intro next isNext
      cases Option.some.inj isNext
      rfl

theorem periodTo_spec (sorted : Sorted config brightness (stellaChannels config) table nodes)
    {stella : State} (calculated : stella.calTable = table) (new : stella.sync = .newValues)
    (counter : Nat) :
    ∃ stella' front back, nodes = front ++ back ∧
      periodTo config stella counter = some stella' ∧
      Running config table counter front back stella' := by
  induction counter with
  | zero => exact ⟨_, [], nodes, rfl, rfl, Running.overflow sorted calculated new⟩
  | succ counter ih =>
      obtain ⟨stella', front, back, rfl, ran, running⟩ := ih
      obtain ⟨stella'', passed, remaining, rfl, ticked, running'⟩ := running.tick sorted
      refine ⟨stella'', front ++ passed, remaining, (List.append_assoc ..).symm, ?_, running'⟩
      rw [periodTo, ran, Option.bind_some, ticked]

/-- A pin is on when its time has passed. -/
theorem Running.testBit_io {counter : Nat} {front back : List Nat} {stella : State}
    (sorted : Sorted config brightness (stellaChannels config) table (front ++ back))
    (running : Running config table counter front back stella) {i : Nat}
    (inside : i < stellaChannels config) (dimmed : Dimmed (brightness i)) {port : Port} {pin : Nat}
    (wired : channelPin config i = (port, pin)) :
    (stella.io port).toNat.testBit pin = true ↔ 255 - (brightness i).toNat < counter := by
  have found := channelAt_eq_some_iff.mpr ⟨inside, wired⟩
  have start := sorted.start port pin
  have times := sorted.times port pin
  rw [fullAt, found] at start
  rw [dimmedTimes, found] at times
  simp only [inside, dimmed, ((dimmed_iff _).mp dimmed).2, and_false, decide_false, and_self,
    if_true] at start times
  have mem : ∀ time, (∃ node ∈ front ++ back, (table.channel node).drives port pin = true ∧
      (table.channel node).time = time) ↔ time = 255 - (brightness i).toNat := by
    intro time
    rw [← List.mem_singleton, ← times, mem_switchTimes]
  rw [running.switched.io port pin ⟨i, inside, wired⟩, start, Bool.false_or, List.any_eq_true]
  constructor
  · rintro ⟨item, member, drives⟩
    obtain ⟨node, inFront, rfl⟩ := List.mem_map.mp member
    rw [← (mem _).mp ⟨node, List.mem_append_left back inFront, drives, rfl⟩]
    exact running.past node inFront
  · intro before
    obtain ⟨node, member, drives, time⟩ := (mem _).mpr rfl
    rcases List.mem_append.mp member with inFront | inBack
    · exact ⟨_, List.mem_map_of_mem inFront, drives⟩
    · have notYet := running.ahead node inBack
      omega

end Sorted

/-- The timetable of some values: one entry has the pin of a dimmed channel, with the time at which
the pin goes on. -/
structure Timetable (config : Config) (brightness : Nat → UInt8) (table : Table)
    (nodes : List Nat) : Prop where
  finite : Segment table.next table.head (nodes.map some) none
  order : (table.switchings nodes).Pairwise fun first second => first.value ≤ second.value
  dimmed : ∀ i < stellaChannels config, ∀ port pin, channelPin config i = (port, pin) →
    Dimmed (brightness i) → ∃ item,
      (table.switchings nodes).filter (Switching.drives port pin) = [item] ∧
        item.value = 255 - brightness i
  full : ∀ port pin, (table.startMask port).toNat.testBit pin = true ↔
    ∃ i < stellaChannels config, channelPin config i = (port, pin) ∧ brightness i = 255
  dark : ∀ i < stellaChannels config, ∀ port pin, channelPin config i = (port, pin) →
    brightness i = 0 →
      (table.switchings nodes).filter (Switching.drives port pin) = [] ∧
        (table.startMask port).toNat.testBit pin = false

theorem Sorted.timetable {config : Config} {brightness : Nat → UInt8} {table : Table}
    {nodes : List Nat} (sorted : Sorted config brightness (stellaChannels config) table nodes) :
    Timetable config brightness table nodes where
  finite := sorted.linked.segment
  order := sorted.order.imp fun le => UInt8.le_iff_toNat_le.mpr le
  dimmed := fun i inside port pin wired dimmed => by
    have found := channelAt_eq_some_iff.mpr ⟨inside, wired⟩
    have times := sorted.times port pin
    rw [dimmedTimes, found] at times
    simp only [inside, dimmed, and_self, if_true] at times
    obtain ⟨item, only, time⟩ := List.map_eq_singleton_iff.mp times
    refine ⟨item, only, UInt8.toNat_inj.mp ?_⟩
    rw [toNat_value]
    exact time
  full := fun port pin => by
    rw [sorted.start, fullAt]
    cases found : channelAt config port pin with
    | none =>
        simp only [Bool.false_eq_true, false_iff]
        rintro ⟨i, inside, wired, -⟩
        rw [channelAt_eq_some_iff.mpr ⟨inside, wired⟩] at found
        cases found
    | some i =>
        rw [decide_eq_true_iff]
        constructor
        · rintro ⟨inside, full⟩
          exact ⟨i, inside, (channelAt_eq_some_iff.mp found).2, full⟩
        · rintro ⟨j, inside, wired, full⟩
          rw [channelAt_eq_some_iff.mpr ⟨inside, wired⟩] at found
          cases Option.some.inj found
          exact ⟨inside, full⟩
  dark := fun i inside port pin wired dark => by
    have found := channelAt_eq_some_iff.mpr ⟨inside, wired⟩
    have times := sorted.times port pin
    have start := sorted.start port pin
    rw [dimmedTimes, found] at times
    rw [fullAt, found] at start
    have notDimmed : ¬Dimmed 0 := by decide
    simp only [dark, notDimmed, and_false, if_false] at times
    simp only [dark] at start
    exact ⟨List.map_eq_nil_iff.mp times, start.trans (by simp)⟩

/-- The sort makes the timetable of the channels, and in a period with it a dimmed channel goes on
at the counter value `255 - brightness`. -/
theorem stella_sort_timetable (config : Config) (stella : State) :
    ∃ sorted nodes, stellaSort config stella = some sorted ∧
      Timetable config stella.brightness sorted.calTable nodes ∧ sorted.sync = .newValues ∧
      ∀ begun : State, begun.calTable = sorted.calTable → begun.sync = .newValues →
        ∀ counter ≤ 256, ∃ running, periodTo config begun counter = some running ∧
          ∀ i < stellaChannels config, ∀ port pin, channelPin config i = (port, pin) →
            Dimmed (stella.brightness i) →
              ((running.io port).toNat.testBit pin = true ↔
                255 - (stella.brightness i).toNat < counter) := by
  obtain ⟨table, nodes, ran, sorted⟩ := sortTable_spec config stella.brightness stella.calTable
  refine ⟨{ stella with calTable := table, sync := .newValues }, nodes, ?_, sorted.timetable, rfl,
    ?_⟩
  · rw [stellaSort, ran, Option.map_some]
  · intro begun calculated new counter _
    obtain ⟨running, front, back, rfl, period, within⟩ :=
      periodTo_spec sorted calculated new counter
    exact ⟨running, period, fun i inside port pin wired dimmed =>
      within.testBit_io sorted inside dimmed wired⟩

end Ethersex.Stella

import Ethersex.WatchasyncQueue
import Mathlib.Algebra.BigOperators.Group.Finset.Piecewise
import Mathlib.Algebra.BigOperators.Intervals

/-!
# The counters of watchasync

`services/watchasync/watchasync.c` with `CONF_WATCHASYNC_SUMMARIZE` and counters of 8 bits.  The
pin interrupt counts edges in the slot of the current time; the main program moves the count of an
older slot into a connection, and back again when the connection fails.  A counter is loaded
and stored by separate instructions of the main program, with the interrupt in between.
-/

namespace Ethersex.WatchasyncCounters

open GuardedRuns
open Watchasync (SendState ConnState Flags)

/-- The parameters of the build.  A resolution of one second divides by one, and the buffer has
one slot at least. -/
structure Config where
  bufferSize : UInt32
  resolution : UInt32
  sendEnd : Bool
  pinCount : Nat
  nonempty : bufferSize ≠ 0

/-- `watchasync_connection_state_t`. -/
structure Connection where
  state : ConnState
  timestamp : UInt32
  pin : UInt8
  count : UInt8
  deriving DecidableEq

/-- What a request to the server says. -/
structure Message where
  pin : UInt8
  timestamp : UInt32
  count : UInt8
  deriving DecidableEq

/-- The next statement of the main program, with what it has loaded before. -/
inductive Position
  | idle
  | nextSlot (temp : UInt8)
  | nextPin (temp : UInt8)
  | sendmessage
  | lookup
  | connect
  | take (timestamp : UInt32)
  | subtract (timestamp : UInt32) (count : UInt8)
  | storeRest (timestamp : UInt32) (count loaded : UInt8)
  | restore (conn : Nat) (buf : UInt8)
  | storeRestored (conn : Nat) (buf loaded : UInt8)
  deriving DecidableEq

/-- The counters of the slots and the connections.  The last four fields are not part of the
program: the edges of a pin, those among them that found the largest count and left it, the counts
that were acknowledged, and whether a counter became smaller when something was added to it. -/
structure State where
  buffer : Nat → UInt8 → UInt8
  buf : UInt8
  bufpin : UInt8
  sendstate : SendState
  connections : Nat → Connection
  opened : Nat
  queries : Nat
  messages : List Message
  position : Position
  edges : UInt8 → Nat
  saturated : UInt8 → Nat
  acknowledged : UInt8 → Nat
  wrapped : Bool

def initial : State where
  buffer _ _ := 0
  buf := 0
  bufpin := 0
  sendstate := .idle
  connections _ := ⟨.old, 0, 0, 0⟩
  opened := 0
  queries := 0
  messages := []
  position := .idle
  edges _ := 0
  saturated _ := 0
  acknowledged _ := 0
  wrapped := false

/-- The slot of a time. -/
def slotOf (config : Config) (time : UInt32) : UInt8 :=
  (time / config.resolution % config.bufferSize).toUInt8

/-- The slot that counts at the moment. -/
def currentSlot (config : Config) (clock : UInt32) : UInt8 :=
  if config.sendEnd then ((clock / config.resolution + 1) % config.bufferSize).toUInt8
  else slotOf config clock

def nextBuf (config : Config) (buf : UInt8) : UInt8 :=
  UInt8.ofNat ((buf.toNat + 1) % config.bufferSize.toNat)

def setCounter (buffer : Nat → UInt8 → UInt8) (slot : Nat) (pin value : UInt8) :
    Nat → UInt8 → UInt8 :=
  Function.update buffer slot (Function.update (buffer slot) pin value)

def increase (counts : UInt8 → Nat) (pin : UInt8) (amount : Nat) : UInt8 → Nat :=
  Function.update counts pin (counts pin + amount)

/-- `addToRingbuffer`.  The complement is taken of an `int`. -/
def addToRingbuffer (config : Config) (pin : UInt8) (clock : UInt32) (state : State) : State :=
  let tempright := (currentSlot config clock).toNat
  let counter := state.buffer tempright pin
  if -1 - (counter.toNat : Int) ≠ 0 then
    { state with
      buffer := setCounter state.buffer tempright pin (counter + 1)
      edges := increase state.edges pin 1
      wrapped := state.wrapped || counter + 1 < counter }
  else
    { state with
      edges := increase state.edges pin 1
      saturated := increase state.saturated pin 1 }

/-- `watchasync_mainloop`, up to its loop. -/
def mainloop (config : Config) (clock : UInt32) (state : State) : State :=
  if state.sendstate ≠ .sending then
    let temp := currentSlot config clock
    { state with buf := nextBuf config temp, position := .nextSlot temp }
  else state

/-- The timestamp of a slot that was filled before now. -/
def slotTimestamp (config : Config) (buf : UInt8) (clock later : UInt32) : UInt32 :=
  let round := config.resolution * config.bufferSize
  let timestamp := clock / round * round + buf.toUInt32 * config.resolution
  if later < timestamp then timestamp - round else timestamp

/-- `watchasync_net_main`, up to the restored count. -/
def netMain (config : Config) (state : State) (conn : Nat) (flags : Flags) : State :=
  let connection := state.connections conn
  if (flags.aborted ∨ flags.timedout ∨ flags.closed) ∧ connection.state = .new then
    { state with position := .restore conn (slotOf config connection.timestamp) }
  else
    let state :=
      if flags.connected ∨ flags.rexmit then
        { state with
          messages := state.messages ++
            [⟨connection.pin, connection.timestamp, connection.count⟩] }
      else state
    if flags.acked ∧ connection.state = .new then
      { state with
        connections := Function.update state.connections conn { connection with state := .old }
        acknowledged := increase state.acknowledged connection.pin connection.count.toNat }
    else state

/-- The statements that depend on nothing outside.  The connection is written as a whole, with the
counter. -/
def proceed (config : Config) (state : State) : Option State :=
  match state.position with
  | .nextSlot temp =>
      if state.buf ≠ temp then some { state with bufpin := 0, position := .nextPin temp }
      else some { state with position := .idle }
  | .nextPin temp =>
      if state.bufpin.toNat < config.pinCount then
        if state.buffer state.buf.toNat state.bufpin ≠ 0 then
          some { state with position := .sendmessage }
        else some { state with bufpin := state.bufpin + 1 }
      else some { state with buf := nextBuf config state.buf, position := .nextSlot temp }
  | .sendmessage => some { state with sendstate := .sending, position := .lookup }
  | .take timestamp =>
      let count := state.buffer state.buf.toNat state.bufpin
      some { state with position := .subtract timestamp count }
  | .subtract timestamp count =>
      let loaded := state.buffer state.buf.toNat state.bufpin
      some { state with position := .storeRest timestamp count loaded }
  | .storeRest timestamp count loaded =>
      some { state with
        buffer := setCounter state.buffer state.buf.toNat state.bufpin (loaded - count)
        connections := Function.update state.connections state.opened
          ⟨.new, timestamp, state.bufpin, count⟩
        opened := state.opened + 1
        sendstate := .idle
        position := .idle }
  | .restore conn buf =>
      let loaded := state.buffer buf.toNat (state.connections conn).pin
      some { state with position := .storeRestored conn buf loaded }
  | .storeRestored conn buf loaded =>
      let connection := state.connections conn
      let restored := loaded + connection.count
      some { state with
        buffer := setCounter state.buffer buf.toNat connection.pin restored
        connections := Function.update state.connections conn { connection with state := .old }
        position := .idle
        wrapped := state.wrapped || restored < loaded }
  | .idle | .lookup | .connect => none

/-- What happens next.  The clock may have any value each time it is read. -/
inductive Action
  | edge (pin : UInt8) (clock : UInt32)
  | mainloop (clock : UInt32)
  | event (conn : Nat) (flags : Flags)
  | answer
  | proceed
  | lookup (found : Bool)
  | connect (success : Bool) (clock later : UInt32)

def step (config : Config) (state : State) : Action → Option State
  | .edge pin clock =>
      if pin.toNat < config.pinCount then some (addToRingbuffer config pin clock state) else none
  | .mainloop clock => if state.position = .idle then some (mainloop config clock state) else none
  | .event conn flags =>
      if state.position = .idle ∧ conn < state.opened then some (netMain config state conn flags)
      else none
  | .answer =>
      if state.position = .idle ∧ 0 < state.queries then
        some { state with queries := state.queries - 1, position := .connect }
      else none
  | .proceed => proceed config state
  | .lookup found =>
      if state.position = .lookup then
        if found then some { state with position := .connect }
        else some { state with queries := state.queries + 1, position := .idle }
      else none
  | .connect success clock later =>
      if state.position = .connect then
        if success then
          some { state with position := .take (slotTimestamp config state.buf clock later) }
        else some { state with sendstate := .idle, position := .idle }
      else none

/-- The counts that are stored for a pin. -/
def stored (config : Config) (state : State) (pin : UInt8) : Nat :=
  ∑ slot ∈ Finset.range config.bufferSize.toNat, (state.buffer slot pin).toNat

/-- What a connection has taken from the counter of a pin, until it is acknowledged or fails. -/
def carried (connection : Connection) (pin : UInt8) : Nat :=
  if connection.state = .new ∧ connection.pin = pin then connection.count.toNat else 0

def inFlight (state : State) (pin : UInt8) : Nat :=
  ∑ conn ∈ Finset.range state.opened, carried (state.connections conn) pin

/-- Every edge is acknowledged, in flight, stored, or one that found the largest count; and no
counter has become smaller when something was added to it. -/
structure Counted (config : Config) (state : State) : Prop where
  conserved : ∀ pin, state.edges pin =
    state.acknowledged pin + inFlight state pin + stored config state pin + state.saturated pin
  unwrapped : state.wrapped = false

/-- The counter that the main program has loaded and not yet stored. -/
def loadedCounter (state : State) : Option (Nat × UInt8) :=
  match state.position with
  | .storeRest _ _ _ => some (state.buf.toNat, state.bufpin)
  | .storeRestored conn buf _ => some (buf.toNat, (state.connections conn).pin)
  | _ => none

/-- The sum that the next statement stores when it restores a count. -/
def restoredSum (state : State) : Nat :=
  match state.position with
  | .storeRestored conn _ loaded => loaded.toNat + (state.connections conn).count.toNat
  | _ => 0

/-- No edge comes to a full counter, or to one that is loaded, and a restored count fits. -/
def Harmless (config : Config) (state : State) : Action → Prop
  | .edge pin clock =>
      state.buffer (currentSlot config clock).toNat pin ≠ 255 ∧
        loadedCounter state ≠ some ((currentSlot config clock).toNat, pin)
  | .proceed => restoredSum state ≤ 255
  | _ => True

instance decidableHarmless (config : Config) (state : State) :
    ∀ action, Decidable (Harmless config state action)
  | .edge pin clock =>
      inferInstanceAs (Decidable (state.buffer (currentSlot config clock).toNat pin ≠ 255 ∧
        loadedCounter state ≠ some ((currentSlot config clock).toNat, pin)))
  | .proceed => inferInstanceAs (Decidable (restoredSum state ≤ 255))
  | .mainloop _ | .event _ _ | .answer | .lookup _ | .connect _ _ _ =>
      inferInstanceAs (Decidable True)

/-- A sum in which one summand is exchanged. -/
theorem sum_update {Element : Type*} (elements : Nat → Element) (value : Element → Nat)
    {count index : Nat} (inside : index < count) (element : Element) :
    ∑ other ∈ Finset.range count, value (Function.update elements index element other) +
        value (elements index) =
      ∑ other ∈ Finset.range count, value (elements other) + value element := by
  have member := Finset.mem_range.mpr inside
  have others : ∑ other ∈ Finset.range count \ {index},
      value (Function.update elements index element other) =
        ∑ other ∈ Finset.range count \ {index}, value (elements other) := by
    apply Finset.sum_congr rfl
    intro other inRest
    have apart : other ≠ index := by
      simp only [Finset.mem_sdiff, Finset.mem_singleton] at inRest
      exact inRest.2
    rw [Function.update_of_ne apart]
  rw [Finset.sum_eq_add_sum_sdiff_singleton_of_mem member, others, Function.update_self,
    Finset.sum_eq_add_sum_sdiff_singleton_of_mem member (fun other => value (elements other))]
  omega

theorem stored_setCounter (config : Config) (state : State) {slot : Nat}
    (inside : slot < config.bufferSize.toNat) (pin value other : UInt8) :
    stored config { state with buffer := setCounter state.buffer slot pin value } other +
        (if other = pin then (state.buffer slot pin).toNat else 0) =
      stored config state other + (if other = pin then value.toNat else 0) := by
  have exchanged := sum_update state.buffer (fun row => (row other).toNat) inside
    (Function.update (state.buffer slot) pin value)
  by_cases same : other = pin
  · subst same
    simpa [stored, setCounter] using exchanged
  · simpa [stored, setCounter, same] using exchanged

theorem inFlight_update (state : State) {conn : Nat} (opened : conn < state.opened)
    (connection : Connection) (pin : UInt8) :
    ∑ other ∈ Finset.range state.opened,
        carried (Function.update state.connections conn connection other) pin +
        carried (state.connections conn) pin =
      inFlight state pin + carried connection pin :=
  sum_update state.connections (carried · pin) opened connection

theorem inFlight_open (state : State) (connection : Connection) (pin : UInt8) :
    ∑ other ∈ Finset.range (state.opened + 1),
        carried (Function.update state.connections state.opened connection other) pin =
      inFlight state pin + carried connection pin := by
  rw [Finset.sum_range_succ, Function.update_self, inFlight]
  congr 1
  apply Finset.sum_congr rfl
  intro other before
  rw [Function.update_of_ne (Nat.ne_of_lt (Finset.mem_range.mp before))]

theorem increase_apply (counts : UInt8 → Nat) (pin other : UInt8) (amount : Nat) :
    increase counts pin amount other = counts other + if other = pin then amount else 0 := by
  by_cases same : other = pin
  · rw [same, increase, Function.update_self, if_pos rfl]
  · rw [increase, Function.update_of_ne same, if_neg same, Nat.add_zero]

/-- What the main program has loaded is still there. -/
def Holding (config : Config) (state : State) : Position → Prop
  | .subtract _ count => count ≤ state.buffer state.buf.toNat state.bufpin
  | .storeRest _ count loaded =>
      loaded = state.buffer state.buf.toNat state.bufpin ∧ count ≤ loaded
  | .restore conn buf =>
      conn < state.opened ∧ (state.connections conn).state = .new ∧
        buf.toNat < config.bufferSize.toNat
  | .storeRestored conn buf loaded =>
      (conn < state.opened ∧ (state.connections conn).state = .new ∧
        buf.toNat < config.bufferSize.toNat) ∧
        loaded = state.buffer buf.toNat (state.connections conn).pin
  | _ => True

structure Keeping (config : Config) (state : State) : Prop where
  counted : Counted config state
  inside : state.buf.toNat < config.bufferSize.toNat
  holding : Holding config state state.position

section Slots

variable (config : Config)

theorem Config.positive : 0 < config.bufferSize.toNat := by
  apply Nat.pos_of_ne_zero
  intro empty
  exact config.nonempty (UInt32.toNat_inj.mp empty)

theorem toUInt8_mod_lt (value : UInt32) :
    (value % config.bufferSize).toUInt8.toNat < config.bufferSize.toNat := by
  rw [UInt32.toNat_toUInt8, UInt32.toNat_mod]
  exact Nat.lt_of_le_of_lt (Nat.mod_le _ _) (Nat.mod_lt _ config.positive)

theorem slotOf_lt (time : UInt32) : (slotOf config time).toNat < config.bufferSize.toNat :=
  toUInt8_mod_lt config _

theorem currentSlot_lt (clock : UInt32) :
    (currentSlot config clock).toNat < config.bufferSize.toNat := by
  rw [currentSlot]
  split_ifs
  · exact toUInt8_mod_lt config _
  · exact slotOf_lt config clock

theorem nextBuf_lt (buf : UInt8) : (nextBuf config buf).toNat < config.bufferSize.toNat := by
  rw [nextBuf, UInt8.toNat_ofNat']
  exact Nat.lt_of_le_of_lt (Nat.mod_le _ _) (Nat.mod_lt _ config.positive)

end Slots

section Steps

variable {config : Config} {state : State}

/-- A counter that is not full becomes larger by one. -/
theorem toNat_succ_of_ne {counter : UInt8} (free : counter ≠ 255) :
    (counter + 1).toNat = counter.toNat + 1 := by
  have small := counter.toNat_lt
  have notLast : counter.toNat ≠ 255 := fun last => free (UInt8.toNat_inj.mp last)
  rw [UInt8.toNat_add, UInt8.toNat_one]
  omega

theorem setCounter_apply (buffer : Nat → UInt8 → UInt8) (slot other : Nat)
    (pin otherPin value : UInt8) :
    setCounter buffer slot pin value other otherPin =
      if other = slot ∧ otherPin = pin then value else buffer other otherPin := by
  by_cases sameSlot : other = slot
  · subst sameSlot
    by_cases samePin : otherPin = pin
    · subst samePin
      simp [setCounter]
    · simp [setCounter, samePin]
  · simp [setCounter, sameSlot]

/-- An edge leaves what the main program has loaded, unless it is for that counter. -/
theorem Holding.setCounter {position : Position} (holding : Holding config state position)
    {slot : Nat} {pin : UInt8} (notLoaded : loadedCounter { state with position := position } ≠
      some (slot, pin)) (free : state.buffer slot pin ≠ 255)
    {edges : UInt8 → Nat} {wrapped : Bool} :
    Holding config
      { state with
        buffer := setCounter state.buffer slot pin (state.buffer slot pin + 1)
        edges := edges
        wrapped := wrapped } position := by
  cases position with
  | subtract timestamp count =>
      simp only [Holding, setCounter_apply]
      split_ifs with same
      · obtain ⟨rfl, rfl⟩ := same
        have larger := toNat_succ_of_ne free
        have count := UInt8.le_iff_toNat_le.mp holding
        rw [UInt8.le_iff_toNat_le]
        omega
      · exact holding
  | storeRest timestamp count loaded =>
      have apart : ¬(state.buf.toNat = slot ∧ state.bufpin = pin) := by
        rintro ⟨rfl, rfl⟩
        exact notLoaded rfl
      simp only [Holding, setCounter_apply, if_neg apart]
      exact holding
  | storeRestored conn buf loaded =>
      have apart : ¬(buf.toNat = slot ∧ (state.connections conn).pin = pin) := by
        rintro ⟨rfl, rfl⟩
        exact notLoaded rfl
      simp only [Holding, setCounter_apply, if_neg apart]
      exact holding
  | restore conn buf => exact holding
  | idle | nextSlot temp | nextPin temp | sendmessage | lookup | connect | take timestamp => trivial

theorem Keeping.addToRingbuffer (keeping : Keeping config state) (pin : UInt8) (clock : UInt32)
    (harmless : Harmless config state (.edge pin clock)) :
    Keeping config (addToRingbuffer config pin clock state) := by
  obtain ⟨free, notLoaded⟩ := harmless
  have larger := toNat_succ_of_ne free
  have complement : -1 - ((state.buffer (currentSlot config clock).toNat pin).toNat : Int) ≠ 0 := by
    omega
  rw [WatchasyncCounters.addToRingbuffer, if_pos complement]
  refine ⟨⟨?_, ?_⟩, keeping.inside, keeping.holding.setCounter notLoaded free⟩
  · intro other
    have before := keeping.counted.conserved other
    have counter := stored_setCounter config state (currentSlot_lt config clock) pin
      (state.buffer (currentSlot config clock).toNat pin + 1) other
    simp only [stored, inFlight, increase_apply] at before counter ⊢
    split_ifs at counter ⊢ with same
    · omega
    · omega
  · have notSmaller : ¬state.buffer (currentSlot config clock).toNat pin + 1 <
        state.buffer (currentSlot config clock).toNat pin := by
      rw [UInt8.lt_iff_toNat_lt]
      omega
    simp [keeping.counted.unwrapped, notSmaller]

/-- A step that moves no count. -/
theorem Keeping.move (keeping : Keeping config state) {buf bufpin : UInt8} {sendstate : SendState}
    {queries : Nat} {messages : List Message} {position : Position}
    (inside : buf.toNat < config.bufferSize.toNat)
    (holding : Holding config
      { state with
        buf := buf
        bufpin := bufpin
        sendstate := sendstate
        queries := queries
        messages := messages
        position := position } position) :
    Keeping config
      { state with
        buf := buf
        bufpin := bufpin
        sendstate := sendstate
        queries := queries
        messages := messages
        position := position } where
  counted := ⟨keeping.counted.conserved, keeping.counted.unwrapped⟩
  inside := inside
  holding := holding

theorem carried_old (connection : Connection) (pin : UInt8) :
    carried { connection with state := .old } pin = 0 := by
  rw [carried, if_neg]
  rintro ⟨isNew, -⟩
  cases isNew

theorem carried_new {connection : Connection} (isNew : connection.state = .new) (pin : UInt8) :
    carried connection pin = if pin = connection.pin then connection.count.toNat else 0 := by
  simp only [carried, isNew, true_and, eq_comm]

theorem Keeping.netMain (keeping : Keeping config state) (outside : state.position = .idle)
    {conn : Nat} (opened : conn < state.opened) (flags : Flags) :
    Keeping config (netMain config state conn flags) := by
  have anywhere : ∀ messages, Keeping config { state with messages := messages } := fun messages =>
    ⟨⟨keeping.counted.conserved, keeping.counted.unwrapped⟩, keeping.inside, by
      have idle : Holding config { state with messages := messages } .idle := trivial
      rwa [← outside] at idle⟩
  have acknowledged : ∀ messages, (state.connections conn).state = .new →
      Keeping config
        { state with
          messages := messages
          connections := Function.update state.connections conn
            { state.connections conn with state := .old }
          acknowledged := increase state.acknowledged (state.connections conn).pin
            (state.connections conn).count.toNat } := by
    intro messages isNew
    refine ⟨⟨?_, keeping.counted.unwrapped⟩, keeping.inside, ?_⟩
    · intro pin
      have before := keeping.counted.conserved pin
      have moved := inFlight_update state opened { state.connections conn with state := .old } pin
      rw [carried_old, carried_new isNew] at moved
      simp only [stored, inFlight, increase_apply] at before moved ⊢
      split_ifs at moved ⊢ with same
      · omega
      · omega
    · simp only [outside]
      trivial
  simp only [WatchasyncCounters.netMain]
  split_ifs with broken acked message message
  · exact keeping.move keeping.inside ⟨opened, broken.2, slotOf_lt config _⟩
  · exact acknowledged _ acked.2
  · exact acknowledged _ acked.2
  · exact anywhere _
  · exact keeping

theorem Keeping.storeRest (keeping : Keeping config state) {timestamp : UInt32}
    {count loaded : UInt8} (position : state.position = .storeRest timestamp count loaded) :
    Keeping config
      { state with
        buffer := setCounter state.buffer state.buf.toNat state.bufpin (loaded - count)
        connections := Function.update state.connections state.opened
          ⟨.new, timestamp, state.bufpin, count⟩
        opened := state.opened + 1
        sendstate := .idle
        position := .idle } := by
  have holding := keeping.holding
  rw [position] at holding
  obtain ⟨same, enough⟩ := holding
  refine ⟨⟨?_, keeping.counted.unwrapped⟩, keeping.inside, trivial⟩
  intro pin
  have before := keeping.counted.conserved pin
  have taken := stored_setCounter config state keeping.inside state.bufpin (loaded - count) pin
  have given := inFlight_open state ⟨.new, timestamp, state.bufpin, count⟩ pin
  have rest : (loaded - count).toNat = loaded.toNat - count.toNat :=
    UInt8.toNat_sub_of_le _ _ enough
  have enough := UInt8.le_iff_toNat_le.mp enough
  rw [carried_new rfl] at given
  simp only [stored, inFlight, ← same, rest] at before taken given ⊢
  split_ifs at taken given with here
  · omega
  · omega

theorem Keeping.storeRestored (keeping : Keeping config state) {conn : Nat} {buf loaded : UInt8}
    (position : state.position = .storeRestored conn buf loaded)
    (fits : loaded.toNat + (state.connections conn).count.toNat ≤ 255) :
    Keeping config
      { state with
        buffer := setCounter state.buffer buf.toNat (state.connections conn).pin
          (loaded + (state.connections conn).count)
        connections := Function.update state.connections conn
          { state.connections conn with state := .old }
        position := .idle
        wrapped := state.wrapped || loaded + (state.connections conn).count < loaded } := by
  have holding := keeping.holding
  rw [position] at holding
  obtain ⟨⟨opened, isNew, inside⟩, same⟩ := holding
  have sum : (loaded + (state.connections conn).count).toNat =
      loaded.toNat + (state.connections conn).count.toNat := by
    rw [UInt8.toNat_add]
    omega
  refine ⟨⟨?_, ?_⟩, keeping.inside, trivial⟩
  · intro pin
    have before := keeping.counted.conserved pin
    have given := stored_setCounter config state inside (state.connections conn).pin
      (loaded + (state.connections conn).count) pin
    have taken := inFlight_update state opened { state.connections conn with state := .old } pin
    rw [carried_old, carried_new isNew] at taken
    simp only [stored, inFlight, ← same, sum] at before given taken ⊢
    split_ifs at given taken with here
    · omega
    · omega
  · have notSmaller : ¬loaded + (state.connections conn).count < loaded := by
      rw [UInt8.lt_iff_toNat_lt]
      omega
    simp [keeping.counted.unwrapped, notSmaller]

theorem Keeping.proceed (keeping : Keeping config state) (harmless : Harmless config state .proceed)
    {next : State} (proceeded : proceed config state = some next) : Keeping config next := by
  have holding := keeping.holding
  have inside := keeping.inside
  unfold WatchasyncCounters.proceed at proceeded
  cases position : state.position with
  | idle | lookup | connect =>
      rw [position] at proceeded
      cases proceeded
  | nextSlot temp =>
      simp only [position] at proceeded
      split_ifs at proceeded
      · cases Option.some.inj proceeded
        exact keeping.move inside trivial
      · cases Option.some.inj proceeded
        exact keeping.move inside trivial
  | nextPin temp =>
      simp only [position] at proceeded
      split_ifs at proceeded
      · cases Option.some.inj proceeded
        exact keeping.move inside trivial
      · cases Option.some.inj proceeded
        rw [← position]
        exact keeping.move inside (by rw [position]; trivial)
      · cases Option.some.inj proceeded
        exact keeping.move (nextBuf_lt config _) trivial
  | sendmessage =>
      rw [position] at proceeded
      cases Option.some.inj proceeded
      exact keeping.move inside trivial
  | take timestamp =>
      rw [position] at proceeded
      cases Option.some.inj proceeded
      exact keeping.move inside (UInt8.le_refl _)
  | subtract timestamp count =>
      rw [position] at proceeded holding
      cases Option.some.inj proceeded
      exact keeping.move inside ⟨rfl, holding⟩
  | storeRest timestamp count loaded =>
      rw [position] at proceeded
      cases Option.some.inj proceeded
      exact keeping.storeRest position
  | restore conn buf =>
      rw [position] at proceeded holding
      cases Option.some.inj proceeded
      exact keeping.move inside ⟨holding, rfl⟩
  | storeRestored conn buf loaded =>
      rw [position] at proceeded
      cases Option.some.inj proceeded
      simp only [Harmless, restoredSum, position] at harmless
      exact keeping.storeRestored position harmless

theorem Keeping.step (keeping : Keeping config state) {action : Action}
    (harmless : Harmless config state action) {next : State}
    (stepped : step config state action = some next) : Keeping config next := by
  have inside := keeping.inside
  cases action with
  | edge pin clock =>
      rw [WatchasyncCounters.step, Option.ite_none_right_eq_some] at stepped
      cases Option.some.inj stepped.2
      exact keeping.addToRingbuffer pin clock harmless
  | mainloop clock =>
      rw [WatchasyncCounters.step, Option.ite_none_right_eq_some] at stepped
      cases Option.some.inj stepped.2
      rw [mainloop]
      split_ifs
      · exact keeping.move (nextBuf_lt config _) trivial
      · exact keeping
  | event conn flags =>
      rw [WatchasyncCounters.step, Option.ite_none_right_eq_some] at stepped
      obtain ⟨⟨outside, opened⟩, same⟩ := stepped
      cases Option.some.inj same
      exact keeping.netMain outside opened flags
  | answer =>
      rw [WatchasyncCounters.step, Option.ite_none_right_eq_some] at stepped
      cases Option.some.inj stepped.2
      exact keeping.move inside trivial
  | proceed => exact keeping.proceed harmless stepped
  | lookup found =>
      rw [WatchasyncCounters.step, Option.ite_none_right_eq_some] at stepped
      obtain ⟨_, same⟩ := stepped
      split_ifs at same
      · cases Option.some.inj same
        exact keeping.move inside trivial
      · cases Option.some.inj same
        exact keeping.move inside trivial
  | connect success clock later =>
      rw [WatchasyncCounters.step, Option.ite_none_right_eq_some] at stepped
      obtain ⟨_, same⟩ := stepped
      split_ifs at same
      · cases Option.some.inj same
        exact keeping.move inside trivial
      · cases Option.some.inj same
        exact keeping.move inside trivial

end Steps

/-- One pin, and two slots of a second each. -/
def smallConfig : Config :=
  ⟨2, 1, false, 1, by decide⟩

end Ethersex.WatchasyncCounters

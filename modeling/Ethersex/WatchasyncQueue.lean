import Ethersex.GuardedRuns
import Mathlib.Data.Nat.ModEq
import Mathlib.Logic.Function.Basic

/-!
# The event queue of watchasync

`services/watchasync/watchasync.c` without `CONF_WATCHASYNC_SUMMARIZE`.  The pin interrupt puts
events into a ring buffer, and the main program sends them to a server, one connection for each
attempt.  The interrupt may come between any two statements of the main program, whose position
is therefore a part of the state.
-/

namespace Ethersex.Watchasync

open GuardedRuns

/-- The parameters of the build.  Without `timestamp` an event has none. -/
structure Config where
  bufferSize : Nat
  timestamp : Bool
  resolution : UInt32
  sendEnd : Bool

/-- `WatchAsyncBuffer`. -/
structure Entry where
  pin : UInt8
  timestamp : UInt32
  deriving DecidableEq

/-- `wa_sendstate`. -/
inductive SendState
  | idle
  | sending
  | failed
  deriving DecidableEq

/-- `WatchAsyncConnStates`. -/
inductive ConnState
  | new
  | old
  deriving DecidableEq

/-- The state that watchasync keeps with a connection, and whether anything was sent on it: uIP
reports an acknowledgement only then. -/
structure Connection where
  state : ConnState
  sent : Bool
  deriving DecidableEq

/-- What `uip_flags` says. -/
structure Flags where
  aborted : Bool
  timedout : Bool
  closed : Bool
  connected : Bool
  rexmit : Bool
  acked : Bool

/-- The next statement of the main program.  It is `idle` outside of watchasync. -/
inductive Position
  | idle
  | advance
  | sendmessage
  | lookup
  | connect
  | transmit (conn : Nat) (acked : Bool)
  | transmitTimestamp (conn : Nat) (acked : Bool) (pin : UInt8)
  | acknowledge (conn : Nat) (acked : Bool)
  deriving DecidableEq

/-- Every call of `uip_connect` that succeeds gives a connection of its own, the one with the
number `opened`. -/
structure State where
  buffer : Nat → Entry
  bufferLeft : UInt8
  bufferRight : UInt8
  sendstate : SendState
  connections : Nat → Connection
  opened : Nat
  queries : Nat
  position : Position

/-- What can be seen of the program. -/
inductive Output
  | accepted (entry : Entry)
  | started
  | transmitted (conn : Nat) (entry : Entry)
  | acknowledged (conn : Nat)
  | failed
  deriving DecidableEq

/-- The state with everything that has been seen. -/
structure Traced where
  state : State
  outputs : List Output

def initialState : State where
  buffer _ := ⟨0, 0⟩
  bufferLeft := 0
  bufferRight := 0
  sendstate := .idle
  connections _ := ⟨.old, false⟩
  opened := 0
  queries := 0
  position := .idle

def initial : Traced :=
  ⟨initialState, []⟩

/-- `(index + 1) % CONF_WATCHASYNC_BUFFERSIZE`, in 8 bits. -/
def nextIndex (config : Config) (index : UInt8) : UInt8 :=
  UInt8.ofNat ((index.toNat + 1) % config.bufferSize)

/-- The timestamp of a new event.  The addition binds closer than the `&`. -/
def entryTimestamp (config : Config) (clock : UInt32) : UInt32 :=
  if config.timestamp then
    if 1 < config.resolution then
      if config.sendEnd then clock &&& (0 - config.resolution + config.resolution)
      else clock &&& (0 - config.resolution)
    else clock
  else 0

def addToRingbuffer (config : Config) (pin : UInt8) (clock : UInt32) (state : State) :
    State × List Output :=
  let tempright := nextIndex config state.bufferRight
  if tempright ≠ state.bufferLeft then
    let entry := ⟨pin, entryTimestamp config clock⟩
    ({ state with
        bufferRight := tempright
        buffer := Function.update state.buffer tempright.toNat entry }, [.accepted entry])
  else (state, [])

/-- `watchasync_mainloop`, up to its first change. -/
def mainloop (state : State) : State :=
  match state.sendstate with
  | .sending => state
  | .failed => { state with position := .sendmessage }
  | .idle =>
      if state.bufferLeft ≠ state.bufferRight then { state with position := .advance } else state

/-- `watchasync_net_main`, up to the message. -/
def netMain (state : State) (conn : Nat) (flags : Flags) : State × List Output :=
  if (flags.aborted ∨ flags.timedout ∨ flags.closed) ∧ (state.connections conn).state = .new then
    ({ state with
        sendstate := .failed
        connections := Function.update state.connections conn
          { state.connections conn with state := .old } }, [.failed])
  else if flags.connected ∨ flags.rexmit then
    ({ state with position := .transmit conn flags.acked }, [])
  else ({ state with position := .acknowledge conn flags.acked }, [])

/-- The end of `watchasync_net_main`. -/
def acknowledge (state : State) (conn : Nat) (acked : Bool) : State × List Output :=
  let state := { state with position := .idle }
  if acked ∧ (state.connections conn).state = .new then
    ({ state with
        sendstate := .idle
        connections := Function.update state.connections conn
          { state.connections conn with state := .old } }, [.acknowledged conn])
  else (state, [])

/-- The statements that depend on nothing outside. -/
def proceed (config : Config) (state : State) : Option (State × List Output) :=
  match state.position with
  | .advance =>
      some ({ state with
        bufferLeft := nextIndex config state.bufferLeft
        position := .sendmessage }, [.started])
  | .sendmessage => some ({ state with sendstate := .sending, position := .lookup }, [])
  | .transmit conn acked =>
      let pin := (state.buffer state.bufferLeft.toNat).pin
      some ({ state with position := .transmitTimestamp conn acked pin }, [])
  | .transmitTimestamp conn acked pin =>
      let timestamp := (state.buffer state.bufferLeft.toNat).timestamp
      some ({ state with
        connections := Function.update state.connections conn
          { state.connections conn with sent := true }
        position := .acknowledge conn acked }, [.transmitted conn ⟨pin, timestamp⟩])
  | .acknowledge conn acked => some (acknowledge state conn acked)
  | .idle | .lookup | .connect => none

/-- The callback of the name query, and the connection. -/
def dnsQueryCb (state : State) (success : Bool) : State :=
  if success then
    { state with
      connections := Function.update state.connections state.opened ⟨.new, false⟩
      opened := state.opened + 1
      position := .idle }
  else { state with sendstate := .failed, position := .idle }

/-- What happens next: an edge at a pin, a call from outside, or the next statement with the
answer it gets. -/
inductive Action
  | edge (pin : UInt8) (clock : UInt32)
  | mainloop
  | event (conn : Nat) (flags : Flags)
  | answer
  | proceed
  | lookup (found : Bool)
  | connect (success : Bool)

def stepState (config : Config) (state : State) : Action → Option (State × List Output)
  | .edge pin clock => some (addToRingbuffer config pin clock state)
  | .mainloop => if state.position = .idle then some (mainloop state, []) else none
  | .event conn flags =>
      if state.position = .idle ∧ conn < state.opened ∧
          (flags.acked → (state.connections conn).sent) then
        some (netMain state conn flags)
      else none
  | .answer =>
      if state.position = .idle ∧ 0 < state.queries then
        some ({ state with queries := state.queries - 1, position := .connect }, [])
      else none
  | .proceed => proceed config state
  | .lookup found =>
      if state.position = .lookup then
        if found then some ({ state with position := .connect }, [])
        else some ({ state with queries := state.queries + 1, position := .idle }, [])
      else none
  | .connect success =>
      if state.position = .connect then
        some (dnsQueryCb state success, if success then [] else [.failed])
      else none

def step (config : Config) (traced : Traced) (action : Action) : Option Traced :=
  (stepState config traced.state action).map fun result =>
    ⟨result.1, traced.outputs ++ result.2⟩

/-- The delivery of the accepted events: how many have been started and acknowledged, and the
connections on which the current one was transmitted since its last start. -/
structure Delivery where
  accepted : List Entry
  started : Nat
  acknowledged : Nat
  carriers : List Nat

/-- An output that is allowed.  Events are started in the order of their acceptance, each after
the acknowledgement of the one before, a transmission is one of the event started last, and an
event is acknowledged on a connection that carried it after the last failure. -/
def Delivery.step (delivery : Delivery) : Output → Option Delivery
  | .accepted entry => some { delivery with accepted := delivery.accepted ++ [entry] }
  | .started =>
      if delivery.started = delivery.acknowledged ∧ delivery.started < delivery.accepted.length then
        some { delivery with started := delivery.started + 1, carriers := [] }
      else none
  | .transmitted conn entry =>
      if 0 < delivery.started ∧ delivery.accepted[delivery.started - 1]? = some entry then
        some { delivery with carriers := conn :: delivery.carriers }
      else none
  | .acknowledged conn =>
      if delivery.started = delivery.acknowledged + 1 ∧ conn ∈ delivery.carriers then
        some { delivery with acknowledged := delivery.acknowledged + 1 }
      else none
  | .failed =>
      if delivery.started = delivery.acknowledged + 1 then some { delivery with carriers := [] }
      else none

def Delivery.empty : Delivery :=
  ⟨[], 0, 0, []⟩

/-- The slots that the indices reach. -/
def Config.slots (config : Config) : Nat :=
  min config.bufferSize 256

/-- An index that has been advanced a number of times. -/
structure Index (config : Config) (index : UInt8) (count : Nat) : Prop where
  value : index.toNat = count % config.slots

theorem Index.next {config : Config} (room : 2 ≤ config.bufferSize) {index : UInt8} {count : Nat}
    (placed : Index config index count) : Index config (nextIndex config index) (count + 1) := by
  have slotsLt : count % config.slots < config.slots :=
    Nat.mod_lt count (by rw [Config.slots]; omega)
  constructor
  rw [nextIndex, UInt8.toNat_ofNat', placed.value, ← Nat.mod_add_mod count config.slots 1]
  generalize count % config.slots = index at slotsLt ⊢
  rcases Nat.lt_or_ge (index + 1) config.slots with inside | last
  · rw [Nat.mod_eq_of_lt inside]
    rw [Config.slots] at inside
    have small : (index + 1) % config.bufferSize = index + 1 := Nat.mod_eq_of_lt (by omega)
    rw [small, Nat.mod_eq_of_lt (by omega)]
  · have same : index + 1 = config.slots := by omega
    rw [same, Nat.mod_self, Config.slots]
    rcases Nat.le_total config.bufferSize 256 with few | many
    · rw [Nat.min_eq_left few, Nat.mod_self]
    · rw [Nat.min_eq_right many]
      rcases Nat.eq_or_lt_of_le many with equal | more
      · rw [← equal, Nat.mod_self]
      · rw [Nat.mod_eq_of_lt more]

theorem eq_of_mod_eq {first second slots : Nat} (order : first ≤ second)
    (near : second < first + slots) (same : first % slots = second % slots) : first = second := by
  have divides := (Nat.modEq_iff_dvd' order).mp same
  have equal := Nat.eq_zero_of_dvd_of_lt divides (by omega)
  omega

/-- Two counts that differ by less than a round have the same index only if they are equal. -/
theorem Index.eq_iff {config : Config} {left right : UInt8} {first second : Nat}
    (leftPlaced : Index config left first) (rightPlaced : Index config right second)
    (order : first ≤ second) (near : second < first + config.slots) :
    left = right ↔ first = second := by
  constructor
  · rintro rfl
    exact eq_of_mod_eq order near (leftPlaced.value.symm.trans rightPlaced.value)
  · rintro rfl
    exact UInt8.toNat_inj.mp (leftPlaced.value.trans rightPlaced.value.symm)

/-- After a full round the index is the same again. -/
theorem Index.round {config : Config} {left right : UInt8} {count : Nat}
    (leftPlaced : Index config left count)
    (rightPlaced : Index config right (count + config.slots)) : left = right := by
  apply UInt8.toNat_inj.mp
  rw [leftPlaced.value, rightPlaced.value, Nat.add_mod_right]

/-- How far the current event has come, outside of the calls that start a connection. -/
inductive Phase (state : State) (delivery : Delivery) : Prop
  | idle (sendstate : state.sendstate = .idle)
      (caughtUp : delivery.started = delivery.acknowledged)
      (noNew : ∀ conn, (state.connections conn).state = .old) (noQuery : state.queries = 0)
  | querying (sendstate : state.sendstate = .sending)
      (current : delivery.started = delivery.acknowledged + 1)
      (noNew : ∀ conn, (state.connections conn).state = .old) (query : state.queries = 1)
  | carried (carrier : Nat) (sendstate : state.sendstate = .sending)
      (current : delivery.started = delivery.acknowledged + 1)
      (onlyNew : ∀ conn, (state.connections conn).state = .new → conn = carrier)
      (noQuery : state.queries = 0)
  | failed (sendstate : state.sendstate = .failed)
      (current : delivery.started = delivery.acknowledged + 1)
      (noNew : ∀ conn, (state.connections conn).state = .old) (noQuery : state.queries = 0)

/-- The main program is about to start a connection for the current event. -/
structure Starting (state : State) (delivery : Delivery) : Prop where
  current : delivery.started = delivery.acknowledged + 1
  noNew : ∀ conn, (state.connections conn).state = .old
  noQuery : state.queries = 0

/-- A call of `watchasync_net_main` for a connection. -/
structure Calling (state : State) (delivery : Delivery) (conn : Nat) (acked : Bool) : Prop where
  phase : Phase state delivery
  opened : conn < state.opened
  carrier : acked = true → (state.connections conn).state = .new → conn ∈ delivery.carriers

/-- What holds at a position of the main program. -/
def Control (state : State) (delivery : Delivery) : Position → Prop
  | .idle => Phase state delivery
  | .advance =>
      state.sendstate = .idle ∧ delivery.started = delivery.acknowledged ∧
        delivery.started < delivery.accepted.length ∧
        (∀ conn, (state.connections conn).state = .old) ∧ state.queries = 0
  | .sendmessage => Starting state delivery
  | .lookup | .connect => state.sendstate = .sending ∧ Starting state delivery
  | .transmit conn acked | .acknowledge conn acked => Calling state delivery conn acked
  | .transmitTimestamp conn acked pin =>
      Calling state delivery conn acked ∧ pin = (state.buffer state.bufferLeft.toNat).pin

/-- The buffer and the connections belong to the delivery. -/
structure Delivers (config : Config) (state : State) (delivery : Delivery) : Prop where
  right : Index config state.bufferRight delivery.accepted.length
  left : Index config state.bufferLeft delivery.started
  order : delivery.started ≤ delivery.accepted.length
  room : delivery.accepted.length < delivery.started + config.slots
  contents : ∀ index entry, delivery.started ≤ index + 1 →
    delivery.accepted[index]? = some entry → state.buffer ((index + 1) % config.slots) = entry
  acknowledged : delivery.acknowledged ≤ delivery.started
  opened : 0 < state.opened → 0 < delivery.started
  carriers : ∀ conn, (state.connections conn).state = .new →
    (state.connections conn).sent = true → conn ∈ delivery.carriers
  control : Control state delivery state.position

theorem delivers_initial (config : Config) (room : 2 ≤ config.bufferSize) :
    Delivers config initialState Delivery.empty where
  right := ⟨by simp [initialState, Delivery.empty]⟩
  left := ⟨by simp [initialState, Delivery.empty]⟩
  order := Nat.le_refl 0
  room := by simp only [Delivery.empty, List.length_nil, Config.slots]; omega
  contents := by simp [Delivery.empty]
  acknowledged := Nat.le_refl 0
  opened := by simp [initialState]
  carriers := by simp [initialState]
  control := .idle rfl rfl (fun _ => rfl) rfl

/-- Only the event that was started last may still be unacknowledged. -/
theorem Delivers.started_le {config : Config} {state : State} {delivery : Delivery}
    (delivers : Delivers config state delivery) :
    delivery.started ≤ delivery.acknowledged + 1 := by
  have ofPhase : Phase state delivery → delivery.started ≤ delivery.acknowledged + 1 := by
    intro phase
    cases phase <;> omega
  have control := delivers.control
  cases position : state.position with
  | idle =>
      rw [position] at control
      exact ofPhase control
  | advance =>
      rw [position] at control
      rw [control.2.1]
      omega
  | sendmessage =>
      rw [position] at control
      exact Nat.le_of_eq control.current
  | lookup | connect =>
      rw [position] at control
      exact Nat.le_of_eq control.2.current
  | transmit conn acked | acknowledge conn acked =>
      rw [position] at control
      exact ofPhase control.phase
  | transmitTimestamp conn acked pin =>
      rw [position] at control
      exact ofPhase control.1.phase

/-- The event that was started last is in the slot of the left index. -/
theorem Delivers.latest {config : Config} {state : State} {delivery : Delivery}
    (delivers : Delivers config state delivery) (started : 0 < delivery.started) :
    delivery.accepted[delivery.started - 1]? = some (state.buffer state.bufferLeft.toNat) := by
  have inside : delivery.started - 1 < delivery.accepted.length := by
    have order := delivers.order
    omega
  have found := List.getElem?_eq_getElem inside
  have content := delivers.contents _ _ (by omega) found
  rw [Nat.sub_add_cancel started, ← delivers.left.value] at content
  rw [found, content]

/-- What a step shows is allowed, and the invariant holds behind it. -/
def Keeps (config : Config) (delivery : Delivery) (result : State × List Output) : Prop :=
  ∃ next, run Delivery.step delivery result.2 = some next ∧ Delivers config result.1 next

section Steps

variable {config : Config} {state : State} {delivery : Delivery}

/-- The phase depends on neither the ring nor the events that wait. -/
theorem Phase.congr {other : State} {accepted : Delivery} (phase : Phase state delivery)
    (sendstate : other.sendstate = state.sendstate)
    (states : ∀ conn, (other.connections conn).state = (state.connections conn).state)
    (queries : other.queries = state.queries) (started : accepted.started = delivery.started)
    (acknowledged : accepted.acknowledged = delivery.acknowledged) : Phase other accepted := by
  cases phase with
  | idle idle caughtUp noNew noQuery =>
      exact .idle (by rw [sendstate, idle]) (by rw [started, acknowledged, caughtUp])
        (fun conn => (states conn).trans (noNew conn)) (by rw [queries, noQuery])
  | querying sending current noNew query =>
      exact .querying (by rw [sendstate, sending]) (by rw [started, acknowledged, current])
        (fun conn => (states conn).trans (noNew conn)) (by rw [queries, query])
  | carried carrier sending current onlyNew noQuery =>
      exact .carried carrier (by rw [sendstate, sending]) (by rw [started, acknowledged, current])
        (fun conn isNew => onlyNew conn ((states conn).symm.trans isNew)) (by rw [queries, noQuery])
  | failed failed current noNew noQuery =>
      exact .failed (by rw [sendstate, failed]) (by rw [started, acknowledged, current])
        (fun conn => (states conn).trans (noNew conn)) (by rw [queries, noQuery])

/-- Only the carrier of the current event is new. -/
theorem Phase.carrier_of_new (phase : Phase state delivery) {conn : Nat}
    (isNew : (state.connections conn).state = .new) :
    state.sendstate = .sending ∧ delivery.started = delivery.acknowledged + 1 ∧
      state.queries = 0 ∧ ∀ other, (state.connections other).state = .new → other = conn := by
  have notOld : (state.connections conn).state ≠ .old := by
    rw [isNew]
    decide
  cases phase with
  | idle sendstate caughtUp noNew noQuery => exact absurd (noNew conn) notOld
  | querying sendstate current noNew query => exact absurd (noNew conn) notOld
  | carried carrier sendstate current onlyNew noQuery =>
      exact ⟨sendstate, current, noQuery, fun other otherNew =>
        (onlyNew other otherNew).trans (onlyNew conn isNew).symm⟩
  | failed sendstate current noNew noQuery => exact absurd (noNew conn) notOld

/-- Behind the carrier no connection is new. -/
theorem old_of_update {conn : Nat} {connection : Connection} (old : connection.state = .old)
    (onlyNew : ∀ other, (state.connections other).state = .new → other = conn) (other : Nat) :
    (Function.update state.connections conn connection other).state = .old := by
  by_cases same : other = conn
  · rw [same, Function.update_self, old]
  · rw [Function.update_of_ne same]
    cases found : (state.connections other).state with
    | new => exact absurd (onlyNew other found) same
    | old => rfl

/-- A slot that is free is not the one of the current event. -/
theorem Control.accepted {position : Position} (control : Control state delivery position)
    {entry : Entry} {slot : UInt8} (free : slot ≠ state.bufferLeft) :
    Control
      { state with
        bufferRight := slot
        buffer := Function.update state.buffer slot.toNat entry }
      { delivery with accepted := delivery.accepted ++ [entry] } position := by
  have called : ∀ {conn acked}, Calling state delivery conn acked →
      Calling
        { state with
          bufferRight := slot
          buffer := Function.update state.buffer slot.toNat entry }
        { delivery with accepted := delivery.accepted ++ [entry] } conn acked :=
    fun calling => ⟨calling.phase.congr rfl (fun _ => rfl) rfl rfl rfl, calling.opened,
      calling.carrier⟩
  cases position with
  | idle => exact Phase.congr control rfl (fun _ => rfl) rfl rfl rfl
  | advance =>
      obtain ⟨idle, caughtUp, waiting, noNew, noQuery⟩ := control
      refine ⟨idle, caughtUp, ?_, noNew, noQuery⟩
      rw [List.length_append]
      exact Nat.lt_add_right _ waiting
  | sendmessage => exact ⟨control.current, control.noNew, control.noQuery⟩
  | lookup => exact ⟨control.1, control.2.current, control.2.noNew, control.2.noQuery⟩
  | connect => exact ⟨control.1, control.2.current, control.2.noNew, control.2.noQuery⟩
  | transmit conn acked => exact called control
  | transmitTimestamp conn acked pin =>
      refine ⟨called control.1, ?_⟩
      have apart : state.bufferLeft.toNat ≠ slot.toNat := fun same =>
        free (UInt8.toNat_inj.mp same.symm)
      have kept : Function.update state.buffer slot.toNat entry state.bufferLeft.toNat =
          state.buffer state.bufferLeft.toNat := Function.update_of_ne apart _ _
      simp only [kept]
      exact control.2
  | acknowledge conn acked => exact called control

theorem Delivers.addToRingbuffer (large : 2 ≤ config.bufferSize)
    (delivers : Delivers config state delivery) (pin : UInt8) (clock : UInt32) :
    Keeps config delivery (addToRingbuffer config pin clock state) := by
  have next := delivers.right.next large
  rw [Watchasync.addToRingbuffer]
  split_ifs with free
  · have order := delivers.order
    have room := delivers.room
    have notRound : delivery.accepted.length + 1 ≠ delivery.started + config.slots := by
      intro same
      rw [same] at next
      exact free (delivers.left.round next).symm
    refine ⟨_, rfl, ?_⟩
    constructor
    · simpa using next
    · exact delivers.left
    · simp only [List.length_append]
      omega
    · simp only [List.length_append, List.length_singleton]
      omega
    · intro index entry recent found
      change delivery.started ≤ index + 1 at recent
      simp only [next.value]
      rcases Nat.lt_or_ge index delivery.accepted.length with older | newest
      · have apart : (index + 1) % config.slots ≠
            (delivery.accepted.length + 1) % config.slots := by
          intro same
          have equal := eq_of_mod_eq (by omega) (by omega) same
          omega
        rw [List.getElem?_append_left older] at found
        rw [Function.update_of_ne apart]
        exact delivers.contents index entry recent found
      · rw [List.getElem?_append_right newest, List.getElem?_singleton] at found
        split_ifs at found with last
        have same : index = delivery.accepted.length := by omega
        rw [same, Function.update_self]
        exact Option.some.inj found
    · exact delivers.acknowledged
    · exact delivers.opened
    · exact delivers.carriers
    · exact delivers.control.accepted free
  · exact ⟨delivery, rfl, delivers⟩

/-- A step that only moves the main program on. -/
theorem Delivers.move (delivers : Delivers config state delivery) {sendstate : SendState}
    {position : Position} {queries : Nat}
    (control : Control
      { state with sendstate := sendstate, queries := queries, position := position }
      delivery position) :
    Delivers config
      { state with sendstate := sendstate, queries := queries, position := position } delivery where
  right := delivers.right
  left := delivers.left
  order := delivers.order
  room := delivers.room
  contents := delivers.contents
  acknowledged := delivers.acknowledged
  opened := delivers.opened
  carriers := delivers.carriers
  control := control

theorem Delivers.mainloop (delivers : Delivers config state delivery)
    (phase : Phase state delivery) : Delivers config (mainloop state) delivery := by
  simp only [Watchasync.mainloop]
  cases phase with
  | idle sendstate caughtUp noNew noQuery =>
      simp only [sendstate]
      split_ifs with more
      · have waiting : delivery.started ≠ delivery.accepted.length := fun same =>
          more ((delivers.left.eq_iff delivers.right delivers.order delivers.room).mpr same)
        have order := delivers.order
        exact delivers.move ⟨rfl, caughtUp, by omega, noNew, noQuery⟩
      · exact delivers
  | querying sendstate current noNew query =>
      simp only [sendstate]
      exact delivers
  | carried carrier sendstate current onlyNew noQuery =>
      simp only [sendstate]
      exact delivers
  | failed sendstate current noNew noQuery =>
      simp only [sendstate]
      exact delivers.move ⟨current, noNew, noQuery⟩

/-- The connections may change, as long as a new one that has sent is a carrier. -/
theorem Delivers.reconnect (delivers : Delivers config state delivery) {sendstate : SendState}
    {connections : Nat → Connection} {opened queries : Nat} {position : Position}
    {acknowledged : Nat} {carriers : List Nat} (bound : acknowledged ≤ delivery.started)
    (started : 0 < opened → 0 < delivery.started)
    (sent : ∀ conn, (connections conn).state = .new → (connections conn).sent = true →
      conn ∈ carriers)
    (control : Control
      { state with
        sendstate := sendstate
        connections := connections
        opened := opened
        queries := queries
        position := position }
      { delivery with acknowledged := acknowledged, carriers := carriers } position) :
    Delivers config
      { state with
        sendstate := sendstate
        connections := connections
        opened := opened
        queries := queries
        position := position }
      { delivery with acknowledged := acknowledged, carriers := carriers } where
  right := delivers.right
  left := delivers.left
  order := delivers.order
  room := delivers.room
  contents := delivers.contents
  acknowledged := bound
  opened := started
  carriers := sent
  control := control

theorem Delivers.netMain (delivers : Delivers config state delivery)
    (outside : state.position = .idle) (phase : Phase state delivery) {conn : Nat} {flags : Flags}
    (opened : conn < state.opened)
    (possible : flags.acked = true → (state.connections conn).sent = true) :
    Keeps config delivery (netMain state conn flags) := by
  have calling : ∀ position, Calling { state with position := position } delivery conn
    flags.acked :=
    fun position => ⟨phase.congr rfl (fun _ => rfl) rfl rfl rfl, opened,
      fun acked isNew => delivers.carriers conn isNew (possible acked)⟩
  rw [Watchasync.netMain]
  split_ifs with broken message
  · obtain ⟨sendstate, current, noQuery, onlyNew⟩ := phase.carrier_of_new broken.2
    have noNew :=
      @old_of_update state conn { state.connections conn with state := .old } rfl onlyNew
    refine ⟨{ delivery with carriers := [] }, ?_, ?_⟩
    · simp [run, Delivery.step, current]
    · apply delivers.reconnect delivers.acknowledged delivers.opened
      · intro other isNew
        rw [noNew other] at isNew
        cases isNew
      · rw [outside]
        exact .failed rfl current noNew noQuery
  · exact ⟨delivery, rfl, delivers.move (calling _)⟩
  · exact ⟨delivery, rfl, delivers.move (calling _)⟩

theorem Delivers.acknowledge (delivers : Delivers config state delivery) {conn : Nat} {acked : Bool}
    (calling : Calling state delivery conn acked) :
    Keeps config delivery (acknowledge state conn acked) := by
  simp only [Watchasync.acknowledge]
  split_ifs with confirmed
  · obtain ⟨isAcked, isNew⟩ := confirmed
    obtain ⟨sendstate, current, noQuery, onlyNew⟩ := calling.phase.carrier_of_new isNew
    have noNew :=
      @old_of_update state conn { state.connections conn with state := .old } rfl onlyNew
    have carried := calling.carrier isAcked isNew
    refine ⟨{ delivery with acknowledged := delivery.acknowledged + 1 }, ?_, ?_⟩
    · simp [run, Delivery.step, current, carried]
    · apply delivers.reconnect (by omega) delivers.opened
      · intro other isNew
        rw [noNew other] at isNew
        cases isNew
      · exact Phase.idle rfl current noNew noQuery
  · exact ⟨delivery, rfl, delivers.move (calling.phase.congr rfl (fun _ => rfl) rfl rfl rfl)⟩

theorem Delivers.proceed (large : 2 ≤ config.bufferSize)
    (delivers : Delivers config state delivery) {result : State × List Output}
    (proceeded : proceed config state = some result) : Keeps config delivery result := by
  have control := delivers.control
  unfold Watchasync.proceed at proceeded
  cases position : state.position with
  | idle | lookup | connect =>
      rw [position] at proceeded
      cases proceeded
  | advance =>
      rw [position] at proceeded control
      obtain ⟨idle, caughtUp, waiting, noNew, noQuery⟩ := control
      cases Option.some.inj proceeded
      refine ⟨{ delivery with started := delivery.started + 1, carriers := [] }, ?_, ?_⟩
      · simp [run, Delivery.step, caughtUp.symm, waiting]
      · constructor
        · exact delivers.right
        · exact delivers.left.next large
        · exact waiting
        · have room := delivers.room
          simp only
          omega
        · intro index entry recent found
          exact delivers.contents index entry (Nat.le_of_succ_le recent) found
        · simp only
          omega
        · intro _
          exact Nat.succ_pos _
        · intro conn isNew
          rw [noNew conn] at isNew
          cases isNew
        · exact Starting.mk (congrArg (· + 1) caughtUp) noNew noQuery
  | sendmessage =>
      rw [position] at proceeded control
      cases Option.some.inj proceeded
      exact ⟨delivery, rfl, delivers.move ⟨rfl, control.current, control.noNew, control.noQuery⟩⟩
  | transmit conn acked =>
      rw [position] at proceeded control
      cases Option.some.inj proceeded
      refine ⟨delivery, rfl, delivers.move ⟨⟨?_, control.opened, control.carrier⟩, rfl⟩⟩
      exact control.phase.congr rfl (fun _ => rfl) rfl rfl rfl
  | transmitTimestamp conn acked pin =>
      rw [position] at proceeded control
      cases Option.some.inj proceeded
      obtain ⟨calling, pinRead⟩ := control
      have started : 0 < delivery.started := delivers.opened (Nat.zero_lt_of_lt calling.opened)
      have latest := delivers.latest started
      have states : ∀ other,
          (Function.update state.connections conn
            { state.connections conn with sent := true } other).state =
            (state.connections other).state := by
        intro other
        by_cases same : other = conn
        · rw [same, Function.update_self]
        · rw [Function.update_of_ne same]
      refine ⟨{ delivery with carriers := conn :: delivery.carriers }, ?_, ?_⟩
      · simp [run, Delivery.step, started, latest, pinRead]
      · apply delivers.reconnect delivers.acknowledged delivers.opened
        · intro other isNew sent
          by_cases same : other = conn
          · simp [same]
          · rw [Function.update_of_ne same] at isNew sent
            exact List.mem_cons_of_mem _ (delivers.carriers other isNew sent)
        · refine ⟨calling.phase.congr rfl states rfl rfl rfl, calling.opened, ?_⟩
          intro _ _
          exact List.mem_cons_self
  | acknowledge conn acked =>
      rw [position] at proceeded control
      cases Option.some.inj proceeded
      exact delivers.acknowledge control

theorem Delivers.dnsQueryCb (delivers : Delivers config state delivery)
    (starting : Starting state delivery) (sending : state.sendstate = .sending) (success : Bool) :
    Keeps config delivery (dnsQueryCb state success, if success then [] else [.failed]) := by
  cases success with
  | false =>
      refine ⟨{ delivery with carriers := [] }, ?_, ?_⟩
      · simp [run, Delivery.step, starting.current]
      · apply delivers.reconnect delivers.acknowledged delivers.opened
        · intro conn isNew
          rw [starting.noNew conn] at isNew
          cases isNew
        · exact Phase.failed rfl starting.current starting.noNew starting.noQuery
  | true =>
      have current := starting.current
      refine ⟨delivery, rfl, ?_⟩
      apply delivers.reconnect delivers.acknowledged
      · intro _
        omega
      · intro conn isNew sent
        by_cases same : conn = state.opened
        · rw [same, Function.update_self] at sent
          cases sent
        · rw [Function.update_of_ne same, starting.noNew conn] at isNew
          cases isNew
      · refine Phase.carried state.opened sending current ?_ starting.noQuery
        intro conn isNew
        by_contra other
        simp only at isNew
        rw [Function.update_of_ne other, starting.noNew conn] at isNew
        cases isNew

/-- Every step is allowed, and keeps the invariant. -/
theorem Delivers.stepState (large : 2 ≤ config.bufferSize)
    (delivers : Delivers config state delivery) {action : Action} {result : State × List Output}
    (stepped : stepState config state action = some result) : Keeps config delivery result := by
  have control := delivers.control
  cases action with
  | edge pin clock =>
      cases Option.some.inj stepped
      exact delivers.addToRingbuffer large pin clock
  | mainloop =>
      rw [Watchasync.stepState, Option.ite_none_right_eq_some] at stepped
      obtain ⟨outside, same⟩ := stepped
      cases Option.some.inj same
      rw [outside] at control
      exact ⟨delivery, rfl, delivers.mainloop control⟩
  | event conn flags =>
      rw [Watchasync.stepState, Option.ite_none_right_eq_some] at stepped
      obtain ⟨⟨outside, opened, possible⟩, same⟩ := stepped
      cases Option.some.inj same
      rw [outside] at control
      exact delivers.netMain outside control opened possible
  | answer =>
      rw [Watchasync.stepState, Option.ite_none_right_eq_some] at stepped
      obtain ⟨⟨outside, asked⟩, same⟩ := stepped
      cases Option.some.inj same
      rw [outside] at control
      refine ⟨delivery, rfl, delivers.move ?_⟩
      cases control with
      | idle sendstate caughtUp noNew noQuery => omega
      | querying sendstate current noNew query =>
          exact ⟨sendstate, current, noNew, by rw [query]⟩
      | carried carrier sendstate current onlyNew noQuery => omega
      | failed sendstate current noNew noQuery => omega
  | proceed => exact delivers.proceed large stepped
  | lookup found =>
      rw [Watchasync.stepState, Option.ite_none_right_eq_some] at stepped
      obtain ⟨inLookup, same⟩ := stepped
      rw [inLookup] at control
      obtain ⟨sending, current, noNew, noQuery⟩ := control
      cases found with
      | true =>
          cases Option.some.inj same
          exact ⟨delivery, rfl, delivers.move ⟨sending, current, noNew, noQuery⟩⟩
      | false =>
          cases Option.some.inj same
          refine ⟨delivery, rfl, delivers.move (.querying sending current noNew ?_)⟩
          simp only [noQuery]
  | connect success =>
      rw [Watchasync.stepState, Option.ite_none_right_eq_some] at stepped
      obtain ⟨inConnect, same⟩ := stepped
      rw [inConnect] at control
      cases Option.some.inj same
      exact delivers.dnsQueryCb control.2 control.1 success

end Steps

/-- Everything that has been seen is allowed. -/
def Delivered (config : Config) (traced : Traced) (delivery : Delivery) : Prop :=
  run Delivery.step Delivery.empty traced.outputs = some delivery ∧
    Delivers config traced.state delivery

theorem delivered_step {config : Config} (large : 2 ≤ config.bufferSize) {traced next : Traced}
    {action : Action} (before : ∃ delivery, Delivered config traced delivery)
    (stepped : step config traced action = some next) :
    ∃ delivery, Delivered config next delivery := by
  obtain ⟨delivery, seen, delivers⟩ := before
  obtain ⟨result, statement, rfl⟩ := Option.map_eq_some_iff.mp stepped
  obtain ⟨later, allowed, delivers⟩ := delivers.stepState large statement
  refine ⟨later, ?_, delivers⟩
  rw [run_append, seen]
  exact allowed

theorem delivered_run {config : Config} (large : 2 ≤ config.bufferSize) {actions : List Action}
    {last : Traced} (reached : run (step config) initial actions = some last) :
    ∃ delivery, Delivered config last delivery := by
  have start : ∃ delivery, Delivered config initial delivery :=
    ⟨Delivery.empty, rfl, delivers_initial config large⟩
  exact (guarded_true initial actions).invariant
    (fun _ _ _ before _ stepped => delivered_step large before stepped) start reached

/-- The statements from `sendmessage` on, when nothing fails, up to the message. -/
def transmission (conn : Nat) : List Action :=
  [.proceed, .lookup true, .connect true,
    .event conn ⟨false, false, false, true, false, false⟩, .proceed, .proceed]

/-- The main loop tries the current event again. -/
def attempt (conn : Nat) : List Action :=
  .mainloop :: transmission conn

/-- The main loop starts the next event. -/
def nextAttempt (conn : Nat) : List Action :=
  .mainloop :: .proceed :: transmission conn

/-- The actions are possible, and this is seen of them. -/
def Shows (config : Config) (traced : Traced) (actions : List Action) (outputs : List Output) :
    Prop :=
  ∃ next, run (step config) traced actions = some next ∧ next.outputs = traced.outputs ++ outputs

/-- A connection that has failed. -/
def Flags.Failing (flags : Flags) : Prop :=
  flags.aborted = true ∨ flags.timedout = true ∨ flags.closed = true

/-- An acknowledgement, and nothing else. -/
def acknowledgement : Flags :=
  ⟨false, false, false, false, false, true⟩

/-- How the delivery goes on outside of the calls: a failed event is transmitted again, also when
its connection fails now, and the next event is transmitted when the current one is acknowledged. -/
structure GoesOn (config : Config) (traced : Traced) (delivery : Delivery) : Prop where
  retried : traced.state.sendstate = .failed →
    ∃ entry, delivery.accepted[delivery.acknowledged]? = some entry ∧
      Shows config traced (attempt traced.state.opened)
        [.transmitted traced.state.opened entry]
  broken : ∀ conn flags, conn < traced.state.opened →
    (traced.state.connections conn).state = .new →
    (flags.acked = true → (traced.state.connections conn).sent = true) → flags.Failing →
      ∃ entry, delivery.accepted[delivery.acknowledged]? = some entry ∧
        Shows config traced (.event conn flags :: attempt traced.state.opened)
          [.failed, .transmitted traced.state.opened entry]
  started : traced.state.sendstate = .idle →
    ∀ entry, delivery.accepted[delivery.acknowledged]? = some entry →
      Shows config traced (nextAttempt traced.state.opened)
        [.started, .transmitted traced.state.opened entry]
  acknowledged : ∀ conn, conn < traced.state.opened →
    (traced.state.connections conn).state = .new →
    (traced.state.connections conn).sent = true →
    ∀ entry, delivery.accepted[delivery.acknowledged + 1]? = some entry →
      Shows config traced
        (.event conn acknowledgement :: .proceed :: nextAttempt traced.state.opened)
        [.acknowledged conn, .started, .transmitted traced.state.opened entry]

section Attempts

variable {config : Config} {traced middle : Traced} {delivery next : Delivery}

theorem Shows.append {actions more : List Action} {outputs others : List Output}
    (ran : run (step config) traced actions = some middle)
    (seen : middle.outputs = traced.outputs ++ outputs)
    (shows : Shows config middle more others) :
    Shows config traced (actions ++ more) (outputs ++ others) := by
  obtain ⟨last, rest, whole⟩ := shows
  refine ⟨last, ?_, ?_⟩
  · rw [run_append, ran]
    exact rest
  · rw [whole, seen, List.append_assoc]

/-- Behind some actions the delivery has gone on by what is seen of them. -/
theorem Delivered.after (large : 2 ≤ config.bufferSize)
    (delivered : Delivered config traced delivery)
    {actions : List Action} {outputs : List Output}
    (ran : run (step config) traced actions = some middle)
    (seen : middle.outputs = traced.outputs ++ outputs) :
    ∃ next, run Delivery.step delivery outputs = some next ∧ Delivered config middle next := by
  obtain ⟨next, later⟩ := (guarded_true traced actions).invariant
    (fun _ _ _ before _ stepped => delivered_step large before stepped) ⟨delivery, delivered⟩ ran
  refine ⟨next, ?_, later⟩
  have both := later.1
  rw [seen, run_append, delivered.1] at both
  exact both

theorem run_failed (failed : run Delivery.step delivery [.failed] = some next) :
    next.accepted = delivery.accepted ∧ next.acknowledged = delivery.acknowledged := by
  simp only [run, Delivery.step] at failed
  split_ifs at failed
  · cases failed
    exact ⟨rfl, rfl⟩
  · cases failed

theorem run_acknowledged {conn : Nat}
    (acknowledged : run Delivery.step delivery [.acknowledged conn] = some next) :
    next.accepted = delivery.accepted ∧ next.acknowledged = delivery.acknowledged + 1 := by
  simp only [run, Delivery.step] at acknowledged
  split_ifs at acknowledged
  · cases acknowledged
    exact ⟨rfl, rfl⟩
  · cases acknowledged

/-- After a failure the next attempt transmits the current event. -/
theorem attempt_transmits (config : Config) {traced : Traced}
    (outside : traced.state.position = .idle) (failed : traced.state.sendstate = .failed) :
    Shows config traced (attempt traced.state.opened)
      [.transmitted traced.state.opened (traced.state.buffer traced.state.bufferLeft.toNat)] := by
  obtain ⟨state, outputs⟩ := traced
  obtain ⟨buffer, left, right, sendstate, connections, opened, queries, position⟩ := state
  subst outside failed
  simp [Shows, run, attempt, transmission, step, stepState, mainloop, proceed, dnsQueryCb, netMain]

theorem nextAttempt_transmits (config : Config) {traced : Traced}
    (outside : traced.state.position = .idle) (idle : traced.state.sendstate = .idle)
    (waiting : traced.state.bufferLeft ≠ traced.state.bufferRight) :
    Shows config traced (nextAttempt traced.state.opened)
      [.started, .transmitted traced.state.opened
        (traced.state.buffer (nextIndex config traced.state.bufferLeft).toNat)] := by
  obtain ⟨state, outputs⟩ := traced
  obtain ⟨buffer, left, right, sendstate, connections, opened, queries, position⟩ := state
  subst outside idle
  simp only at waiting
  simp [Shows, run, nextAttempt, transmission, step, stepState, mainloop, proceed, dnsQueryCb,
    netMain, waiting]

theorem Delivered.retried (delivered : Delivered config traced delivery)
    (outside : traced.state.position = .idle) (failed : traced.state.sendstate = .failed) :
    ∃ entry, delivery.accepted[delivery.acknowledged]? = some entry ∧
      Shows config traced (attempt traced.state.opened)
        [.transmitted traced.state.opened entry] := by
  obtain ⟨-, delivers⟩ := delivered
  refine ⟨_, ?_, attempt_transmits config outside failed⟩
  have control := delivers.control
  rw [outside] at control
  have current : delivery.started = delivery.acknowledged + 1 := by
    cases control with
    | idle idle caughtUp noNew noQuery =>
        rw [failed] at idle
        cases idle
    | querying sending current noNew query => exact current
    | carried carrier sending current onlyNew noQuery => exact current
    | failed failed current noNew noQuery => exact current
  have latest := delivers.latest (by omega)
  rwa [current, Nat.add_sub_cancel] at latest

/-- An idle main program starts the first event that has not been acknowledged. -/
theorem Delivered.started (large : 2 ≤ config.bufferSize)
    (delivered : Delivered config traced delivery) (outside : traced.state.position = .idle)
    (idle : traced.state.sendstate = .idle) {entry : Entry}
    (waiting : delivery.accepted[delivery.acknowledged]? = some entry) :
    Shows config traced (nextAttempt traced.state.opened)
      [.started, .transmitted traced.state.opened entry] := by
  obtain ⟨-, delivers⟩ := delivered
  have control := delivers.control
  rw [outside] at control
  have caughtUp : delivery.started = delivery.acknowledged := by
    cases control with
    | idle idle caughtUp noNew noQuery => exact caughtUp
    | querying sending current noNew query => rw [idle] at sending; cases sending
    | carried carrier sending current onlyNew noQuery => rw [idle] at sending; cases sending
    | failed failed current noNew noQuery => rw [idle] at failed; cases failed
  have inside := (List.getElem?_eq_some_iff.mp waiting).1
  have more : traced.state.bufferLeft ≠ traced.state.bufferRight := by
    intro same
    have equal := (delivers.left.eq_iff delivers.right delivers.order delivers.room).mp same
    omega
  have slot := delivers.contents delivery.acknowledged entry (by omega) waiting
  rw [← caughtUp, ← (delivers.left.next large).value] at slot
  rw [← slot]
  exact nextAttempt_transmits config outside idle more

/-- The connection of the current event fails. -/
theorem Delivered.broken (large : 2 ≤ config.bufferSize)
    (delivered : Delivered config traced delivery) (outside : traced.state.position = .idle)
    {conn : Nat} {flags : Flags} (opened : conn < traced.state.opened)
    (isNew : (traced.state.connections conn).state = .new)
    (possible : flags.acked = true → (traced.state.connections conn).sent = true)
    (failing : flags.Failing) :
    ∃ entry, delivery.accepted[delivery.acknowledged]? = some entry ∧
      Shows config traced (.event conn flags :: attempt traced.state.opened)
        [.failed, .transmitted traced.state.opened entry] := by
  have ran : run (step config) traced [.event conn flags] = some
      ⟨{ traced.state with
          sendstate := .failed
          connections := Function.update traced.state.connections conn
            { traced.state.connections conn with state := .old } },
        traced.outputs ++ [.failed]⟩ := by
    have failed : (flags.aborted = true ∨ flags.timedout = true ∨ flags.closed = true) ∧
        (traced.state.connections conn).state = .new := ⟨failing, isNew⟩
    have called : traced.state.position = .idle ∧ conn < traced.state.opened ∧
        (flags.acked = true → (traced.state.connections conn).sent = true) :=
      ⟨outside, opened, possible⟩
    simp only [run, step, stepState, if_pos called, netMain, if_pos failed]
    rfl
  obtain ⟨next, goes, later⟩ := delivered.after large ran rfl
  obtain ⟨accepted, acknowledged⟩ := run_failed goes
  obtain ⟨entry, current, shows⟩ := later.retried outside rfl
  rw [accepted, acknowledged] at current
  exact ⟨entry, current, Shows.append ran rfl shows⟩

/-- The connection of the current event is acknowledged. -/
theorem Delivered.acknowledged (large : 2 ≤ config.bufferSize)
    (delivered : Delivered config traced delivery) (outside : traced.state.position = .idle)
    {conn : Nat} (opened : conn < traced.state.opened)
    (isNew : (traced.state.connections conn).state = .new)
    (sent : (traced.state.connections conn).sent = true) {entry : Entry}
    (waiting : delivery.accepted[delivery.acknowledged + 1]? = some entry) :
    Shows config traced
      (.event conn acknowledgement :: .proceed :: nextAttempt traced.state.opened)
      [.acknowledged conn, .started, .transmitted traced.state.opened entry] := by
  have ran : run (step config) traced [.event conn acknowledgement, .proceed] = some
      ⟨{ traced.state with
          sendstate := .idle
          connections := Function.update traced.state.connections conn
            { traced.state.connections conn with state := .old }
          position := .idle },
        traced.outputs ++ [.acknowledged conn]⟩ := by
    simp [run, step, stepState, outside, opened, sent, netMain, acknowledgement, proceed,
      Watchasync.acknowledge, isNew]
  obtain ⟨next, goes, later⟩ := delivered.after large ran rfl
  obtain ⟨accepted, acknowledged⟩ := run_acknowledged goes
  rw [← accepted, ← acknowledged] at waiting
  exact Shows.append ran rfl (later.started large rfl rfl waiting)

/-- A connection that cannot be opened. -/
theorem Delivered.unconnected (large : 2 ≤ config.bufferSize)
    (delivered : Delivered config traced delivery) (connecting : traced.state.position = .connect) :
    ∃ entry, delivery.accepted[delivery.acknowledged]? = some entry ∧
      Shows config traced (.connect false :: attempt traced.state.opened)
        [.failed, .transmitted traced.state.opened entry] := by
  have ran : run (step config) traced [.connect false] = some
      ⟨{ traced.state with sendstate := .failed, position := .idle },
        traced.outputs ++ [.failed]⟩ := by
    simp [run, step, stepState, connecting, dnsQueryCb]
  obtain ⟨next, goes, later⟩ := delivered.after large ran rfl
  obtain ⟨accepted, acknowledged⟩ := run_failed goes
  obtain ⟨entry, current, shows⟩ := later.retried rfl rfl
  rw [accepted, acknowledged] at current
  exact ⟨entry, current, Shows.append ran rfl shows⟩

end Attempts

/-- The accepted events are delivered one after the other: everything that has been seen is
allowed, the slot of an event that has not been acknowledged holds it, an event that fails is
transmitted again, and behind an acknowledgement comes the next one. -/
theorem events_delivered_in_order (config : Config) (large : 2 ≤ config.bufferSize)
    (actions : List Action) (last : Traced)
    (reached : run (step config) initial actions = some last) :
    ∃ delivery, run Delivery.step Delivery.empty last.outputs = some delivery ∧
      (∀ index entry, delivery.acknowledged ≤ index → delivery.accepted[index]? = some entry →
        last.state.buffer ((index + 1) % config.slots) = entry) ∧
      (last.state.position = .idle → GoesOn config last delivery) ∧
      (last.state.position = .connect →
        ∃ entry, delivery.accepted[delivery.acknowledged]? = some entry ∧
          Shows config last (.connect false :: attempt last.state.opened)
            [.failed, .transmitted last.state.opened entry]) := by
  obtain ⟨delivery, delivered⟩ := delivered_run large reached
  refine ⟨delivery, delivered.1, ?_, fun outside => ⟨?_, ?_, ?_, ?_⟩, ?_⟩
  · intro index entry unacknowledged found
    have started := delivered.2.started_le
    exact delivered.2.contents index entry (by omega) found
  · exact delivered.retried outside
  · exact fun _ _ opened isNew possible => delivered.broken large outside opened isNew possible
  · exact fun idle _ => delivered.started large outside idle
  · exact fun _ opened isNew sent _ => delivered.acknowledged large outside opened isNew sent
  · exact delivered.unconnected large

/-- Two events; the first connection is aborted behind the message, the second one has sent it. -/
def twoEvents : List Action :=
  .edge 3 7 :: .edge 5 8 :: (nextAttempt 0 ++ .proceed ::
    .event 0 ⟨true, false, false, false, false, false⟩ :: (attempt 1 ++ [.proceed]))

/-- What can be seen behind the two events, and what the state is then. -/
theorem run_twoEvents :
    (run (step ⟨4, true, 1, false⟩) initial twoEvents).map (fun last =>
      (last.outputs, last.state.position, last.state.opened, last.state.connections 1)) =
        some ([.accepted ⟨3, 7⟩, .accepted ⟨5, 8⟩, .started, .transmitted 0 ⟨3, 7⟩, .failed,
          .transmitted 1 ⟨3, 7⟩], .idle, 2, ⟨.new, true⟩) := by
  decide +kernel

theorem events_delivered_twoEvents :
    ∃ last, run (step ⟨4, true, 1, false⟩) initial twoEvents = some last ∧
      Shows ⟨4, true, 1, false⟩ last
        (.event 1 acknowledgement :: .proceed :: nextAttempt 2)
        [.acknowledged 1, .started, .transmitted 2 ⟨5, 8⟩] := by
  obtain ⟨last, reached, same⟩ := Option.map_eq_some_iff.mp run_twoEvents
  obtain ⟨outputs, outside, opened, connection⟩ : last.outputs = _ ∧ last.state.position = _ ∧
      last.state.opened = _ ∧ last.state.connections 1 = _ := by
    simpa only [Prod.mk.injEq] using same
  obtain ⟨delivery, seen, -, goesOn, -⟩ :=
    events_delivered_in_order ⟨4, true, 1, false⟩ (by decide) twoEvents last reached
  rw [outputs] at seen
  have whole : run Delivery.step Delivery.empty [.accepted ⟨3, 7⟩, .accepted ⟨5, 8⟩, .started,
      .transmitted 0 ⟨3, 7⟩, .failed, .transmitted 1 ⟨3, 7⟩] =
        some ⟨[⟨3, 7⟩, ⟨5, 8⟩], 1, 0, [1]⟩ := rfl
  have next : delivery.accepted[delivery.acknowledged + 1]? = some ⟨5, 8⟩ := by
    rw [← Option.some.inj (whole.symm.trans seen)]
    rfl
  have shows := (goesOn outside).acknowledged 1 (by rw [opened]; decide) (by rw [connection])
    (by rw [connection]) ⟨5, 8⟩ next
  rw [opened] at shows
  exact ⟨last, reached, shows⟩

end Ethersex.Watchasync

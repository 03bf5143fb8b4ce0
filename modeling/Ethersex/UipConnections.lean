import Ethersex.SegmentStreams

/-!
# Connections of uIP and an application that sends from a buffer

`protocols/uip/uip.c` calls its application with flags that say what happened on
a connection, and acts on what the application leaves behind.  This file embeds
the part of it that the gateways between a bus and one TCP client rely on.  The
owner of such a gateway is sent the bytes of one buffer; `Carrying` is what the
gateway has to keep so that its client gets them in order.
-/

namespace Ethersex.Uip

open ByteMemory SegmentStreams

/-- A call of the application: the flags of uIP, the data of the segment, the segment size
that the peer allows at the moment, and what the segment buffer holds. -/
structure UipCall where
  connection : Nat
  connected : Bool
  closed : Bool
  acked : Bool
  rexmit : Bool
  poll : Bool
  payload : List UInt8
  mss : Nat
  old : Memory

/-- What the application leaves to uIP: the data to send, whether the connection is stopped,
and whether it is to be closed. -/
structure Reaction where
  offered : List UInt8
  stopped : Bool
  close : Bool

/-- `uip_send` ignores an empty block. -/
def uipSend (offered data : List UInt8) : List UInt8 := if data = [] then offered else data

/-- A connection.  `owned` and `stored` are not part of uIP: whether the connection was given
the gateway when it was opened, and the bytes that were stored while it had it. -/
structure Connection where
  established : Bool
  stopped : Bool
  stream : Stream
  owned : Bool
  stored : List UInt8

/-- A slot of the table that is not in use. -/
def closedConnection : Connection := ⟨false, false, Stream.empty, false, []⟩

/-- When uIP makes a call: a connection is opened once, an acknowledgement and a
retransmission belong to data in flight, a poll comes when there is none, and a stopped
connection delivers nothing. -/
structure Possible (connection : Connection) (call : UipCall) : Prop where
  opening : call.connected = true → connection.established = false ∧ call.closed = false ∧
    call.acked = false ∧ call.rexmit = false ∧ call.poll = false
  open_ : call.connected = false →
    call.acked = true ∨ call.rexmit = true ∨ call.poll = true ∨ call.payload ≠ [] →
      connection.established = true
  acked : call.acked = true → connection.stream.outstanding ≠ []
  rexmit : call.rexmit = true → connection.stream.outstanding ≠ [] ∧ call.acked = false ∧
    call.closed = false
  poll : call.poll = true → connection.stream.outstanding = [] ∧ call.acked = false
  newdata : call.payload ≠ [] → call.connected = false → connection.stopped = false

instance (connection : Connection) (call : UipCall) : Decidable (Possible connection call) :=
  decidable_of_iff
    ((call.connected = true → connection.established = false ∧ call.closed = false ∧
        call.acked = false ∧ call.rexmit = false ∧ call.poll = false) ∧
      (call.connected = false →
        call.acked = true ∨ call.rexmit = true ∨ call.poll = true ∨ call.payload ≠ [] →
          connection.established = true) ∧
      (call.acked = true → connection.stream.outstanding ≠ []) ∧
      (call.rexmit = true → connection.stream.outstanding ≠ [] ∧ call.acked = false ∧
        call.closed = false) ∧
      (call.poll = true → connection.stream.outstanding = [] ∧ call.acked = false) ∧
      (call.payload ≠ [] → call.connected = false → connection.stopped = false))
    ⟨fun ⟨opening, open_, acked, rexmit, poll, newdata⟩ =>
        ⟨opening, open_, acked, rexmit, poll, newdata⟩,
      fun possible => ⟨possible.opening, possible.open_, possible.acked, possible.rexmit,
        possible.poll, possible.newdata⟩⟩

/-- The connection as the application finds it; `owned` says whether it is given the gateway
if it is opened now. -/
def Connection.beforeCall (connection : Connection) (owned : Bool) (call : UipCall) :
    Connection :=
  if call.connected then ⟨true, false, Stream.empty, owned, []⟩
  else if call.acked then { connection with stream := connection.stream.acknowledge }
  else connection

/-- The connection after uIP has acted on the reaction.  A connection that the peer closes
together with an acknowledgement stays in the table until it is reported again. -/
def Connection.afterCall (connection : Connection) (call : UipCall) (reaction : Reaction) :
    Connection :=
  if call.closed then
    { connection with
      established := connection.established && call.acked
      stream := ⟨connection.stream.acked, []⟩ }
  else if reaction.close then
    { connection with established := false, stream := ⟨connection.stream.acked, []⟩ }
  else
    { connection with
      stopped := reaction.stopped
      stream := connection.stream.transmit call.old call.mss reaction.offered }

/-- The connections after a call. -/
def called (connections : Nat → Connection) (owned : Bool) (call : UipCall) (reaction : Reaction) :
    Nat → Connection :=
  Function.update connections call.connection
    (((connections call.connection).beforeCall owned call).afterCall call reaction)

/-- Bytes are stored for the owner of the gateway. -/
def storeFor (owner : Option Nat) (connections : Nat → Connection) (bytes : List UInt8) :
    Nat → Connection := fun connection =>
  if owner = some connection then
    { connections connection with stored := (connections connection).stored ++ bytes }
  else
    connections connection

/-- Every client that was given the gateway has acknowledged a beginning of what was stored
for it. -/
def Delivers (connections : Nat → Connection) : Prop :=
  ∀ connection, (connections connection).owned = true →
    (connections connection).stream.acked <+: (connections connection).stored

/-- All that was sent to the connection is a beginning of what was stored for it. -/
def Begins (connection : Connection) : Prop :=
  connection.owned = true →
    connection.stream.acked ++ connection.stream.outstanding <+: connection.stored

structure Carrying (owner : Option Nat) (buffer : Buffer) (connections : Nat → Connection) :
    Prop where
  begins : ∀ connection, Begins (connections connection)
  established : ∀ connection, owner = some connection →
    (connections connection).established = true
  carries : ∀ connection, owner = some connection →
    Carries (connections connection).stored (connections connection).stream buffer

theorem Begins.beforeCall {connection : Connection} {call : UipCall} (begins : Begins connection)
    (owned : Bool) (notConnected : call.connected = false) :
    Begins (connection.beforeCall owned call) := by
  rw [Connection.beforeCall, notConnected, if_neg (by decide)]
  split
  · intro owned
    have before := begins owned
    simpa [Stream.acknowledge] using before
  · exact begins

/-- A connection that is closed, or that is offered nothing. -/
theorem Begins.afterCall {connection : Connection} {call : UipCall} {reaction : Reaction}
    (begins : Begins connection) (silent : call.closed = true ∨ reaction.offered = []) :
    Begins (connection.afterCall call reaction) := by
  have closed (owned : connection.owned = true) :
      connection.stream.acked ++ [] <+: connection.stored :=
    (by simp : _ ++ [] <+: _ ++ connection.stream.outstanding).trans (begins owned)
  rw [Connection.afterCall]
  split
  · exact closed
  next stays =>
    split
    · exact closed
    · rw [silent.resolve_left stays, Stream.transmit_nil]
      exact begins

section Calls

variable {owner next : Option Nat} {buffer changed : Buffer} {connections : Nat → Connection}
  {call : UipCall} {reaction : Reaction}

theorem carrying_start (buffer : Buffer) : Carrying none buffer fun _ => closedConnection where
  begins := by
    intro connection owned
    cases owned
  established := by
    intro connection owns
    cases owns
  carries := by
    intro connection owns
    cases owns

theorem Carrying.delivers (carrying : Carrying owner buffer connections) :
    Delivers connections := fun connection owned =>
  (List.prefix_append _ _).trans (carrying.begins connection owned)

theorem Carrying.update (carrying : Carrying owner buffer connections) {connection : Nat}
    {after : Connection} (begins : Begins after)
    (others : ∀ other, other ≠ connection → next = some other →
      owner = some other ∧ changed = buffer)
    (owns : next = some connection → after.established = true ∧
      Carries after.stored after.stream changed) :
    Carrying next changed (Function.update connections connection after) where
  begins := by
    intro other
    by_cases same : other = connection
    · subst same
      rw [Function.update_self]
      exact begins
    · rw [Function.update_of_ne same]
      exact carrying.begins other
  established := by
    intro other isNext
    by_cases same : other = connection
    · subst same
      rw [Function.update_self]
      exact (owns isNext).1
    · rw [Function.update_of_ne same]
      exact carrying.established other (others other same isNext).1
  carries := by
    intro other isNext
    by_cases same : other = connection
    · subst same
      rw [Function.update_self]
      exact (owns isNext).2
    · rw [Function.update_of_ne same, (others other same isNext).2]
      exact carrying.carries other (others other same isNext).1

theorem Carrying.store (carrying : Carrying owner buffer connections) {bytes : List UInt8}
    (room : buffer.len + bytes.length < 65536) :
    Carrying owner (buffer.push bytes) (storeFor owner connections bytes) where
  begins := by
    intro connection
    rw [storeFor]
    split
    · intro owned
      exact (carrying.begins connection owned).trans (List.prefix_append _ _)
    · exact carrying.begins connection
  established := by
    intro connection owns
    rw [storeFor, if_pos owns]
    exact carrying.established connection owns
  carries := by
    intro connection owns
    rw [storeFor, if_pos owns]
    exact (carrying.carries connection owns).push room

/-- The gateway is given to a new connection, and its buffer is empty. -/
theorem Carrying.opened (carrying : Carrying owner buffer connections)
    (connected : call.connected = true) (possible : Possible (connections call.connection) call)
    (empty : changed.len = 0) (offered : reaction.offered = []) (close : reaction.close = false) :
    Carrying (some call.connection) changed (called connections true call reaction) := by
  have after : ((connections call.connection).beforeCall true call).afterCall call reaction =
      ⟨true, reaction.stopped, Stream.empty, true, []⟩ := by
    rw [Connection.beforeCall, if_pos connected, Connection.afterCall,
      (possible.opening connected).2.1, if_neg (by decide), close, if_neg (by decide), offered,
      Stream.transmit_nil]
  rw [called, after]
  apply carrying.update
  · intro _
    exact List.prefix_rfl
  · intro other different isNext
    exact absurd (Option.some.inj isNext).symm different
  · intro _
    refine ⟨rfl, ?_⟩
    cases changed with
    | mk len sent data =>
        cases empty
        exact Carries.empty sent data

/-- The gateway is not given to a new connection: another one has it. -/
theorem Carrying.blocked (carrying : Carrying owner buffer connections)
    (connected : call.connected = true) (possible : Possible (connections call.connection) call) :
    Carrying owner buffer (called connections false call reaction) := by
  rw [called]
  apply carrying.update
  · intro owned
    rw [Connection.beforeCall, if_pos connected, Connection.afterCall] at owned
    split at owned
    · cases owned
    · split at owned
      · cases owned
      · cases owned
  · intro other _ isNext
    exact ⟨isNext, rfl⟩
  · intro owns
    have established := carrying.established call.connection owns
    rw [(possible.opening connected).1] at established
    cases established

/-- A call that is not for the owner, or that makes the owner lose the gateway. -/
theorem Carrying.silent (carrying : Carrying owner buffer connections) {owned : Bool}
    (notConnected : call.connected = false)
    (silent : call.closed = true ∨ reaction.offered = [])
    (others : ∀ other, next = some other → other ≠ call.connection ∧ owner = some other ∧
      changed = buffer) :
    Carrying next changed (called connections owned call reaction) := by
  rw [called]
  apply carrying.update
  · apply Begins.afterCall
    · exact Begins.beforeCall (carrying.begins call.connection) owned notConnected
    · exact silent
  · intro other _ isNext
    exact (others other isNext).2
  · intro isNext
    exact absurd rfl (others call.connection isNext).1

/-- The owner as its call finds it, when the acknowledged bytes were removed. -/
theorem Carrying.beforeCall (carrying : Carrying owner buffer connections) {owned : Bool}
    (notConnected : call.connected = false) (owns : owner = some call.connection)
    (possible : Possible (connections call.connection) call) :
    ((connections call.connection).beforeCall owned call).established = true ∧
      Carries ((connections call.connection).beforeCall owned call).stored
        ((connections call.connection).beforeCall owned call).stream
        (if call.acked then buffer.dropSent else buffer) := by
  rw [Connection.beforeCall, notConnected, if_neg (by decide)]
  by_cases acked : call.acked = true
  · rw [if_pos acked, if_pos acked]
    exact ⟨carrying.established call.connection owns,
      (carrying.carries call.connection owns).acknowledge (possible.acked acked)⟩
  · rw [if_neg acked, if_neg acked]
    exact ⟨carrying.established call.connection owns, carrying.carries call.connection owns⟩

/-- Nothing is in flight when the owner is polled or has acknowledged. -/
theorem Possible.idle {connection : Connection} (possible : Possible connection call)
    (owned : Bool) (notConnected : call.connected = false)
    (sends : call.poll = true ∨ call.acked = true) :
    (connection.beforeCall owned call).stream.outstanding = [] := by
  rw [Connection.beforeCall, notConnected, if_neg (by decide)]
  rcases sends with poll | acked
  · rw [(possible.poll poll).2, if_neg (by decide)]
    exact (possible.poll poll).1
  · rw [if_pos acked]
    rfl

/-- The segment in flight is unchanged when it is to be sent again. -/
theorem Possible.busy {connection : Connection} (possible : Possible connection call)
    (owned : Bool) (notConnected : call.connected = false) (rexmit : call.rexmit = true) :
    (connection.beforeCall owned call).stream.outstanding ≠ [] ∧ call.poll = false ∧
      call.acked = false := by
  obtain ⟨busy, notAcked, -⟩ := possible.rexmit rexmit
  rw [Connection.beforeCall, notConnected, if_neg (by decide), notAcked, if_neg (by decide)]
  refine ⟨busy, ?_, rfl⟩
  rw [← Bool.not_eq_true]
  exact fun poll => busy (possible.poll poll).1

/-- The owner is sent bytes of the buffer. -/
theorem Carrying.served (carrying : Carrying owner buffer connections) {owned : Bool}
    (open_ : call.closed = false) (owns : owner = some call.connection)
    (close : reaction.close = false)
    (established : ((connections call.connection).beforeCall owned call).established = true)
    (carries : Carries ((connections call.connection).beforeCall owned call).stored
      (((connections call.connection).beforeCall owned call).stream.transmit call.old call.mss
        reaction.offered) changed) :
    Carrying owner changed (called connections owned call reaction) := by
  rw [called, Connection.afterCall, open_, if_neg (by decide), close, if_neg (by decide)]
  apply carrying.update
  · intro _
    exact carries.begins
  · intro other different isOther
    exact absurd (Option.some.inj (owns.symm.trans isOther)).symm different
  · intro _
    exact ⟨established, carries⟩

end Calls

end Ethersex.Uip

import Ethersex.YportGateway

/-!
# What the YPORT gateway carries

From the serial port to the client: the bytes that a client has acknowledged are
the first of those that were stored since it was given the port, as long as the
buffer is sent only when all of it fits into one segment.  From the client to the
serial port: what was written to the data register, and what still waits for it,
is all that was delivered, as long as there is room for everything that arrives.
-/

namespace Ethersex.Yport

open ByteMemory SegmentStreams Uip GuardedRuns

/-- The variables when `yport_net_main` comes to the data it may send. -/
def sendState (config : Config) (state : YportState) (call : UipCall) : YportState :=
  (serveFlags (countService config state) call).1

/-- Whenever the owner of the port is sent the buffer, the buffer fits into a segment. -/
def SegmentFits (config : Config) (system : System) : Event → Prop
  | .call call =>
      let state := sendState config system.yport call
      system.yport.conn = some call.connection → call.closed = false →
        call.poll = true ∨ call.acked = true → due config state →
          state.recvBuffer.len ≤ call.mss
  | _ => True

section ToClient

variable {config : Config} {system : System} {state : YportState} {call : UipCall}

/-- The variables of the serial side replaced by others. -/
def withSerial (state : YportState) (buffer : Buffer) (txcie : Bool) (udr : List UInt8) :
    YportState :=
  { state with sendBuffer := buffer, txcie := txcie, udr := udr }

-- about the whole pair: a projection would make the kernel evaluate the tests
theorem yportRxstart_withSerial (config : Config) (state : YportState) (data : List UInt8) :
    ∃ started buffer txcie udr,
      yportRxstart config state data = (started, withSerial state buffer txcie udr) := by
  rw [yportRxstart]
  split
  · exact ⟨_, _, _, _, rfl⟩
  · split
    · exact ⟨_, _, _, _, rfl⟩
    · exact ⟨_, _, _, _, rfl⟩

theorem serveNewdata_withSerial (config : Config) (state : YportState) (call : UipCall)
    (stopped : Bool) : ∃ buffer txcie udr,
      (serveNewdata config state call stopped).1 = withSerial state buffer txcie udr := by
  obtain ⟨started, buffer, txcie, udr, result⟩ := yportRxstart_withSerial config state call.payload
  rw [serveNewdata, result]
  split
  · exact ⟨_, _, _, rfl⟩
  · exact ⟨_, _, _, rfl⟩

theorem serveSend_withSerial (config : Config) (state : YportState) (call : UipCall)
    (offered : List UInt8) (buffer : Buffer) (txcie : Bool) (udr : List UInt8) :
    serveSend config (withSerial state buffer txcie udr) call offered =
      (withSerial (serveSend config state call offered).1 buffer txcie udr,
        (serveSend config state call offered).2) := by
  by_cases sends : (call.poll ∨ call.acked) ∧ due config state
  · have sendsToo : (call.poll ∨ call.acked) ∧ due config (withSerial state buffer txcie udr) :=
      sends
    rw [serveSend, serveSend, if_pos sends, if_pos sendsToo]
    rfl
  · have sendsNeither :
        ¬((call.poll ∨ call.acked) ∧ due config (withSerial state buffer txcie udr)) := sends
    rw [serveSend, serveSend, if_neg sends, if_neg sendsNeither]
    rfl

/-- What the second half of `yport_net_main` does to the receive side. -/
theorem serveOwner_spec (config : Config) (state : YportState) (call : UipCall) (stopped : Bool)
    (offered : List UInt8) :
    (serveOwner config state call stopped offered).1.conn =
        (serveSend config state call offered).1.conn ∧
      (serveOwner config state call stopped offered).1.recvBuffer =
        (serveSend config state call offered).1.recvBuffer ∧
      (serveOwner config state call stopped offered).2.offered =
        (serveSend config state call offered).2 ∧
      (serveOwner config state call stopped offered).2.close = false := by
  obtain ⟨buffer, txcie, udr, same⟩ := serveNewdata_withSerial config state call stopped
  have send := serveSend_withSerial config state call offered buffer txcie udr
  simp only [serveOwner, same, send, and_true]
  exact ⟨rfl, rfl⟩

theorem serveSend_silent (poll : call.poll = false) (acked : call.acked = false)
    (rexmit : call.rexmit = false) (offered : List UInt8) :
    serveSend config state call offered = (state, offered) := by
  simp [serveSend, poll, acked, rexmit]

theorem serveSend_rexmit (rexmit : call.rexmit = true) (poll : call.poll = false)
    (acked : call.acked = false) :
    serveSend config state call [] =
      (state, readBlock state.recvBuffer.data 0 state.recvBuffer.sent) := by
  simp [serveSend, poll, acked, rexmit, uipSend]

theorem serveSend_conn (config : Config) (state : YportState) (call : UipCall)
    (offered : List UInt8) : (serveSend config state call offered).1.conn = state.conn := by
  rw [serveSend]
  split
  · rfl
  · rfl

theorem serveSend_sends (rexmit : call.rexmit = false)
    (sends : call.poll = true ∨ call.acked = true)
    (isDue : due config state) :
    (serveSend config state call []).1.recvBuffer = state.recvBuffer.markSent ∧
      (serveSend config state call []).2 = state.recvBuffer.contents := by
  have both : (call.poll = true ∨ call.acked = true) ∧ due config state := ⟨sends, isDue⟩
  rw [serveSend, if_pos both]
  simp [rexmit, uipSend]

theorem serveSend_waits (rexmit : call.rexmit = false) (waits : ¬due config state) :
    serveSend config state call [] = (state, []) := by
  simp [serveSend, rexmit, waits]

/-- The port is given to a connection. -/
def withOwner (state : YportState) (connection : Nat) : YportState :=
  { state with
    conn := some connection
    recvBuffer := ⟨0, state.recvBuffer.sent, state.recvBuffer.data⟩ }

theorem serveFlags_opened (connected : call.connected = true) (free : state.conn = none) :
    serveFlags state call = (withOwner state call.connection, [], false) := by
  simp [serveFlags, connected, free, withOwner]

theorem serveFlags_blocked (connected : call.connected = true) {owner : Nat}
    (taken : state.conn = some owner) : serveFlags state call = (state, blockedText, false) := by
  simp [serveFlags, connected, taken]

theorem serveFlags_closed (notConnected : call.connected = false) (closed : call.closed = true) :
    serveFlags state call = (state, [], false) := by
  simp [serveFlags, notConnected, closed]

theorem serveFlags_other (notConnected : call.connected = false) (open_ : call.closed = false)
    (other : ¬state.conn = some call.connection) :
    serveFlags state call = (state, [], call.acked) := by
  cases acked : call.acked with
  | false => simp [serveFlags, notConnected, open_, acked]
  | true => simp [serveFlags, notConnected, open_, acked, other]

/-- The acknowledged bytes leave the buffer. -/
def dropAcked (state : YportState) (acked : Bool) : YportState :=
  { state with
    recvBuffer := if acked then state.recvBuffer.dropSent else state.recvBuffer }

theorem serveFlags_owner (notConnected : call.connected = false) (open_ : call.closed = false)
    (owner : state.conn = some call.connection) :
    serveFlags state call = (dropAcked state call.acked, [], false) := by
  cases acked : call.acked with
  | false => simp [serveFlags, notConnected, open_, acked, dropAcked]
  | true => simp [serveFlags, notConnected, open_, acked, owner, dropAcked]

theorem yportNetMain_of_not_closing
    (stays : ¬(call.connected = false ∧ call.closed = true ∧ state.conn = some call.connection))
    (stopped : Bool) :
    yportNetMain config state call stopped =
      let served := serveFlags (countService config state) call
      if served.1.conn ≠ some call.connection then
        (served.1, ⟨served.2.1, stopped, served.2.2⟩)
      else
        serveOwner config served.1 call stopped served.2.1 :=
  if_neg stays

theorem yportNetMain_opened (connected : call.connected = true) (free : state.conn = none)
    (acked : call.acked = false) (rexmit : call.rexmit = false) (poll : call.poll = false)
    (stopped : Bool) :
    (yportNetMain config state call stopped).1.conn = some call.connection ∧
      (yportNetMain config state call stopped).1.recvBuffer =
        ⟨0, state.recvBuffer.sent, state.recvBuffer.data⟩ ∧
      (yportNetMain config state call stopped).2.offered = [] ∧
      (yportNetMain config state call stopped).2.close = false := by
  have flags : serveFlags (countService config state) call =
      (withOwner (countService config state) call.connection, [], false) :=
    serveFlags_opened connected free
  have owner : (withOwner (countService config state) call.connection).conn =
      some call.connection := rfl
  obtain ⟨conn, recv, offered, close⟩ := serveOwner_spec config
    (withOwner (countService config state) call.connection) call stopped []
  rw [serveSend_silent poll acked rexmit] at conn recv offered
  rw [yportNetMain_of_not_closing (fun closing => absurd connected (by simp [closing.1])), flags]
  simp only [ne_eq, owner, not_true, if_false]
  exact ⟨conn, recv, offered, close⟩

theorem yportNetMain_blocked (connected : call.connected = true) {owner : Nat}
    (taken : state.conn = some owner) (other : owner ≠ call.connection) (stopped : Bool) :
    (yportNetMain config state call stopped).1.conn = state.conn ∧
      (yportNetMain config state call stopped).1.recvBuffer = state.recvBuffer := by
  have flags : serveFlags (countService config state) call =
      (countService config state, blockedText, false) := serveFlags_blocked connected taken
  have otherAfter : (countService config state).conn ≠ some call.connection := fun same =>
    other (Option.some.inj (taken.symm.trans same))
  rw [yportNetMain_of_not_closing (fun closing => absurd connected (by simp [closing.1])), flags]
  dsimp only
  rw [if_pos otherAfter]
  exact ⟨rfl, rfl⟩

theorem yportNetMain_closed (notConnected : call.connected = false) (closed : call.closed = true)
    (stopped : Bool) :
    (yportNetMain config state call stopped).1.conn =
        (if state.conn = some call.connection then none else state.conn) ∧
      (yportNetMain config state call stopped).1.recvBuffer = state.recvBuffer := by
  by_cases owner : state.conn = some call.connection
  · have closing : call.connected = false ∧ call.closed = true ∧
        (countService config state).conn = some call.connection := ⟨notConnected, closed, owner⟩
    rw [yportNetMain, if_pos closing, if_pos owner]
    exact ⟨rfl, rfl⟩
  · have flags : serveFlags (countService config state) call =
        (countService config state, [], false) := serveFlags_closed notConnected closed
    have otherAfter : (countService config state).conn ≠ some call.connection := owner
    rw [yportNetMain_of_not_closing (fun closing => owner closing.2.2), flags, if_neg owner]
    dsimp only
    rw [if_pos otherAfter]
    exact ⟨rfl, rfl⟩

theorem yportNetMain_other (notConnected : call.connected = false) (open_ : call.closed = false)
    (other : ¬state.conn = some call.connection) (stopped : Bool) :
    (yportNetMain config state call stopped).1.conn = state.conn ∧
      (yportNetMain config state call stopped).1.recvBuffer = state.recvBuffer ∧
      (yportNetMain config state call stopped).2.offered = [] := by
  have otherAfter : (countService config state).conn ≠ some call.connection := other
  have flags : serveFlags (countService config state) call =
      (countService config state, [], call.acked) := serveFlags_other notConnected open_ otherAfter
  rw [yportNetMain_of_not_closing (fun closing => other closing.2.2), flags]
  dsimp only
  rw [if_pos otherAfter]
  exact ⟨rfl, rfl, rfl⟩

theorem sendState_owner (notConnected : call.connected = false) (open_ : call.closed = false)
    (owner : state.conn = some call.connection) :
    sendState config state call = dropAcked (countService config state) call.acked := by
  have flags : serveFlags (countService config state) call =
      (dropAcked (countService config state) call.acked, [], false) :=
    serveFlags_owner notConnected open_ owner
  rw [sendState, flags]

theorem yportNetMain_owner (notConnected : call.connected = false) (open_ : call.closed = false)
    (owner : state.conn = some call.connection) (stopped : Bool) :
    yportNetMain config state call stopped =
      serveOwner config (dropAcked (countService config state) call.acked) call stopped [] := by
  have flags : serveFlags (countService config state) call =
      (dropAcked (countService config state) call.acked, [], false) :=
    serveFlags_owner notConnected open_ owner
  have ownerAfter : (dropAcked (countService config state) call.acked).conn =
      some call.connection := owner
  rw [yportNetMain_of_not_closing (fun closing => absurd closing.2.1 (by simp [open_])), flags]
  dsimp only
  rw [if_neg (not_not_intro ownerAfter)]

/-- What is sent to the owner of the port keeps the stream. -/
theorem serveSend_carries (config : Config) (state : YportState) {stored : List UInt8}
    {stream : Stream}
    (carries : Carries stored stream state.recvBuffer)
    (rexmit : call.rexmit = true → stream.outstanding ≠ [] ∧ call.poll = false ∧
      call.acked = false)
    (idle : call.poll = true ∨ call.acked = true → stream.outstanding = [])
    (fits : call.poll = true ∨ call.acked = true → due config state →
      state.recvBuffer.len ≤ call.mss) :
    Carries stored (stream.transmit call.old call.mss (serveSend config state call []).2)
      (serveSend config state call []).1.recvBuffer := by
  by_cases again : call.rexmit = true
  · obtain ⟨busy, poll, acked⟩ := rexmit again
    rw [serveSend_rexmit again poll acked, carries.resend busy]
    exact carries
  · rw [Bool.not_eq_true] at again
    by_cases sends : call.poll = true ∨ call.acked = true
    · by_cases isDue : due config state
      · obtain ⟨buffer, offered⟩ := serveSend_sends again sends isDue
        rw [buffer, offered]
        exact carries.send (idle sends) call.old (fits sends isDue)
      · rw [serveSend_waits again isDue, Stream.transmit_nil]
        exact carries
    · rw [not_or, Bool.not_eq_true, Bool.not_eq_true] at sends
      rw [serveSend_silent sends.1 sends.2 again, Stream.transmit_nil]
      exact carries

section Steps

variable (carrying : Carrying system.yport.conn system.yport.recvBuffer system.connections)

include carrying

theorem carrying_opened (connected : call.connected = true)
    (possible : Possible (system.connections call.connection) call) :
    Carrying (uipCall config system call).yport.conn (uipCall config system call).yport.recvBuffer
      (uipCall config system call).connections := by
  obtain ⟨fresh, -, acked, rexmit, poll⟩ := possible.opening connected
  rw [uipCall]
  cases owner : system.yport.conn with
  | none =>
      obtain ⟨conn, recv, offered, close⟩ := yportNetMain_opened connected owner acked rexmit poll
        ((system.connections call.connection).beforeCall true call).stopped
      dsimp only [Option.isNone_none]
      rw [conn]
      exact carrying.opened connected possible (by rw [recv]) offered close
  | some owning =>
      have other : owning ≠ call.connection := by
        intro same
        have established := carrying.established owning owner
        rw [same, fresh] at established
        cases established
      obtain ⟨conn, recv⟩ := yportNetMain_blocked connected owner other
        ((system.connections call.connection).beforeCall false call).stopped
      dsimp only [Option.isNone_some]
      rw [conn, recv]
      exact carrying.blocked connected possible

theorem carrying_closed (notConnected : call.connected = false) (closed : call.closed = true) :
    Carrying (uipCall config system call).yport.conn (uipCall config system call).yport.recvBuffer
      (uipCall config system call).connections := by
  rw [uipCall]
  obtain ⟨conn, recv⟩ := yportNetMain_closed notConnected closed
    ((system.connections call.connection).beforeCall system.yport.conn.isNone call).stopped
  apply carrying.silent notConnected (Or.inl closed)
  intro other isNext
  dsimp only at isNext
  rw [conn] at isNext
  split at isNext
  · cases isNext
  next different =>
    refine ⟨?_, isNext, recv⟩
    rintro rfl
    exact different isNext

theorem carrying_other (notConnected : call.connected = false) (open_ : call.closed = false)
    (different : ¬system.yport.conn = some call.connection) :
    Carrying (uipCall config system call).yport.conn (uipCall config system call).yport.recvBuffer
      (uipCall config system call).connections := by
  rw [uipCall]
  obtain ⟨conn, recv, offered⟩ := yportNetMain_other notConnected open_ different
    ((system.connections call.connection).beforeCall system.yport.conn.isNone call).stopped
  apply carrying.silent notConnected (Or.inr offered)
  intro other isNext
  dsimp only at isNext
  rw [conn] at isNext
  refine ⟨?_, isNext, recv⟩
  rintro rfl
  exact different isNext

theorem carrying_owner (notConnected : call.connected = false) (open_ : call.closed = false)
    (owner : system.yport.conn = some call.connection)
    (possible : Possible (system.connections call.connection) call)
    (fits : SegmentFits config system (.call call)) :
    Carrying (uipCall config system call).yport.conn (uipCall config system call).yport.recvBuffer
      (uipCall config system call).connections := by
  have fits := fits owner open_
  rw [sendState_owner notConnected open_ owner] at fits
  obtain ⟨established, carries⟩ := carrying.beforeCall notConnected owner possible
  have sent := serveSend_carries config
    (dropAcked (countService config system.yport) call.acked) carries
    (possible.busy system.yport.conn.isNone notConnected)
    (possible.idle system.yport.conn.isNone notConnected) fits
  rw [uipCall]
  dsimp only
  rw [yportNetMain_owner notConnected open_ owner]
  obtain ⟨conn, recv, offered, close⟩ := serveOwner_spec config
    (dropAcked (countService config system.yport) call.acked) call
    ((system.connections call.connection).beforeCall system.yport.conn.isNone call).stopped []
  have owns : (dropAcked (countService config system.yport) call.acked).conn =
      system.yport.conn := rfl
  rw [conn, recv, serveSend_conn, owns]
  apply carrying.served open_ owner close established
  rw [offered]
  exact sent

theorem carrying_received (byte : UInt8) (error : Bool) :
    Carrying (rxVect config system.yport byte error).conn
      (rxVect config system.yport byte error).recvBuffer
      (if stores config system.yport error then
        storeFor system.yport.conn system.connections [byte] else system.connections) := by
  by_cases stored : stores config system.yport error = true
  · have room : system.yport.recvBuffer.len + [byte].length < 65536 := by
      rw [stores, Bool.and_eq_true, decide_eq_true_eq] at stored
      exact Nat.lt_of_le_of_lt stored.2 config.bufferLen_lt
    have buffer : (rxVect config system.yport byte error).recvBuffer =
        system.yport.recvBuffer.push [byte] := if_pos stored
    rw [if_pos stored, buffer]
    exact carrying.store room
  · have buffer : (rxVect config system.yport byte error).recvBuffer =
        system.yport.recvBuffer := if_neg stored
    rw [if_neg stored, buffer]
    exact carrying

theorem carrying_step {event : Event} {next : System}
    (fits : SegmentFits config system event)
    (stepped : systemStep config system event = some next) :
    Carrying next.yport.conn next.yport.recvBuffer next.connections := by
  cases event with
  | receive byte error =>
      cases Option.some.inj stepped
      exact carrying_received carrying byte error
  | transmitted =>
      have same : (txVect system.yport).conn = system.yport.conn ∧
          (txVect system.yport).recvBuffer = system.yport.recvBuffer := by
        rw [txVect]
        split
        · exact ⟨rfl, rfl⟩
        · exact ⟨rfl, rfl⟩
      rw [systemStep] at stepped
      split at stepped
      · cases Option.some.inj stepped
        dsimp only
        rw [same.1, same.2]
        exact carrying
      · cases stepped
  | call call =>
      rw [systemStep] at stepped
      split at stepped
      next possible =>
        cases Option.some.inj stepped
        cases connected : call.connected with
        | true => exact carrying_opened carrying connected possible
        | false =>
            cases closed : call.closed with
            | true => exact carrying_closed carrying connected closed
            | false =>
                by_cases owner : system.yport.conn = some call.connection
                · exact carrying_owner carrying connected closed owner possible fits
                · exact carrying_other carrying connected closed owner
      · cases stepped

end Steps

end ToClient

/-- In every run in which the buffer fits into a segment whenever it is sent, every client
has acknowledged a beginning of the bytes that were stored since it was given the port. -/
theorem delivers_of_guarded_run (config : Config) (events : List Event) (last : System)
    (guarded : Guarded (systemStep config) (SegmentFits config) poweredSystem events)
    (reached : run (systemStep config) poweredSystem events = some last) :
    Delivers last.connections := by
  have carrying : Carrying last.yport.conn last.yport.recvBuffer last.connections :=
    guarded.invariant (fun _ _ _ carrying fits stepped => carrying_step carrying fits stepped)
      (carrying_start _) reached
  exact carrying.delivers

instance (config : Config) (system : System) : ∀ event, Decidable (SegmentFits config system event)
  | .receive _ _ => isTrue trivial
  | .transmitted => isTrue trivial
  | .call call => inferInstanceAs (Decidable (system.yport.conn = some call.connection →
      call.closed = false → call.poll = true ∨ call.acked = true →
        due config (sendState config system.yport call) →
          (sendState config system.yport call).recvBuffer.len ≤ call.mss))

/-- A call for the first connection without any flag. -/
def idleCall (mss : Nat) : UipCall :=
  ⟨0, false, false, false, false, false, [], mss, fun _ => 0⟩

/-- A client connects, three bytes arrive, and what was sent is acknowledged. -/
def threeBytes (mss : Nat) : List Event :=
  [.call { idleCall mss with connected := true }, .receive 97 false, .receive 98 false,
    .call { idleCall mss with poll := true }, .receive 99 false,
    .call { idleCall mss with acked := true }, .call { idleCall mss with acked := true }]

def smallConfig : Config := ⟨4, 0, by decide⟩

theorem delivers_three_bytes :
    ∃ last, run (systemStep smallConfig) poweredSystem (threeBytes 2) = some last ∧
      Delivers last.connections := by
  cases reached : run (systemStep smallConfig) poweredSystem (threeBytes 2) with
  | none => exact absurd reached (by decide +kernel)
  | some last =>
      exact ⟨last, rfl, delivers_of_guarded_run smallConfig (threeBytes 2) last
        (by decide +kernel) reached⟩

/-- With segments of one byte the second byte is never sent. -/
theorem byte_lost_behind_segment :
    ∃ last, run (systemStep smallConfig) poweredSystem (threeBytes 1) = some last ∧
      ¬Delivers last.connections := by
  cases reached : run (systemStep smallConfig) poweredSystem (threeBytes 1) with
  | none => exact absurd reached (by decide +kernel)
  | some last =>
      have lost : (run (systemStep smallConfig) poweredSystem (threeBytes 1)).map (fun last =>
          ((last.connections 0).owned, (last.connections 0).stream.acked,
            (last.connections 0).stored)) = some (true, [97, 99], [97, 98, 99]) := by
        decide +kernel
      rw [reached, Option.map_some, Option.some.injEq, Prod.mk.injEq, Prod.mk.injEq] at lost
      obtain ⟨owned, acked, stored⟩ := lost
      refine ⟨last, rfl, fun delivers => ?_⟩
      have begins := delivers 0 owned
      rw [acked, stored] at begins
      exact absurd begins (by decide)

/-- When nothing waits any more, all that was delivered for the port was written to it. -/
def Drains (system : System) : Prop :=
  system.yport.sendBuffer.sent = system.yport.sendBuffer.len →
    system.yport.udr = system.delivered

/-- The peer keeps to the window, so a segment is shorter than the buffer. -/
def InWindow (config : Config) : Event → Prop
  | .call call => call.payload.length < config.bufferLen
  | _ => True

/-- Data for the port comes while nothing waits or while there is room for it too, and not
with the end of the connection. -/
def RoomFor (config : Config) (system : System) : Event → Prop
  | .call call => Owns system.yport call → call.payload ≠ [] →
      (call.connected = true ∨ call.closed = false) ∧
        (pending system.yport = 0 ∨
          pending system.yport + call.payload.length < config.bufferLen)
  | _ => True

/-- What was written and what waits is what was delivered. -/
structure Draining (config : Config) (buffer : Buffer) (udr delivered : List UInt8) : Prop where
  ordered : buffer.sent ≤ buffer.len
  bounded : buffer.len ≤ config.bufferLen
  written : udr ++ readBlock buffer.data buffer.sent (buffer.len - buffer.sent) = delivered

section ToPort

variable {config : Config} {state : YportState} {call : UipCall} {delivered : List UInt8}

theorem Draining.drained {buffer : Buffer} {udr : List UInt8}
    (draining : Draining config buffer udr delivered) (empty : buffer.sent = buffer.len) :
    udr = delivered := by
  have written := draining.written
  rw [empty, Nat.sub_self, readBlock_zero, List.append_nil] at written
  exact written

theorem Draining.pending_eq
    (draining : Draining config state.sendBuffer state.udr delivered) :
    pending state = state.sendBuffer.len - state.sendBuffer.sent := by
  have ordered := draining.ordered
  have bounded := draining.bounded
  have small := config.bufferLen_lt
  rw [pending]
  omega

/-- The first byte of a buffer is written to the data register. -/
theorem draining_startSending {len : Nat} {data : Memory} (nonempty : 0 < len)
    (bounded : len ≤ config.bufferLen)
    (written : state.udr ++ readBlock data 0 len = delivered) :
    Draining config (startSending state len data).sendBuffer (startSending state len data).udr
      delivered := by
  obtain ⟨rest, rfl⟩ := Nat.exists_eq_add_of_le' nonempty
  refine ⟨nonempty, bounded, ?_⟩
  rw [← written, readBlock_succ]
  simp [startSending]

theorem yportRxstart_draining (draining : Draining config state.sendBuffer state.udr delivered)
    {data : List UInt8} (nonempty : data ≠ []) (short : data.length < config.bufferLen)
    (room : pending state = 0 ∨ pending state + data.length < config.bufferLen) :
    Draining config (yportRxstart config state data).2.sendBuffer
      (yportRxstart config state data).2.udr (delivered ++ data) := by
  have positive := List.length_pos_iff.mpr nonempty
  have waiting := draining.pending_eq
  have written := draining.written
  rw [← waiting] at written
  rw [yportRxstart]
  by_cases none : pending state = 0
  · rw [if_pos none]
    apply draining_startSending positive (Nat.le_of_lt short)
    rw [readBlock_writeBlock_same, ← written, none, readBlock_zero, List.append_nil]
  · have fits := room.resolve_left none
    have small := config.bufferLen_lt
    have noWrap : (pending state + data.length) % 65536 < config.bufferLen := by omega
    rw [if_neg none, if_pos noWrap]
    apply draining_startSending (Nat.add_pos_right _ positive) (Nat.le_of_lt fits)
    have moved := readBlock_writeBlock_same state.sendBuffer.data 0
      (readBlock state.sendBuffer.data state.sendBuffer.sent (pending state))
    rw [length_readBlock] at moved
    rw [readBlock_append, Nat.zero_add, readBlock_writeBlock_same,
      readBlock_writeBlock_disjoint (Or.inl (Nat.le_of_eq (Nat.zero_add _))), moved, ← written,
      List.append_assoc]

theorem txVect_draining (draining : Draining config state.sendBuffer state.udr delivered) :
    Draining config (txVect state).sendBuffer (txVect state).udr delivered := by
  rw [txVect]
  split
  next waits =>
    refine ⟨waits, draining.bounded, ?_⟩
    have written := draining.written
    have next : state.sendBuffer.len - state.sendBuffer.sent =
        state.sendBuffer.len - (state.sendBuffer.sent + 1) + 1 := by omega
    rw [next, readBlock_succ] at written
    rw [← written]
    simp
  · exact draining

/-- The variables of the serial side. -/
def serial (state : YportState) : Buffer × Bool × List UInt8 :=
  (state.sendBuffer, state.txcie, state.udr)

theorem serial_serveSend (config : Config) (state : YportState) (call : UipCall)
    (offered : List UInt8) : serial (serveSend config state call offered).1 = serial state := by
  rw [serveSend]
  split
  · rfl
  · rfl

theorem serial_withRecvBuffer (state : YportState) (buffer : Buffer) :
    serial { state with recvBuffer := buffer } = serial state :=
  rfl

theorem conn_withRecvBuffer (state : YportState) (buffer : Buffer) :
    { state with recvBuffer := buffer }.conn = state.conn :=
  rfl

theorem serial_serveFlags (state : YportState) (call : UipCall) :
    serial (serveFlags state call).1 = serial state := by
  rw [serveFlags]
  split
  · split
    · rfl
    · rfl
  · split
    · rfl
    · split
      · split
        · rfl
        · exact serial_withRecvBuffer state _
      · rfl

theorem serial_yportRxstart {first second : YportState} (same : serial first = serial second)
    (data : List UInt8) :
    serial (yportRxstart config first data).2 = serial (yportRxstart config second data).2 := by
  rw [serial, serial, Prod.mk.injEq, Prod.mk.injEq] at same
  obtain ⟨buffer, txcie, udr⟩ := same
  have waiting : pending first = pending second := by rw [pending, pending, buffer]
  rw [yportRxstart, yportRxstart, waiting, buffer]
  by_cases none : pending second = 0
  · rw [if_pos none, if_pos none]
    simp only [serial, startSending, udr]
  · rw [if_neg none, if_neg none]
    by_cases fits : (pending second + data.length) % 65536 < config.bufferLen
    · rw [if_pos fits, if_pos fits]
      simp only [serial, startSending, udr]
    · rw [if_neg fits, if_neg fits]
      simp only [serial, buffer, txcie, udr]

theorem serveFlags_conn (owns : Owns state call) :
    (serveFlags state call).1.conn = some call.connection := by
  rw [serveFlags]
  split
  next connected =>
    split
    · rfl
    next taken =>
      rcases owns with owner | ⟨-, free⟩
      · exact owner
      · rw [free] at taken
        cases taken
  next notConnected =>
    have owner := owns.resolve_right fun opened => notConnected opened.1
    split
    · exact owner
    · split
      · split
        · exact owner
        · exact (conn_withRecvBuffer state _).trans owner
      · exact owner

theorem serveFlags_conn_other (other : ¬Owns state call) :
    (serveFlags state call).1.conn ≠ some call.connection := by
  rw [Owns, not_or, not_and] at other
  rw [serveFlags]
  split
  next connected =>
    split
    next free => exact absurd free (other.2 connected)
    · exact other.1
  · split
    · exact other.1
    · split
      · split
        · exact other.1
        · rw [conn_withRecvBuffer]
          exact other.1
      · exact other.1

theorem serial_serveNewdata (nonempty : call.payload ≠ [])
    (short : call.payload.length < config.bufferLen) (stopped : Bool) {started : Bool × YportState}
    (same : yportRxstart config state call.payload = started) :
    serial (serveNewdata config state call stopped).1 = serial started.2 := by
  rw [serveNewdata, same]
  rw [if_pos ⟨nonempty, Nat.le_of_lt short⟩]

theorem serial_yportNetMain_owner (owns : Owns state call)
    (stays : call.connected = true ∨ call.closed = false) (nonempty : call.payload ≠ [])
    (short : call.payload.length < config.bufferLen) (stopped : Bool) :
    serial (yportNetMain config state call stopped).1 =
      serial (yportRxstart config state call.payload).2 := by
  have open_ : ¬(call.connected = false ∧ call.closed = true ∧
      state.conn = some call.connection) := by
    rintro ⟨notConnected, closed, -⟩
    rw [notConnected, closed] at stays
    simp at stays
  have owner : (serveFlags (countService config state) call).1.conn = some call.connection :=
    serveFlags_conn owns
  rw [yportNetMain_of_not_closing open_]
  dsimp only
  rw [if_neg (not_not_intro owner), serveOwner, serial_serveSend,
    serial_serveNewdata nonempty short stopped rfl]
  have same : serial (serveFlags (countService config state) call).1 = serial state :=
    serial_serveFlags (countService config state) call
  exact serial_yportRxstart same call.payload

theorem serial_yportNetMain_silent (silent : ¬Owns state call ∨ call.payload = [])
    (stopped : Bool) : serial (yportNetMain config state call stopped).1 = serial state := by
  rw [yportNetMain]
  split
  · rfl
  · dsimp only
    split
    · exact serial_serveFlags (countService config state) call
    next owner =>
      have owns : Owns state call := by
        by_contra other
        have otherAfter : ¬Owns (countService config state) call := other
        exact owner (serveFlags_conn_other otherAfter)
      have nothing : ¬(call.payload ≠ [] ∧ call.payload.length ≤ config.bufferLen) := fun both =>
        both.1 (silent.resolve_left (not_not_intro owns))
      rw [serveOwner, serial_serveSend, serveNewdata, if_neg nothing]
      exact serial_serveFlags (countService config state) call

theorem Draining.called (draining : Draining config state.sendBuffer state.udr delivered)
    (short : call.payload.length < config.bufferLen)
    (room : Owns state call → call.payload ≠ [] →
      (call.connected = true ∨ call.closed = false) ∧
        (pending state = 0 ∨ pending state + call.payload.length < config.bufferLen))
    (stopped : Bool) :
    Draining config (yportNetMain config state call stopped).1.sendBuffer
      (yportNetMain config state call stopped).1.udr
      (if Owns state call then delivered ++ call.payload else delivered) := by
  by_cases receives : Owns state call ∧ call.payload ≠ []
  · obtain ⟨stays, fits⟩ := room receives.1 receives.2
    have same := serial_yportNetMain_owner receives.1 stays receives.2 short stopped
    rw [serial, serial, Prod.mk.injEq, Prod.mk.injEq] at same
    rw [same.1, same.2.2, if_pos receives.1]
    exact yportRxstart_draining draining receives.2 short fits
  · have silent : ¬Owns state call ∨ call.payload = [] := by
      rw [not_and_or, not_not] at receives
      exact receives
    have same : serial (yportNetMain config state call stopped).1 = serial state :=
      serial_yportNetMain_silent silent stopped
    rw [serial, serial, Prod.mk.injEq, Prod.mk.injEq] at same
    rw [same.1, same.2.2]
    split
    next owns =>
      rw [silent.resolve_left (not_not_intro owns), List.append_nil]
      exact draining
    · exact draining

theorem Draining.step {system next : System} {event : Event}
    (draining : Draining config system.yport.sendBuffer system.yport.udr system.delivered)
    (inWindow : InWindow config event) (room : RoomFor config system event)
    (stepped : systemStep config system event = some next) :
    Draining config next.yport.sendBuffer next.yport.udr next.delivered := by
  cases event with
  | receive byte error =>
      cases Option.some.inj stepped
      exact draining
  | transmitted =>
      rw [systemStep] at stepped
      split at stepped
      · cases Option.some.inj stepped
        exact txVect_draining draining
      · cases stepped
  | call call =>
      rw [systemStep] at stepped
      split at stepped
      · cases Option.some.inj stepped
        exact draining.called inWindow room _
      · cases stepped

end ToPort

/-- In every run in which data for the port finds room, the bytes written to the port are,
when nothing waits any more, those that were delivered for it. -/
theorem drains_of_guarded_run (config : Config) (events : List Event) (last : System)
    (guarded : Guarded (systemStep config)
      (fun system event => InWindow config event ∧ RoomFor config system event)
      poweredSystem events)
    (reached : run (systemStep config) poweredSystem events = some last) : Drains last := by
  have draining : Draining config last.yport.sendBuffer last.yport.udr last.delivered :=
    guarded.invariant (fun system event next draining allowed stepped =>
      Draining.step draining allowed.1 allowed.2 stepped)
      ⟨Nat.le_refl _, Nat.zero_le _, rfl⟩ reached
  exact draining.drained

instance (config : Config) : ∀ event, Decidable (InWindow config event)
  | .receive _ _ => isTrue trivial
  | .transmitted => isTrue trivial
  | .call call => inferInstanceAs (Decidable (call.payload.length < config.bufferLen))

instance (config : Config) (system : System) : ∀ event, Decidable (RoomFor config system event)
  | .receive _ _ => isTrue trivial
  | .transmitted => isTrue trivial
  | .call call => inferInstanceAs (Decidable (Owns system.yport call → call.payload ≠ [] →
      (call.connected = true ∨ call.closed = false) ∧
        (pending system.yport = 0 ∨
          pending system.yport + call.payload.length < config.bufferLen)))

/-- A client sends three bytes and goes away; another one connects and sends its own. -/
def twoClients (second : List UInt8) : List Event :=
  [.call { idleCall 9 with connected := true }, .call { idleCall 9 with payload := [1, 2, 3] },
    .call { idleCall 9 with closed := true },
    .call { idleCall 9 with connection := 1, connected := true },
    .call { idleCall 9 with connection := 1, payload := second },
    .transmitted, .transmitted, .transmitted]

theorem drains_two_clients :
    ∃ last, run (systemStep smallConfig) poweredSystem (twoClients [4]) = some last ∧
      Drains last := by
  cases reached : run (systemStep smallConfig) poweredSystem (twoClients [4]) with
  | none => exact absurd reached (by decide +kernel)
  | some last =>
      exact ⟨last, rfl, drains_of_guarded_run smallConfig (twoClients [4]) last
        (by decide +kernel) reached⟩

/-- Two bytes of the second client are dropped: two bytes of the first still wait. -/
theorem payload_dropped_while_pending :
    ∃ last, run (systemStep smallConfig) poweredSystem (twoClients [4, 5]) = some last ∧
      ¬Drains last := by
  cases reached : run (systemStep smallConfig) poweredSystem (twoClients [4, 5]) with
  | none => exact absurd reached (by decide +kernel)
  | some last =>
      have dropped : (run (systemStep smallConfig) poweredSystem (twoClients [4, 5])).map
          (fun last => (last.yport.sendBuffer.sent, last.yport.sendBuffer.len, last.yport.udr,
            last.delivered)) = some (3, 3, [1, 2, 3], [1, 2, 3, 4, 5]) := by
        decide +kernel
      rw [reached, Option.map_some, Option.some.injEq, Prod.mk.injEq, Prod.mk.injEq,
        Prod.mk.injEq] at dropped
      obtain ⟨sent, len, udr, delivered⟩ := dropped
      refine ⟨last, rfl, fun drains => ?_⟩
      have all := drains (sent.trans len.symm)
      rw [udr, delivered] at all
      exact absurd all (by decide)

end Ethersex.Yport

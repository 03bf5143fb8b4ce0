import Ethersex.GuardedRuns
import Ethersex.UipConnections

/-!
# The EMS gateway

`protocols/ems` listens to a heating bus and sends every valid packet as a frame
to one TCP client.  This file embeds `ems_process` with `process_prepare_buffer`
and the part of `ems_net_main` that sends, and shows when the client gets the
frames in order: while the buffer fits into a segment, and while no frame arrives
between a segment and its retransmission.
-/

namespace Ethersex.Ems

open ByteMemory SegmentStreams Uip GuardedRuns

/-- `EMS_BUFFER_LEN`, which is limited by the length of a network frame. -/
structure Config where
  bufferLen : Nat
  bufferLen_le : bufferLen ≤ 65000

def ourEmsAddress : UInt8 := 0x0b
def emsMsgTypeResp : UInt8 := 0xff

/-- The size of `prepare_buffer`. -/
def prepareSize : Nat := 64

/-- `ems_recv_buffer`, `ems_conn`, and the filled part of `prepare_buffer`. -/
structure EmsState where
  recvBuffer : Buffer
  conn : Option Nat
  prepare : List UInt8

/-- One round of the loop of `ems_calc_checksum`. -/
def checksumStep (crc byte : UInt8) : UInt8 :=
  let carry := crc &&& 0x80 ≠ 0
  let crc := if carry then crc ^^^ 0x0c else crc
  ((crc <<< 1 &&& 0xfe) ||| if carry then 1 else 0) ^^^ byte

def emsCalcChecksum (bytes : List UInt8) : UInt8 := bytes.foldl checksumStep 0

/-- The packet in the prepare buffer.  A single byte is an acknowledgement, if it is known
whose; a longer packet ends with its checksum. -/
def preparedPacket (prepare : List UInt8) (sourceByte : UInt8) : Option (List UInt8) :=
  if prepare.length = 1 then
    if sourceByte = 0 then none
    else some [sourceByte, ourEmsAddress, emsMsgTypeResp, prepare.getD 0 0]
  else
    let packet := prepare.dropLast
    if prepare.getLast? = some (emsCalcChecksum packet) then some packet else none

/-- The frame of a packet: its start, the length, the data and their checksum. -/
def frame (packet : List UInt8) : List UInt8 :=
  0xaa :: 0x55 :: UInt8.ofNat packet.length :: packet ++ [packet.foldl (· ^^^ ·) 0]

/-- The bytes that `process_prepare_buffer` appends to the buffer. -/
def appended (config : Config) (state : EmsState) (sourceByte : UInt8) : List UInt8 :=
  match preparedPacket state.prepare sourceByte with
  | none => []
  | some packet =>
      if config.bufferLen ≤ (state.recvBuffer.len + (packet.length + 4)) % 65536 then []
      else if state.conn.isSome then frame packet
      else []

/-- One round of the loop of `ems_process`: a byte, or the end of a packet. -/
def emsProcess (config : Config) (state : EmsState) (byte : UInt8) (endOfPacket : Bool) :
    EmsState :=
  if endOfPacket then
    { state with
      recvBuffer :=
        if state.prepare = [] then state.recvBuffer
        else state.recvBuffer.push (appended config state byte)
      prepare := [] }
  else if state.prepare.length < prepareSize then
    { state with prepare := state.prepare ++ [byte] }
  else
    { state with prepare := [] }

/-- `"ERROR: Connection blocked\n"` with its terminating zero. -/
def blockedText : List UInt8 :=
  [69, 82, 82, 79, 82, 58, 32, 67, 111, 110, 110, 101, 99, 116, 105, 111, 110, 32, 98, 108, 111, 99,
    107, 101, 100, 10, 0]

/-- The first part of `ems_net_main`: the state, the data to send, and whether to close. -/
def emsFlags (state : EmsState) (call : UipCall) : EmsState × List UInt8 × Bool :=
  if call.connected then
    match state.conn with
    | none => ({ state with conn := some call.connection }, [], false)
    | some _ => (state, blockedText, false)
  else if call.acked then
    if state.conn ≠ some call.connection then
      (state, [], true)
    else
      ({ state with recvBuffer := state.recvBuffer.dropSent }, [], false)
  else if call.closed then
    if state.conn = some call.connection then
      ({ state with
          conn := none
          recvBuffer := ⟨0, state.recvBuffer.sent, state.recvBuffer.data⟩ }, [], false)
    else
      (state, [], false)
  else
    (state, [], false)

/-- The client is sent the buffer. -/
def Sends (state : EmsState) (call : UipCall) : Prop :=
  (call.poll = true ∨ call.acked = true ∨ call.rexmit = true) ∧
    state.conn = some call.connection ∧ 0 < state.recvBuffer.len

instance (state : EmsState) (call : UipCall) : Decidable (Sends state call) :=
  inferInstanceAs (Decidable (_ ∧ _))

def emsNetMain (state : EmsState) (call : UipCall) (stopped : Bool) : EmsState × Reaction :=
  let served := emsFlags state call
  if Sends served.1 call then
    ({ served.1 with recvBuffer := served.1.recvBuffer.markSent },
      ⟨uipSend served.2.1 served.1.recvBuffer.contents, stopped, served.2.2⟩)
  else
    (served.1, ⟨served.2.1, stopped, served.2.2⟩)

structure System where
  ems : EmsState
  connections : Nat → Connection

def uipCall (system : System) (call : UipCall) : System :=
  let owned := system.ems.conn.isNone
  let connection := (system.connections call.connection).beforeCall owned call
  let reacted := emsNetMain system.ems call connection.stopped
  ⟨reacted.1, called system.connections owned call reacted.2⟩

inductive Event where
  | input (byte : UInt8) (endOfPacket : Bool)
  | call (call : UipCall)

def systemStep (config : Config) (system : System) : Event → Option System
  | .input byte endOfPacket =>
      some ⟨emsProcess config system.ems byte endOfPacket,
        if endOfPacket ∧ system.ems.prepare ≠ [] then
          storeFor system.ems.conn system.connections (appended config system.ems byte)
        else system.connections⟩
  | .call call =>
      if Possible (system.connections call.connection) call then some (uipCall system call)
      else none

def poweredSystem : System where
  ems := ⟨⟨0, 0, fun _ => 0⟩, none, []⟩
  connections := fun _ => closedConnection

/-- The buffer fits into a segment whenever it is sent, and it has not changed since it was
sent when it is sent again. -/
def SegmentKept (system : System) : Event → Prop
  | .call call =>
      let state := (emsFlags system.ems call).1
      call.closed = false → Sends state call →
        (call.rexmit = true → state.recvBuffer.len = state.recvBuffer.sent) ∧
          (call.rexmit = false → state.recvBuffer.len ≤ call.mss)
  | _ => True

instance (system : System) : ∀ event, Decidable (SegmentKept system event)
  | .input _ _ => isTrue trivial
  | .call call => inferInstanceAs (Decidable (call.closed = false →
      Sends (emsFlags system.ems call).1 call →
        (call.rexmit = true → (emsFlags system.ems call).1.recvBuffer.len =
            (emsFlags system.ems call).1.recvBuffer.sent) ∧
          (call.rexmit = false → (emsFlags system.ems call).1.recvBuffer.len ≤ call.mss)))

structure Streaming (config : Config) (system : System) : Prop where
  carrying : Carrying system.ems.conn system.ems.recvBuffer system.connections
  empty : system.ems.conn = none → system.ems.recvBuffer.len = 0
  room : system.ems.recvBuffer.len ≤ config.bufferLen
  short : system.ems.prepare.length ≤ prepareSize

section Input

variable {config : Config} {state : EmsState}

theorem length_preparedPacket {prepare packet : List UInt8} {sourceByte : UInt8}
    (short : prepare.length ≤ prepareSize)
    (prepared : preparedPacket prepare sourceByte = some packet) :
    packet.length ≤ prepareSize := by
  rw [preparedPacket] at prepared
  split at prepared
  · split at prepared
    · cases prepared
    · cases prepared
      exact Nat.le_of_ble_eq_true rfl
  · dsimp only at prepared
    split at prepared
    · cases prepared
      rw [List.length_dropLast]
      exact Nat.le_trans (Nat.sub_le _ _) short
    · cases prepared

theorem length_frame (packet : List UInt8) : (frame packet).length = packet.length + 4 := by
  simp [frame]

/-- A frame is appended only when there is room for it. -/
theorem appended_room (room : state.recvBuffer.len ≤ config.bufferLen)
    (short : state.prepare.length ≤ prepareSize) (sourceByte : UInt8) :
    state.recvBuffer.len + (appended config state sourceByte).length ≤ config.bufferLen := by
  have small := config.bufferLen_le
  rw [appended]
  split
  · exact room
  next packet prepared =>
    have length := length_preparedPacket short prepared
    rw [prepareSize] at length
    split
    · exact room
    next fits =>
      split
      · rw [length_frame]
        omega
      · exact room

theorem appended_unconnected (free : state.conn = none) (sourceByte : UInt8) :
    appended config state sourceByte = [] := by
  rw [appended]
  split
  · rfl
  · split
    · rfl
    · rw [free]
      rfl

theorem Streaming.input {system : System} (streaming : Streaming config system) (byte : UInt8)
    (endOfPacket : Bool) :
    Streaming config ⟨emsProcess config system.ems byte endOfPacket,
      if endOfPacket ∧ system.ems.prepare ≠ [] then
        storeFor system.ems.conn system.connections (appended config system.ems byte)
      else system.connections⟩ := by
  obtain ⟨carrying, empty, room, short⟩ := streaming
  cases endOfPacket with
  | true =>
      by_cases noBytes : system.ems.prepare = []
      · simp only [emsProcess, noBytes, if_true, ne_eq, not_true, and_false, if_false]
        exact ⟨carrying, empty, room, Nat.zero_le _⟩
      · have stored := appended_room room short byte
        have small := config.bufferLen_le
        simp only [emsProcess, noBytes, if_true, ne_eq, not_false_eq_true, and_true, if_false]
        refine ⟨carrying.store (by omega), ?_, stored, Nat.zero_le _⟩
        intro free
        have free : system.ems.conn = none := free
        have nothing : appended config system.ems byte = [] := appended_unconnected free byte
        dsimp only [Buffer.push]
        rw [nothing]
        exact empty free
  | false =>
      simp only [emsProcess, Bool.false_eq_true, if_false, false_and]
      split
      next fills =>
        refine ⟨carrying, empty, room, ?_⟩
        rw [List.length_append]
        exact fills
      · exact ⟨carrying, empty, room, Nat.zero_le _⟩

end Input

section Calls

variable {config : Config} {system : System} {state : EmsState} {call : UipCall}

theorem emsNetMain_silent (silent : ¬Sends (emsFlags state call).1 call) (stopped : Bool) :
    emsNetMain state call stopped =
      ((emsFlags state call).1, ⟨(emsFlags state call).2.1, stopped, (emsFlags state call).2.2⟩) :=
  if_neg silent

theorem emsNetMain_sends (sends : Sends (emsFlags state call).1 call) (stopped : Bool) :
    emsNetMain state call stopped =
      (⟨(emsFlags state call).1.recvBuffer.markSent, (emsFlags state call).1.conn,
          (emsFlags state call).1.prepare⟩,
        ⟨uipSend (emsFlags state call).2.1 (emsFlags state call).1.recvBuffer.contents, stopped,
          (emsFlags state call).2.2⟩) :=
  if_pos sends

theorem emsFlags_opened (connected : call.connected = true) (free : state.conn = none) :
    emsFlags state call =
      (⟨state.recvBuffer, some call.connection, state.prepare⟩, [], false) := by
  simp [emsFlags, connected, free]

theorem emsFlags_blocked (connected : call.connected = true) {owner : Nat}
    (taken : state.conn = some owner) : emsFlags state call = (state, blockedText, false) := by
  simp [emsFlags, connected, taken]

theorem emsFlags_other (notConnected : call.connected = false)
    (other : ¬state.conn = some call.connection) :
    emsFlags state call = (state, [], call.acked) := by
  cases acked : call.acked with
  | true => simp [emsFlags, notConnected, acked, other]
  | false => simp [emsFlags, notConnected, acked, other]

theorem emsFlags_closed (notConnected : call.connected = false) (notAcked : call.acked = false)
    (closed : call.closed = true) (owner : state.conn = some call.connection) :
    emsFlags state call =
      (⟨⟨0, state.recvBuffer.sent, state.recvBuffer.data⟩, none, state.prepare⟩, [], false) := by
  simp [emsFlags, notConnected, notAcked, closed, owner]

theorem emsFlags_owner (notConnected : call.connected = false)
    (stays : call.acked = true ∨ call.closed = false)
    (owner : state.conn = some call.connection) :
    emsFlags state call =
      (⟨if call.acked then state.recvBuffer.dropSent else state.recvBuffer, state.conn,
        state.prepare⟩, [], false) := by
  cases acked : call.acked with
  | true => simp [emsFlags, notConnected, acked, owner]
  | false =>
      have open_ : call.closed = false := by simpa [acked] using stays
      simp [emsFlags, notConnected, acked, open_]

theorem Streaming.opened (streaming : Streaming config system) (connected : call.connected = true)
    (possible : Possible (system.connections call.connection) call) :
    Streaming config (uipCall system call) := by
  obtain ⟨carrying, empty, room, short⟩ := streaming
  obtain ⟨-, -, acked, rexmit, poll⟩ := possible.opening connected
  have silent (state : EmsState) : ¬Sends state call := by
    rintro ⟨flags, -⟩
    simp [acked, rexmit, poll] at flags
  rw [uipCall, emsNetMain_silent (silent _)]
  cases owner : system.ems.conn with
  | none =>
      rw [emsFlags_opened connected owner]
      rw [owner] at carrying
      exact ⟨carrying.opened connected possible (empty owner) rfl rfl, (fun free => nomatch free),
        room, short⟩
  | some owning =>
      rw [emsFlags_blocked connected owner]
      refine ⟨?_, empty, room, short⟩
      exact carrying.blocked connected possible

theorem Streaming.other (streaming : Streaming config system)
    (notConnected : call.connected = false)
    (different : ¬system.ems.conn = some call.connection) :
    Streaming config (uipCall system call) := by
  obtain ⟨carrying, empty, room, short⟩ := streaming
  have flags : emsFlags system.ems call = (system.ems, [], call.acked) :=
    emsFlags_other notConnected different
  have silent : ¬Sends (emsFlags system.ems call).1 call := by
    rw [flags]
    exact fun sends => different sends.2.1
  rw [uipCall, emsNetMain_silent silent, flags]
  refine ⟨carrying.silent notConnected (Or.inr rfl) ?_, empty, room, short⟩
  intro other owns
  refine ⟨?_, owns, rfl⟩
  rintro rfl
  exact different owns

theorem Streaming.closed (streaming : Streaming config system)
    (notConnected : call.connected = false) (notAcked : call.acked = false)
    (closed : call.closed = true) (owner : system.ems.conn = some call.connection) :
    Streaming config (uipCall system call) := by
  obtain ⟨carrying, empty, room, short⟩ := streaming
  have flags := emsFlags_closed notConnected notAcked closed owner
  have silent : ¬Sends (emsFlags system.ems call).1 call := by
    rw [flags]
    exact fun sends => nomatch sends.2.1
  rw [uipCall, emsNetMain_silent silent, flags]
  refine ⟨carrying.silent notConnected (Or.inl closed) ?_, fun _ => rfl, Nat.zero_le _, short⟩
  intro other owns
  cases owns

/-- The owner is closed while it acknowledges, and keeps the gateway until it is reported
as closed again. -/
theorem carrying_closing {buffer changed : Buffer} {connections : Nat → Connection}
    {reaction : Reaction} {owner : Option Nat} {owned : Bool}
    (carrying : Carrying owner buffer connections) (notConnected : call.connected = false)
    (closed : call.closed = true) (acked : call.acked = true)
    (owns : owner = some call.connection)
    (possible : Possible (connections call.connection) call)
    (same : changed.len = buffer.dropSent.len ∧ changed.data = buffer.dropSent.data) :
    Carrying owner changed (called connections owned call reaction) := by
  obtain ⟨established, carries⟩ := carrying.beforeCall notConnected owns possible
  rw [if_pos acked] at carries
  rw [called, Connection.afterCall, if_pos closed]
  apply carrying.update
  · intro isOwned
    exact (List.append_nil _).symm ▸ (List.prefix_append _ _).trans carries.begins
  · intro other different isOther
    exact absurd (Option.some.inj (owns.symm.trans isOther)).symm different
  · intro _
    refine ⟨by rw [established, acked]; rfl, ?_, ?_, fun busy => absurd rfl busy⟩
    · rw [Buffer.contents, same.1, same.2]
      exact carries.stored_eq
    · rw [same.1]
      exact carries.fits

/-- The owner is sent the buffer, or its segment again, or nothing. -/
theorem sends_carries {stored : List UInt8} {stream : Stream} {buffer : Buffer}
    (carries : Carries stored stream buffer)
    (busy : call.rexmit = true → stream.outstanding ≠ [])
    (idle : call.poll = true ∨ call.acked = true → stream.outstanding = [])
    (sends : call.poll = true ∨ call.acked = true ∨ call.rexmit = true)
    (kept : (call.rexmit = true → buffer.len = buffer.sent) ∧
      (call.rexmit = false → buffer.len ≤ call.mss)) :
    Carries stored (stream.transmit call.old call.mss buffer.contents) buffer.markSent := by
  cases rexmit : call.rexmit with
  | true =>
      have whole := kept.1 rexmit
      have again := carries.resend (busy rexmit) call.old call.mss
      have marked : buffer.markSent = buffer := by
        rw [Buffer.markSent]
        nth_rewrite 2 [whole]
        rfl
      rw [marked, Buffer.contents, whole, again]
      exact carries
  | false =>
      have now : call.poll = true ∨ call.acked = true := by
        simpa [rexmit] using sends
      exact carries.send (idle now) call.old (kept.2 rexmit)

theorem Streaming.owner (streaming : Streaming config system)
    (notConnected : call.connected = false) (stays : call.acked = true ∨ call.closed = false)
    (owner : system.ems.conn = some call.connection)
    (possible : Possible (system.connections call.connection) call)
    (kept : SegmentKept system (.call call)) : Streaming config (uipCall system call) := by
  obtain ⟨carrying, empty, room, short⟩ := streaming
  obtain ⟨established, carries⟩ := carrying.beforeCall notConnected owner possible
  have flags := emsFlags_owner notConnected stays owner
  have dropped : (if call.acked then system.ems.recvBuffer.dropSent
      else system.ems.recvBuffer).len ≤ system.ems.recvBuffer.len := by
    by_cases acked : call.acked = true
    · have sent := ((carrying.carries call.connection owner).inFlight (possible.acked acked)).1
      have fits := (carrying.carries call.connection owner).fits
      rw [if_pos acked]
      dsimp only [Buffer.dropSent]
      omega
    · exact Nat.le_of_eq (by rw [if_neg acked])
  have within := Nat.le_trans dropped room
  have notFree (conn : system.ems.conn = none) : False := by
    rw [owner] at conn
    cases conn
  dsimp only [SegmentKept] at kept
  rw [uipCall]
  by_cases sends : Sends (emsFlags system.ems call).1 call
  · rw [emsNetMain_sends sends]
    rw [flags] at sends kept ⊢
    refine ⟨?_, fun free => (notFree free).elim, within, short⟩
    cases closed : call.closed with
    | true =>
        have acked : call.acked = true := by simpa [closed] using stays
        apply carrying_closing carrying notConnected closed acked owner possible
        rw [if_pos acked]
        exact ⟨rfl, rfl⟩
    | false =>
        apply carrying.served closed owner rfl established
        have offered (data : List UInt8) : uipSend [] data = data := by
          rw [uipSend]
          split
          next nothing => exact nothing.symm
          · rfl
        dsimp only
        rw [offered]
        exact sends_carries carries
          (fun rexmit => (possible.busy _ notConnected rexmit).1)
          (possible.idle _ notConnected) sends.1 (kept closed sends)
  · rw [emsNetMain_silent sends, flags]
    refine ⟨?_, fun free => (notFree free).elim, within, short⟩
    cases closed : call.closed with
    | true =>
        have acked : call.acked = true := by simpa [closed] using stays
        apply carrying_closing carrying notConnected closed acked owner possible
        rw [if_pos acked]
        exact ⟨rfl, rfl⟩
    | false =>
        apply carrying.served closed owner rfl established
        rw [Stream.transmit_nil]
        exact carries

theorem Streaming.step (streaming : Streaming config system) {event : Event} {next : System}
    (kept : SegmentKept system event) (stepped : systemStep config system event = some next) :
    Streaming config next := by
  cases event with
  | input byte endOfPacket =>
      cases Option.some.inj stepped
      exact streaming.input byte endOfPacket
  | call call =>
      rw [systemStep] at stepped
      split at stepped
      next possible =>
        cases Option.some.inj stepped
        cases connected : call.connected with
        | true => exact streaming.opened connected possible
        | false =>
            by_cases owner : system.ems.conn = some call.connection
            · cases acked : call.acked with
              | true => exact streaming.owner connected (Or.inl acked) owner possible kept
              | false =>
                  cases closed : call.closed with
                  | true => exact streaming.closed connected acked closed owner
                  | false => exact streaming.owner connected (Or.inr closed) owner possible kept
            · exact streaming.other connected owner
      · cases stepped

end Calls

/-- In every run in which the buffer fits into a segment when it is sent, and is unchanged
when it is sent again, every client has acknowledged a beginning of the frames that were
appended since it was given the gateway. -/
theorem frames_delivered_of_guarded_run (config : Config) (events : List Event) (last : System)
    (guarded : Guarded (systemStep config) SegmentKept poweredSystem events)
    (reached : run (systemStep config) poweredSystem events = some last) :
    Delivers last.connections := by
  have streaming : Streaming config last :=
    guarded.invariant (fun _ _ _ streaming kept stepped => streaming.step kept stepped)
      ⟨carrying_start _, fun _ => rfl, Nat.zero_le _, Nat.zero_le _⟩ reached
  exact streaming.carrying.delivers

def idleCall : UipCall := ⟨0, false, false, false, false, false, [], 100, fun _ => 0⟩

/-- The bytes of a packet and its end. -/
def packetEvents (packet : List UInt8) : List Event :=
  packet.map (.input · false) ++ [.input 0 true]

/-- Two packets reach the gateway before the first frame is acknowledged. -/
def twoPackets (rexmit : Bool) : List Event :=
  .call { idleCall with connected := true } :: packetEvents [8, 8] ++
    [.call { idleCall with poll := true }] ++ packetEvents [9, 9] ++
    (if rexmit then [.call { idleCall with rexmit := true }] else []) ++
    [.call { idleCall with acked := true }] ++ packetEvents [7, 7] ++
    if rexmit then
      [.call { idleCall with poll := true }, .call { idleCall with acked := true }]
    else
      [.call { idleCall with acked := true }]

def usualConfig : Config := ⟨255, by decide⟩

theorem frames_delivered_without_rexmit :
    ∃ last, run (systemStep usualConfig) poweredSystem (twoPackets false) = some last ∧
      Delivers last.connections := by
  cases reached : run (systemStep usualConfig) poweredSystem (twoPackets false) with
  | none => exact absurd reached (by decide +kernel)
  | some last =>
      exact ⟨last, rfl, frames_delivered_of_guarded_run usualConfig (twoPackets false) last
        (by decide +kernel) reached⟩

/-- A retransmission counts the frame behind its segment as sent, and that frame is lost. -/
theorem frame_lost_by_rexmit :
    ∃ last, run (systemStep usualConfig) poweredSystem (twoPackets true) = some last ∧
      ¬Delivers last.connections := by
  cases reached : run (systemStep usualConfig) poweredSystem (twoPackets true) with
  | none => exact absurd reached (by decide +kernel)
  | some last =>
      have lost : (run (systemStep usualConfig) poweredSystem (twoPackets true)).map (fun last =>
          ((last.connections 0).owned, (last.connections 0).stream.acked,
            (last.connections 0).stored)) =
          some (true, frame [8] ++ frame [7], frame [8] ++ frame [9] ++ frame [7]) := by
        decide +kernel
      rw [reached, Option.map_some, Option.some.injEq, Prod.mk.injEq, Prod.mk.injEq] at lost
      obtain ⟨owned, acked, stored⟩ := lost
      refine ⟨last, rfl, fun delivers => ?_⟩
      have begins := delivers 0 owned
      rw [acked, stored] at begins
      exact absurd begins (by decide)

end Ethersex.Ems

import Ethersex.GuardedRuns
import Ethersex.OpenvpnTunnel

/-!
# Replayed and forged datagrams

The packet id is refused only when neither the timestamp nor the sequence number is new, and then
both are taken over.  So the pair that was seen can go back, and with it the ids that
were accepted before become new again.  The remote end is taken over before the datagram is
verified.  Both are harmless as long as no datagram takes the branch.
-/

namespace Ethersex.Openvpn

open ByteMemory GuardedRuns

abbrev tunnelStep (setup : Setup) (tunnel : Tunnel) (event : Event) : Option Tunnel :=
  some (step setup tunnel event)

/-- The tunnel after the events. -/
def tunnelAfter (setup : Setup) (remote : Endpoint) (events : List Event) : Tunnel :=
  events.foldl (step setup) (setup.start remote)

theorem run_tunnelStep (setup : Setup) (remote : Endpoint) (events : List Event) :
    run (tunnelStep setup) (setup.start remote) events = some (tunnelAfter setup remote events) :=
  run_total (step setup) _ events

/-- The datagram is looked at. -/
def Handled (setup : Setup) (connection : Connection) (datagram : Datagram) : Prop :=
  connection.lport = setup.openvpnPort ∧ datagram.newdata = true

instance (setup : Setup) (connection : Connection) (datagram : Datagram) :
    Decidable (Handled setup connection datagram) :=
  inferInstanceAs (Decidable (_ ∧ _))

/-- The id a datagram carries. -/
def Datagram.id (setup : Setup) (datagram : Datagram) : PacketId :=
  packetId (decrypted setup.crypto datagram.appdata datagram.uipLen)

/-- The datagram passes both checks. -/
def Verified (setup : Setup) (connection : Connection) (datagram : Datagram) : Prop :=
  openvpnHmacVerify setup.crypto datagram.appdata datagram.uipLen = true ∧
    ¬ ((datagram.id setup).timestamp ≤ connection.seenTimestamp ∧
      (datagram.id setup).seqno ≤ connection.seenSeqno)

instance (setup : Setup) (connection : Connection) (datagram : Datagram) :
    Decidable (Verified setup connection datagram) :=
  inferInstanceAs (Decidable (_ ∧ ¬ _))

section Receive

variable {setup : Setup} {tunnel : Tunnel} {datagram : Datagram}

theorem receive_unhandled (unhandled : ¬ Handled setup tunnel.connection datagram) :
    tunnel.receive setup datagram = tunnel := by
  have result : openvpnHandleUdp setup.crypto setup.openvpnPort tunnel.connection datagram =
      (tunnel.connection, none) := by
    unfold openvpnHandleUdp
    split_ifs with port newdata
    · rfl
    · rfl
    · exact absurd ⟨not_not.1 port, by simpa using newdata⟩ unhandled
  rw [Tunnel.receive, result]

theorem openvpnHandleUdp_of_none (handled : Handled setup tunnel.connection datagram)
    (failed : verify setup.crypto (tunnel.connection.setRemote datagram.source) datagram = none) :
    openvpnHandleUdp setup.crypto setup.openvpnPort tunnel.connection datagram =
      (tunnel.connection.setRemote datagram.source, none) := by
  rw [openvpnHandleUdp, if_neg (not_not.2 handled.1), if_neg (by simp [handled.2])]
  simp only [failed]

theorem openvpnHandleUdp_of_some (handled : Handled setup tunnel.connection datagram)
    {connection : Connection}
    (passed : verify setup.crypto (tunnel.connection.setRemote datagram.source) datagram =
      some connection) :
    openvpnHandleUdp setup.crypto setup.openvpnPort tunnel.connection datagram =
      (connection, some (readBlock (decrypted setup.crypto datagram.appdata datagram.uipLen)
        hmacCryptLen (datagram.uipLen - 32).toNat)) := by
  rw [openvpnHandleUdp, if_neg (not_not.2 handled.1), if_neg (by simp [handled.2])]
  simp only [passed]

theorem receive_rejected (handled : Handled setup tunnel.connection datagram)
    (rejected : ¬ Verified setup tunnel.connection datagram) :
    tunnel.receive setup datagram =
      { tunnel with connection := tunnel.connection.setRemote datagram.source } := by
  have failed : verify setup.crypto (tunnel.connection.setRemote datagram.source) datagram =
      none := by
    unfold verify verifyPacketId
    split_ifs with authentic seen
    · rfl
    · exact absurd ⟨authentic, seen⟩ rejected
    · rfl
  rw [Tunnel.receive, openvpnHandleUdp_of_none handled failed]

theorem receive_verified (handled : Handled setup tunnel.connection datagram)
    (verified : Verified setup tunnel.connection datagram) :
    tunnel.receive setup datagram =
      { tunnel with
        connection := (tunnel.connection.setRemote datagram.source).setSeen (datagram.id setup)
        peer := datagram.source
        accepted := datagram.id setup :: tunnel.accepted } := by
  have passed : verify setup.crypto (tunnel.connection.setRemote datagram.source) datagram =
      some ((tunnel.connection.setRemote datagram.source).setSeen (datagram.id setup)) := by
    rw [verify, if_pos verified.1, verifyPacketId]
    exact if_neg verified.2
  rw [Tunnel.receive, openvpnHandleUdp_of_some handled passed]
  rfl

end Receive

/-- What sending leaves as it is. -/
theorem send_kept (setup : Setup) (tunnel : Tunnel) (event : Event)
    (sending : ∀ datagram, event ≠ .handleUdp datagram) :
    (step setup tunnel event).connection.remote = tunnel.connection.remote ∧
      (step setup tunnel event).connection.seenSeqno = tunnel.connection.seenSeqno ∧
      (step setup tunnel event).connection.seenTimestamp = tunnel.connection.seenTimestamp ∧
      (step setup tunnel event).peer = tunnel.peer ∧
      (step setup tunnel event).accepted = tunnel.accepted := by
  have out : ∀ inner initialVector, let after := (openvpnProcessOut setup.crypto setup.inTunnel
      tunnel.connection inner initialVector).1
      after.remote = tunnel.connection.remote ∧ after.seenSeqno = tunnel.connection.seenSeqno ∧
        after.seenTimestamp = tunnel.connection.seenTimestamp := by
    intro inner initialVector
    unfold openvpnProcessOut
    split_ifs
    · exact ⟨rfl, rfl, rfl⟩
    · exact ⟨rfl, rfl, rfl⟩
  cases event with
  | handleUdp datagram => exact absurd rfl (sending datagram)
  | processOut inner initialVector =>
      obtain ⟨remote, seqno, timestamp⟩ := out inner initialVector
      exact ⟨remote, seqno, timestamp, rfl, rfl⟩
  | txstart inner initialVector =>
      rw [step, openvpnTxstart]
      split_ifs
      · exact ⟨rfl, rfl, rfl, rfl, rfl⟩
      · obtain ⟨remote, seqno, timestamp⟩ := out inner initialVector
        exact ⟨remote, seqno, timestamp, rfl, rfl⟩

/-- The order of the packet ids: by timestamp, then by sequence number. -/
def PacketId.Below (first second : PacketId) : Prop :=
  first.timestamp < second.timestamp ∨
    first.timestamp = second.timestamp ∧ first.seqno < second.seqno

theorem PacketId.Below.trans {first second third : PacketId} (lower : first.Below second)
    (upper : second.Below third) : first.Below third := by
  unfold PacketId.Below at *
  simp only [UInt32.lt_iff_toNat_lt, ← UInt32.toNat_inj] at *
  omega

theorem PacketId.Below.ne {first second : PacketId} (below : first.Below second) :
    first ≠ second := by
  rintro rfl
  unfold PacketId.Below at below
  simp only [UInt32.lt_iff_toNat_lt] at below
  omega

/-- No authenticated datagram has an older timestamp together with a higher sequence number than
the datagram accepted last. -/
def InOrder (setup : Setup) (tunnel : Tunnel) : Event → Prop
  | .handleUdp datagram =>
      openvpnHmacVerify setup.crypto datagram.appdata datagram.uipLen = true →
        ¬ ((datagram.id setup).timestamp < tunnel.connection.seenTimestamp ∧
          tunnel.connection.seenSeqno < (datagram.id setup).seqno)
  | _ => True

/-- The ids accepted so far, the last one first, are descending, and the first one is the pair
that was seen. -/
structure Descending (tunnel : Tunnel) : Prop where
  descending : tunnel.accepted.Pairwise fun later earlier => earlier.Below later
  seen : ∀ id ∈ tunnel.accepted.head?,
    id = ⟨tunnel.connection.seenTimestamp, tunnel.connection.seenSeqno⟩

theorem Descending.below_of_above {tunnel : Tunnel} (descending : Descending tunnel) {id : PacketId}
    (above : PacketId.Below ⟨tunnel.connection.seenTimestamp, tunnel.connection.seenSeqno⟩ id) :
    ∀ earlier ∈ tunnel.accepted, earlier.Below id := by
  cases accepted : tunnel.accepted with
  | nil => simp
  | cons head rest =>
      have seen := descending.seen head (by rw [accepted]; rfl)
      have order := descending.descending
      rw [accepted, List.pairwise_cons] at order
      intro earlier member
      rw [← seen] at above
      rcases List.mem_cons.1 member with rfl | behind
      · exact above
      · exact (order.1 earlier behind).trans above

theorem Descending.receive {setup : Setup} {tunnel : Tunnel} (descending : Descending tunnel)
    {datagram : Datagram} (inOrder : InOrder setup tunnel (.handleUdp datagram)) :
    Descending (tunnel.receive setup datagram) := by
  by_cases handled : Handled setup tunnel.connection datagram
  · by_cases verified : Verified setup tunnel.connection datagram
    · rw [receive_verified handled verified]
      have above : PacketId.Below ⟨tunnel.connection.seenTimestamp, tunnel.connection.seenSeqno⟩
          (datagram.id setup) := by
        have order := inOrder verified.1
        have fresh := verified.2
        unfold PacketId.Below
        simp only [UInt32.lt_iff_toNat_lt, UInt32.le_iff_toNat_le, ← UInt32.toNat_inj] at *
        omega
      refine ⟨List.pairwise_cons.2 ⟨descending.below_of_above above, descending.descending⟩, ?_⟩
      intro id member
      exact (Option.some.inj member).symm
    · rw [receive_rejected handled verified]
      exact ⟨descending.descending, descending.seen⟩
  · rw [receive_unhandled handled]
    exact descending

theorem Descending.step {setup : Setup} {tunnel : Tunnel} (descending : Descending tunnel)
    (event : Event) (inOrder : InOrder setup tunnel event) :
    Descending (step setup tunnel event) := by
  by_cases sending : ∀ datagram, event ≠ .handleUdp datagram
  · obtain ⟨-, seqno, timestamp, -, accepted⟩ := send_kept setup tunnel event sending
    refine ⟨by rw [accepted]; exact descending.descending, ?_⟩
    rw [accepted, seqno, timestamp]
    exact descending.seen
  · simp only [not_forall, not_not] at sending
    obtain ⟨datagram, rfl⟩ := sending
    exact descending.receive inOrder

theorem descending_start (setup : Setup) (remote : Endpoint) : Descending (setup.start remote) :=
  ⟨List.Pairwise.nil, by simp [Setup.start]⟩

/-- No id is accepted twice in a run without an authenticated datagram of older timestamp and
higher sequence number. -/
theorem accepted_nodup_of_guarded_run (setup : Setup) (remote : Endpoint) (events : List Event)
    (guarded : Guarded (tunnelStep setup) (InOrder setup) (setup.start remote) events) :
    (tunnelAfter setup remote events).accepted.Nodup := by
  have descending : Descending (tunnelAfter setup remote events) := by
    refine guarded.invariant ?_ (descending_start setup remote) (run_tunnelStep setup remote events)
    intro tunnel event next descending inOrder stepped
    cases Option.some.inj stepped
    exact descending.step event inOrder
  exact descending.descending.imp fun below same => below.ne same.symm

instance (setup : Setup) (tunnel : Tunnel) : ∀ event, Decidable (InOrder setup tunnel event)
  | .handleUdp _ => inferInstanceAs (Decidable (_ → ¬ (_ ∧ _)))
  | .processOut _ _ => isTrue trivial
  | .txstart _ _ => isTrue trivial

/-- A function with the results in a table. -/
def tabulated (table : List (List UInt8 × List UInt8)) (input : List UInt8) : List UInt8 :=
  ((table.find? fun entry => entry.1 == input).map Prod.snd).getD []

/-- A datagram with a zero key: the hash, an initial vector of ones and one encrypted block. -/
def sampleDatagram (source : Endpoint) (hash block : List UInt8) : Datagram where
  newdata := true
  source := source
  appdata := fun position => (hash ++ List.replicate 8 1 ++ block).getD position 0
  uipLen := 32

def newerBlock : List UInt8 := [0x55, 0xee, 0x7e, 0x66, 0xaa, 0x6b, 0xeb, 0x18]

def olderBlock : List UInt8 := [0xce, 0xc9, 0x73, 0xe5, 0x33, 0xc9, 0xef, 0x36]

def newerHash : List UInt8 :=
  [0x2d, 0x06, 0xa9, 0xb9, 0xb1, 0x01, 0x88, 0xa2, 0xd5, 0xa9, 0xd0, 0x90, 0x66, 0xa1, 0x04, 0x5e]

def olderHash : List UInt8 :=
  [0x68, 0xde, 0xcf, 0xc4, 0x65, 0xd5, 0xbe, 0x02, 0x9a, 0x41, 0x5d, 0xcc, 0x84, 0x21, 0x0c, 0x2e]

def newerInner : List UInt8 :=
  [0xcd, 0x1d, 0xb8, 0xef, 0xee, 0x06, 0x71, 0x8e, 0xce, 0x36, 0x10, 0xc3, 0x56, 0x86, 0x2a, 0xc4]

def olderInner : List UInt8 :=
  [0x52, 0x26, 0xc6, 0xd9, 0x37, 0x68, 0x64, 0xe8, 0x11, 0x1d, 0x19, 0xd6, 0xc0, 0x0a, 0xf1, 0x20]

def forgedInner : List UInt8 :=
  [0x98, 0xa0, 0xba, 0xa4, 0xe9, 0x1b, 0x52, 0xa0, 0xee, 0xd4, 0xa4, 0xe8, 0x88, 0x7c, 0x29, 0x33]

def forgedHash : List UInt8 :=
  [0xd8, 0xf0, 0xed, 0xa7, 0xa0, 0x01, 0x92, 0x09, 0x1a, 0xd8, 0xfe, 0xfa, 0x50, 0x17, 0x53, 0xae]

/-- MD5 and CAST5 with keys of zeros, as far as the sample datagrams need them. -/
def sampleSetup : Setup where
  crypto :=
    { md5 := tabulated
        [(List.replicate 64 0x36 ++ (List.replicate 8 1 ++ newerBlock), newerInner),
          (List.replicate 64 0x5c ++ newerInner, newerHash),
          (List.replicate 64 0x36 ++ (List.replicate 8 1 ++ olderBlock), olderInner),
          (List.replicate 64 0x5c ++ olderInner, olderHash),
          (List.replicate 64 0x36 ++ List.replicate 16 0, forgedInner),
          (List.replicate 64 0x5c ++ forgedInner, forgedHash)]
      hmacKey := List.replicate 16 0
      cast5Dec := tabulated
        [(newerBlock, [0x01, 0x01, 0x01, 0x00, 0x01, 0x01, 0x01, 0x03]),
          (olderBlock, [0x01, 0x01, 0x01, 0x04, 0x01, 0x01, 0x01, 0x00])]
      cast5Enc := tabulated
        [([0x01, 0x01, 0x01, 0x00, 0x01, 0x01, 0x01, 0x03], newerBlock),
          ([0x01, 0x01, 0x01, 0x04, 0x01, 0x01, 0x01, 0x00], olderBlock)] }
  openvpnPort := 1194
  inTunnel := fun address => address.head? == some 10

def listener : Endpoint := ⟨[255, 255, 255, 255], 0⟩

def sampleSource : Endpoint := ⟨[192, 168, 0, 2], 1194⟩

/-- The sequence number 1 with the timestamp 2. -/
def newerDatagram : Datagram := sampleDatagram sampleSource newerHash newerBlock

/-- The sequence number 5 with the timestamp 1. -/
def olderDatagram : Datagram := sampleDatagram sampleSource olderHash olderBlock

theorem accepted_nodup_repeated :
    Guarded (tunnelStep sampleSetup) (InOrder sampleSetup) (sampleSetup.start listener)
        [.handleUdp newerDatagram, .handleUdp newerDatagram] ∧
      (tunnelAfter sampleSetup listener
        [.handleUdp newerDatagram, .handleUdp newerDatagram]).accepted.Nodup := by
  have guarded : Guarded (tunnelStep sampleSetup) (InOrder sampleSetup) (sampleSetup.start listener)
      [.handleUdp newerDatagram, .handleUdp newerDatagram] := by
    decide +kernel
  exact ⟨guarded, accepted_nodup_of_guarded_run sampleSetup listener _ guarded⟩

/-- A datagram of an older timestamp and a higher sequence number makes the first one new again. -/
theorem older_datagram_allows_replay :
    (tunnelAfter sampleSetup listener [.handleUdp newerDatagram, .handleUdp olderDatagram,
      .handleUdp newerDatagram]).accepted = [⟨2, 1⟩, ⟨1, 5⟩, ⟨2, 1⟩] ∧
    ¬ (tunnelAfter sampleSetup listener [.handleUdp newerDatagram, .handleUdp olderDatagram,
      .handleUdp newerDatagram]).accepted.Nodup := by
  decide +kernel

/-- The remote end is the peer, and everything was sent to the peer of its time. -/
structure PeerBound (tunnel : Tunnel) : Prop where
  remote : tunnel.connection.remote = tunnel.peer
  sent : ∀ entry ∈ tunnel.sent, entry.1.destination = entry.2

/-- A datagram that is not verified leaves the connection as it is. -/
def Undisturbed (setup : Setup) (tunnel : Tunnel) (event : Event) : Prop :=
  ∀ datagram, event = .handleUdp datagram → ¬ Verified setup tunnel.connection datagram →
    (step setup tunnel event).connection = tunnel.connection

/-- In every state of the run the remote end is the configured one or the source of the last
verified datagram, and no other datagram changes the connection. -/
def BindsPeer (setup : Setup) (remote : Endpoint) (events : List Event) : Prop :=
  ∀ before after, events = before ++ after →
    PeerBound (tunnelAfter setup remote before) ∧
      ∀ event ∈ after.head?, Undisturbed setup (tunnelAfter setup remote before) event

/-- A datagram that is not verified comes from the remote end of the connection. -/
def FromRemote (setup : Setup) (tunnel : Tunnel) : Event → Prop
  | .handleUdp datagram =>
      Handled setup tunnel.connection datagram → ¬ Verified setup tunnel.connection datagram →
        datagram.source = tunnel.connection.remote
  | _ => True

theorem undisturbed_iff_fromRemote (setup : Setup) (tunnel : Tunnel) (event : Event) :
    Undisturbed setup tunnel event ↔ FromRemote setup tunnel event := by
  cases event with
  | handleUdp datagram =>
      constructor
      · intro undisturbed handled rejected
        have same := undisturbed datagram rfl rejected
        rw [step, receive_rejected handled rejected] at same
        exact congrArg Connection.remote same
      · rintro fromRemote other sameEvent rejected
        cases sameEvent
        by_cases handled : Handled setup tunnel.connection datagram
        · rw [step, receive_rejected handled rejected, fromRemote handled rejected]
          rfl
        · rw [step, receive_unhandled handled]
  | processOut inner initialVector =>
      exact ⟨fun _ => trivial, fun _ datagram other => by cases other⟩
  | txstart inner initialVector =>
      exact ⟨fun _ => trivial, fun _ datagram other => by cases other⟩

theorem PeerBound.send {tunnel : Tunnel} (bound : PeerBound tunnel)
    {result : Connection × Option Transmission} (same : result.1.remote = tunnel.connection.remote)
    (destination : ∀ transmission ∈ result.2, transmission.destination = tunnel.connection.remote) :
    PeerBound (tunnel.send result) := by
  refine ⟨same.trans bound.remote, fun entry member => ?_⟩
  rcases List.mem_append.1 member with new | old
  · obtain ⟨transmission, sent, rfl⟩ := List.mem_map.1 new
    exact (destination transmission (Option.mem_toList.1 sent)).trans bound.remote
  · exact bound.sent entry old

theorem PeerBound.processOut {tunnel : Tunnel} (bound : PeerBound tunnel) (setup : Setup)
    (inner initialVector : List UInt8) :
    PeerBound (tunnel.send (openvpnProcessOut setup.crypto setup.inTunnel tunnel.connection inner
      initialVector)) := by
  apply bound.send
  · unfold openvpnProcessOut
    split_ifs <;> rfl
  · unfold openvpnProcessOut
    split_ifs
    · simp
    · rintro transmission member
      cases Option.some.inj member
      rfl

theorem PeerBound.step {setup : Setup} {tunnel : Tunnel} (bound : PeerBound tunnel) (event : Event)
    (fromRemote : FromRemote setup tunnel event) : PeerBound (step setup tunnel event) := by
  cases event with
  | handleUdp datagram =>
      by_cases handled : Handled setup tunnel.connection datagram
      · by_cases verified : Verified setup tunnel.connection datagram
        · rw [Openvpn.step, receive_verified handled verified]
          exact ⟨rfl, bound.sent⟩
        · rw [Openvpn.step, receive_rejected handled verified]
          exact ⟨(fromRemote handled verified).trans bound.remote, bound.sent⟩
      · rw [Openvpn.step, receive_unhandled handled]
        exact bound
  | processOut inner initialVector => exact bound.processOut setup inner initialVector
  | txstart inner initialVector =>
      rw [Openvpn.step, openvpnTxstart]
      split_ifs
      · exact bound.send rfl (by simp)
      · exact bound.processOut setup inner initialVector

theorem peerBound_start (setup : Setup) (remote : Endpoint) : PeerBound (setup.start remote) :=
  ⟨rfl, by simp [Setup.start]⟩

/-- The peer is bound in a run exactly when no unverified datagram comes from somewhere else than
the remote end the connection has at that time. -/
theorem bindsPeer_iff (setup : Setup) (remote : Endpoint) (events : List Event) :
    BindsPeer setup remote events ↔
      Guarded (tunnelStep setup) (FromRemote setup) (setup.start remote) events := by
  rw [guarded_total_iff]
  constructor
  · intro binds before event after split
    rw [← undisturbed_iff_fromRemote]
    exact (binds before (event :: after) split).2 event rfl
  · intro fromRemote before after split
    constructor
    · have guarded : Guarded (tunnelStep setup) (FromRemote setup) (setup.start remote) before := by
        refine guarded_total_iff.2 fun first event rest inside => fromRemote first event
          (rest ++ after) ?_
        rw [split, inside, List.append_assoc, List.cons_append]
      refine guarded.invariant ?_ (peerBound_start setup remote)
        (run_tunnelStep setup remote before)
      intro tunnel event next bound allowed stepped
      cases Option.some.inj stepped
      exact bound.step event allowed
    · intro event first
      cases after with
      | nil => cases first
      | cons head rest =>
          cases Option.some.inj first
          exact (undisturbed_iff_fromRemote _ _ _).2 (fromRemote before event rest split)

/-- A datagram without a right hash. -/
def forgedDatagram : Datagram where
  newdata := true
  source := ⟨[203, 0, 113, 66], 4711⟩
  appdata := fun _ => 0
  uipLen := 32

/-- One forged datagram turns the tunnel to its sender. -/
theorem forged_datagram_not_bindsPeer :
    ¬ BindsPeer sampleSetup listener [.handleUdp forgedDatagram, .txstart [0x45] []] := by
  intro binds
  have bound := (binds [.handleUdp forgedDatagram] [.txstart [0x45] []] rfl).1.remote
  have remote : (tunnelAfter sampleSetup listener [.handleUdp forgedDatagram]).connection.remote ≠
      (tunnelAfter sampleSetup listener [.handleUdp forgedDatagram]).peer := by
    decide +kernel
  exact remote bound

end Ethersex.Openvpn

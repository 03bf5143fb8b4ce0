import Ethersex.UipArp

/-!
# Hosts that resolve their addresses

The hosts of a local network send packets and requests, and any of them may get
any frame at any later time.  Their tables never hold a wrong address, so that
every packet goes to the host that has the address of its next hop.
-/

namespace Ethersex.UipArp

variable {Index : Type*} [DecidableEq Index]

/-- The hosts, and the hardware address behind each address; no two hosts answer requests for
the same address, unless as one. -/
structure Lan (Index : Type*) where
  host : Index → Host
  owner : IpAddr → EthAddr
  answers : ∀ index ip, (host index).Answers ip → owner ip = (host index).ethaddr

/-- The tables of the hosts, and every frame that was sent, with its sender. -/
structure LanState (Index : Type*) where
  arp : Index → Arp
  wire : List (Index × Frame)

inductive LanEvent (Index : Type*) where
  | timer (index : Index)
  | receive (index : Index) (at_ : Nat)
  | send (index : Index) (packet : IpPacket)

/-- What a host does with a frame. -/
def Lan.input (lan : Lan Index) (index : Index) (arp : Arp) : Frame → Arp × Option ArpHdr
  | .arp hdr => uipArpArpin (lan.host index) arp hdr
  | .ip _ src packet => (uipArpIpin (lan.host index) arp src packet, none)

def lanStep (lan : Lan Index) (state : LanState Index) : LanEvent Index → Option (LanState Index)
  | .timer index =>
      some { state with arp := Function.update state.arp index (uipArpTimer (state.arp index)) }
  | .receive index at_ =>
      state.wire[at_]?.map fun sent =>
        let result := lan.input index (state.arp index) sent.2
        { arp := Function.update state.arp index result.1
          wire := state.wire ++ (result.2.map fun hdr => (index, Frame.arp hdr)).toList }
  | .send index packet =>
      some { state with
        wire := state.wire ++ [(index, uipArpOut (lan.host index) (state.arp index) packet)] }

/-- A packet whose source belongs to the network of one of the hosts is sent by the host that
has this address. -/
def HonestSource (lan : Lan Index) (_ : LanState Index) : LanEvent Index → Prop
  | .send index packet => ∀ other,
      maskcmp packet.srcipaddr (lan.host other).hostaddr (lan.host other).netmask →
        lan.owner packet.srcipaddr = (lan.host index).ethaddr
  | _ => True

/-- The hardware address in the header of a packet. -/
def Lan.Addressed (lan : Lan Index) (index : Index) (dest : EthAddr) (ip : IpAddr) : Prop :=
  if ip.Multicast then dest = ip.multicastEthaddr
  else if (lan.host index).Broadcast ip then dest = broadcastEthaddr
  else (lan.host index).nextHop ip ≠ noAddress → dest = lan.owner ((lan.host index).nextHop ip)

/-- What a frame says is true. -/
def Lan.Truthful (lan : Lan Index) (index : Index) : Frame → Prop
  | .arp hdr => hdr.shwaddr = lan.owner hdr.sipaddr
  | .ip dest src packet =>
      (∀ other, maskcmp packet.srcipaddr (lan.host other).hostaddr (lan.host other).netmask →
        src = lan.owner packet.srcipaddr) ∧ lan.Addressed index dest packet.destipaddr

def Lan.Holds (lan : Lan Index) (arp : Arp) : Prop :=
  ∀ entry ∈ arp.table, entry.ipaddr ≠ noAddress → entry.ethaddr = lan.owner entry.ipaddr

structure Resolved (lan : Lan Index) (state : LanState Index) : Prop where
  tables : ∀ index, lan.Holds (state.arp index)
  frames : ∀ sent ∈ state.wire, lan.Truthful sent.1 sent.2

variable {lan : Lan Index} {state : LanState Index} {arp : Arp} {index : Index}

omit [DecidableEq Index] in
theorem Lan.Holds.update (holds : lan.Holds arp) {ip : IpAddr} {ethaddr : EthAddr}
    (true_ : ethaddr = lan.owner ip) : lan.Holds (uipArpUpdate arp ip ethaddr) := by
  intro entry member kept
  rcases mem_update member with old | ⟨ipaddr, same⟩
  · exact holds entry old kept
  · rw [same, ipaddr]
    exact true_

omit [DecidableEq Index] in
theorem Lan.Holds.timer (holds : lan.Holds arp) : lan.Holds (uipArpTimer arp) :=
  fun entry member kept => holds entry (mem_timer member kept) kept

omit [DecidableEq Index] in
theorem Lan.Holds.arpin (holds : lan.Holds arp) {hdr : ArpHdr}
    (true_ : hdr.shwaddr = lan.owner hdr.sipaddr) (index : Index) :
    lan.Holds (uipArpArpin (lan.host index) arp hdr).1 ∧
      ∀ reply, (uipArpArpin (lan.host index) arp hdr).2 = some reply →
        reply.shwaddr = lan.owner reply.sipaddr := by
  rw [uipArpArpin]
  split_ifs with short request answers reply own
  · exact ⟨holds, by rintro reply ⟨⟩⟩
  · refine ⟨holds.update true_, ?_⟩
    rintro reply ⟨⟩
    exact (lan.answers index _ answers).symm
  · exact ⟨holds, by rintro reply ⟨⟩⟩
  · exact ⟨holds.update true_, by rintro reply ⟨⟩⟩
  · exact ⟨holds, by rintro reply ⟨⟩⟩
  · exact ⟨holds, by rintro reply ⟨⟩⟩

omit [DecidableEq Index] in
theorem Lan.Holds.lookup (holds : lan.Holds arp) {ip : IpAddr} {entry : ArpEntry}
    (found : uipArpLookup arp ip = some entry) (set_ : ip ≠ noAddress) :
    entry.ethaddr = lan.owner ip := by
  rw [uipArpLookup] at found
  have same : ip = entry.ipaddr := by simpa using List.find?_some found
  rw [same] at set_ ⊢
  exact holds entry (List.mem_of_find?_eq_some found) set_

omit [DecidableEq Index] in
theorem Lan.Holds.out (holds : lan.Holds arp) {packet : IpPacket}
    (source : ∀ other,
      maskcmp packet.srcipaddr (lan.host other).hostaddr (lan.host other).netmask →
        lan.owner packet.srcipaddr = (lan.host index).ethaddr) :
    lan.Truthful index (uipArpOut (lan.host index) arp packet) := by
  have honest (other : Index)
      (local_ : maskcmp packet.srcipaddr (lan.host other).hostaddr (lan.host other).netmask) :
      (lan.host index).ethaddr = lan.owner packet.srcipaddr := (source other local_).symm
  rw [uipArpOut]
  by_cases multicast : packet.destipaddr.Multicast
  · rw [if_pos multicast]
    refine ⟨honest, ?_⟩
    rw [Lan.Addressed, if_pos multicast]
  by_cases broadcast : (lan.host index).Broadcast packet.destipaddr
  · rw [if_neg multicast, if_pos broadcast]
    refine ⟨honest, ?_⟩
    rw [Lan.Addressed, if_neg multicast, if_pos broadcast]
  rw [if_neg multicast, if_neg broadcast]
  cases found : uipArpLookup arp ((lan.host index).nextHop packet.destipaddr) with
  | none => exact (lan.answers index _ (Or.inl rfl)).symm
  | some entry =>
      refine ⟨honest, ?_⟩
      rw [Lan.Addressed, if_neg multicast, if_neg broadcast]
      exact holds.lookup found

theorem Resolved.update (resolved : Resolved lan state) (holds : lan.Holds arp) (other : Index) :
    lan.Holds (Function.update state.arp index arp other) := by
  by_cases same : other = index
  · rw [same, Function.update_self]
    exact holds
  · rw [Function.update_of_ne same]
    exact resolved.tables other

/-- Every step keeps the tables and the frames true. -/
theorem Resolved.step (resolved : Resolved lan state) {event : LanEvent Index}
    (honest : HonestSource lan state event) {next : LanState Index}
    (stepped : lanStep lan state event = some next) : Resolved lan next := by
  cases event with
  | timer index =>
      cases stepped
      exact ⟨resolved.update (resolved.tables index).timer, resolved.frames⟩
  | send index packet =>
      cases stepped
      refine ⟨resolved.tables, ?_⟩
      intro sent member
      rcases List.mem_append.mp member with earlier | last
      · exact resolved.frames sent earlier
      · rw [List.mem_singleton.mp last]
        exact (resolved.tables index).out honest
  | receive index at_ =>
      rw [lanStep, Option.map_eq_some_iff] at stepped
      obtain ⟨⟨sender, frame⟩, found, rfl⟩ := stepped
      have true_ := resolved.frames _ (List.mem_of_getElem? found)
      cases frame with
      | ip dest src packet =>
          refine ⟨resolved.update ?_, ?_⟩
          · dsimp only [Lan.input]
            rw [uipArpIpin]
            split_ifs with local_
            · exact (resolved.tables index).update (true_.1 index local_)
            · exact resolved.tables index
          · intro sent member
            exact resolved.frames sent (by simpa [Lan.input] using member)
      | arp hdr =>
          obtain ⟨holds, replies⟩ := (resolved.tables index).arpin true_ index
          refine ⟨resolved.update holds, ?_⟩
          intro sent member
          rcases List.mem_append.mp member with earlier | last
          · exact resolved.frames sent earlier
          · obtain ⟨reply, leaves, rfl⟩ := Option.map_eq_some_iff.mp (Option.mem_toList.mp last)
            exact replies reply leaves

/-- In every run of the network, every entry of every table is true, and every packet is sent to
the hardware address of its next hop. -/
theorem packets_addressed (lan : Lan Index) (start state : LanState Index)
    (init : ∀ index, ∃ memory, start.arp index = uipArpInit memory) (silent : start.wire = [])
    (events : List (LanEvent Index))
    (honest : GuardedRuns.Guarded (lanStep lan) (HonestSource lan) start events)
    (reached : GuardedRuns.run (lanStep lan) start events = some state) :
    (∀ index, ∀ entry ∈ (state.arp index).table, entry.ipaddr ≠ noAddress →
        entry.ethaddr = lan.owner entry.ipaddr) ∧
      ∀ index dest src packet, (index, Frame.ip dest src packet) ∈ state.wire →
        lan.Addressed index dest packet.destipaddr := by
  have initial : Resolved lan start := by
    refine ⟨fun index entry member kept => ?_, ?_⟩
    · obtain ⟨memory, same⟩ := init index
      rw [same] at member
      obtain ⟨before, -, rfl⟩ := List.mem_map.mp member
      exact absurd rfl kept
    · rw [silent]
      exact List.forall_mem_nil _
  have resolved := honest.invariant
    (fun _ _ _ before allowed stepped => before.step allowed stepped)
    initial reached
  exact ⟨resolved.tables, fun index dest src packet member =>
    (resolved.frames (index, Frame.ip dest src packet) member).2⟩

/-- A host that does not know the address of its next hop asks; the host that has the address
answers and knows the asking one from then on; and with the answer, whatever has happened to
the table meanwhile, the packet can be sent to it. -/
theorem request_resolves (asking asked : Host) (before at_ after : Arp) (packet : IpPacket)
    (unicast : ¬packet.destipaddr.Multicast ∧ ¬asking.Broadcast packet.destipaddr)
    (unknown : uipArpLookup before (asking.nextHop packet.destipaddr) = none)
    (has : asking.nextHop packet.destipaddr = asked.hostaddr)
    (inUse : asked.hostaddr.InUse ∧ asking.hostaddr.InUse)
    (filled : at_.table ≠ [] ∧ after.table ≠ []) :
    ∃ request reply entry,
      uipArpOut asking before packet = .arp request ∧
      (uipArpArpin asked at_ request).2 = some reply ∧
      uipArpLookup (uipArpArpin asked at_ request).1 asking.hostaddr = some entry ∧
      entry.ethaddr = asking.ethaddr ∧
      uipArpOut asking (uipArpArpin asking after reply).1 packet =
        .ip asked.ethaddr asking.ethaddr packet := by
  have answers : asked.Answers (asking.nextHop packet.destipaddr) := Or.inl has
  have asks : uipArpOut asking before packet =
      .arp (asking.request (asking.nextHop packet.destipaddr)) := by
    rw [uipArpOut, if_neg unicast.1, if_neg unicast.2, unknown]
  generalize asked_ : asking.request (asking.nextHop packet.destipaddr) = request at asks
  have dipaddr : request.dipaddr = asking.nextHop packet.destipaddr := by
    rw [← asked_]
    rfl
  have sender : request.sipaddr = asking.hostaddr ∧ request.shwaddr = asking.ethaddr := by
    rw [← asked_]
    exact ⟨rfl, rfl⟩
  have answered : uipArpArpin asked at_ request =
      (uipArpUpdate at_ asking.hostaddr asking.ethaddr, some (asked.reply request)) := by
    rw [uipArpArpin, if_neg, if_pos, if_pos, sender.1, sender.2]
    · rw [dipaddr]
      exact answers
    · rw [← asked_]
      rfl
    · rw [← asked_]
      exact Nat.lt_irrefl _
  have learned : uipArpArpin asking after (asked.reply request) =
      (uipArpUpdate after (asking.nextHop packet.destipaddr) asked.ethaddr, none) := by
    rw [uipArpArpin, if_neg, if_neg, if_pos, if_pos, ← dipaddr]
    · rfl
    · exact sender.1
    · rfl
    · exact (by decide : ¬arpReply = arpRequest)
    · exact Nat.lt_irrefl arpHdrSize
  refine ⟨request, asked.reply request, ⟨asking.hostaddr, asking.ethaddr, at_.arptime⟩, asks,
    ?_, ?_, rfl, ?_⟩
  · rw [answered]
  · rw [answered]
    exact lookup_update filled.1 inUse.2 _
  · rw [learned, uipArpOut, if_neg unicast.1, if_neg unicast.2,
      lookup_update filled.2 (has ▸ inUse.1)]

/-- The hosts 10.0.0.1 and 10.0.0.2 of the network 10.0.0.0/24. -/
def sampleHost (index : Bool) : Host where
  hostaddr := ⟨10, 0, 0, if index then 1 else 2⟩
  netmask := ⟨255, 255, 255, 0⟩
  draddr := ⟨10, 0, 0, 2⟩
  ethaddr := ⟨2, 0, 0, 0, 0, if index then 1 else 2⟩
  proxies := []

def sampleLan : Lan Bool where
  host := sampleHost
  owner := fun ip => ⟨2, 0, 0, 0, 0, ip.b3⟩
  answers := by
    rintro index ip (own | ⟨proxy, member, -⟩)
    · rw [own]
      cases index <;> rfl
    · cases member

def sampleTable : Arp := uipArpInit ⟨List.replicate 2 ⟨noAddress, noEthaddr, 0⟩, 0⟩

def samplePacket : IpPacket := ⟨⟨10, 0, 0, 1⟩, ⟨10, 0, 0, 2⟩, []⟩

/-- A packet that is replaced by a request, the answer, and the packet once more. -/
def sampleEvents : List (LanEvent Bool) :=
  [.send true samplePacket, .receive false 0, .timer true, .receive true 1,
    .send true samplePacket]

instance (event : LanEvent Bool) (state : LanState Bool) :
    Decidable (HonestSource sampleLan state event) := by
  cases event with
  | send index packet =>
      exact inferInstanceAs (Decidable (∀ other,
        maskcmp packet.srcipaddr (sampleLan.host other).hostaddr (sampleLan.host other).netmask →
          sampleLan.owner packet.srcipaddr = (sampleLan.host index).ethaddr))
  | timer index => exact inferInstanceAs (Decidable True)
  | receive index at_ => exact inferInstanceAs (Decidable True)

theorem sampleEvents_honest : GuardedRuns.Guarded (lanStep sampleLan) (HonestSource sampleLan)
    ⟨fun _ => sampleTable, []⟩ sampleEvents := by decide

theorem packets_addressed_sample :
    ∃ state, GuardedRuns.run (lanStep sampleLan) ⟨fun _ => sampleTable, []⟩ sampleEvents =
        some state ∧ state.wire.length = 3 ∧
      ∀ index dest src packet, (index, Frame.ip dest src packet) ∈ state.wire →
        sampleLan.Addressed index dest packet.destipaddr :=
  ⟨_, rfl, rfl, (packets_addressed sampleLan ⟨fun _ => sampleTable, []⟩ _
    (fun _ => ⟨_, rfl⟩) rfl sampleEvents sampleEvents_honest rfl).2⟩

theorem request_resolves_sample :
    ∃ request reply entry,
      uipArpOut (sampleHost true) sampleTable samplePacket = .arp request ∧
      (uipArpArpin (sampleHost false) sampleTable request).2 = some reply ∧
      uipArpLookup (uipArpArpin (sampleHost false) sampleTable request).1 ⟨10, 0, 0, 1⟩ =
        some entry ∧
      entry.ethaddr = (sampleHost true).ethaddr ∧
      uipArpOut (sampleHost true) (uipArpArpin (sampleHost true) sampleTable reply).1 samplePacket =
        .ip (sampleHost false).ethaddr (sampleHost true).ethaddr samplePacket :=
  request_resolves (sampleHost true) (sampleHost false) sampleTable sampleTable sampleTable
    samplePacket (by decide) (by decide) (by decide) (by decide) (by decide)

end Ethersex.UipArp

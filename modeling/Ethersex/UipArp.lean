import Ethersex.GuardedRuns
import Mathlib.Data.UInt

/-!
# The address resolution of uIP

`protocols/uip/uip_arp.c`: the table of hardware addresses, what it learns from
packets that arrive, and the Ethernet header of packets that are sent.
-/

namespace Ethersex.UipArp

/-- The bytes of an address in the order of the network; the source looks at them in two
halves. -/
structure IpAddr where
  b0 : UInt8
  b1 : UInt8
  b2 : UInt8
  b3 : UInt8
deriving DecidableEq, Repr

def noAddress : IpAddr := ⟨0, 0, 0, 0⟩

def broadcastIpaddr : IpAddr := ⟨0xff, 0xff, 0xff, 0xff⟩

structure EthAddr where
  a0 : UInt8
  a1 : UInt8
  a2 : UInt8
  a3 : UInt8
  a4 : UInt8
  a5 : UInt8
deriving DecidableEq, Repr

def noEthaddr : EthAddr := ⟨0, 0, 0, 0, 0, 0⟩

def broadcastEthaddr : EthAddr := ⟨0xff, 0xff, 0xff, 0xff, 0xff, 0xff⟩

def IpAddr.map₂ (op : UInt8 → UInt8 → UInt8) (first second : IpAddr) : IpAddr :=
  ⟨op first.b0 second.b0, op first.b1 second.b1, op first.b2 second.b2, op first.b3 second.b3⟩

/-- `uip_ipaddr_maskcmp`. -/
def maskcmp (first second mask : IpAddr) : Prop :=
  first.map₂ (· &&& ·) mask = second.map₂ (· &&& ·) mask

instance (first second mask : IpAddr) : Decidable (maskcmp first second mask) :=
  inferInstanceAs (Decidable (_ = _))

/-- Both halves of the address are set, so that `uip_arp_update` takes its entry for one in
use. -/
def IpAddr.InUse (ip : IpAddr) : Prop := ¬(ip.b0 = 0 ∧ ip.b1 = 0) ∧ ¬(ip.b2 = 0 ∧ ip.b3 = 0)

instance (ip : IpAddr) : Decidable ip.InUse := inferInstanceAs (Decidable (_ ∧ _))

structure ArpEntry where
  ipaddr : IpAddr
  ethaddr : EthAddr
  time : UInt8
deriving DecidableEq, Repr

structure Arp where
  table : List ArpEntry
  arptime : UInt8
deriving DecidableEq, Repr

def uipArpMaxage : Int := 120

/-- `uip_arp_init`, with the hardware addresses that the memory holds. -/
def uipArpInit (arp : Arp) : Arp :=
  { arp with table := arp.table.map fun entry => { entry with ipaddr := noAddress } }

/-- The difference of the two bytes, which is an `int`. -/
def ArpEntry.age (arptime : UInt8) (entry : ArpEntry) : Int :=
  (arptime.toNat : Int) - (entry.time.toNat : Int)

def ArpEntry.expire (arptime : UInt8) (entry : ArpEntry) : ArpEntry :=
  if entry.ipaddr ≠ noAddress ∧ uipArpMaxage ≤ entry.age arptime then
    { entry with ipaddr := noAddress }
  else entry

/-- `uip_arp_timer`. -/
def uipArpTimer (arp : Arp) : Arp :=
  let arptime := arp.arptime + 1
  ⟨arp.table.map (ArpEntry.expire arptime), arptime⟩

/-- The search for the oldest entry, with `tmpage` and `c`. -/
def oldest (arptime : UInt8) : List ArpEntry → Nat → UInt8 → Nat → Nat
  | [], _, _, c => c
  | entry :: table, i, tmpage, c =>
      if (tmpage.toNat : Int) < entry.age arptime then
        oldest arptime table (i + 1) (arptime - entry.time) i
      else oldest arptime table (i + 1) tmpage c

/-- The entry that a new address takes. -/
def Arp.free (arp : Arp) : Nat :=
  match arp.table.findIdx? fun entry => decide (entry.ipaddr = noAddress) with
  | some i => i
  | none => oldest arp.arptime arp.table 0 0 0

/-- `uip_arp_update`. -/
def uipArpUpdate (arp : Arp) (ip : IpAddr) (ethaddr : EthAddr) : Arp :=
  match arp.table.findIdx? fun entry => decide (entry.ipaddr.InUse ∧ ip = entry.ipaddr) with
  | some i =>
      { arp with
        table := arp.table.modify i fun entry =>
          { entry with ethaddr := ethaddr, time := arp.arptime } }
  | none => { arp with table := arp.table.set arp.free ⟨ip, ethaddr, arp.arptime⟩ }

/-- `uip_arp_lookup`. -/
def uipArpLookup (arp : Arp) (ipaddr : IpAddr) : Option ArpEntry :=
  arp.table.find? fun entry => decide (ipaddr = entry.ipaddr)

/-- The addresses of the host, and the address and netmask of each stack for which it answers
requests as a proxy. -/
structure Host where
  hostaddr : IpAddr
  netmask : IpAddr
  draddr : IpAddr
  ethaddr : EthAddr
  proxies : List (IpAddr × IpAddr)

def arpRequest : UInt16 := 1

def arpReply : UInt16 := 2

/-- `struct arp_hdr` in a packet of length `len`. -/
structure ArpHdr where
  len : Nat
  dest : EthAddr
  src : EthAddr
  hwtype : UInt16
  protocol : UInt16
  hwlen : UInt8
  protolen : UInt8
  opcode : UInt16
  shwaddr : EthAddr
  sipaddr : IpAddr
  dhwaddr : EthAddr
  dipaddr : IpAddr
deriving DecidableEq, Repr

/-- `sizeof(struct arp_hdr)`. -/
def arpHdrSize : Nat := 42

/-- An IP packet that is to be sent: the two addresses and the rest of it. -/
structure IpPacket where
  srcipaddr : IpAddr
  destipaddr : IpAddr
  rest : List UInt8
deriving DecidableEq, Repr

/-- What is on the Ethernet. -/
inductive Frame where
  | arp (hdr : ArpHdr)
  | ip (dest src : EthAddr) (packet : IpPacket)
deriving DecidableEq, Repr

/-- `uip_arp_ipin`. -/
def uipArpIpin (host : Host) (arp : Arp) (src : EthAddr) (packet : IpPacket) : Arp :=
  if maskcmp packet.srcipaddr host.hostaddr host.netmask then
    uipArpUpdate arp packet.srcipaddr src
  else arp

/-- The host answers requests for this address. -/
def Host.Answers (host : Host) (ip : IpAddr) : Prop :=
  ip = host.hostaddr ∨ ∃ proxy ∈ host.proxies, maskcmp ip proxy.1 proxy.2

instance (host : Host) (ip : IpAddr) : Decidable (host.Answers ip) :=
  inferInstanceAs (Decidable (_ ∨ _))

/-- The answer to a request. -/
def Host.reply (host : Host) (hdr : ArpHdr) : ArpHdr :=
  { hdr with
    len := arpHdrSize
    opcode := arpReply
    dhwaddr := hdr.shwaddr
    shwaddr := host.ethaddr
    src := host.ethaddr
    dest := hdr.shwaddr
    dipaddr := hdr.sipaddr
    sipaddr := hdr.dipaddr }

/-- `uip_arp_arpin`, with the packet that is sent. -/
def uipArpArpin (host : Host) (arp : Arp) (hdr : ArpHdr) : Arp × Option ArpHdr :=
  if hdr.len < arpHdrSize then (arp, none)
  else if hdr.opcode = arpRequest then
    if host.Answers hdr.dipaddr then
      (uipArpUpdate arp hdr.sipaddr hdr.shwaddr, some (host.reply hdr))
    else (arp, none)
  else if hdr.opcode = arpReply then
    if hdr.dipaddr = host.hostaddr then (uipArpUpdate arp hdr.sipaddr hdr.shwaddr, none)
    else (arp, none)
  else (arp, none)

def IpAddr.Multicast (ip : IpAddr) : Prop := 224 ≤ ip.b0 ∧ ip.b0 ≤ 239

instance (ip : IpAddr) : Decidable ip.Multicast := inferInstanceAs (Decidable (_ ∧ _))

/-- The address for everybody on the local network. -/
def Host.Broadcast (host : Host) (ip : IpAddr) : Prop :=
  ip = host.hostaddr.map₂ (fun own mask => own ||| ~~~mask) host.netmask ∨ ip = broadcastIpaddr

instance (host : Host) (ip : IpAddr) : Decidable (host.Broadcast ip) :=
  inferInstanceAs (Decidable (_ ∨ _))

/-- The address whose hardware address is needed. -/
def Host.nextHop (host : Host) (ip : IpAddr) : IpAddr :=
  if maskcmp ip host.hostaddr host.netmask then ip else host.draddr

def IpAddr.multicastEthaddr (ip : IpAddr) : EthAddr :=
  ⟨0x01, 0x00, 0x5e, ip.b1 &&& 0x7f, ip.b2, ip.b3⟩

/-- The request that replaces a packet. -/
def Host.request (host : Host) (ipaddr : IpAddr) : ArpHdr where
  len := arpHdrSize
  dest := broadcastEthaddr
  src := host.ethaddr
  hwtype := 1
  protocol := 0x0800
  hwlen := 6
  protolen := 4
  opcode := arpRequest
  shwaddr := host.ethaddr
  sipaddr := host.hostaddr
  dhwaddr := noEthaddr
  dipaddr := ipaddr

/-- `uip_arp_out`. -/
def uipArpOut (host : Host) (arp : Arp) (packet : IpPacket) : Frame :=
  if packet.destipaddr.Multicast then
    .ip packet.destipaddr.multicastEthaddr host.ethaddr packet
  else if host.Broadcast packet.destipaddr then .ip broadcastEthaddr host.ethaddr packet
  else
    match uipArpLookup arp (host.nextHop packet.destipaddr) with
    | none => .arp (host.request (host.nextHop packet.destipaddr))
    | some entry => .ip entry.ethaddr host.ethaddr packet

variable {arp : Arp} {ip : IpAddr} {ethaddr : EthAddr}

/-- The index at which an update writes. -/
def Arp.slot (arp : Arp) (ip : IpAddr) : Nat :=
  match arp.table.findIdx? fun entry => decide (entry.ipaddr.InUse ∧ ip = entry.ipaddr) with
  | some i => i
  | none => arp.free

theorem uipArpUpdate_eq (arp : Arp) (ip : IpAddr) (ethaddr : EthAddr) :
    uipArpUpdate arp ip ethaddr =
      { arp with table := arp.table.set (arp.slot ip) ⟨ip, ethaddr, arp.arptime⟩ } := by
  rw [uipArpUpdate, Arp.slot]
  cases found : arp.table.findIdx? fun entry => decide (entry.ipaddr.InUse ∧ ip = entry.ipaddr) with
  | none => rfl
  | some i =>
      obtain ⟨inside, matched, -⟩ := List.findIdx?_eq_some_iff_getElem.mp found
      have same := (of_decide_eq_true matched).2
      dsimp only
      congr 1
      apply List.ext_getElem?
      intro j
      rw [List.getElem?_modify, List.getElem?_set]
      by_cases here : i = j
      · subst here
        rw [if_pos rfl, if_pos inside, List.getElem?_eq_getElem inside]
        dsimp only [Functor.map, Option.map]
        rw [if_pos rfl, ← same]
      · simp only [if_neg here]
        exact id_map _

theorem oldest_lt (arptime : UInt8) (table : List ArpEntry) (i : Nat) (tmpage : UInt8) {c : Nat}
    (inside : c < i + table.length) : oldest arptime table i tmpage c < i + table.length := by
  induction table generalizing i tmpage c with
  | nil => exact inside
  | cons entry table ih =>
      have length : i + (entry :: table).length = i + 1 + table.length := by
        rw [List.length_cons]
        omega
      rw [length] at inside ⊢
      rw [oldest]
      split_ifs
      · exact ih (i + 1) _ (by omega)
      · exact ih (i + 1) _ inside

theorem slot_lt (filled : arp.table ≠ []) (ip : IpAddr) : arp.slot ip < arp.table.length := by
  have length := List.length_pos_of_ne_nil filled
  rw [Arp.slot]
  cases found : arp.table.findIdx? fun entry => decide (entry.ipaddr.InUse ∧ ip = entry.ipaddr) with
  | some i => exact (List.findIdx?_eq_some_iff_getElem.mp found).1
  | none =>
      dsimp only
      rw [Arp.free]
      cases free : arp.table.findIdx? fun entry => decide (entry.ipaddr = noAddress) with
      | some i => exact (List.findIdx?_eq_some_iff_getElem.mp free).1
      | none =>
          have inside := @oldest_lt arp.arptime arp.table 0 0 0 (by omega)
          rw [Nat.zero_add] at inside
          exact inside

/-- Every entry after an update is an old one, or it is for the new address. -/
theorem mem_update {entry : ArpEntry} (member : entry ∈ (uipArpUpdate arp ip ethaddr).table) :
    entry ∈ arp.table ∨ entry.ipaddr = ip ∧ entry.ethaddr = ethaddr := by
  rw [uipArpUpdate_eq] at member
  rcases List.mem_or_eq_of_mem_set member with old | new
  · exact Or.inl old
  · rw [new]
    exact Or.inr ⟨rfl, rfl⟩

/-- Ageing only empties entries. -/
theorem mem_timer {entry : ArpEntry} (member : entry ∈ (uipArpTimer arp).table)
    (kept : entry.ipaddr ≠ noAddress) : entry ∈ arp.table := by
  obtain ⟨before, old, rfl⟩ := List.mem_map.mp member
  rw [ArpEntry.expire] at kept ⊢
  split_ifs at kept ⊢
  · exact absurd rfl kept
  · exact old

/-- No entry in front of the one that an update writes has the address. -/
theorem before_slot (inUse : ip.InUse) {i : Nat} {entry : ArpEntry}
    (at_ : arp.table[i]? = some entry) (before : i < arp.slot ip) : ip ≠ entry.ipaddr := by
  intro same
  rw [Arp.slot] at before
  have matched : decide (entry.ipaddr.InUse ∧ ip = entry.ipaddr) = true := by
    rw [← same]
    exact decide_eq_true ⟨inUse, rfl⟩
  cases found : arp.table.findIdx? fun entry => decide (entry.ipaddr.InUse ∧ ip = entry.ipaddr) with
  | none =>
      rw [List.findIdx?_eq_none_iff] at found
      have unmatched := found entry (List.mem_of_getElem? at_)
      rw [matched] at unmatched
      cases unmatched
  | some slot =>
      rw [found] at before
      obtain ⟨inside, -, first⟩ := List.findIdx?_eq_some_iff_getElem.mp found
      have unmatched := first i before
      rw [List.getElem?_eq_some_iff] at at_
      obtain ⟨_, at_⟩ := at_
      rw [at_] at unmatched
      exact unmatched matched

/-- After an update the address is found. -/
theorem lookup_update (filled : arp.table ≠ []) (inUse : ip.InUse) (ethaddr : EthAddr) :
    uipArpLookup (uipArpUpdate arp ip ethaddr) ip = some ⟨ip, ethaddr, arp.arptime⟩ := by
  have inside := slot_lt filled ip
  rw [uipArpUpdate_eq, uipArpLookup, List.find?_eq_some_iff_getElem]
  dsimp only
  refine ⟨decide_eq_true rfl, arp.slot ip, ?_, ?_, ?_⟩
  · rw [List.length_set]
    exact inside
  · exact List.getElem_set_self _
  · intro j before
    rw [List.getElem_set_ne (Nat.ne_of_gt before)]
    have at_ : arp.table[j]? = some arp.table[j] := List.getElem?_eq_getElem (before.trans inside)
    rw [decide_eq_false (before_slot inUse at_ before)]
    rfl

/-- The table and the time after some ticks of the timer. -/
theorem timer_arptime (arp : Arp) (ticks : Nat) :
    (uipArpTimer^[ticks] arp).arptime.toNat = (arp.arptime.toNat + ticks) % 256 := by
  induction ticks with
  | zero =>
      have small := arp.arptime.toNat_lt
      exact (Nat.mod_eq_of_lt small).symm
  | succ ticks ih =>
      have one : (1 : UInt8).toNat = 1 := rfl
      rw [Function.iterate_succ_apply', uipArpTimer, UInt8.toNat_add, ih, one]
      omega

/-- An entry is dropped by the timer at the 120th tick after it was written, but only when the
time was at most 135 then: the difference of the two bytes is not taken modulo 256. -/
theorem entry_ages (arp : Arp) (i : Nat) (entry : ArpEntry) (at_ : arp.table[i]? = some entry)
    (set_ : entry.ipaddr ≠ noAddress) (written : entry.time = arp.arptime) (ticks : Nat) :
    (uipArpTimer^[ticks] arp).table[i]? =
      some (if arp.arptime.toNat ≤ 135 ∧ 120 ≤ ticks then { entry with ipaddr := noAddress }
        else entry) := by
  induction ticks with
  | zero =>
      rw [if_neg (fun late => absurd late.2 (by decide))]
      exact at_
  | succ ticks ih =>
      have arptime := timer_arptime arp (ticks + 1)
      rw [Function.iterate_succ_apply'] at arptime ⊢
      generalize uipArpTimer^[ticks] arp = now at ih arptime ⊢
      rw [uipArpTimer, List.getElem?_map, ih, Option.map_some]
      have after : (now.arptime + 1).toNat = (arp.arptime.toNat + (ticks + 1)) % 256 := arptime
      congr 1
      by_cases late : arp.arptime.toNat ≤ 135 ∧ 120 ≤ ticks
      · rw [if_pos late, if_pos ⟨late.1, Nat.le_succ_of_le late.2⟩, ArpEntry.expire, if_neg]
        exact fun kept => kept.1 rfl
      · rw [if_neg late, ArpEntry.expire, ArpEntry.age, uipArpMaxage, after, written]
        refine if_congr ?_ rfl rfl
        have small := arp.arptime.toNat_lt
        constructor
        · rintro ⟨-, old⟩
          omega
        · intro old
          exact ⟨set_, by omega⟩

theorem entry_ages_sample :
    (uipArpTimer^[200] ⟨[⟨⟨10, 0, 0, 1⟩, noEthaddr, 136⟩], 136⟩).table[0]? =
      some ⟨⟨10, 0, 0, 1⟩, noEthaddr, 136⟩ := by
  rw [entry_ages ⟨[⟨⟨10, 0, 0, 1⟩, noEthaddr, 136⟩], 136⟩ 0 ⟨⟨10, 0, 0, 1⟩, noEthaddr, 136⟩ rfl
    (by decide) rfl 200, if_neg]
  decide

end Ethersex.UipArp

import Ethersex.SnmpGrammar

/-!
# The community string of SNMP requests

`snmp_net_main` compares the community octets of a packet with the program memory one by one, and
tests only afterwards that the string in program memory ends there.  So the comparison goes on
behind the end of a string that is shorter than the octets.
-/

namespace Ethersex.Snmp

open ByteMemory

/-- A response is sent, or the first binding passes its checks and is processed. -/
def Serves (agent : Agent) (stack : Nat → Varbinding) (packet : Memory) (uipLen : Nat) : Prop :=
  (snmpNetMain agent stack packet uipLen).isSome ∨
    ∃ header binding, parseHeader agent.community packet uipLen = some header ∧
      0 < header.vbListLen ∧
      parseBinding (readBlock packet (header.vbListHdr + 2) header.vbListLen) 0 header.vbListLen =
        some binding

/-- The octets of the community string in a packet. -/
def communityOctets (packet : Memory) : List UInt8 :=
  readBlock packet 7 (packet 6).toNat

/-- The agent serves requests with the configured community string only. -/
def ChecksCommunity (agent : Agent) (length : Nat) : Prop :=
  ∀ stack packet uipLen, Serves agent stack packet uipLen →
    communityOctets packet = readBlock agent.community 0 length

section Community

variable {agent : Agent} {packet : Memory} {uipLen : Nat}

theorem Asks.communityOctets {community : Memory} {request : Request}
    (asks : Asks community packet uipLen request) :
    communityOctets packet = request.community := by
  have short := asks.short
  have contentLength := request.content_length
  have front := asks.pieces.front
  simp only [readBlock_succ, readBlock_zero, List.cons.injEq, and_true] at front
  have octets : (packet 6).toNat = request.community.length := by
    rw [front.2.2.2.2.2.2, UInt8.toNat_ofNat']
    omega
  rw [Snmp.communityOctets, octets]
  exact asks.pieces.community

/-- A packet that is served is a request. -/
theorem asks_of_serves {stack : Nat → Varbinding} (serves : Serves agent stack packet uipLen) :
    ∃ request, Asks agent.community packet uipLen request := by
  rcases serves with sent | ⟨header, binding, parsed, -, -⟩
  · obtain ⟨request, oids, asksFor, -⟩ := snmpNetMain_isSome_iff.mp sent
    exact ⟨request, asksFor.asks⟩
  · obtain ⟨request, asks, -⟩ := asks_of_parseHeader parsed
    exact ⟨request, asks⟩

end Community

/-- A request without bindings whose community octets are the program memory from the start of the
configured string on. -/
def probe (community : Memory) (count : Nat) : Request where
  community := readBlock community 0 count
  type := typeGetReq
  id := []
  errorStatus := 0
  errorIndex := 0
  list := []

/-- When the program memory has a zero behind the octets of the probe, the probe is a request. -/
theorem asks_probe {community : Memory} {count : Nat} (fits : count ≤ 238)
    (zero : community count = 0) :
    Asks community (requestPacket (probe community count)) (probe community count).bytes.length
      (probe community count) := by
  have length : (probe community count).community.length = count := length_readBlock _ _ _
  have short : (probe community count).content.length < 256 := by
    rw [Request.content_length, length]
    simp only [probe, List.length_nil]
    omega
  have found : Matches community (probe community count).community := by
    rw [Matches, length]
    exact ⟨rfl, zero⟩
  exact ⟨readBlock_requestPacket _, short, Or.inl rfl, Nat.zero_le _, found⟩

/-- It is then answered. -/
theorem probe_served (agent : Agent) (stack : Nat → Varbinding) {count : Nat} (fits : count ≤ 238)
    (zero : agent.community count = 0) :
    Serves agent stack (requestPacket (probe agent.community count))
      (probe agent.community count).bytes.length :=
  Or.inl (snmpNetMain_isSome_iff.mpr
    ⟨probe agent.community count, [], ⟨asks_probe fits zero, rfl⟩, Nat.zero_le _⟩)

/-- An agent whose program memory has a zero behind the configured string serves a request with
other octets. -/
theorem not_checksCommunity {agent : Agent} {length index : Nat} (behind : length < index)
    (reachable : index ≤ 238) (zero : agent.community index = 0) :
    ¬ ChecksCommunity agent length := by
  intro checks
  have octets := checks _ _ _ (probe_served agent (fun _ => ⟨0, []⟩) reachable zero)
  rw [(asks_probe reachable zero).communityOctets] at octets
  have lengths := congrArg List.length octets
  rw [probe, length_readBlock, length_readBlock] at lengths
  omega

/-- The agent serves requests with the configured community string only, exactly if the program
memory behind the string has no zero byte as far as the community octets of a request can reach. -/
theorem checksCommunity_iff {agent : Agent} {length : Nat}
    (configured : Configured agent.community length) :
    ChecksCommunity agent length ↔
      ∀ index, length < index → index ≤ 238 → agent.community index ≠ 0 := by
  constructor
  · intro checks index behind reachable zero
    exact not_checksCommunity behind reachable zero checks
  · intro clear stack packet uipLen serves
    obtain ⟨request, asks⟩ := asks_of_serves serves
    have short := asks.short
    have contentLength := request.content_length
    have enough := asks.community.le_length configured
    rw [asks.communityOctets]
    rcases Nat.lt_or_eq_of_le enough with longer | same
    · exact absurd asks.community.2 (clear _ longer (by omega))
    · rw [same]
      exact asks.community.1.symm

/-- With nothing but erased memory behind the string, the community is checked. -/
theorem checksCommunity_public :
    ChecksCommunity (textAgent []) 6 ↔
      ∀ index, 6 < index → index ≤ 238 → (textAgent []).community index ≠ 0 :=
  checksCommunity_iff (configured_textAgent [])

/-- Behind the string `public` stands a string of one byte. -/
def crowdedAgent : Agent where
  community := fun position => [0x70, 0x75, 0x62, 0x6c, 0x69, 0x63, 0, 0x78, 0].getD position 0xff
  first := (textAgent []).first
  more := (textAgent []).more

/-- The octets `public`, a zero and the byte behind it are taken for the configured string. -/
theorem crowded_not_checked :
    ¬ ∀ agent length, Configured agent.community length → ChecksCommunity agent length := by
  intro claimed
  have configured : Configured crowdedAgent.community 6 := by
    unfold Configured crowdedAgent
    decide
  exact @not_checksCommunity crowdedAgent 6 8 (by decide) (by decide) rfl
    (claimed crowdedAgent 6 configured)

end Ethersex.Snmp

import Ethersex.Base64RoundTrip
import Ethersex.OpenvpnTunnel

/-!
# Encryption and decryption in the tunnel

`openvpn_encrypt` as it works in the packet buffer, and the two carry buffers of
`openvpn_decrypt_and_verify` over a whole packet.
-/

namespace Ethersex.Openvpn

open ByteMemory

/-- The data of the outer packet from `uip_sappdata` on, and its length `uip_slen`. -/
structure Outgoing where
  sappdata : Memory
  slen : UInt16

/-- The loop that pads the packet.  One byte is always added. -/
def padLoop (padChar : UInt8) (outgoing : Outgoing) : Outgoing :=
  let padded : Outgoing :=
    ⟨writeBlock outgoing.sappdata outgoing.slen.toNat [padChar], outgoing.slen + 1⟩
  if padded.slen.toNat % 8 ≠ 0 then padLoop padChar padded else padded
termination_by 8 - outgoing.slen.toNat % 8
decreasing_by
  rename_i more
  rw [UInt16.toNat_add, UInt16.toNat_one] at more ⊢
  omega

/-- A round of the loop that encrypts. -/
def encryptRound (crypto : Crypto) (sappdata : Memory) (ptr : Nat) : Memory :=
  writeBlock sappdata ptr
    (crypto.cast5Enc (xorBytes (readBlock sappdata ptr 8) (readBlock sappdata (ptr - 8) 8)))

/-- The packet before its encryption: padded, with the initial vector and the packet id. -/
def plainPacket (nextSeqno : UInt32) (initialVector : List UInt8) (outgoing : Outgoing) :
    Outgoing :=
  let padded := padLoop (UInt8.ofNat (8 - outgoing.slen.toNat % 8)) outgoing
  { padded with
    sappdata := writeBlock (writeBlock padded.sappdata hmacLlhLen initialVector) (hmacLlhLen + 8)
      (bigEndian nextSeqno ++ bigEndian 0) }

/-- `openvpn_encrypt`. -/
def openvpnEncryptInPlace (crypto : Crypto) (nextSeqno : UInt32) (initialVector : List UInt8)
    (outgoing : Outgoing) : Outgoing :=
  let plain := plainPacket nextSeqno initialVector outgoing
  { plain with
    sappdata := (List.range (decryptRounds plain.slen)).foldl
      (fun sappdata round => encryptRound crypto sappdata (24 + 8 * round)) plain.sappdata }

/-- `openvpn_decrypt_and_verify`: the packet afterwards, and the connection when it returns
zero. -/
def openvpnDecryptAndVerify (crypto : Crypto) (connection : Connection) (appdata : Memory)
    (uipLen : UInt16) : Memory × Option Connection :=
  let packet := decrypted crypto appdata uipLen
  (packet, verifyPacketId connection (packetId packet))

theorem length_xorBytes {first second : List UInt8} (same : first.length = second.length) :
    (xorBytes first second).length = first.length := by
  rw [xorBytes, List.length_zipWith, same, Nat.min_self]

/-- The carry is taken away again. -/
theorem xorBytes_cancel {first second : List UInt8} (same : first.length = second.length) :
    xorBytes (xorBytes first second) second = first := by
  induction first generalizing second with
  | nil => rfl
  | cons byte first ih =>
      cases second with
      | nil => cases same
      | cons other second =>
          simp only [xorBytes, List.zipWith_cons_cons] at ih ⊢
          rw [ih (Nat.succ.inj same), UInt8.xor_assoc, UInt8.xor_self, UInt8.xor_zero]

/-- What the proofs need of CAST5 with a key. -/
structure Inverts (crypto : Crypto) : Prop where
  length : ∀ block : List UInt8, block.length = 8 → (crypto.cast5Enc block).length = 8
  inverse : ∀ block : List UInt8, block.length = 8 →
    crypto.cast5Dec (crypto.cast5Enc block) = block

/-- A number of blocks from 24 on have been encrypted. -/
structure Chained (crypto : Crypto) (plain sappdata : Memory) (rounds : Nat) : Prop where
  blocks : ∀ round < rounds, readBlock sappdata (24 + 8 * round) 8 =
    crypto.cast5Enc (xorBytes (readBlock plain (24 + 8 * round) 8)
      (readBlock sappdata (16 + 8 * round) 8))
  before : ∀ index < 24, sappdata index = plain index
  behind : ∀ index, 24 + 8 * rounds ≤ index → sappdata index = plain index

theorem chained_encryptRounds {crypto : Crypto} (inverts : Inverts crypto) (plain : Memory)
    (rounds : Nat) :
    Chained crypto plain ((List.range rounds).foldl
      (fun sappdata round => encryptRound crypto sappdata (24 + 8 * round)) plain) rounds := by
  induction rounds with
  | zero => exact ⟨by simp, by simp, by simp⟩
  | succ rounds ih =>
      rw [List.range_succ, List.foldl_append]
      generalize (List.range rounds).foldl _ plain = sappdata at ih ⊢
      simp only [List.foldl_cons, List.foldl_nil, encryptRound]
      have untouched : readBlock sappdata (24 + 8 * rounds) 8 =
          readBlock plain (24 + 8 * rounds) 8 := by
        apply readBlock_congr
        intro index above below
        exact ih.behind index above
      have previous : 24 + 8 * rounds - 8 = 16 + 8 * rounds := by omega
      rw [previous, untouched]
      have length : (crypto.cast5Enc (xorBytes (readBlock plain (24 + 8 * rounds) 8)
          (readBlock sappdata (16 + 8 * rounds) 8))).length = 8 := by
        apply inverts.length
        rw [length_xorBytes (by simp), length_readBlock]
      generalize blockEq : crypto.cast5Enc (xorBytes (readBlock plain (24 + 8 * rounds) 8)
        (readBlock sappdata (16 + 8 * rounds) 8)) = block at length ⊢
      constructor
      · intro round before
        have carry : readBlock (writeBlock sappdata (24 + 8 * rounds) block) (16 + 8 * round) 8 =
            readBlock sappdata (16 + 8 * round) 8 :=
          readBlock_writeBlock_disjoint (by omega)
        rw [carry]
        rcases Nat.lt_succ_iff_lt_or_eq.mp before with earlier | last
        · rw [readBlock_writeBlock_disjoint (by omega)]
          exact ih.blocks round earlier
        · subst last
          rw [blockEq]
          have written := readBlock_writeBlock_same sappdata (24 + 8 * round) block
          rwa [length] at written
      · intro index early
        rw [writeBlock_outside (by omega)]
        exact ih.before index early
      · intro index late
        rw [writeBlock_outside (by omega)]
        exact ih.behind index (by omega)

/-- A number of blocks have been decrypted; the carry is the last ciphertext block, in the
buffer whose turn it is. -/
structure Unchained (crypto : Crypto) (cipher : Memory) (decryption : Decryption)
    (rounds : Nat) : Prop where
  carry : (if decryption.carryInBuf then decryption.buf else readBlock decryption.appdata 16 8) =
    readBlock cipher (16 + 8 * rounds) 8
  blocks : ∀ round < rounds, readBlock decryption.appdata (24 + 8 * round) 8 =
    xorBytes (crypto.cast5Dec (readBlock cipher (24 + 8 * round) 8))
      (readBlock cipher (16 + 8 * round) 8)
  behind : ∀ index, 24 + 8 * rounds ≤ index → decryption.appdata index = cipher index

/-- One round of the decryption. -/
theorem Unchained.round {crypto : Crypto} {cipher : Memory} {decryption : Decryption}
    {rounds : Nat} (before : Unchained crypto cipher decryption rounds)
    (length : (crypto.cast5Dec (readBlock cipher (24 + 8 * rounds) 8)).length = 8) :
    Unchained crypto cipher (decryptRound crypto decryption (24 + 8 * rounds)) (rounds + 1) := by
  have untouched : readBlock decryption.appdata (24 + 8 * rounds) 8 =
      readBlock cipher (24 + 8 * rounds) 8 := by
    apply readBlock_congr
    intro index above below
    exact before.behind index above
  have next : 16 + 8 * (rounds + 1) = 24 + 8 * rounds := by omega
  have carry := before.carry
  generalize plainEq : xorBytes (crypto.cast5Dec (readBlock cipher (24 + 8 * rounds) 8))
    (readBlock cipher (16 + 8 * rounds) 8) = plain
  have plainLength : plain.length = 8 := by
    rw [← plainEq, length_xorBytes (by rw [length, length_readBlock]), length]
  -- A round writes its block, and perhaps the carry in the packet.
  have blocks : ∀ (appdata : Memory), (∀ index, 24 ≤ index →
      appdata index = decryption.appdata index) → ∀ round < rounds + 1,
      readBlock (writeBlock appdata (24 + 8 * rounds) plain) (24 + 8 * round) 8 =
        xorBytes (crypto.cast5Dec (readBlock cipher (24 + 8 * round) 8))
          (readBlock cipher (16 + 8 * round) 8) := by
    intro appdata kept round earlier
    rcases Nat.lt_succ_iff_lt_or_eq.mp earlier with earlier | last
    · rw [readBlock_writeBlock_disjoint (by omega), ← before.blocks round earlier]
      apply readBlock_congr
      intro index above below
      exact kept index (by omega)
    · subst last
      have written := readBlock_writeBlock_same appdata (24 + 8 * round) plain
      rw [plainLength] at written
      rw [written, plainEq]
  have behind : ∀ (appdata : Memory), (∀ index, 24 ≤ index →
      appdata index = decryption.appdata index) → ∀ index, 24 + 8 * (rounds + 1) ≤ index →
      writeBlock appdata (24 + 8 * rounds) plain index = cipher index := by
    intro appdata kept index late
    rw [writeBlock_outside (by omega), kept index (by omega)]
    exact before.behind index (by omega)
  cases inBuf : decryption.carryInBuf with
  | true =>
      simp only [inBuf, if_true] at carry
      simp only [decryptRound, inBuf, if_true, untouched, carry, plainEq, hmacLlhLen]
      generalize blockEq : readBlock cipher (24 + 8 * rounds) 8 = block
      have blockLength : block.length = 8 := by rw [← blockEq, length_readBlock]
      have kept : ∀ index, 24 ≤ index →
          writeBlock decryption.appdata 16 block index = decryption.appdata index :=
        fun index late => writeBlock_outside (by omega)
      refine ⟨?_, blocks _ kept, behind _ kept⟩
      have written := readBlock_writeBlock_same decryption.appdata 16 block
      rw [blockLength] at written
      rw [next, blockEq]
      simp only [Bool.false_eq_true, if_false]
      rw [readBlock_writeBlock_disjoint (by omega), written]
  | false =>
      simp only [inBuf, Bool.false_eq_true, if_false] at carry
      simp only [decryptRound, inBuf, Bool.false_eq_true, if_false, untouched, hmacLlhLen, carry,
        plainEq]
      refine ⟨?_, blocks _ fun _ _ => rfl, behind _ fun _ _ => rfl⟩
      rw [next]
      rfl

theorem unchained_decryptRounds {crypto : Crypto} (cipher : Memory) (rounds : Nat)
    (lengths : ∀ round < rounds,
      (crypto.cast5Dec (readBlock cipher (24 + 8 * round) 8)).length = 8) :
    Unchained crypto cipher ((List.range rounds).foldl
      (fun decryption round => decryptRound crypto decryption (24 + 8 * round))
      ⟨cipher, [], false⟩) rounds := by
  induction rounds with
  | zero => exact ⟨rfl, by simp, by simp⟩
  | succ rounds ih =>
      rw [List.range_succ, List.foldl_append]
      apply Unchained.round
      · exact ih fun round earlier => lengths round (Nat.lt_succ_of_lt earlier)
      · exact lengths rounds (Nat.lt_succ_self rounds)

/-- Blocks that agree one by one. -/
theorem readBlock_eq_of_blocks {first second : Memory} {start rounds : Nat}
    (agree : ∀ round < rounds,
      readBlock first (start + 8 * round) 8 = readBlock second (start + 8 * round) 8) :
    readBlock first start (8 * rounds) = readBlock second start (8 * rounds) := by
  induction rounds with
  | zero => rfl
  | succ rounds ih =>
      rw [Nat.mul_succ, readBlock_append, readBlock_append, agree rounds (Nat.lt_succ_self rounds),
        ih fun round earlier => agree round (Nat.lt_succ_of_lt earlier)]

/-- Decryption takes the chaining of the encryption away again. -/
theorem decrypted_chained {crypto : Crypto} (inverts : Inverts crypto)
    {plain sappdata received : Memory} {rounds : Nat}
    (chained : Chained crypto plain sappdata rounds)
    (arrived : ∀ index, 16 ≤ index → index < 24 + 8 * rounds → received index = sappdata index) :
    readBlock ((List.range rounds).foldl
        (fun decryption round => decryptRound crypto decryption (24 + 8 * round))
        ⟨received, [], false⟩).appdata 24 (8 * rounds) = readBlock plain 24 (8 * rounds) := by
  have blockOf : ∀ round ≤ rounds, readBlock received (16 + 8 * round) 8 =
      readBlock sappdata (16 + 8 * round) 8 := by
    intro round inside
    apply readBlock_congr
    intro index above below
    exact arrived index (by omega) (by omega)
  have cipherOf : ∀ round < rounds, readBlock received (24 + 8 * round) 8 =
      readBlock sappdata (24 + 8 * round) 8 := by
    intro round inside
    have next := blockOf (round + 1) inside
    rwa [show 16 + 8 * (round + 1) = 24 + 8 * round by omega] at next
  have plainOf : ∀ round < rounds, crypto.cast5Dec (readBlock received (24 + 8 * round) 8) =
      xorBytes (readBlock plain (24 + 8 * round) 8) (readBlock sappdata (16 + 8 * round) 8) := by
    intro round inside
    rw [cipherOf round inside, chained.blocks round inside]
    apply inverts.inverse
    rw [length_xorBytes (by simp), length_readBlock]
  have unchained := @unchained_decryptRounds crypto received rounds (by
    intro round inside
    rw [plainOf round inside, length_xorBytes (by simp), length_readBlock])
  apply readBlock_eq_of_blocks
  intro round inside
  rw [unchained.blocks round inside, plainOf round inside, blockOf round (Nat.le_of_lt inside)]
  exact xorBytes_cancel (by simp)

theorem padLoop_eq (padChar : UInt8) (more : Nat) (outgoing : Outgoing)
    (padded : (outgoing.slen.toNat + (more + 1)) % 8 = 0) (few : more < 8)
    (fits : outgoing.slen.toNat + (more + 1) < 65536) :
    padLoop padChar outgoing =
      ⟨writeBlock outgoing.sappdata outgoing.slen.toNat (List.replicate (more + 1) padChar),
        UInt16.ofNat (outgoing.slen.toNat + (more + 1))⟩ := by
  have next : (outgoing.slen + 1).toNat = outgoing.slen.toNat + 1 := by
    rw [UInt16.toNat_add, UInt16.toNat_one]
    omega
  induction more generalizing outgoing with
  | zero =>
      rw [padLoop]
      simp only [next, padded, ne_eq, not_true_eq_false, if_false, List.replicate_succ,
        List.replicate_zero]
      congr 1
  | succ more ih =>
      have unfinished : (outgoing.slen.toNat + 1) % 8 ≠ 0 := by omega
      rw [padLoop]
      simp only [next, unfinished, ne_eq, not_false_eq_true, if_true]
      have later : (outgoing.slen + 1 + 1).toNat = (outgoing.slen + 1).toNat + 1 := by
        rw [UInt16.toNat_add, UInt16.toNat_one]
        omega
      rw [ih ⟨_, outgoing.slen + 1⟩ (by simp only [next]; omega) (by omega)
        (by simp only [next]; omega) later]
      have joined := writeBlock_append outgoing.sappdata outgoing.slen.toNat [padChar]
        (List.replicate (more + 1) padChar)
      rw [List.singleton_append, List.length_singleton] at joined
      simp only [next]
      rw [show List.replicate (more + 1 + 1) padChar = padChar :: List.replicate (more + 1) padChar
        from rfl, joined, Nat.add_assoc, Nat.add_comm 1]

/-- The padding of a packet, and its last byte. -/
def paddingOf (length : Nat) : List UInt8 :=
  List.replicate (8 - length % 8) (UInt8.ofNat (8 - length % 8))

theorem length_paddingOf (length : Nat) : (paddingOf length).length = 8 - length % 8 := by
  rw [paddingOf, List.length_replicate]

section Plain

variable {uipLen : UInt16} (fits : uipLen.toNat + 40 < 65536)
include fits

theorem toNat_add_hmacCryptLen : (uipLen + 32).toNat = uipLen.toNat + 32 := by
  rw [UInt16.toNat_add]
  change (uipLen.toNat + 32) % 65536 = _
  omega

/-- The packet before its encryption. -/
theorem plainPacket_eq (nextSeqno : UInt32) (initialVector : List UInt8) (sappdata : Memory) :
    plainPacket nextSeqno initialVector ⟨sappdata, uipLen + 32⟩ =
      ⟨writeBlock
          (writeBlock (writeBlock sappdata (uipLen.toNat + 32) (paddingOf uipLen.toNat)) 16
            initialVector) 24 (bigEndian nextSeqno ++ bigEndian 0),
        UInt16.ofNat (uipLen.toNat + 32 + (8 - uipLen.toNat % 8))⟩ := by
  have slen := toNat_add_hmacCryptLen fits
  have residue : (uipLen.toNat + 32) % 8 = uipLen.toNat % 8 := by omega
  have padded := padLoop_eq (UInt8.ofNat (8 - uipLen.toNat % 8)) (7 - uipLen.toNat % 8)
    ⟨sappdata, uipLen + 32⟩ (by simp only [slen]; omega) (by omega) (by simp only [slen]; omega)
  rw [show 7 - uipLen.toNat % 8 + 1 = 8 - uipLen.toNat % 8 by omega, ← paddingOf] at padded
  simp only [slen] at padded
  simp only [plainPacket, slen, residue, padded, hmacLlhLen]

theorem plainPacket_slen (nextSeqno : UInt32) (initialVector : List UInt8) (sappdata : Memory) :
    (plainPacket nextSeqno initialVector ⟨sappdata, uipLen + 32⟩).slen.toNat =
      uipLen.toNat + 32 + (8 - uipLen.toNat % 8) := by
  rw [plainPacket_eq fits]
  exact UInt16.toNat_ofNat_of_lt' (show _ < 65536 by omega)

/-- From 24 on there are the id, the tunnelled packet and the padding. -/
theorem readBlock_plainPacket (nextSeqno : UInt32) {initialVector : List UInt8}
    (vectorLength : initialVector.length = 8) (sappdata : Memory) :
    readBlock (plainPacket nextSeqno initialVector ⟨sappdata, uipLen + 32⟩).sappdata 24
        (8 + uipLen.toNat + (8 - uipLen.toNat % 8)) =
      bigEndian nextSeqno ++ bigEndian 0 ++ readBlock sappdata 32 uipLen.toNat ++
        paddingOf uipLen.toNat := by
  have idLength : (bigEndian nextSeqno ++ bigEndian 0).length = 8 := rfl
  have padding := length_paddingOf uipLen.toNat
  rw [plainPacket_eq fits, readBlock_append, readBlock_append]
  simp only
  generalize bigEndian nextSeqno ++ bigEndian 0 = id at idLength ⊢
  congr 1
  · congr 1
    · have written := readBlock_writeBlock_same
        (writeBlock (writeBlock sappdata (uipLen.toNat + 32) (paddingOf uipLen.toNat)) 16
          initialVector) 24 id
      rwa [idLength] at written
    · rw [readBlock_writeBlock_disjoint (by omega), readBlock_writeBlock_disjoint (by omega),
        readBlock_writeBlock_disjoint (by omega)]
  · have written := readBlock_writeBlock_same sappdata (uipLen.toNat + 32) (paddingOf uipLen.toNat)
    rw [padding] at written
    rw [readBlock_writeBlock_disjoint (by omega), readBlock_writeBlock_disjoint (by omega),
      show 24 + (8 + uipLen.toNat) = uipLen.toNat + 32 by omega, written]

end Plain

/-- Four bytes of a number, the first one highest. -/
theorem toNat_htonl (a b c d : UInt8) :
    (htonl [a, b, c, d]).toNat =
      ((a.toNat * 256 + b.toNat) * 256 + c.toNat) * 256 + d.toNat := by
  have smallA := a.toNat_lt
  have smallB := b.toNat_lt
  have smallC := c.toNat_lt
  have one : (htonl [a]).toNat = a.toNat := by
    have pushed : (htonl [a]).toNat = (0 : UInt32).toNat * 256 + a.toNat :=
      Base64.toNat_push (by decide) a
    rw [pushed, UInt32.toNat_zero, Nat.zero_mul, Nat.zero_add]
  have two : (htonl [a, b]).toNat = (htonl [a]).toNat * 256 + b.toNat :=
    Base64.toNat_push (show (htonl [a]).toNat < 2 ^ 24 by omega) b
  have three : (htonl [a, b, c]).toNat = (htonl [a, b]).toNat * 256 + c.toNat :=
    Base64.toNat_push (show (htonl [a, b]).toNat < 2 ^ 24 by omega) c
  have four : (htonl [a, b, c, d]).toNat = (htonl [a, b, c]).toNat * 256 + d.toNat :=
    Base64.toNat_push (show (htonl [a, b, c]).toNat < 2 ^ 24 by omega) d
  rw [four, three, two, one]

theorem htonl_bigEndian (value : UInt32) : htonl (bigEndian value) = value := by
  have bound := value.toNat_lt
  apply UInt32.toNat_inj.mp
  rw [bigEndian, toNat_htonl]
  simp only [UInt32.toNat_toUInt8, UInt32.toNat_shiftRight, UInt32.reduceToNat, Nat.reduceMod,
    Nat.shiftRight_eq_div_pow]
  omega

/-- The id is read from the first eight bytes of the decrypted packet. -/
theorem packetId_of_readBlock {packet : Memory} {nextSeqno : UInt32}
    (stored : readBlock packet 24 8 = bigEndian nextSeqno ++ bigEndian 0) :
    packetId packet = ⟨0, nextSeqno⟩ := by
  rw [show 8 = 4 + 4 from rfl, readBlock_append] at stored
  obtain ⟨seqno, timestamp⟩ := List.append_inj stored (length_readBlock _ _ _)
  rw [packetId, seqno, show 28 = 24 + 4 from rfl, timestamp, htonl_bigEndian, htonl_bigEndian]

theorem readBlock_apply {first second : Memory} {start length : Nat}
    (same : readBlock first start length = readBlock second start length) {index : Nat}
    (above : start ≤ index) (below : index < start + length) : first index = second index := by
  have bytes := congrArg (List.getD · (index - start) 0) same
  rw [getD_readBlock (by omega), getD_readBlock (by omega)] at bytes
  rwa [Nat.add_sub_of_le above] at bytes

section RoundTrip

variable {crypto : Crypto} {nextSeqno : UInt32} {initialVector : List UInt8} {sappdata : Memory}
  {uipLen : UInt16}

theorem decryptRounds_slen (fits : uipLen.toNat + 40 < 65536) :
    8 * decryptRounds (plainPacket nextSeqno initialVector ⟨sappdata, uipLen + 32⟩).slen =
      8 + uipLen.toNat + (8 - uipLen.toNat % 8) := by
  rw [decryptRounds, plainPacket_slen fits]
  omega

end RoundTrip

/-- A packet that was encrypted in the buffer is decrypted by every peer that accepts its id: the
packet id, the tunnelled packet and the padding. -/
theorem decryptAndVerify_encryptInPlace (crypto : Crypto) (inverts : Inverts crypto)
    (nextSeqno : UInt32) (initialVector : List UInt8) (vectorLength : initialVector.length = 8)
    (sappdata : Memory) (uipLen : UInt16) (fits : uipLen.toNat + 40 < 65536) (sent : Outgoing)
    (encrypted :
      openvpnEncryptInPlace crypto nextSeqno initialVector ⟨sappdata, uipLen + 32⟩ = sent)
    (received : Memory)
    (arrived : readBlock received 16 (sent.slen.toNat - 16) =
      readBlock sent.sappdata 16 (sent.slen.toNat - 16))
    (peer connection : Connection)
    (accepted : verifyPacketId peer ⟨0, nextSeqno⟩ = some connection) :
    (openvpnDecryptAndVerify crypto peer received sent.slen).2 = some connection ∧
      readBlock (openvpnDecryptAndVerify crypto peer received sent.slen).1 24
          (sent.slen.toNat - 24) =
        bigEndian nextSeqno ++ bigEndian 0 ++ readBlock sappdata 32 uipLen.toNat ++
          paddingOf uipLen.toNat := by
  subst encrypted
  have slen := @plainPacket_slen uipLen fits nextSeqno initialVector sappdata
  have rounds := @decryptRounds_slen nextSeqno initialVector sappdata uipLen fits
  have content := readBlock_plainPacket fits nextSeqno vectorLength sappdata
  simp only [openvpnEncryptInPlace, openvpnDecryptAndVerify] at arrived ⊢
  generalize plainPacket nextSeqno initialVector ⟨sappdata, uipLen + 32⟩ = plain at *
  have chained := chained_encryptRounds inverts plain.sappdata (decryptRounds plain.slen)
  have plainAgain : readBlock (decrypted crypto received plain.slen) 24
      (8 * decryptRounds plain.slen) = _ :=
    decrypted_chained inverts chained fun index above below =>
      readBlock_apply arrived above (by omega)
  rw [rounds, content] at plainAgain
  constructor
  · have id : readBlock (decrypted crypto received plain.slen) 24 8 =
        bigEndian nextSeqno ++ bigEndian 0 := by
      rw [Nat.add_assoc, readBlock_append, List.append_assoc] at plainAgain
      exact (List.append_inj plainAgain (length_readBlock _ _ _)).1
    rw [packetId_of_readBlock id]
    exact accepted
  · rw [slen, show uipLen.toNat + 32 + (8 - uipLen.toNat % 8) - 24 =
      8 + uipLen.toNat + (8 - uipLen.toNat % 8) by omega]
    exact plainAgain

/-- A cipher that changes some bits of every byte. -/
def maskCipher : Crypto where
  md5 := id
  hmacKey := []
  cast5Dec := List.map (· ^^^ 0x5a)
  cast5Enc := List.map (· ^^^ 0x5a)

theorem inverts_maskCipher : Inverts maskCipher where
  length block eight := by simpa [maskCipher] using eight
  inverse block _ := by
    have masked (byte : UInt8) : byte ^^^ 0x5a ^^^ 0x5a = byte := by
      rw [UInt8.xor_assoc, UInt8.xor_self, UInt8.xor_zero]
    change (block.map (· ^^^ 0x5a)).map (· ^^^ 0x5a) = block
    rw [List.map_map]
    exact (List.map_congr_left fun byte _ => masked byte).trans (List.map_id block)

/-- A packet of 20 bytes, to a peer that has seen nothing. -/
theorem decryptAndVerify_encryptInPlace_first :
    (openvpnDecryptAndVerify maskCipher (openvpnInit 1194 ⟨[10, 0, 0, 1], 1194⟩)
        (openvpnEncryptInPlace maskCipher 1 [1, 2, 3, 4, 5, 6, 7, 8]
          ⟨UInt8.ofNat, 20 + 32⟩).sappdata
        (openvpnEncryptInPlace maskCipher 1 [1, 2, 3, 4, 5, 6, 7, 8]
          ⟨UInt8.ofNat, 20 + 32⟩).slen).2 =
        some ⟨1194, ⟨[10, 0, 0, 1], 1194⟩, 1, 1, 0⟩ ∧
      readBlock (openvpnDecryptAndVerify maskCipher (openvpnInit 1194 ⟨[10, 0, 0, 1], 1194⟩)
          (openvpnEncryptInPlace maskCipher 1 [1, 2, 3, 4, 5, 6, 7, 8]
            ⟨UInt8.ofNat, 20 + 32⟩).sappdata
          (openvpnEncryptInPlace maskCipher 1 [1, 2, 3, 4, 5, 6, 7, 8]
            ⟨UInt8.ofNat, 20 + 32⟩).slen).1 24
          ((openvpnEncryptInPlace maskCipher 1 [1, 2, 3, 4, 5, 6, 7, 8]
            ⟨UInt8.ofNat, 20 + 32⟩).slen.toNat - 24) =
        bigEndian 1 ++ bigEndian 0 ++ readBlock UInt8.ofNat 32 20 ++ paddingOf 20 :=
  decryptAndVerify_encryptInPlace maskCipher inverts_maskCipher 1 [1, 2, 3, 4, 5, 6, 7, 8] rfl
    UInt8.ofNat 20 (by decide) _ rfl _ rfl _ _ rfl

end Ethersex.Openvpn

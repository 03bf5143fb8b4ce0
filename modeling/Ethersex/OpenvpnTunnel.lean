import Ethersex.ByteMemory
import Mathlib.Data.UInt

/-!
# The OpenVPN tunnel

`protocols/uip/uip_openvpn.c` with MD5 and CAST5: datagrams of the outer stack are verified,
decrypted and pushed into the inner stack, packets of the inner stack are encrypted and sent to
the remote end of the one UDP connection.  The hash and the block cipher are those of
`core/crypto`, with the configured keys.

What the inner stack does with a packet is not modelled: whatever it sends is an event of its own.
-/

namespace Ethersex.Openvpn

open ByteMemory

/-- The remote end of a UDP connection. -/
structure Endpoint where
  ripaddr : List UInt8
  rport : UInt16
deriving DecidableEq, Repr

/-- The UDP connection with `struct openvpn_connection_state_t`. -/
structure Connection where
  lport : UInt16
  remote : Endpoint
  nextSeqno : UInt32
  seenSeqno : UInt32
  seenTimestamp : UInt32
deriving DecidableEq, Repr

structure Crypto where
  md5 : List UInt8 → List UInt8
  hmacKey : List UInt8
  cast5Dec : List UInt8 → List UInt8
  cast5Enc : List UInt8 → List UInt8

/-- `OPENVPN_HMAC_LLH_LEN`. -/
def hmacLlhLen : Nat := 16

/-- `OPENVPN_HMAC_CRYPT_LEN`: the hash, the initial vector and the packet id. -/
def hmacCryptLen : Nat := 32

/-- A block of the hash with the key in its first 16 bytes. -/
def keyBlock (crypto : Crypto) (pad : UInt8) : List UInt8 :=
  (crypto.hmacKey.take 16).map (· ^^^ pad) ++ List.replicate 48 pad

def openvpnHmacCalc (crypto : Crypto) (src : List UInt8) : List UInt8 :=
  crypto.md5 (keyBlock crypto 0x5c ++ crypto.md5 (keyBlock crypto 0x36 ++ src))

/-- `openvpn_hmac_verify` returns zero.  The length is a 16-bit number of bits in the hash. -/
def openvpnHmacVerify (crypto : Crypto) (appdata : Memory) (uipLen : UInt16) : Bool :=
  openvpnHmacCalc crypto (readBlock appdata hmacLlhLen ((uipLen - 16).toNat % 8192)) ==
    readBlock appdata 0 hmacLlhLen

/-- The two places of the carry: the initial vector in the packet and `buf`.  They change their
parts in every round. -/
structure Decryption where
  appdata : Memory
  buf : List UInt8
  carryInBuf : Bool

def xorBytes (first second : List UInt8) : List UInt8 :=
  List.zipWith (· ^^^ ·) first second

def decryptRound (crypto : Crypto) (decryption : Decryption) (ptr : Nat) : Decryption :=
  let block := readBlock decryption.appdata ptr 8
  if decryption.carryInBuf then
    let appdata := writeBlock decryption.appdata hmacLlhLen block
    ⟨writeBlock appdata ptr (xorBytes (crypto.cast5Dec block) decryption.buf),
      decryption.buf, false⟩
  else
    let carry := readBlock decryption.appdata hmacLlhLen 8
    ⟨writeBlock decryption.appdata ptr (xorBytes (crypto.cast5Dec block) carry), block, true⟩

/-- The number of rounds with the pointer below the end of the packet. -/
def decryptRounds (uipLen : UInt16) : Nat :=
  (uipLen.toNat - 24 + 7) / 8

/-- The packet after the loop of `openvpn_decrypt_and_verify`. -/
def decrypted (crypto : Crypto) (appdata : Memory) (uipLen : UInt16) : Memory :=
  ((List.range (decryptRounds uipLen)).foldl
    (fun decryption round => decryptRound crypto decryption (24 + 8 * round))
    ⟨appdata, [], false⟩).appdata

def htonl (bytes : List UInt8) : UInt32 :=
  bytes.foldl (fun value byte => value <<< 8 ||| byte.toUInt32) 0

structure PacketId where
  timestamp : UInt32
  seqno : UInt32
deriving DecidableEq, Repr

def packetId (packet : Memory) : PacketId :=
  ⟨htonl (readBlock packet 28 4), htonl (readBlock packet 24 4)⟩

/-- The id is the last one seen. -/
def Connection.setSeen (connection : Connection) (id : PacketId) : Connection :=
  { connection with seenSeqno := id.seqno, seenTimestamp := id.timestamp }

/-- The check of the packet id: the connection after it, or none. -/
def verifyPacketId (connection : Connection) (id : PacketId) : Option Connection :=
  if id.timestamp ≤ connection.seenTimestamp ∧ id.seqno ≤ connection.seenSeqno then none
  else some (connection.setSeen id)

/-- A call of the UDP handler: the flag `UIP_NEWDATA`, the source in the header of the packet and
the buffer with the length of the datagram. -/
structure Datagram where
  newdata : Bool
  source : Endpoint
  appdata : Memory
  uipLen : UInt16

/-- The packet passes `openvpn_hmac_verify` and `openvpn_decrypt_and_verify`, and this is the
connection afterwards. -/
def verify (crypto : Crypto) (connection : Connection) (datagram : Datagram) : Option Connection :=
  if openvpnHmacVerify crypto datagram.appdata datagram.uipLen then
    verifyPacketId connection (packetId (decrypted crypto datagram.appdata datagram.uipLen))
  else none

/-- The remote end is taken from the packet. -/
def Connection.setRemote (connection : Connection) (source : Endpoint) : Connection :=
  { connection with remote := source }

/-- `openvpn_handle_udp` up to the router, with the packet for the inner stack when there is
one. -/
def openvpnHandleUdp (crypto : Crypto) (openvpnPort : UInt16) (connection : Connection)
    (datagram : Datagram) : Connection × Option (List UInt8) :=
  if connection.lport ≠ openvpnPort then (connection, none)
  else if !datagram.newdata then (connection, none)
  else
    let connection := connection.setRemote datagram.source
    match verify crypto connection datagram with
    | none => (connection, none)
    | some connection =>
        (connection, some (readBlock (decrypted crypto datagram.appdata
          datagram.uipLen) hmacCryptLen
          (datagram.uipLen - 32).toNat))

/-- `HTONL` of a number in the packet. -/
def bigEndian (value : UInt32) : List UInt8 :=
  [(value >>> 24).toUInt8, (value >>> 16).toUInt8, (value >>> 8).toUInt8, value.toUInt8]

/-- Cipher block chaining, for a number of blocks. -/
def encryptBlocks (crypto : Crypto) : Nat → List UInt8 → List UInt8 → List UInt8
  | 0, _, _ => []
  | blocks + 1, carry, plain =>
      let block := crypto.cast5Enc (xorBytes (plain.take 8) carry)
      block ++ encryptBlocks crypto blocks block (plain.drop 8)

/-- `openvpn_encrypt`: the initial vector and the encrypted blocks. -/
def openvpnEncrypt (crypto : Crypto) (nextSeqno : UInt32) (initialVector inner : List UInt8) :
    List UInt8 :=
  let padding := 8 - (inner.length + hmacCryptLen) % 8
  let plain := bigEndian nextSeqno ++ bigEndian 0 ++ inner ++
    List.replicate padding (UInt8.ofNat padding)
  initialVector ++ encryptBlocks crypto (plain.length / 8) initialVector plain

structure Transmission where
  destination : Endpoint
  payload : List UInt8

/-- `openvpn_process_out` and the header that `uip_process` fills in from the connection.
A remote end inside the tunnel gets nothing. -/
def openvpnProcessOut (crypto : Crypto) (inTunnel : List UInt8 → Bool) (connection : Connection)
    (inner initialVector : List UInt8) : Connection × Option Transmission :=
  if inTunnel connection.remote.ripaddr then (connection, none)
  else
    let content := openvpnEncrypt crypto connection.nextSeqno initialVector inner
    ({ connection with nextSeqno := connection.nextSeqno + 1 },
      some ⟨connection.remote, openvpnHmacCalc crypto content ++ content⟩)

def openvpnTxstart (crypto : Crypto) (inTunnel : List UInt8 → Bool) (connection : Connection)
    (inner initialVector : List UInt8) : Connection × Option Transmission :=
  if inner = [] then (connection, none)
  else openvpnProcessOut crypto inTunnel connection inner initialVector

/-- The connection of `openvpn_init`. -/
def openvpnInit (openvpnPort : UInt16) (remote : Endpoint) : Connection :=
  ⟨openvpnPort, remote, 1, 0, 0⟩

/-- A datagram, the answer of the inner stack to one, or other data of the inner stack. -/
inductive Event where
  | handleUdp (datagram : Datagram)
  | processOut (inner initialVector : List UInt8)
  | txstart (inner initialVector : List UInt8)

/-- The connection, with the source of the last datagram that was verified, the ids of all such
datagrams and the packets sent, each with the end it should have gone to. -/
structure Tunnel where
  connection : Connection
  peer : Endpoint
  accepted : List PacketId
  sent : List (Transmission × Endpoint)

/-- The build: the cipher, the port and the addresses routed into the tunnel. -/
structure Setup where
  crypto : Crypto
  openvpnPort : UInt16
  inTunnel : List UInt8 → Bool

def Tunnel.send (tunnel : Tunnel) (result : Connection × Option Transmission) : Tunnel :=
  { tunnel with
    connection := result.1
    sent := result.2.toList.map (fun transmission => (transmission, tunnel.peer)) ++ tunnel.sent }

def Tunnel.receive (setup : Setup) (tunnel : Tunnel) (datagram : Datagram) : Tunnel :=
  let result := openvpnHandleUdp setup.crypto setup.openvpnPort tunnel.connection datagram
  match result.2 with
  | none => { tunnel with connection := result.1 }
  | some _ =>
      { tunnel with
        connection := result.1
        peer := datagram.source
        accepted := packetId (decrypted setup.crypto datagram.appdata datagram.uipLen) ::
          tunnel.accepted }

def step (setup : Setup) (tunnel : Tunnel) : Event → Tunnel
  | .handleUdp datagram => tunnel.receive setup datagram
  | .processOut inner initialVector =>
      tunnel.send (openvpnProcessOut setup.crypto setup.inTunnel tunnel.connection inner
        initialVector)
  | .txstart inner initialVector =>
      tunnel.send (openvpnTxstart setup.crypto setup.inTunnel tunnel.connection inner initialVector)

def Setup.start (setup : Setup) (remote : Endpoint) : Tunnel :=
  ⟨openvpnInit setup.openvpnPort remote, remote, [], []⟩

end Ethersex.Openvpn

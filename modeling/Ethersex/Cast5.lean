import Ethersex.FeistelNetworks
import Ethersex.LittleEndian
import Ethersex.OpenvpnRoundTrip

/-!
# The block cipher of the tunnel

`core/crypto/cast5.c`: the key schedule, encryption and decryption.  Nothing
here depends on what the tables of `cast5-sbox.h` hold.
-/

namespace Ethersex.Cast5

open ByteMemory LittleEndian

/-- The tables. -/
structure Sboxes where
  s1 : UInt8 → UInt32
  s2 : UInt8 → UInt32
  s3 : UInt8 → UInt32
  s4 : UInt8 → UInt32
  s5 : UInt8 → UInt32
  s6 : UInt8 → UInt32
  s7 : UInt8 → UInt32
  s8 : UInt8 → UInt32

/-- `cast5_ctx_t`. -/
structure Ctx where
  mask : List UInt32
  rotl : Memory
  roth : Memory
  shortkey : Bool

/-- `cast5_init_A`, with what `dest` held before. -/
def cast5InitA (sboxes : Sboxes) (dest src : Memory) (bmode : Bool) : Memory :=
  let mask := if bmode then 0x8 else 0
  let dest := store dest 0x0 (load src (0x0 ^^^ mask)
    ^^^ sboxes.s5 (src (0xd ^^^ mask)) ^^^ sboxes.s6 (src (0xf ^^^ mask))
    ^^^ sboxes.s7 (src (0xc ^^^ mask)) ^^^ sboxes.s8 (src (0xe ^^^ mask))
    ^^^ sboxes.s7 (src (0x8 ^^^ mask)))
  let dest := store dest 0x4 (load src (0x8 ^^^ mask)
    ^^^ sboxes.s5 (dest 0x0) ^^^ sboxes.s6 (dest 0x2)
    ^^^ sboxes.s7 (dest 0x1) ^^^ sboxes.s8 (dest 0x3)
    ^^^ sboxes.s8 (src (0xa ^^^ mask)))
  let dest := store dest 0x8 (load src (0xc ^^^ mask)
    ^^^ sboxes.s5 (dest 0x7) ^^^ sboxes.s6 (dest 0x6)
    ^^^ sboxes.s7 (dest 0x5) ^^^ sboxes.s8 (dest 0x4)
    ^^^ sboxes.s5 (src (0x9 ^^^ mask)))
  store dest 0xc (load src (0x4 ^^^ mask)
    ^^^ sboxes.s5 (dest 0xa) ^^^ sboxes.s6 (dest 0x9)
    ^^^ sboxes.s7 (dest 0xb) ^^^ sboxes.s8 (dest 0x8)
    ^^^ sboxes.s6 (src (0xb ^^^ mask)))

/-- `nmt`. -/
def nmt : List Nat :=
  [0xb, 0xa, 0x9, 0x8, 0xf, 0xe, 0xd, 0xc, 0x3, 0x2, 0x1, 0x0, 0x7, 0x6, 0x5, 0x4]

/-- `xmt`. -/
def xmt : List (List Nat) :=
  [[0x2, 0x6, 0x9, 0xc], [0x8, 0xd, 0x3, 0x7], [0x3, 0x7, 0x8, 0xd], [0x9, 0xc, 0x2, 0x6]]

/-- `NMT`. -/
def nmtAt (src : Memory) (nmode : Bool) (x : Nat) : UInt8 :=
  src (if nmode then nmt.getD x 0 else x)

/-- `XMT`. -/
def xmtAt (src : Memory) (nmode xmode : Bool) (x : Nat) : UInt8 :=
  src ((xmt.getD ((if xmode then 2 else 0) + if nmode then 1 else 0) []).getD x 0)

/-- `cast5_init_M`: the four words of `dest`. -/
def cast5InitM (sboxes : Sboxes) (src : Memory) (nmode xmode : Bool) : List UInt32 :=
  let n := nmtAt src nmode
  let x := xmtAt src nmode xmode
  [sboxes.s5 (n 0x8) ^^^ sboxes.s6 (n 0x9) ^^^ sboxes.s7 (n 0x7) ^^^ sboxes.s8 (n 0x6)
      ^^^ sboxes.s5 (x 0),
    sboxes.s5 (n 0xa) ^^^ sboxes.s6 (n 0xb) ^^^ sboxes.s7 (n 0x5) ^^^ sboxes.s8 (n 0x4)
      ^^^ sboxes.s6 (x 1),
    sboxes.s5 (n 0xc) ^^^ sboxes.s6 (n 0xd) ^^^ sboxes.s7 (n 0x3) ^^^ sboxes.s8 (n 0x2)
      ^^^ sboxes.s7 (x 2),
    sboxes.s5 (n 0xe) ^^^ sboxes.s6 (n 0xf) ^^^ sboxes.s7 (n 0x1) ^^^ sboxes.s8 (n 0x0)
      ^^^ sboxes.s8 (x 3)]

/-- The bytes `t` of `cast5_init_rM`; `S5B` to `S8B` read the bytes at offset 3 of the
words. -/
def rotationBytes (sboxes : Sboxes) (src : Memory) (nmode xmode : Bool) : List UInt8 :=
  let n := nmtAt src nmode
  let x := xmtAt src nmode xmode
  let s5b := fun i => byte (sboxes.s5 i) 3
  let s6b := fun i => byte (sboxes.s6 i) 3
  let s7b := fun i => byte (sboxes.s7 i) 3
  let s8b := fun i => byte (sboxes.s8 i) 3
  [s5b (n 0x8) ^^^ s6b (n 0x9) ^^^ s7b (n 0x7) ^^^ s8b (n 0x6) ^^^ s5b (x 0),
    s5b (n 0xa) ^^^ s6b (n 0xb) ^^^ s7b (n 0x5) ^^^ s8b (n 0x4) ^^^ s6b (x 1),
    s5b (n 0xc) ^^^ s6b (n 0xd) ^^^ s7b (n 0x3) ^^^ s8b (n 0x2) ^^^ s7b (x 2),
    s5b (n 0xe) ^^^ s6b (n 0xf) ^^^ s7b (n 0x1) ^^^ s8b (n 0x0) ^^^ s8b (x 3)]

/-- The four high bits, collected by shifts. -/
def highBits (t0 t1 t2 t3 : UInt8) : UInt8 :=
  let h := (0 ||| (t0 &&& 0x10)) >>> 1
  let h := (h ||| (t1 &&& 0x10)) >>> 1
  let h := (h ||| (t2 &&& 0x10)) >>> 1
  (h ||| (t3 &&& 0x10)) >>> 1

/-- The stores of `cast5_init_rM`. -/
def packRotations (klo khi : Memory) (offset : Nat) (t0 t1 t2 t3 : UInt8) : Memory × Memory :=
  let klo := Function.update klo (offset * 2) (klo (offset * 2) ||| (t0 &&& 0x0f))
  let klo := Function.update klo (offset * 2) (klo (offset * 2) ||| ((t1 <<< 4) &&& 0xf0))
  let klo := Function.update klo (offset * 2 + 1) (klo (offset * 2 + 1) ||| (t2 &&& 0xf))
  let klo := Function.update klo (offset * 2 + 1) (klo (offset * 2 + 1) ||| (t3 <<< 4))
  (klo, Function.update khi (offset / 2)
    (khi (offset / 2) ||| (highBits t0 t1 t2 t3 <<< if offset % 2 = 1 then 4 else 0)))

/-- `cast5_init_rM`. -/
def cast5InitRM (sboxes : Sboxes) (keys : Memory × Memory) (offset : Nat) (src : Memory)
    (nmode xmode : Bool) : Memory × Memory :=
  let t := rotationBytes sboxes src nmode xmode
  packRotations keys.1 keys.2 offset (t.getD 0 0) (t.getD 1 0) (t.getD 2 0) (t.getD 3 0)

/-- The arrays `x` and `z`. -/
structure Work where
  x : Memory
  z : Memory

def Work.a (sboxes : Sboxes) (work : Work) : Work :=
  { work with z := cast5InitA sboxes work.z work.x false }

def Work.b (sboxes : Sboxes) (work : Work) : Work :=
  { work with x := cast5InitA sboxes work.x work.z true }

/-- The key with zeros behind it, and `z` as the memory happens to be. -/
def keyWork (key : List UInt8) (keylength : UInt16) (stale : Memory) : Work :=
  let keylength := if 128 < keylength then 128 else keylength
  ⟨writeBlock (fun _ => 0) 0 (key.take ((keylength.toNat + 7) / 8)), stale⟩

/-- The arrays after the first half of the schedule. -/
def Work.next (sboxes : Sboxes) (work : Work) : Work :=
  (((work.a sboxes).b sboxes).a sboxes).b sboxes

/-- The words that `cast5_init_M` gives in the four steps of one half of the schedule. -/
def Work.words (sboxes : Sboxes) (work : Work) : List UInt32 :=
  let first := work.a sboxes
  let second := first.b sboxes
  let third := second.a sboxes
  let fourth := third.b sboxes
  cast5InitM sboxes first.z false false ++ cast5InitM sboxes second.x true false ++
    cast5InitM sboxes third.z true true ++ cast5InitM sboxes fourth.x false true

/-- The rotation keys of the second half. -/
def Work.rotations (sboxes : Sboxes) (work : Work) : Memory × Memory :=
  let first := work.a sboxes
  let second := first.b sboxes
  let third := second.a sboxes
  let fourth := third.b sboxes
  let keys : Memory × Memory := (fun _ => 0, fun _ => 0)
  let keys := cast5InitRM sboxes keys 0 first.z false false
  let keys := cast5InitRM sboxes keys 1 second.x true false
  let keys := cast5InitRM sboxes keys 2 third.z true true
  cast5InitRM sboxes keys 3 fourth.x false true

/-- `cast5_init`. -/
def cast5Init (sboxes : Sboxes) (key : List UInt8) (keylength : UInt16) (stale : Memory) : Ctx :=
  let work := keyWork key keylength stale
  let keys := (work.next sboxes).rotations sboxes
  ⟨work.words sboxes, keys.1, keys.2, decide (keylength ≤ 80)⟩

/-- `CHANGE_ENDIAN32`. -/
def changeEndian (word : UInt32) : UInt32 :=
  word <<< 24 ||| word >>> 24 ||| (word &&& 0xff00) <<< 8 ||| (word &&& 0xff0000) >>> 8

/-- `ROTL32`; without a rotation the other part is the word itself. -/
def rotl32 (word : UInt32) (count : UInt8) : UInt32 :=
  word <<< count.toUInt32 ||| word >>> (32 - count.toUInt32)

def cast5F1 (sboxes : Sboxes) (d m : UInt32) (r : UInt8) : UInt32 :=
  let t := rotl32 (d + m) r
  ((sboxes.s1 (byte t 3) ^^^ sboxes.s2 (byte t 2)) - sboxes.s3 (byte t 1)) + sboxes.s4 (byte t 0)

def cast5F2 (sboxes : Sboxes) (d m : UInt32) (r : UInt8) : UInt32 :=
  let t := rotl32 (d ^^^ m) r
  ((sboxes.s1 (byte t 3) - sboxes.s2 (byte t 2)) + sboxes.s3 (byte t 1)) ^^^ sboxes.s4 (byte t 0)

def cast5F3 (sboxes : Sboxes) (d m : UInt32) (r : UInt8) : UInt32 :=
  let t := rotl32 (m - d) r
  ((sboxes.s1 (byte t 3) + sboxes.s2 (byte t 2)) ^^^ sboxes.s3 (byte t 1)) - sboxes.s4 (byte t 0)

/-- The rotation key of a round, put together from `roth` and `rotl`. -/
def Ctx.rotation (ctx : Ctx) (i : Nat) : UInt8 :=
  (if ctx.roth (i / 8) &&& ((1 : UInt8) <<< UInt8.ofNat (i % 8)) ≠ 0
    then (0x10 : UInt8) else 0x00) +
    ((ctx.rotl (i / 2) >>> if i % 2 = 1 then (4 : UInt8) else 0) &&& 0x0f)

/-- What is combined with the other half in a round. -/
def Ctx.function (sboxes : Sboxes) (ctx : Ctx) (i : Nat) (r : UInt32) : UInt32 :=
  let d := changeEndian r
  let m := changeEndian (ctx.mask.getD i 0)
  changeEndian
    (if i % 3 = 0 then cast5F1 sboxes d m (ctx.rotation i)
    else if i % 3 = 1 then cast5F2 sboxes d m (ctx.rotation i)
    else cast5F3 sboxes d m (ctx.rotation i))

def Ctx.rounds (ctx : Ctx) : Nat := if ctx.shortkey then 12 else 16

/-- One round of either direction. -/
def Ctx.round (sboxes : Sboxes) (ctx : Ctx) (halves : UInt32 × UInt32) (i : Nat) :
    UInt32 × UInt32 :=
  (halves.2, halves.1 ^^^ ctx.function sboxes i halves.2)

/-- The halves of a block, and the block that the loop leaves. -/
def blockHalves (block : List UInt8) : UInt32 × UInt32 :=
  let memory := writeBlock (fun _ => 0) 0 block
  (load memory 0, load memory 4)

def halvesBlock (halves : UInt32 × UInt32) : List UInt8 := bytes halves.2 ++ bytes halves.1

def cast5Enc (sboxes : Sboxes) (ctx : Ctx) (block : List UInt8) : List UInt8 :=
  halvesBlock ((List.range ctx.rounds).foldl (ctx.round sboxes) (blockHalves block))

def cast5Dec (sboxes : Sboxes) (ctx : Ctx) (block : List UInt8) : List UInt8 :=
  halvesBlock ((List.range ctx.rounds).reverse.foldl (ctx.round sboxes) (blockHalves block))

theorem xor_cancel (first second : UInt32) : (first ^^^ second) ^^^ second = first := by
  rw [UInt32.xor_assoc, UInt32.xor_self, UInt32.xor_zero]

theorem length_halvesBlock (halves : UInt32 × UInt32) : (halvesBlock halves).length = 8 := rfl

theorem blockHalves_halvesBlock (halves : UInt32 × UInt32) :
    blockHalves (halvesBlock halves) = halves.swap := by
  rw [blockHalves, Prod.ext_iff]
  exact ⟨ofBytes_bytes halves.2, ofBytes_bytes halves.1⟩

theorem halvesBlock_blockHalves {block : List UInt8} (whole : block.length = 8) :
    halvesBlock (blockHalves block).swap = block := by
  have next {rest : List UInt8} {count : Nat} (more : rest.length = count + 1) :
      ∃ head tail, rest = head :: tail ∧ tail.length = count := by
    obtain ⟨head, tail, rfl⟩ := List.exists_cons_of_length_eq_add_one more
    exact ⟨head, tail, rfl, Nat.succ.inj more⟩
  obtain ⟨b0, rest0, rfl, whole0⟩ := next whole
  obtain ⟨b1, rest1, rfl, whole1⟩ := next whole0
  obtain ⟨b2, rest2, rfl, whole2⟩ := next whole1
  obtain ⟨b3, rest3, rfl, whole3⟩ := next whole2
  obtain ⟨b4, rest4, rfl, whole4⟩ := next whole3
  obtain ⟨b5, rest5, rfl, whole5⟩ := next whole4
  obtain ⟨b6, rest6, rfl, whole6⟩ := next whole5
  obtain ⟨b7, rest7, rfl, whole7⟩ := next whole6
  rw [List.length_eq_zero_iff.mp whole7]
  exact congrArg₂ (· ++ ·) (bytes_ofBytes b0 b1 b2 b3) (bytes_ofBytes b4 b5 b6 b7)

/-- The rounds are a Feistel network. -/
theorem foldl_round (sboxes : Sboxes) (ctx : Ctx) (order : List Nat) (halves : UInt32 × UInt32) :
    order.foldl (ctx.round sboxes) halves =
      FeistelNetworks.network (· ^^^ ·) (order.map (ctx.function sboxes)) halves := by
  rw [FeistelNetworks.network, List.foldl_map]
  rfl

/-- Decryption undoes encryption, whatever the tables and the context hold. -/
theorem cast5Dec_cast5Enc (sboxes : Sboxes) (ctx : Ctx) {block : List UInt8}
    (whole : block.length = 8) : cast5Dec sboxes ctx (cast5Enc sboxes ctx block) = block := by
  have inverse := FeistelNetworks.cipher_reverse xor_cancel
    ((List.range ctx.rounds).map (ctx.function sboxes)) (blockHalves block)
  rw [FeistelNetworks.cipher, FeistelNetworks.cipher, ← List.map_reverse] at inverse
  rw [cast5Dec, cast5Enc, foldl_round, foldl_round, blockHalves_halvesBlock,
    ← Prod.swap_swap (FeistelNetworks.network _ _ (Prod.swap _)), inverse,
    halvesBlock_blockHalves whole]

theorem cast5Enc_cast5Dec (sboxes : Sboxes) (ctx : Ctx) {block : List UInt8}
    (whole : block.length = 8) : cast5Enc sboxes ctx (cast5Dec sboxes ctx block) = block := by
  have inverse := FeistelNetworks.cipher_reverse xor_cancel
    ((List.range ctx.rounds).reverse.map (ctx.function sboxes)) (blockHalves block)
  rw [FeistelNetworks.cipher, FeistelNetworks.cipher, ← List.map_reverse,
    List.reverse_reverse] at inverse
  rw [cast5Dec, cast5Enc, foldl_round, foldl_round, blockHalves_halvesBlock,
    ← Prod.swap_swap (FeistelNetworks.network _ _ (Prod.swap _)), inverse,
    halvesBlock_blockHalves whole]

/-- The cipher with the key that `openvpn_init` sets is one that the tunnel can use. -/
theorem cast5_inverts (sboxes : Sboxes) (md5 : List UInt8 → List UInt8)
    (hmacKey key : List UInt8) (stale : Memory) :
    Openvpn.Inverts
      { md5 := md5
        hmacKey := hmacKey
        cast5Dec := cast5Dec sboxes (cast5Init sboxes key 128 stale)
        cast5Enc := cast5Enc sboxes (cast5Init sboxes key 128 stale) } where
  length := fun _ _ => length_halvesBlock _
  inverse := fun _ whole => cast5Dec_cast5Enc sboxes _ whole

end Ethersex.Cast5

import Ethersex.BlockHashes
import Ethersex.LittleEndian
import Ethersex.OpenvpnTunnel
import Mathlib.Tactic.IntervalCases

/-!
# The hash of the tunnel

`core/crypto/md5.c` and the authentication of a packet with it in
`uip_openvpn.c`.  The hash rotates the role of the four words of an array and
keeps the number of blocks of a message, of which the last one is completed in
a buffer of its own.
-/

namespace Ethersex.Md5

open ByteMemory LittleEndian

/-- `md5_ctx_t`. -/
structure Ctx where
  a : Vector UInt32 4
  counter : UInt32

def md5Init : Ctx := ⟨#v[0x67452301, 0xefcdab89, 0x98badcfe, 0x10325476], 0⟩

def md5F (x y z : UInt32) : UInt32 := (x &&& y) ||| (~~~x &&& z)

def md5G (x y z : UInt32) : UInt32 := (x &&& z) ||| (~~~z &&& y)

def md5H (x y z : UInt32) : UInt32 := x ^^^ y ^^^ z

def md5I (x y z : UInt32) : UInt32 := y ^^^ (x ||| ~~~z)

def rotl32 (x : UInt32) (n : Nat) : UInt32 :=
  (x <<< UInt32.ofNat n) ||| (x >>> UInt32.ofNat (32 - n))

/-- `md5_T`. -/
def md5T : List UInt32 := [
  0xd76aa478, 0xe8c7b756, 0x242070db, 0xc1bdceee, 0xf57c0faf,
  0x4787c62a, 0xa8304613, 0xfd469501, 0x698098d8, 0x8b44f7af,
  0xffff5bb1, 0x895cd7be, 0x6b901122, 0xfd987193, 0xa679438e,
  0x49b40821, 0xf61e2562, 0xc040b340, 0x265e5a51, 0xe9b6c7aa,
  0xd62f105d, 0x02441453, 0xd8a1e681, 0xe7d3fbc8, 0x21e1cde6,
  0xc33707d6, 0xf4d50d87, 0x455a14ed, 0xa9e3e905, 0xfcefa3f8,
  0x676f02d9, 0x8d2a4c8a, 0xfffa3942, 0x8771f681, 0x6d9d6122,
  0xfde5380c, 0xa4beea44, 0x4bdecfa9, 0xf6bb4b60, 0xbebfbc70,
  0x289b7ec6, 0xeaa127fa, 0xd4ef3085, 0x04881d05, 0xd9d4d039,
  0xe6db99e5, 0x1fa27cf8, 0xc4ac5665, 0xf4292244, 0x432aff97,
  0xab9423a7, 0xfc93a039, 0x655b59c3, 0x8f0ccc92, 0xffeff47d,
  0x85845dd1, 0x6fa87e4f, 0xfe2ce6e0, 0xa3014314, 0x4e0811a1,
  0xf7537e82, 0xbd3af235, 0x2ad7d2bb, 0xeb86d391]

/-- `funcs` of `md5_core`. -/
def funcs : Nat → UInt32 → UInt32 → UInt32 → UInt32
  | 0 => md5F
  | 1 => md5G
  | 2 => md5H
  | _ => md5I

/-- `a[as & 3]`. -/
def wordAt (a : Vector UInt32 4) (as : Nat) : UInt32 := a.get (Fin.ofNat 4 as)

/-- `md5_core` with the word its `block` points to. -/
def md5Core (a : Vector UInt32 4) (block : UInt32) (as s i fi : Nat) : Vector UInt32 4 :=
  let t := wordAt a as + funcs fi (wordAt a (as + 1)) (wordAt a (as + 2)) (wordAt a (as + 3)) +
    block + md5T.getD i 0
  a.set (Fin.ofNat 4 as) (wordAt a (as + 1) + rotl32 t s) (Fin.ofNat 4 as).isLt

/-- The array with the number `i` of the step. -/
structure Steps where
  a : Vector UInt32 4
  i : Nat

/-- The inner loop of a round. -/
def md5Inner (block : Nat → UInt32) (word : Nat → Nat → Nat) (shifts : List Nat) (fi m : Nat)
    (steps : Steps) : Steps :=
  (List.range 4).foldl (fun steps n =>
    ⟨md5Core steps.a (block (word m n)) (4 - n) (shifts.getD n 0) steps.i fi, steps.i + 1⟩) steps

def md5Round (block : Nat → UInt32) (word : Nat → Nat → Nat) (shifts : List Nat) (fi : Nat)
    (steps : Steps) : Steps :=
  (List.range 4).foldl (fun steps m => md5Inner block word shifts fi m steps) steps

/-- `& 0xf` of a signed index. -/
def and15 (index : Int) : Nat := (index % 16).toNat

def md5Round1 (block : Nat → UInt32) : Steps → Steps :=
  md5Round block (fun m n => m * 4 + n) [7, 12, 17, 22] 0

def md5Round2 (block : Nat → UInt32) : Steps → Steps :=
  md5Round block (fun m n => and15 (1 + m * 4 + n * 5)) [5, 9, 14, 20] 1

def md5Round3 (block : Nat → UInt32) : Steps → Steps :=
  md5Round block (fun m n => and15 (5 - m * 4 + n * 3)) [4, 11, 16, 23] 2

def md5Round4 (block : Nat → UInt32) : Steps → Steps :=
  md5Round block (fun m n => and15 (0 - m * 4 + n * 7)) [6, 10, 15, 21] 3

/-- `md5_nextBlock` with the address of the block. -/
def md5NextBlock (state : Ctx) (memory : Memory) (address : Nat) : Ctx :=
  let block := fun index => load memory (address + 4 * index)
  let steps := md5Round4 block (md5Round3 block (md5Round2 block (md5Round1 block ⟨state.a, 0⟩)))
  ⟨state.a.zipWith (· + ·) steps.a, state.counter + 1⟩

/-- What the loop over the whole blocks leaves of a message. -/
structure Rest where
  state : Ctx
  block : Nat
  lengthB : Nat

/-- The loop over the whole blocks in `md5_lastBlock` and in `md5`. -/
def md5Blocks (memory : Memory) (state : Ctx) (block lengthB : Nat) : Rest :=
  if 512 ≤ lengthB then
    md5Blocks memory (md5NextBlock state memory block) (block + 64) (lengthB - 512)
  else
    ⟨state, block, lengthB⟩
termination_by lengthB

/-- The mark at the end of the message in `md5_lastBlock`, with bits of the last byte. -/
def mark (memory : Memory) (block lengthB : Nat) : UInt8 :=
  if lengthB % 8 ≠ 0 then
    memory (block + lengthB / 8) ||| (0x80 : UInt8) >>> UInt8.ofNat (lengthB % 8)
  else
    0x80

/-- `md5_lastBlock` after its loop. -/
def md5Tail (memory : Memory) (rest : Rest) : Ctx :=
  let l := rest.lengthB / 8
  let b := writeBlock (fun _ => 0) 0 (readBlock memory rest.block l)
  let b := Function.update b l (mark memory rest.block rest.lengthB)
  let extra := 64 ≤ l + 8
  let next := md5NextBlock rest.state b 0
  let state := if extra then { next with counter := next.counter - 1 } else rest.state
  let b := if extra then fillBlock b 0 56 0 else b
  md5NextBlock state
    (writeBlock b 56 (bytes (state.counter * 512 + UInt32.ofNat rest.lengthB) ++ bytes 0)) 0

def md5LastBlock (state : Ctx) (memory : Memory) (block : Nat) (lengthB : UInt16) : Ctx :=
  md5Tail memory (md5Blocks memory state block lengthB.toNat)

/-- `md5_ctx2hash`. -/
def md5Ctx2hash (state : Ctx) : List UInt8 :=
  state.a.toList.flatMap bytes

def md5 (memory : Memory) (msg : Nat) (lengthB : UInt32) : List UInt8 :=
  let rest := md5Blocks memory md5Init msg lengthB.toNat
  md5Ctx2hash (md5LastBlock rest.state memory rest.block (UInt16.ofNat rest.lengthB))

/-- `openvpn_hmac_calc` with what the stack held before. -/
def openvpnHmacCalc (stack hmacKey memory : Memory) (src : Nat) (len : UInt16) : List UInt8 :=
  let buf := fun pad : UInt8 => writeBlock stack 0
    ((readBlock hmacKey 0 16).map (· ^^^ pad) ++ List.replicate 48 pad)
  let ctxInner := md5LastBlock (md5NextBlock md5Init (buf 0x36) 0) memory src (len <<< 3)
  let ctxOuter := md5LastBlock (md5NextBlock md5Init (buf 0x5c) 0)
    (writeBlock stack 0 (md5Ctx2hash ctxInner)) 0 128
  md5Ctx2hash ctxOuter

structure Registers where
  a : UInt32
  b : UInt32
  c : UInt32
  d : UInt32
deriving DecidableEq

/-- The word of the block in one of the 64 steps. -/
def wordOf (step : Nat) : Nat :=
  match step / 16 with
  | 0 => step % 16
  | 1 => (5 * step + 1) % 16
  | 2 => (3 * step + 5) % 16
  | _ => 7 * step % 16

def shiftOf (step : Nat) : Nat :=
  match step / 16 with
  | 0 => [7, 12, 17, 22].getD (step % 4) 0
  | 1 => [5, 9, 14, 20].getD (step % 4) 0
  | 2 => [4, 11, 16, 23].getD (step % 4) 0
  | _ => [6, 10, 15, 21].getD (step % 4) 0

/-- One step: the registers move on, and `b` gets a new value. -/
def md5Step (block : Nat → UInt32) (registers : Registers) (step : Nat) : Registers :=
  let sum := registers.a + funcs (step / 16) registers.b registers.c registers.d +
    block (wordOf step) + md5T.getD step 0
  ⟨registers.d, registers.b + ⟨sum.toBitVec.rotateLeft (shiftOf step)⟩, registers.b, registers.c⟩

/-- The words of a block. -/
def blockWords (block : List UInt8) (index : Nat) : UInt32 :=
  ofBytes (block.getD (4 * index) 0) (block.getD (4 * index + 1) 0) (block.getD (4 * index + 2) 0)
    (block.getD (4 * index + 3) 0)

def compress (registers : Registers) (block : List UInt8) : Registers :=
  let last := (List.range 64).foldl (md5Step (blockWords block)) registers
  ⟨registers.a + last.a, registers.b + last.b, registers.c + last.c, registers.d + last.d⟩

/-- The number of bits as a word of 64 bits, its lower half first. -/
def lengthField (length : Nat) : List UInt8 :=
  bytes (UInt32.ofNat (8 * length)) ++ bytes (UInt32.ofNat (8 * length / 2 ^ 32))

def initial : Registers := ⟨0x67452301, 0xefcdab89, 0x98badcfe, 0x10325476⟩

def Registers.bytes (registers : Registers) : List UInt8 :=
  LittleEndian.bytes registers.a ++ LittleEndian.bytes registers.b ++
    LittleEndian.bytes registers.c ++ LittleEndian.bytes registers.d

/-- The hash of a message of whole bytes. -/
def md5Rfc (message : List UInt8) : List UInt8 :=
  (BlockHashes.digest 64 compress initial
    (BlockHashes.completed 64 0x80 0 (lengthField message.length) message)).bytes

/-- The keyed hash, with a key of at most 64 bytes. -/
def hmacRfc (key message : List UInt8) : List UInt8 :=
  let padded := key ++ List.replicate (64 - key.length) 0
  md5Rfc (padded.map (· ^^^ 0x5c) ++ md5Rfc (padded.map (· ^^^ 0x36) ++ message))

/-- The words of the array as the registers of the step that starts at `as`. -/
def view (a : Vector UInt32 4) (as : Nat) : Registers :=
  ⟨wordAt a as, wordAt a (as + 1), wordAt a (as + 2), wordAt a (as + 3)⟩

theorem wordAt_congr (a : Vector UInt32 4) {first second : Nat} (same : first % 4 = second % 4) :
    wordAt a first = wordAt a second := by
  rw [wordAt, wordAt, show Fin.ofNat 4 first = Fin.ofNat 4 second from Fin.ext same]

theorem wordAt_set (a : Vector UInt32 4) (as other : Nat) (value : UInt32) :
    wordAt (a.set (Fin.ofNat 4 as) value (Fin.ofNat 4 as).isLt) other =
      if as % 4 = other % 4 then value else wordAt a other := by
  change (a.set (Fin.ofNat 4 as).val value _)[(Fin.ofNat 4 other).val] = _
  rw [Vector.getElem_set]
  rfl

theorem view_add_four (a : Vector UInt32 4) (as : Nat) : view a (as + 4) = view a as := by
  simp only [view, Registers.mk.injEq]
  exact ⟨wordAt_congr a (by omega), wordAt_congr a (by omega), wordAt_congr a (by omega),
    wordAt_congr a (by omega)⟩

theorem rotl32_eq {shift : Nat} (positive : 0 < shift) (small : shift < 32) (x : UInt32) :
    rotl32 x shift = ⟨x.toBitVec.rotateLeft shift⟩ := by
  have left : (UInt32.ofNat shift).toNat % 32 = shift := by
    rw [UInt32.toNat_ofNat']
    omega
  have right : (UInt32.ofNat (32 - shift)).toNat % 32 = 32 - shift := by
    rw [UInt32.toNat_ofNat']
    omega
  apply UInt32.eq_of_toBitVec_eq
  rw [BitVec.rotateLeft_def, Nat.mod_eq_of_lt small, rotl32, UInt32.toBitVec_or,
    UInt32.toBitVec_shiftLeft, UInt32.toBitVec_shiftRight, BitVec.shiftLeft_eq',
    BitVec.ushiftRight_eq', BitVec.toNat_umod, BitVec.toNat_umod, UInt32.toNat_toBitVec,
    UInt32.toNat_toBitVec]
  change x.toBitVec <<< ((UInt32.ofNat shift).toNat % 32) |||
    x.toBitVec >>> ((UInt32.ofNat (32 - shift)).toNat % 32) = _
  rw [left, right]

theorem shiftOf_bounds {step : Nat} (inside : step < 64) :
    0 < shiftOf step ∧ shiftOf step < 32 := by
  revert step
  decide

/-- A step of the code writes one word of the array and turns it by one place. -/
theorem md5Core_view (block : Nat → UInt32) (a : Vector UInt32 4) (as : Nat) {step : Nat}
    (inside : step < 64) :
    view (md5Core a (block (wordOf step)) as (shiftOf step) step (step / 16)) (as + 3) =
      md5Step block (view a as) step := by
  obtain ⟨positive, small⟩ := shiftOf_bounds inside
  simp only [view, md5Core, wordAt_set, md5Step, rotl32_eq positive small, Registers.mk.injEq]
  refine ⟨if_neg (by omega), if_pos (by omega), ?_, ?_⟩
  · rw [if_neg (by omega)]
    exact wordAt_congr a (by omega)
  · rw [if_neg (by omega)]
    exact wordAt_congr a (by omega)

/-- The word and the shift that a round takes in its step `n` of the inner loop `m`. -/
def Follows (word : Nat → Nat → Nat) (shifts : List Nat) (fi : Nat) : Prop :=
  ∀ m < 4, ∀ n < 4, word m n = wordOf (16 * fi + (4 * m + n)) ∧
    shifts.getD n 0 = shiftOf (16 * fi + (4 * m + n))

instance (word : Nat → Nat → Nat) (shifts : List Nat) (fi : Nat) :
    Decidable (Follows word shifts fi) :=
  inferInstanceAs (Decidable (∀ m < 4, ∀ n < 4, word m n = wordOf (16 * fi + (4 * m + n)) ∧
    shifts.getD n 0 = shiftOf (16 * fi + (4 * m + n))))

variable {word : Nat → Nat → Nat} {shifts : List Nat} {fi : Nat}

theorem md5Inner_view (follows : Follows word shifts fi) (inside : fi < 4) {m : Nat} (round : m < 4)
    (block : Nat → UInt32) {steps : Steps} (start : steps.i = 16 * fi + 4 * m) :
    view (md5Inner block word shifts fi m steps).a 4 =
      (List.range' (16 * fi + 4 * m) 4).foldl (md5Step block) (view steps.a 4) ∧
    (md5Inner block word shifts fi m steps).i = 16 * fi + 4 * (m + 1) := by
  have turned (a : Vector UInt32 4) {n : Nat} (small : n < 4) :
      view (md5Core a (block (word m n)) (4 - n) (shifts.getD n 0) (16 * fi + 4 * m + n) fi)
        (4 - n + 3) = md5Step block (view a (4 - n)) (16 * fi + 4 * m + n) := by
    obtain ⟨sameWord, sameShift⟩ := follows m round n small
    have number : 16 * fi + (4 * m + n) = 16 * fi + 4 * m + n := by omega
    have quarter : (16 * fi + 4 * m + n) / 16 = fi := by omega
    have step := md5Core_view block a (4 - n) (show 16 * fi + 4 * m + n < 64 by omega)
    rw [quarter] at step
    rw [sameWord, sameShift, number, step]
  obtain ⟨a, i⟩ := steps
  dsimp only at start
  subst start
  constructor
  · have first := turned a (show 0 < 4 by decide)
    rw [show 4 - 0 + 3 = 3 + 4 from rfl, view_add_four] at first
    have second := fun a => turned a (show 1 < 4 by decide)
    have third := fun a => turned a (show 2 < 4 by decide)
    have fourth := fun a => turned a (show 3 < 4 by decide)
    simp only [show 4 - 1 + 3 = 2 + 4 from rfl, view_add_four] at second
    simp only [show 4 - 2 + 3 = 1 + 4 from rfl, view_add_four] at third
    change _ = md5Step block (md5Step block (md5Step block (md5Step block (view a 4)
      (16 * fi + 4 * m + 0)) (16 * fi + 4 * m + 1)) (16 * fi + 4 * m + 2)) (16 * fi + 4 * m + 3)
    rw [← first, ← second, ← third, ← fourth]
    rfl
  · change 16 * fi + 4 * m + 1 + 1 + 1 + 1 = _
    omega

/-- A round is 16 steps in a row. -/
theorem md5Round_view (follows : Follows word shifts fi) (inside : fi < 4) (block : Nat → UInt32)
    {steps : Steps} (start : steps.i = 16 * fi) :
    view (md5Round block word shifts fi steps).a 4 =
      (List.range' (16 * fi) 16).foldl (md5Step block) (view steps.a 4) ∧
    (md5Round block word shifts fi steps).i = 16 * (fi + 1) := by
  have inner {m : Nat} (round : m < 4) {steps : Steps} (start : steps.i = 16 * fi + 4 * m) :=
    md5Inner_view follows inside round block start
  obtain ⟨view1, start1⟩ := inner (show 0 < 4 by decide) start
  obtain ⟨view2, start2⟩ := inner (show 1 < 4 by decide) start1
  obtain ⟨view3, start3⟩ := inner (show 2 < 4 by decide) start2
  obtain ⟨view4, start4⟩ := inner (show 3 < 4 by decide) start3
  have parts : List.range' (16 * fi) 16 = List.range' (16 * fi + 4 * 0) 4 ++
      List.range' (16 * fi + 4 * 1) 4 ++ List.range' (16 * fi + 4 * 2) 4 ++
      List.range' (16 * fi + 4 * 3) 4 := by
    rfl
  constructor
  · rw [parts, List.foldl_append, List.foldl_append, List.foldl_append, ← view1, ← view2, ← view3,
      ← view4]
    rfl
  · rw [show 16 * (fi + 1) = 16 * fi + 4 * (3 + 1) by omega, ← start4]
    rfl

theorem md5Rounds_view (block : Nat → UInt32) (a : Vector UInt32 4) :
    view (md5Round4 block (md5Round3 block (md5Round2 block (md5Round1 block ⟨a, 0⟩)))).a 0 =
      (List.range 64).foldl (md5Step block) (view a 0) := by
  obtain ⟨view1, start1⟩ := md5Round_view
    (show Follows (fun m n => m * 4 + n) [7, 12, 17, 22] 0 by decide) (by decide) block
    (show (Steps.mk a 0).i = 16 * 0 from rfl)
  obtain ⟨view2, start2⟩ := md5Round_view
    (show Follows (fun m n => and15 (1 + m * 4 + n * 5)) [5, 9, 14, 20] 1 by decide) (by decide)
    block start1
  obtain ⟨view3, start3⟩ := md5Round_view
    (show Follows (fun m n => and15 (5 - m * 4 + n * 3)) [4, 11, 16, 23] 2 by decide) (by decide)
    block start2
  obtain ⟨view4, _⟩ := md5Round_view
    (show Follows (fun m n => and15 (0 - m * 4 + n * 7)) [6, 10, 15, 21] 3 by decide) (by decide)
    block start3
  have parts : List.range 64 = List.range' (16 * 0) 16 ++ List.range' (16 * 1) 16 ++
      List.range' (16 * 2) 16 ++ List.range' (16 * 3) 16 := by
    rfl
  rw [← view_add_four, ← view_add_four a, parts, List.foldl_append, List.foldl_append,
    List.foldl_append, ← view1, ← view2, ← view3, ← view4]
  rfl

def Ctx.registers (state : Ctx) : Registers := view state.a 0

theorem wordOf_lt (step : Nat) : wordOf step < 16 := by
  rw [wordOf]
  split <;> omega

theorem blockWords_readBlock (memory : Memory) (address : Nat) {index : Nat} (inside : index < 16) :
    blockWords (readBlock memory address 64) index = load memory (address + 4 * index) := by
  rw [blockWords, load, getD_readBlock (by omega), getD_readBlock (by omega),
    getD_readBlock (by omega), getD_readBlock (by omega)]
  rfl

theorem md5NextBlock_registers (state : Ctx) (memory : Memory) (address : Nat) :
    (md5NextBlock state memory address).registers =
      compress state.registers (readBlock memory address 64) := by
  have sameSteps : md5Step (blockWords (readBlock memory address 64)) =
      md5Step fun index => load memory (address + 4 * index) := by
    funext registers step
    rw [md5Step, md5Step, blockWords_readBlock memory address (wordOf_lt step)]
  have rounds := md5Rounds_view (fun index => load memory (address + 4 * index)) state.a
  rw [compress, sameSteps, Ctx.registers, Ctx.registers, ← rounds]
  simp only [md5NextBlock, view, wordAt, Registers.mk.injEq]
  generalize (md5Round4 _ _).a = last
  have sum (index : Fin 4) :
      (state.a.zipWith (· + ·) last).get index = state.a.get index + last.get index := by
    change (state.a.zipWith (· + ·) last)[index.val] = _
    rw [Vector.getElem_zipWith]
    rfl
  exact ⟨sum _, sum _, sum _, sum _⟩

theorem md5Blocks_eq (memory : Memory) (state : Ctx) (block lengthB : Nat) :
    md5Blocks memory state block lengthB =
      if 512 ≤ lengthB then
        md5Blocks memory (md5NextBlock state memory block) (block + 64) (lengthB - 512)
      else ⟨state, block, lengthB⟩ := by
  rw [md5Blocks]

/-- The loop absorbs the whole blocks and stops at the first one that is not whole. -/
theorem md5Blocks_absorb (memory : Memory) (count : Nat) (state : Ctx) (block rest : Nat)
    (short : rest < 512) :
    (md5Blocks memory state block (512 * count + rest)).state.registers =
      BlockHashes.absorb 64 compress count state.registers
        (readBlock memory block (64 * count)) ∧
    (md5Blocks memory state block (512 * count + rest)).state.counter =
      state.counter + UInt32.ofNat count ∧
    (md5Blocks memory state block (512 * count + rest)).block = block + 64 * count ∧
    (md5Blocks memory state block (512 * count + rest)).lengthB = rest := by
  induction count generalizing state block with
  | zero =>
      rw [md5Blocks_eq, if_neg (by omega)]
      refine ⟨rfl, ?_, rfl, by simp⟩
      simp
  | succ count ih =>
      obtain ⟨registers, counter, address, length⟩ :=
        ih (md5NextBlock state memory block) (block + 64)
      rw [md5Blocks_eq, if_pos (by omega),
        show 512 * (count + 1) + rest - 512 = 512 * count + rest by omega]
      refine ⟨?_, ?_, by omega, length⟩
      · rw [registers, md5NextBlock_registers, show 64 * (count + 1) = 64 + 64 * count by omega,
          readBlock_append, BlockHashes.absorb, List.take_left' (length_readBlock _ _ _),
          List.drop_left' (length_readBlock _ _ _)]
      · rw [counter, UInt32.ofNat_add]
        change state.counter + 1 + _ = _
        rw [UInt32.add_assoc, UInt32.add_comm 1]
        rfl

theorem readBlock_zeros (bytes : List UInt8) {size : Nat} (fits : bytes.length ≤ size) :
    readBlock (writeBlock (fun _ => 0) 0 bytes) 0 size =
      bytes ++ List.replicate (size - bytes.length) 0 := by
  obtain ⟨more, rfl⟩ := Nat.exists_eq_add_of_le fits
  rw [readBlock_append, readBlock_writeBlock_same, Nat.add_sub_cancel_left,
    readBlock_writeBlock_disjoint (by omega), readBlock, List.map_const', List.length_range]

/-- The field for the length ends the buffer. -/
theorem readBlock_field (memory : Memory) {field : List UInt8} (eight : field.length = 8) :
    readBlock (writeBlock memory 56 field) 0 64 = readBlock memory 0 56 ++ field := by
  rw [readBlock_writeBlock_inside (by omega) (by omega), eight, readBlock_zero, List.append_nil]

/-- The buffer gets the rest of the message with its completion, in one block or in two. -/
theorem md5Tail_registers (memory : Memory) (state : Ctx) (block : Nat) {rest : Nat}
    (short : rest < 64) :
    (md5Tail memory ⟨state, block, 8 * rest⟩).registers =
      BlockHashes.digest 64 compress state.registers (BlockHashes.completed 64 0x80 0
        (bytes (state.counter * 512 + UInt32.ofNat (8 * rest)) ++ bytes 0)
        (readBlock memory block rest)) := by
  have whole : mark memory block (8 * rest) = 0x80 := if_neg (by omega)
  have bytesOf : 8 * rest / 8 = rest := by omega
  have marked :
      Function.update (writeBlock (fun _ => 0) 0 (readBlock memory block rest)) rest 0x80 =
      writeBlock (fun _ => 0) 0 (readBlock memory block rest ++ [0x80]) := by
    rw [writeBlock_append, length_readBlock, Nat.zero_add, writeBlock_singleton]
  have fieldLength (word : UInt32) : (bytes word ++ bytes 0).length = 8 := rfl
  simp only [md5Tail, whole, bytesOf, marked, BlockHashes.completed, BlockHashes.zeros,
    length_readBlock, fieldLength]
  generalize stored : bytes (state.counter * 512 + UInt32.ofNat (8 * rest)) ++ bytes 0 = field
  have eight : field.length = 8 := by
    rw [← stored]
    rfl
  have tail : (readBlock memory block rest ++ [0x80]).length = rest + 1 := by
    rw [List.length_append, length_readBlock, List.length_singleton]
  by_cases extra : 64 ≤ rest + 8
  · have counter (buffer : Memory) :
        (md5NextBlock state buffer 0).counter - 1 = state.counter := UInt32.add_sub_cancel _ _
    have first :
        readBlock (writeBlock (fun _ => 0) 0 (readBlock memory block rest ++ [0x80])) 0 64 =
        readBlock memory block rest ++ 0x80 :: List.replicate (63 - rest) 0 := by
      rw [readBlock_zeros _ (by omega), tail, show 64 - (rest + 1) = 63 - rest by omega,
        List.append_assoc, List.singleton_append]
    have second (buffer : Memory) : readBlock (writeBlock (fillBlock buffer 0 56 0) 56 field) 0 64 =
        List.replicate 56 0 ++ field := by
      have cleared := readBlock_writeBlock_same buffer 0 (List.replicate 56 0)
      rw [List.length_replicate] at cleared
      rw [readBlock_field _ eight, fillBlock, cleared]
    have zeros : (2 * 64 - 1 - 8 - rest % 64) % 64 = 63 - rest + 56 := by omega
    have split : readBlock memory block rest ++ 0x80 :: List.replicate (63 - rest + 56) 0 ++ field =
        (readBlock memory block rest ++ 0x80 :: List.replicate (63 - rest) 0) ++
          (List.replicate 56 0 ++ field) := by
      simp only [List.replicate_add, List.append_assoc, List.cons_append]
    simp only [if_pos extra, counter, stored]
    rw [zeros, split, BlockHashes.digest_block (by decide) (by simp; omega),
      BlockHashes.digest_single (by decide) (by simp [eight]), ← first, ← md5NextBlock_registers,
      md5NextBlock_registers, second]
    rfl
  · have only : readBlock (writeBlock (writeBlock (fun _ => 0) 0
        (readBlock memory block rest ++ [0x80])) 56 field) 0 64 =
        readBlock memory block rest ++ 0x80 :: List.replicate (55 - rest) 0 ++ field := by
      rw [readBlock_field _ eight, readBlock_zeros _ (by omega), tail,
        show 56 - (rest + 1) = 55 - rest by omega]
      simp only [List.append_assoc, List.cons_append, List.nil_append]
    have zeros : (2 * 64 - 1 - 8 - rest % 64) % 64 = 55 - rest := by omega
    simp only [if_neg extra, stored]
    rw [zeros, BlockHashes.digest_single (by decide) (by simp [eight]; omega), ← only,
      ← md5NextBlock_registers]

/-- The message may have been absorbed in part before. -/
theorem md5LastBlock_registers {state : Ctx} {front : List UInt8} {count : Nat}
    (whole : front.length = count * 64)
    (absorbed : state.registers = BlockHashes.absorb 64 compress count initial front)
    (counted : state.counter = UInt32.ofNat count) (memory : Memory) (block : Nat) {length : Nat}
    {lengthB : UInt16} (bits : lengthB.toNat = 8 * length)
    (small : 8 * (front.length + length) < 2 ^ 32) :
    (md5LastBlock state memory block lengthB).registers =
      BlockHashes.digest 64 compress initial (BlockHashes.completed 64 0x80 0
        (lengthField (front.length + length)) (front ++ readBlock memory block length)) := by
  have split : length = 64 * (length / 64) + length % 64 := by omega
  obtain ⟨registers, counter, address, left⟩ := md5Blocks_absorb memory (length / 64) state block
    (8 * (length % 64)) (by omega)
  rw [← show 8 * length = 512 * (length / 64) + 8 * (length % 64) by omega, ← bits]
    at registers counter address left
  have wholeMore : (front ++ readBlock memory block (64 * (length / 64))).length =
      (count + length / 64) * 64 := by
    rw [List.length_append, length_readBlock, whole]
    omega
  have message : front ++ readBlock memory block length =
      (front ++ readBlock memory block (64 * (length / 64))) ++
        readBlock memory (block + 64 * (length / 64)) (length % 64) := by
    conv_lhs => rw [split, readBlock_append]
    rw [List.append_assoc]
  have field : lengthField (front.length + length) =
      bytes ((state.counter + UInt32.ofNat (length / 64)) * 512 +
        UInt32.ofNat (8 * (length % 64))) ++ bytes 0 := by
    have high : 8 * (front.length + length) / 2 ^ 32 = 0 := Nat.div_eq_of_lt small
    have low : 8 * (front.length + length) =
        (count + length / 64) * 512 + 8 * (length % 64) := by omega
    rw [lengthField, high, low, counted, UInt32.ofNat_add, UInt32.ofNat_mul, UInt32.ofNat_add]
    rfl
  have rest : md5Blocks memory state block lengthB.toNat =
      ⟨(md5Blocks memory state block lengthB.toNat).state, block + 64 * (length / 64),
        8 * (length % 64)⟩ := by
    rw [← address, ← left]
  rw [md5LastBlock, rest, md5Tail_registers memory _ _ (Nat.mod_lt _ (by decide)), message,
    BlockHashes.completed_append wholeMore, BlockHashes.digest_append (by decide) wholeMore,
    BlockHashes.absorb_append whole, ← absorbed, ← registers, field, counter]

theorem md5Ctx2hash_eq (state : Ctx) : md5Ctx2hash state = state.registers.bytes := by
  obtain ⟨a, counter⟩ := state
  obtain ⟨array, four⟩ := a
  obtain ⟨list⟩ := array
  simp only [List.size_toArray] at four
  obtain ⟨w0, w1, w2, w3, rfl⟩ : ∃ w0 w1 w2 w3, list = [w0, w1, w2, w3] := by
    obtain ⟨w0, list, rfl⟩ := List.exists_cons_of_length_eq_add_one four
    obtain ⟨w1, list, rfl⟩ := List.exists_cons_of_length_eq_add_one (Nat.succ.inj four)
    obtain ⟨w2, list, rfl⟩ := List.exists_cons_of_length_eq_add_one
      (Nat.succ.inj (Nat.succ.inj four))
    obtain ⟨w3, rfl⟩ := List.length_eq_one_iff.mp (Nat.succ.inj (Nat.succ.inj (Nat.succ.inj four)))
    exact ⟨w0, w1, w2, w3, rfl⟩
  simp only [md5Ctx2hash, Ctx.registers, Registers.bytes, view, wordAt]
  simp [Vector.get]

theorem length_md5Rfc (message : List UInt8) : (md5Rfc message).length = 16 := rfl

/-- `md5` is the hash of its message. -/
theorem md5_eq_md5Rfc (memory : Memory) (msg : Nat) (lengthB : UInt32)
    (wholeBytes : lengthB.toNat % 8 = 0) :
    md5 memory msg lengthB = md5Rfc (readBlock memory msg (lengthB.toNat / 8)) := by
  have bound := lengthB.toNat_lt
  obtain ⟨length, bits⟩ : ∃ length, lengthB.toNat = 8 * length :=
    ⟨lengthB.toNat / 8, by omega⟩
  obtain ⟨registers, counter, address, left⟩ := md5Blocks_absorb memory (length / 64) md5Init msg
    (8 * (length % 64)) (by omega)
  rw [← show 8 * length = 512 * (length / 64) + 8 * (length % 64) by omega, ← bits]
    at registers counter address left
  have front : (readBlock memory msg (64 * (length / 64))).length = length / 64 * 64 := by
    rw [length_readBlock, Nat.mul_comm]
  have rest : (UInt16.ofNat (8 * (length % 64))).toNat = 8 * (length % 64) := by
    rw [UInt16.toNat_ofNat']
    omega
  have counted : (md5Blocks memory md5Init msg lengthB.toNat).state.counter =
      UInt32.ofNat (length / 64) := by
    rw [counter]
    exact UInt32.zero_add _
  have total : 64 * (length / 64) + length % 64 = length := Nat.div_add_mod length 64
  have hash := md5LastBlock_registers front registers counted memory
    (msg + 64 * (length / 64)) rest (by rw [length_readBlock]; omega)
  rw [← readBlock_append, length_readBlock, total] at hash
  rw [md5, md5Ctx2hash_eq, left, address, hash, md5Rfc, length_readBlock, bits,
    Nat.mul_div_cancel_left _ (by decide)]

theorem md5_eq_md5Rfc_sample :
    md5 (fun _ => 0) 0 640 = md5Rfc (readBlock (fun _ => 0) 0 80) :=
  md5_eq_md5Rfc (fun _ => 0) 0 640 (by decide)

/-- One block with the key, then a message. -/
theorem md5LastBlock_keyed (stack : Memory) {front : List UInt8} (whole : front.length = 64)
    (memory : Memory) (src : Nat) {length : Nat} {lengthB : UInt16}
    (bits : lengthB.toNat = 8 * length) :
    md5Ctx2hash (md5LastBlock (md5NextBlock md5Init (writeBlock stack 0 front) 0) memory src
      lengthB) = md5Rfc (front ++ readBlock memory src length) := by
  have bound := lengthB.toNat_lt
  have block : readBlock (writeBlock stack 0 front) 0 64 = front := by
    rw [← whole, readBlock_writeBlock_same]
  have absorbed : (md5NextBlock md5Init (writeBlock stack 0 front) 0).registers =
      BlockHashes.absorb 64 compress 1 initial front := by
    rw [md5NextBlock_registers, block, BlockHashes.absorb, BlockHashes.absorb, ← whole,
      List.take_length]
    rfl
  have hash := md5LastBlock_registers (whole.trans (Nat.one_mul 64).symm) absorbed rfl memory src
    bits (by omega)
  rw [md5Ctx2hash_eq, hash, md5Rfc, List.length_append, length_readBlock]

/-- `openvpn_hmac_calc` is the keyed hash of the packet, of which the length in bits has 16
bits. -/
theorem openvpnHmacCalc_eq_hmacRfc (stack hmacKey memory : Memory) (src : Nat) (len : UInt16) :
    openvpnHmacCalc stack hmacKey memory src len =
      hmacRfc (readBlock hmacKey 0 16) (readBlock memory src (len.toNat % 8192)) := by
  have bits : (len <<< 3).toNat = 8 * (len.toNat % 8192) := by
    have shift : (3 : UInt16).toNat % 16 = 3 := rfl
    rw [UInt16.toNat_shiftLeft, shift, Nat.shiftLeft_eq]
    omega
  have key (pad : UInt8) : ((readBlock hmacKey 0 16).map (· ^^^ pad) ++
      List.replicate 48 pad).length = 64 := by
    simp
  have padded (pad : UInt8) : (readBlock hmacKey 0 16 ++
      List.replicate (64 - (readBlock hmacKey 0 16).length) 0).map (· ^^^ pad) =
      (readBlock hmacKey 0 16).map (· ^^^ pad) ++ List.replicate 48 pad := by
    rw [List.map_append, length_readBlock, List.map_replicate, UInt8.zero_xor]
  have sixteen := length_md5Rfc ((readBlock hmacKey 0 16).map (· ^^^ 0x36) ++
    List.replicate 48 0x36 ++ readBlock memory src (len.toNat % 8192))
  rw [openvpnHmacCalc, hmacRfc, padded, padded]
  dsimp only
  rw [md5LastBlock_keyed stack (key 0x36) memory src bits,
    md5LastBlock_keyed stack (key 0x5c) _ 0 (show (128 : UInt16).toNat = 8 * 16 from rfl)]
  generalize md5Rfc (_ ++ readBlock memory src _) = inner at sixteen
  rw [← sixteen, readBlock_writeBlock_same]

/-- The tunnel authenticates with this hash. -/
theorem openvpnHmacCalc_eq (crypto : Openvpn.Crypto) (known : crypto.md5 = md5Rfc)
    (stack hmacKey memory : Memory) (key : crypto.hmacKey = readBlock hmacKey 0 16) (src : Nat)
    (len : UInt16) :
    openvpnHmacCalc stack hmacKey memory src len =
      Openvpn.openvpnHmacCalc crypto (readBlock memory src (len.toNat % 8192)) := by
  have block (pad : UInt8) : Openvpn.keyBlock crypto pad =
      (readBlock hmacKey 0 16 ++ List.replicate (64 - (readBlock hmacKey 0 16).length) 0).map
        (· ^^^ pad) := by
    rw [Openvpn.keyBlock, key, List.take_of_length_le (by simp), List.map_append, length_readBlock,
      List.map_replicate, UInt8.zero_xor]
  rw [openvpnHmacCalc_eq_hmacRfc, hmacRfc, Openvpn.openvpnHmacCalc, block, block, known]

end Ethersex.Md5

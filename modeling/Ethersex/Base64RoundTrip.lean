import Mathlib.Data.Nat.Cast.Order.Ring
import Mathlib.Data.Nat.SuccPred
import Mathlib.Order.Lattice.Nat
import Ethersex.HttpdServer

/-!
# Base 64

The encoder of `core/util/base64.c` collects three bytes in a 24-bit number and writes its
groups of six bits through a table; the decoder, embedded with the HTTP server, finds the
six bits of a character in another table.  Lengths and positions have 16 bits.
-/

namespace Ethersex.Base64

open Httpd (sextet decodeblock padding base64Decode)

/-- `base64_table`. -/
def base64Table : List UInt8 :=
  [65, 66, 67, 68, 69, 70, 71, 72, 73, 74, 75, 76, 77, 78, 79, 80, 81, 82, 83, 84, 85, 86, 87, 88,
    89, 90, 97, 98, 99, 100, 101, 102, 103, 104, 105, 106, 107, 108, 109, 110, 111, 112, 113, 114,
    115, 116, 117, 118, 119, 120, 121, 122, 48, 49, 50, 51, 52, 53, 54, 55, 56, 57, 43, 47]

def tableCharacter (index : UInt32) : UInt8 :=
  base64Table.getD (index &&& 0x3f).toNat 0

/-- The bytes of a group, in `chunk`. -/
def chunkOf (group : List UInt8) : UInt32 :=
  group.foldl (fun chunk byte => chunk <<< 8 ||| byte.toUInt32) 0

/-- The loop that writes the full groups of six bits: the bits that are left, and the output. -/
def writeSextets (maxLen : Nat) (chunk : UInt32) (bits : Nat) (output : List UInt8) :
    Nat × List UInt8 :=
  if 6 ≤ bits ∧ (output.length + 1) % 65536 ≤ maxLen then
    writeSextets maxLen chunk (bits - 6)
      (output ++ [tableCharacter (chunk >>> UInt32.ofNat (bits - 6))])
  else (bits, output)
termination_by bits

/-- The characters of one group of up to three bytes. -/
def writeGroup (maxLen : Nat) (group output : List UInt8) : List UInt8 :=
  let chunk := chunkOf group
  let (bits, output) := writeSextets maxLen chunk (8 * group.length) output
  if 0 < bits ∧ (output.length + 1) % 65536 ≤ maxLen then
    output ++ [tableCharacter (chunk <<< UInt32.ofNat (6 - bits))]
  else output

def encodeLoop (maxLen : Nat) (input output : List UInt8) : List UInt8 :=
  if input ≠ [] ∧ (output.length + 4) % 65536 ≤ maxLen then
    encodeLoop maxLen (input.drop 3) (writeGroup maxLen (input.take 3) output)
  else output
termination_by input.length
decreasing_by
  have := List.length_pos_iff.mpr (by tauto : input ≠ [])
  rw [List.length_drop]
  omega

def padLoop (maxLen : Nat) (output : List UInt8) : List UInt8 :=
  if output.length < maxLen ∧ output.length % 4 ≠ 0 then padLoop maxLen (output ++ [61])
  else output
termination_by (4 - output.length % 4) % 4
decreasing_by
  rw [List.length_append, List.length_singleton]
  omega

/-- What `base64_encode` writes to its output. -/
def base64Encode (input : List UInt8) (maxLen : Nat) : List UInt8 :=
  let output := padLoop maxLen (encodeLoop maxLen input [])
  if output.length < maxLen then output ++ [0] else output

/-- What `base64_decode` writes to its output. -/
def base64DecodeOutput (str : List UInt8) (maxLen : Nat) : List UInt8 :=
  if maxLen = 0 then [] else (base64Decode str maxLen).2 ++ [0]

/-- Both tables fit: the decoder finds the index of a character. -/
theorem sextet_base64Table : ∀ index < 64, sextet (base64Table.getD index 0) =
    UInt8.ofNat index := by
  decide +kernel

theorem base64Table_plain : ∀ index < 64,
    base64Table.getD index 0 ≠ 0 ∧ base64Table.getD index 0 ≠ 61 := by
  decide +kernel

theorem toNat_and_63 (index : UInt32) : (index &&& 0x3f).toNat = index.toNat % 64 := by
  rw [UInt32.toNat_and]
  exact Nat.and_two_pow_sub_one_eq_mod index.toNat 6

theorem tableCharacter_shiftRight (chunk : UInt32) {bits : Nat} (few : bits < 32) :
    tableCharacter (chunk >>> UInt32.ofNat bits) =
      base64Table.getD (chunk.toNat / 2 ^ bits % 64) 0 := by
  rw [tableCharacter, toNat_and_63, UInt32.toNat_shiftRight, UInt32.toNat_ofNat_of_lt'
      (Nat.lt_trans few (by decide)), Nat.mod_eq_of_lt few, Nat.shiftRight_eq_div_pow]

theorem tableCharacter_shiftLeft (chunk : UInt32) {bits : Nat} (few : bits < 32) :
    tableCharacter (chunk <<< UInt32.ofNat bits) =
      base64Table.getD (chunk.toNat * 2 ^ bits % 64) 0 := by
  rw [tableCharacter, toNat_and_63, UInt32.toNat_shiftLeft, UInt32.toNat_ofNat_of_lt'
      (Nat.lt_trans few (by decide)), Nat.mod_eq_of_lt few, Nat.shiftLeft_eq,
    Nat.mod_mod_of_dvd _ (by decide)]

/-- The next byte of a group. -/
theorem toNat_push {chunk : UInt32} (room : chunk.toNat < 2 ^ 24) (byte : UInt8) :
    (chunk <<< 8 ||| byte.toUInt32).toNat = chunk.toNat * 256 + byte.toNat := by
  have small := byte.toNat_lt
  have shifted : (chunk <<< 8).toNat = chunk.toNat <<< 8 := by
    rw [UInt32.toNat_shiftLeft]
    exact Nat.mod_eq_of_lt (by rw [Nat.shiftLeft_eq]; change _ * 256 < _; omega)
  rw [UInt32.toNat_or, shifted, UInt8.toNat_toUInt32, ← Nat.shiftLeft_add_eq_or_of_lt small,
    Nat.shiftLeft_eq]

theorem toNat_chunkOf (a b c : UInt8) :
    (chunkOf [a]).toNat = a.toNat ∧ (chunkOf [a, b]).toNat = a.toNat * 256 + b.toNat ∧
      (chunkOf [a, b, c]).toNat = (a.toNat * 256 + b.toNat) * 256 + c.toNat := by
  have smallA := a.toNat_lt
  have smallB := b.toNat_lt
  have one : (chunkOf [a]).toNat = a.toNat := by
    have pushed : (chunkOf [a]).toNat = (0 : UInt32).toNat * 256 + a.toNat :=
      toNat_push (by decide) a
    rw [pushed, UInt32.toNat_zero, Nat.zero_mul, Nat.zero_add]
  have two : (chunkOf [a, b]).toNat = (chunkOf [a]).toNat * 256 + b.toNat :=
    toNat_push (show (chunkOf [a]).toNat < 2 ^ 24 by omega) b
  have three : (chunkOf [a, b, c]).toNat = (chunkOf [a, b]).toNat * 256 + c.toNat :=
    toNat_push (show (chunkOf [a, b]).toNat < 2 ^ 24 by omega) c
  rw [three, two, one]
  exact ⟨rfl, rfl, rfl⟩

/-- The characters of three bytes. -/
def encodedGroup (a b c : UInt8) : List UInt8 :=
  [a.toNat / 4, a.toNat % 4 * 16 + b.toNat / 16, b.toNat % 16 * 4 + c.toNat / 64, c.toNat % 64].map
    (base64Table.getD · 0)

theorem length_encodedGroup (a b c : UInt8) : (encodedGroup a b c).length = 4 :=
  rfl

/-- One round of the loop over the groups of six bits. -/
theorem writeSextets_succ {maxLen bits : Nat} (chunk : UInt32) {output : List UInt8}
    (few : bits < 32) (room : output.length < maxLen) (small : maxLen < 65536) :
    writeSextets maxLen chunk (bits + 6) output =
      writeSextets maxLen chunk bits
        (output ++ [base64Table.getD (chunk.toNat / 2 ^ bits % 64) 0]) := by
  rw [writeSextets, if_pos (by omega), Nat.add_sub_cancel, tableCharacter_shiftRight chunk few]

theorem writeSextets_end {maxLen bits : Nat} (chunk : UInt32) (output : List UInt8)
    (few : bits < 6) : writeSextets maxLen chunk bits output = (bits, output) := by
  rw [writeSextets, if_neg (by omega)]

section Groups

variable {maxLen : Nat} {output : List UInt8}

theorem writeGroup_three (a b c : UInt8) (room : output.length + 4 ≤ maxLen)
    (small : maxLen < 65536) :
    writeGroup maxLen [a, b, c] output = output ++ encodedGroup a b c := by
  have smallA := a.toNat_lt
  have smallB := b.toNat_lt
  have smallC := c.toNat_lt
  have first : ((a.toNat * 256 + b.toNat) * 256 + c.toNat) / 2 ^ 18 % 64 = a.toNat / 4 := by omega
  have second : ((a.toNat * 256 + b.toNat) * 256 + c.toNat) / 2 ^ 12 % 64 =
      a.toNat % 4 * 16 + b.toNat / 16 := by omega
  have third : ((a.toNat * 256 + b.toNat) * 256 + c.toNat) / 2 ^ 6 % 64 =
      b.toNat % 16 * 4 + c.toNat / 64 := by omega
  have fourth : ((a.toNat * 256 + b.toNat) * 256 + c.toNat) / 2 ^ 0 % 64 = c.toNat % 64 := by omega
  unfold writeGroup
  simp only [List.length_cons, List.length_nil]
  rw [show 8 * (0 + 1 + 1 + 1) = 18 + 6 from rfl, writeSextets_succ _ (by omega) (by omega) small,
    show 18 = 12 + 6 from rfl, writeSextets_succ _ (by omega) (by simp; omega) small,
    show 12 = 6 + 6 from rfl, writeSextets_succ _ (by omega) (by simp; omega) small,
    show 6 = 0 + 6 from rfl, writeSextets_succ _ (by omega) (by simp; omega) small,
    writeSextets_end _ _ (by omega)]
  simp only
  rw [if_neg (by omega), (toNat_chunkOf a b c).2.2, first, second, third, fourth]
  simp only [List.append_assoc, List.singleton_append]
  rfl

/-- Of two bytes the last four bits are filled up with zeros. -/
theorem writeGroup_two (a b : UInt8) (room : output.length + 4 ≤ maxLen)
    (small : maxLen < 65536) :
    writeGroup maxLen [a, b] output = output ++ (encodedGroup a b 0).take 3 := by
  have smallA := a.toNat_lt
  have smallB := b.toNat_lt
  have first : (a.toNat * 256 + b.toNat) / 2 ^ 10 % 64 = a.toNat / 4 := by omega
  have second : (a.toNat * 256 + b.toNat) / 2 ^ 4 % 64 = a.toNat % 4 * 16 + b.toNat / 16 := by omega
  have third : (a.toNat * 256 + b.toNat) * 2 ^ 2 % 64 = b.toNat % 16 * 4 := by omega
  unfold writeGroup
  simp only [List.length_cons, List.length_nil]
  rw [show 8 * (0 + 1 + 1) = 10 + 6 from rfl, writeSextets_succ _ (by omega) (by omega) small,
    show 10 = 4 + 6 from rfl, writeSextets_succ _ (by omega) (by simp; omega) small,
    writeSextets_end _ _ (by omega)]
  simp only
  rw [if_pos ⟨by omega, by simp; omega⟩, tableCharacter_shiftLeft _ (by omega)]
  rw [(toNat_chunkOf a b 0).2.1, first, second, third]
  simp only [List.append_assoc, List.singleton_append]
  rfl

/-- Of one byte the last two bits are filled up with zeros. -/
theorem writeGroup_one (a : UInt8) (room : output.length + 4 ≤ maxLen) (small : maxLen < 65536) :
    writeGroup maxLen [a] output = output ++ (encodedGroup a 0 0).take 2 := by
  have smallA := a.toNat_lt
  have first : a.toNat / 2 ^ 2 % 64 = a.toNat / 4 := by omega
  have second : a.toNat * 2 ^ 4 % 64 = a.toNat % 4 * 16 := by omega
  unfold writeGroup
  simp only [List.length_cons, List.length_nil]
  rw [show 8 * (0 + 1) = 2 + 6 from rfl, writeSextets_succ _ (by omega) (by omega) small,
    writeSextets_end _ _ (by omega)]
  simp only
  rw [if_pos ⟨by omega, by simp; omega⟩, tableCharacter_shiftLeft _ (by omega)]
  rw [(toNat_chunkOf a 0 0).1, first, second]
  simp only [List.append_assoc, List.singleton_append]
  rfl

end Groups

/-- The characters of a text, with its padding. -/
def encodedText : List UInt8 → List UInt8
  | [] => []
  | [a] => (encodedGroup a 0 0).take 2 ++ [61, 61]
  | [a, b] => (encodedGroup a b 0).take 3 ++ [61]
  | a :: b :: c :: rest => encodedGroup a b c ++ encodedText rest

theorem length_encodedText (input : List UInt8) :
    (encodedText input).length = 4 * ((input.length + 2) / 3) := by
  fun_induction encodedText input with
  | case1 => rfl
  | case2 a => simp [length_encodedGroup]
  | case3 a b => simp [length_encodedGroup]
  | case4 a b c rest ih =>
      rw [List.length_append, length_encodedGroup, ih]
      simp only [List.length_cons]
      omega

theorem padLoop_eq {maxLen : Nat} {output : List UInt8} (count : Nat)
    (padded : (output.length + count) % 4 = 0) (few : count < 4)
    (room : output.length + count ≤ maxLen) :
    padLoop maxLen output = output ++ List.replicate count 61 := by
  induction count generalizing output with
  | zero => rw [padLoop, if_neg (by omega), List.replicate_zero, List.append_nil]
  | succ count ih =>
      rw [padLoop, if_pos (by omega), ih (by simp; omega) (by omega) (by simp; omega),
        List.replicate_succ, List.append_assoc, List.singleton_append]

/-- A round of the loop over the groups. -/
theorem encodeLoop_group {maxLen : Nat} {input output : List UInt8} (more : input ≠ [])
    (room : output.length + 4 ≤ maxLen) (small : maxLen < 65536) :
    encodeLoop maxLen input output =
      encodeLoop maxLen (input.drop 3) (writeGroup maxLen (input.take 3) output) := by
  rw [encodeLoop, if_pos ⟨more, by omega⟩]

theorem encodeLoop_nil (maxLen : Nat) (output : List UInt8) :
    encodeLoop maxLen [] output = output := by
  rw [encodeLoop, if_neg (by simp)]

/-- The encoder writes the text. -/
theorem padLoop_encodeLoop {maxLen : Nat} (small : maxLen < 65536) (input : List UInt8)
    {output : List UInt8} (groups : output.length % 4 = 0)
    (room : output.length + (encodedText input).length ≤ maxLen) :
    padLoop maxLen (encodeLoop maxLen input output) = output ++ encodedText input := by
  have length := length_encodedText input
  fun_induction encodedText input generalizing output with
  | case1 =>
      rw [encodeLoop_nil]
      exact padLoop_eq 0 (by omega) (by omega) (by simpa using room)
  | case2 a =>
      rw [length] at room
      simp only [List.length_singleton] at room
      rw [encodeLoop_group (by simp) (by omega) small]
      have group := @writeGroup_one maxLen output a (by omega) small
      simp only [List.take_succ_cons, List.take_nil, List.drop_succ_cons, List.drop_nil, group,
        encodeLoop_nil]
      rw [padLoop_eq 2 (by simp [length_encodedGroup]; omega) (by omega)
        (by simp [length_encodedGroup]; omega)]
      simp
  | case3 a b =>
      rw [length] at room
      simp only [List.length_cons, List.length_nil] at room
      rw [encodeLoop_group (by simp) (by omega) small]
      have group := @writeGroup_two maxLen output a b (by omega) small
      simp only [List.take_succ_cons, List.take_nil, List.drop_succ_cons, List.drop_nil, group,
        encodeLoop_nil]
      rw [padLoop_eq 1 (by simp [length_encodedGroup]; omega) (by omega)
        (by simp [length_encodedGroup]; omega)]
      simp
  | case4 a b c rest ih =>
      rw [List.length_append, length_encodedGroup] at room
      rw [encodeLoop_group (by simp) (by omega) small]
      have group := @writeGroup_three maxLen output a b c (by omega) small
      simp only [List.take_succ_cons, List.take_zero, List.drop_succ_cons, List.drop_zero, group]
      rw [ih (by simp [length_encodedGroup]; omega) (by simp [length_encodedGroup]; omega)
        (length_encodedText rest), List.append_assoc]

theorem base64Encode_eq {maxLen : Nat} {input : List UInt8} (small : maxLen < 65536)
    (room : (encodedText input).length < maxLen) :
    base64Encode input maxLen = encodedText input ++ [0] := by
  have written := @padLoop_encodeLoop maxLen small input [] rfl
    (by simpa using Nat.le_of_lt room)
  rw [List.nil_append] at written
  simp only [base64Encode, written]
  rw [if_pos room]

/-- The text has no zero in it. -/
theorem encodedGroup_plain (a b c : UInt8) :
    ∀ character ∈ encodedGroup a b c, character ≠ 0 ∧ character ≠ 61 := by
  have smallA := a.toNat_lt
  have smallB := b.toNat_lt
  have smallC := c.toNat_lt
  intro character member
  obtain ⟨index, inGroup, rfl⟩ := List.mem_map.mp member
  apply base64Table_plain
  simp only [List.mem_cons, List.not_mem_nil, or_false] at inGroup
  omega

theorem encodedText_ne_zero (input : List UInt8) : ∀ character ∈ encodedText input,
    character ≠ 0 := by
  fun_induction encodedText input with
  | case1 => simp
  | case2 a =>
      intro character member
      rcases List.mem_append.mp member with inGroup | pad
      · exact (encodedGroup_plain a 0 0 character (List.mem_of_mem_take inGroup)).1
      · simp at pad
        simp [pad]
  | case3 a b =>
      intro character member
      rcases List.mem_append.mp member with inGroup | pad
      · exact (encodedGroup_plain a b 0 character (List.mem_of_mem_take inGroup)).1
      · simp at pad
        simp [pad]
  | case4 a b c rest ih =>
      intro character member
      rcases List.mem_append.mp member with inGroup | later
      · exact (encodedGroup_plain a b c character inGroup).1
      · exact ih character later

theorem mul_or_of_lt {high low : Nat} (count : Nat) (small : low < 2 ^ count) :
    high * 2 ^ count ||| low = high * 2 ^ count + low := by
  rw [← Nat.shiftLeft_eq]
  exact (Nat.shiftLeft_add_eq_or_of_lt small high).symm

/-- The shifts of `base64_decodeblock`, on groups of six bits. -/
theorem join_sextets : ∀ first < 64, ∀ second < 64,
    UInt8.ofNat first <<< 2 ||| UInt8.ofNat second >>> 4 = UInt8.ofNat (first * 4 + second / 16) ∧
      UInt8.ofNat first <<< 4 ||| UInt8.ofNat second >>> 2 =
        UInt8.ofNat (first * 16 + second / 4) ∧
      (UInt8.ofNat first <<< 6 &&& 0xc0) ||| UInt8.ofNat second =
        UInt8.ofNat (first * 64 + second) := by
  intro first firstSmall second secondSmall
  have firstByte : first % 2 ^ 8 = first := by omega
  have secondByte : second % 2 ^ 8 = second := by omega
  refine ⟨?_, ?_, ?_⟩
  · apply UInt8.toNat_inj.mp
    have high : first * 2 ^ 2 % 2 ^ 8 = first * 2 ^ 2 := by omega
    simp only [UInt8.toNat_or, UInt8.toNat_shiftLeft, UInt8.toNat_shiftRight, UInt8.toNat_ofNat',
      UInt8.reduceToNat, Nat.reduceMod, Nat.shiftLeft_eq, Nat.shiftRight_eq_div_pow, firstByte,
      secondByte]
    rw [high, mul_or_of_lt 2 (by omega)]
    omega
  · apply UInt8.toNat_inj.mp
    have high : first * 2 ^ 4 % 2 ^ 8 = first % 16 * 2 ^ 4 := by omega
    simp only [UInt8.toNat_or, UInt8.toNat_shiftLeft, UInt8.toNat_shiftRight, UInt8.toNat_ofNat',
      UInt8.reduceToNat, Nat.reduceMod, Nat.shiftLeft_eq, Nat.shiftRight_eq_div_pow, firstByte,
      secondByte]
    rw [high, mul_or_of_lt 4 (by omega)]
    omega
  · apply UInt8.toNat_inj.mp
    have high : first * 2 ^ 6 % 2 ^ 8 = first % 4 * 2 ^ 6 := by omega
    have masked : ∀ kept < 4, kept * 2 ^ 6 &&& 0xc0 = kept * 2 ^ 6 := by decide
    simp only [UInt8.toNat_or, UInt8.toNat_and, UInt8.toNat_shiftLeft, UInt8.toNat_ofNat',
      UInt8.reduceToNat, Nat.reduceMod, Nat.shiftLeft_eq, firstByte, secondByte]
    rw [high, masked _ (by omega), mul_or_of_lt 6 (by omega)]
    omega

theorem ofNat_eq_of_mod {value : Nat} {byte : UInt8} (same : value % 256 = byte.toNat) :
    UInt8.ofNat value = byte := by
  apply UInt8.toNat_inj.mp
  rw [UInt8.toNat_ofNat']
  exact same

/-- The decoder finds the bytes of a group. -/
theorem decodeblock_encodedGroup (a b c : UInt8) :
    decodeblock (base64Table.getD (a.toNat / 4) 0)
      (base64Table.getD (a.toNat % 4 * 16 + b.toNat / 16) 0)
      (base64Table.getD (b.toNat % 16 * 4 + c.toNat / 64) 0)
      (base64Table.getD (c.toNat % 64) 0) = [a, b, c] := by
  have smallA := a.toNat_lt
  have smallB := b.toNat_lt
  have smallC := c.toNat_lt
  unfold decodeblock
  rw [sextet_base64Table _ (by omega), sextet_base64Table _ (by omega),
    sextet_base64Table _ (by omega), sextet_base64Table _ (by omega),
    (join_sextets _ (by omega) _ (by omega)).1, (join_sextets _ (by omega) _ (by omega)).2.1,
    (join_sextets _ (by omega) _ (by omega)).2.2,
    @ofNat_eq_of_mod _ a (by omega), @ofNat_eq_of_mod _ b (by omega),
    @ofNat_eq_of_mod _ c (by omega)]

/-- The padding reads as zero bits. -/
theorem sextet_padding : sextet 61 = sextet (base64Table.getD 0 0) := by
  decide

/-- A group without padding. -/
theorem base64Decode_group (a b c : UInt8) (rest : List UInt8) {room : Nat} (fits : 3 ≤ room) :
    (base64Decode (encodedGroup a b c ++ rest) room).2 =
      [a, b, c] ++ (base64Decode rest (room - 3)).2 := by
  have block := decodeblock_encodedGroup a b c
  have plain := encodedGroup_plain a b c
  simp only [encodedGroup, List.map_cons, List.map_nil, List.mem_cons, List.not_mem_nil,
    forall_eq_or_imp, List.cons_append, List.nil_append] at plain ⊢
  rw [base64Decode, if_neg (by omega)]
  simp only [block, padding, plain.2.2.1.2, plain.2.2.2.1.2, if_false, Nat.add_zero, ne_eq,
    not_true]
  have taken : ([a, b, c].take (3 - 0)).take room = [a, b, c] := List.take_of_length_le fits
  rw [taken]
  rfl

/-- The last group of two bytes. -/
theorem base64Decode_two (a b : UInt8) {room : Nat} (fits : 2 ≤ room) :
    (base64Decode ((encodedGroup a b 0).take 3 ++ [61]) room).2 = [a, b] := by
  have block := decodeblock_encodedGroup a b 0
  have plain := encodedGroup_plain a b 0
  simp only [encodedGroup, List.map_cons, List.map_nil, List.mem_cons, List.not_mem_nil,
    forall_eq_or_imp, List.take_succ_cons, List.take_zero, List.cons_append, List.nil_append]
    at plain ⊢
  have padded : ∀ p q r, decodeblock p q r 61 =
      decodeblock p q r (base64Table.getD ((0 : UInt8).toNat % 64) 0) := by
    intro p q r
    unfold decodeblock
    rw [sextet_padding]
    rfl
  rw [base64Decode, if_neg (by omega)]
  simp only [padded, block, padding, plain.2.2.1.2, if_true, if_false, Nat.add_zero]
  rw [if_pos (by decide)]
  exact List.take_of_length_le fits

/-- The last group of one byte. -/
theorem base64Decode_one (a : UInt8) {room : Nat} (fits : 1 ≤ room) :
    (base64Decode ((encodedGroup a 0 0).take 2 ++ [61, 61]) room).2 = [a] := by
  have block := decodeblock_encodedGroup a 0 0
  simp only [encodedGroup, List.map_cons, List.map_nil, List.take_succ_cons, List.take_zero,
    List.cons_append, List.nil_append]
  have padded : ∀ p q, decodeblock p q 61 61 =
      decodeblock p q (base64Table.getD ((0 : UInt8).toNat % 16 * 4 + (0 : UInt8).toNat / 64) 0)
        (base64Table.getD ((0 : UInt8).toNat % 64) 0) := by
    intro p q
    unfold decodeblock
    rw [sextet_padding]
    rfl
  rw [base64Decode, if_neg (by omega)]
  simp only [padded, block, padding, if_true]
  rw [if_pos (by decide)]
  exact List.take_of_length_le fits

/-- The decoder finds a text again. -/
theorem base64Decode_encodedText (input : List UInt8) {room : Nat} (fits : input.length ≤ room) :
    (base64Decode (encodedText input) room).2 = input := by
  fun_induction encodedText input generalizing room with
  | case1 => rfl
  | case2 a => exact base64Decode_one a fits
  | case3 a b => exact base64Decode_two a b fits
  | case4 a b c rest ih =>
      simp only [List.length_cons] at fits
      rw [base64Decode_group a b c _ (by omega), ih (by omega)]
      rfl

/-- What has been encoded is decoded again, with its length. -/
theorem base64_roundTrip (input : List UInt8) (textLen maxLen : Nat)
    (textRoom : 4 * ((input.length + 2) / 3) < textLen) (textSmall : textLen < 65536)
    (room : input.length < maxLen) :
    base64Encode input textLen = encodedText input ++ [0] ∧
      base64DecodeOutput ((base64Encode input textLen).takeWhile (· ≠ 0)) maxLen =
        input ++ [0] := by
  have encoded : base64Encode input textLen = encodedText input ++ [0] :=
    base64Encode_eq textSmall (by rwa [length_encodedText])
  have str : (encodedText input ++ [0]).takeWhile (· ≠ 0) = encodedText input := by
    rw [List.takeWhile_append_of_pos (by simpa using encodedText_ne_zero input)]
    simp
  refine ⟨encoded, ?_⟩
  rw [encoded, str, base64DecodeOutput, if_neg (by omega),
    base64Decode_encodedText input (Nat.le_of_lt room)]

/-- Two bytes, one of them zero. -/
theorem base64_roundTrip_twoBytes :
    base64Encode [255, 0] 5 = encodedText [255, 0] ++ [0] ∧
      base64DecodeOutput ((base64Encode [255, 0] 5).takeWhile (· ≠ 0)) 3 = [255, 0] ++ [0] :=
  base64_roundTrip [255, 0] 5 3 (by decide) (by decide) (by decide)

end Ethersex.Base64

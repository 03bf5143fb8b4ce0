import Ethersex.Base64RoundTrip

/-!
# The output buffers of base 64

Both loops once more with the positions that are written: the decoder with its write pointer, the
encoder with its 16-bit index `j`, which wraps.
-/

namespace Ethersex.Base64

open Httpd (decodeblock padding base64Decode)

/-- A byte and the position it is written to. -/
abbrev Write := Nat × UInt8

/-- The significant bytes of a block, with the end of the output. -/
def copyBlock (maxLen : Nat) : List UInt8 → Nat → List Write × Nat
  | [], out => ([], out)
  | byte :: tmp, out =>
      if out < maxLen then
        let copied := copyBlock maxLen tmp (out + 1)
        ((out, byte) :: copied.1, copied.2)
      else ([], out)

/-- The loop of `base64_decode` from its read and write pointers on, and the last write
pointer. -/
def decodeLoop (maxLen : Nat) : List UInt8 → Nat → List Write × Nat
  | a :: b :: c :: d :: rest, out =>
      if out < maxLen then
        let pad := padding c d
        let copied := copyBlock maxLen ((decodeblock a b c d).take (3 - pad)) out
        if pad ≠ 0 then copied
        else
          let later := decodeLoop maxLen rest copied.2
          (copied.1 ++ later.1, later.2)
      else ([], out)
  | _, out => ([], out)

/-- `base64_decode`.  The length of the string is taken as a 16-bit number. -/
def base64DecodeWrites (str : List UInt8) (maxLen : UInt16) : List Write :=
  if maxLen = 0 then []
  else
    let decoded := decodeLoop maxLen.toNat (str.take (str.length % 65536)) 0
    decoded.1 ++ [(decoded.2, 0)]

/-- What `base64_str_decode` writes to its array `decoded`. -/
def base64StrDecodeWrites (str : List UInt8) : List Write :=
  base64DecodeWrites str 256

/-- What has been written to the output, and the index `j`. -/
structure Encoding where
  writes : List Write
  j : UInt16

def Encoding.put (encoding : Encoding) (byte : UInt8) : Encoding :=
  ⟨encoding.writes ++ [(encoding.j.toNat, byte)], encoding.j + 1⟩

/-- The full groups of six bits of a group of bytes, with the bits that are left. -/
def putSextets (maxLen : UInt16) (chunk : UInt32) (bits : Nat) (encoding : Encoding) :
    Nat × Encoding :=
  if 6 ≤ bits ∧ encoding.j + 1 ≤ maxLen then
    putSextets maxLen chunk (bits - 6)
      (encoding.put (tableCharacter (chunk >>> UInt32.ofNat (bits - 6))))
  else (bits, encoding)
termination_by bits

def putGroup (maxLen : UInt16) (group : List UInt8) (encoding : Encoding) : Encoding :=
  let chunk := chunkOf group
  let (bits, encoding) := putSextets maxLen chunk (8 * group.length) encoding
  if 0 < bits ∧ encoding.j + 1 ≤ maxLen then
    encoding.put (tableCharacter (chunk <<< UInt32.ofNat (6 - bits)))
  else encoding

def putGroups (maxLen : UInt16) (input : List UInt8) (encoding : Encoding) : Encoding :=
  if input ≠ [] ∧ encoding.j + 4 ≤ maxLen then
    putGroups maxLen (input.drop 3) (putGroup maxLen (input.take 3) encoding)
  else encoding
termination_by input.length
decreasing_by
  have := List.length_pos_iff.mpr (by tauto : input ≠ [])
  rw [List.length_drop]
  omega

def putPadding (maxLen : UInt16) (encoding : Encoding) : Encoding :=
  if encoding.j < maxLen ∧ encoding.j.toNat % 4 ≠ 0 then putPadding maxLen (encoding.put 61)
  else encoding
termination_by (4 - encoding.j.toNat % 4) % 4
decreasing_by
  rw [Encoding.put, UInt16.toNat_add, UInt16.toNat_one]
  omega

/-- `base64_encode`: its writes, and the index in the end. -/
def base64EncodeWrites (input : List UInt8) (maxLen : UInt16) : Encoding :=
  let encoding := putPadding maxLen (putGroups maxLen input ⟨[], 0⟩)
  if encoding.j < maxLen then encoding.put 0 else encoding

/-- The number of bytes that a text stands for, up to the first padding. -/
def significantBytes : List UInt8 → Nat
  | _ :: _ :: c :: d :: rest =>
      if padding c d ≠ 0 then 3 - padding c d else 3 + significantBytes rest
  | _ => 0

/-- Some bytes are written one behind the other, until the buffer is full. -/
structure Filled (maxLen out : Nat) (bytes : List UInt8) (written : List Write × Nat) : Prop where
  positions : written.1.map Prod.fst = List.range' out (min bytes.length (maxLen - out))
  contents : written.1.map Prod.snd = bytes.take (maxLen - out)
  last : written.2 = out + min bytes.length (maxLen - out)

theorem copyBlock_filled (maxLen out : Nat) (bytes : List UInt8) :
    Filled maxLen out bytes (copyBlock maxLen bytes out) := by
  induction bytes generalizing out with
  | nil => exact ⟨by simp [copyBlock], by simp [copyBlock], by simp [copyBlock]⟩
  | cons byte bytes ih =>
      by_cases room : out < maxLen
      · obtain ⟨positions, contents, last⟩ := ih (out + 1)
        obtain ⟨more, rfl⟩ := Nat.exists_eq_add_of_lt room
        have next : out + more + 1 - out = (out + more + 1 - (out + 1)) + 1 := by omega
        rw [copyBlock, if_pos room]
        constructor
        · simp only [List.map_cons, positions, List.length_cons]
          rw [next, Nat.add_min_add_right, List.range'_succ]
        · simp only [List.map_cons, contents]
          rw [next, List.take_succ_cons]
        · simp only [List.length_cons, last]
          omega
      · have full : maxLen - out = 0 := by omega
        rw [copyBlock, if_neg room]
        exact ⟨by simp [full], by simp [full], by simp [full]⟩

theorem Filled.append {maxLen out : Nat} {first second : List UInt8}
    {written later : List Write × Nat}
    (begun : Filled maxLen out first written) (ended : Filled maxLen written.2 second later) :
    Filled maxLen out (first ++ second) (written.1 ++ later.1, later.2) := by
  have room : maxLen - written.2 = maxLen - out - first.length := by
    rw [begun.last]
    omega
  constructor
  · rw [List.map_append, begun.positions, ended.positions, begun.last, List.range'_append_1,
      List.length_append]
    congr 1
    omega
  · rw [List.map_append, begun.contents, ended.contents, room, List.take_append]
  · simp only [ended.last, begun.last, List.length_append]
    omega

/-- The bytes that a text stands for, up to the first padding. -/
def textBytes : List UInt8 → List UInt8
  | a :: b :: c :: d :: rest =>
      if padding c d ≠ 0 then (decodeblock a b c d).take (3 - padding c d)
      else (decodeblock a b c d).take (3 - padding c d) ++ textBytes rest
  | _ => []

theorem length_textBytes (str : List UInt8) : (textBytes str).length = significantBytes str := by
  fun_induction textBytes str with
  | case1 a b c d rest padded =>
      rw [significantBytes, if_pos padded, List.length_take]
      simp [decodeblock]
  | case2 a b c d rest unpadded ih =>
      rw [significantBytes, if_neg unpadded, List.length_append, ih, not_not.mp unpadded]
      simp [decodeblock]
  | case3 str short => rw [significantBytes.eq_2 str short, List.length_nil]

theorem filled_of_full {maxLen out : Nat} (bytes : List UInt8) (full : maxLen ≤ out) :
    Filled maxLen out bytes ([], out) := by
  have room : maxLen - out = 0 := by omega
  exact ⟨by simp [room], by simp [room], by simp [room]⟩

theorem decodeLoop_filled (maxLen out : Nat) (str : List UInt8) :
    Filled maxLen out (textBytes str) (decodeLoop maxLen str out) := by
  induction str using textBytes.induct generalizing out with
  | case1 a b c d rest padded =>
      by_cases room : out < maxLen
      · rw [textBytes, if_pos padded, decodeLoop, if_pos room]
        simp only [padded, ne_eq, not_false_eq_true, if_true]
        exact copyBlock_filled _ _ _
      · rw [decodeLoop, if_neg room]
        exact filled_of_full _ (Nat.not_lt.mp room)
  | case2 a b c d rest unpadded ih =>
      by_cases room : out < maxLen
      · rw [textBytes, if_neg unpadded, decodeLoop, if_pos room]
        simp only [unpadded, if_false]
        exact (copyBlock_filled _ _ _).append (ih _)
      · rw [decodeLoop, if_neg room]
        exact filled_of_full _ (Nat.not_lt.mp room)
  | case3 str short =>
      rw [decodeLoop.eq_2 _ _ _ short, textBytes.eq_2 str short]
      exact ⟨by simp, by simp, by simp⟩

/-- The string as `base64_decode` measures it. -/
def measured (str : List UInt8) : List UInt8 :=
  str.take (str.length % 65536)

/-- The decoder fills the output from its beginning, with the terminator behind. -/
theorem base64DecodeWrites_positions {maxLen : UInt16} (nonempty : maxLen ≠ 0) (str : List UInt8) :
    (base64DecodeWrites str maxLen).map Prod.fst =
      List.range (min (significantBytes (measured str)) maxLen.toNat + 1) := by
  have filled := decodeLoop_filled maxLen.toNat 0 (measured str)
  have written : base64DecodeWrites str maxLen =
      (decodeLoop maxLen.toNat (measured str) 0).1 ++
        [((decodeLoop maxLen.toNat (measured str) 0).2, 0)] := by
    rw [base64DecodeWrites, if_neg nonempty, measured]
  rw [written, List.map_append, filled.positions, List.map_singleton, filled.last, length_textBytes,
    Nat.sub_zero, Nat.zero_add, ← List.range_eq_range', List.range_succ]

/-- The decoder with lists takes the bytes of the text, as far as there is room. -/
theorem base64Decode_textBytes (str : List UInt8) (room : Nat) :
    (base64Decode str room).2 = (textBytes str).take room := by
  induction str using textBytes.induct generalizing room with
  | case1 a b c d rest padded =>
      rw [textBytes, if_pos padded, base64Decode]
      by_cases full : room = 0
      · rw [if_pos full, full, List.take_zero]
      · simp only [full, padded, if_false, ne_eq, not_false_eq_true, if_true]
  | case2 a b c d rest unpadded ih =>
      rw [textBytes, if_neg unpadded, base64Decode]
      by_cases full : room = 0
      · rw [if_pos full, full, List.take_zero]
      · simp only [full, unpadded, if_false, ih, List.take_append, List.length_take]
        congr 2
        omega
  | case3 str short => rw [textBytes.eq_2 str short, base64Decode.eq_2 str room short,
        List.take_nil]

/-- The bytes are those of the decoder with lists. -/
theorem decodeLoop_contents (maxLen out : Nat) (str : List UInt8) :
    (decodeLoop maxLen str out).1.map Prod.snd = (base64Decode str (maxLen - out)).2 := by
  rw [base64Decode_textBytes]
  exact (decodeLoop_filled maxLen out str).contents

/-- The positions of the output follow each other.  The index is a 16-bit number. -/
structure Placed (encoding : Encoding) : Prop where
  index : encoding.j = UInt16.ofNat encoding.writes.length
  positions : encoding.writes.map Prod.fst =
    (List.range encoding.writes.length).map (· % 65536)

theorem placed_nil : Placed ⟨[], 0⟩ :=
  ⟨rfl, rfl⟩

theorem Placed.put {encoding : Encoding} (placed : Placed encoding) (byte : UInt8) :
    Placed (encoding.put byte) := by
  constructor
  · simp [Encoding.put, placed.index, UInt16.ofNat_add]
  · simp [Encoding.put, placed.positions, placed.index, List.range_succ]

section Kept

variable {maxLen : UInt16} {kept : Encoding → Prop}

section Groups

variable (room : ∀ encoding byte, kept encoding → encoding.j + 1 ≤ maxLen →
  kept (encoding.put byte))
include room

theorem kept_putSextets (chunk : UInt32) (bits : Nat) {encoding : Encoding}
    (before : kept encoding) : kept (putSextets maxLen chunk bits encoding).2 := by
  fun_induction putSextets maxLen chunk bits encoding with
  | case1 bits encoding more ih => exact ih (room _ _ before more.2)
  | case2 bits encoding done => exact before

theorem kept_putGroup (group : List UInt8) {encoding : Encoding} (before : kept encoding) :
    kept (putGroup maxLen group encoding) := by
  have sextets := kept_putSextets room (chunkOf group) (8 * group.length) before
  simp only [putGroup]
  split_ifs with rest
  · exact room _ _ sextets rest.2
  · exact sextets

/-- What the writes of the groups keep under their guard. -/
theorem kept_putGroups (input : List UInt8) {encoding : Encoding} (before : kept encoding) :
    kept (putGroups maxLen input encoding) := by
  fun_induction putGroups maxLen input encoding with
  | case1 input encoding more ih => exact ih (kept_putGroup room _ before)
  | case2 input encoding done => exact before

end Groups

section Ending

variable (below : ∀ encoding byte, kept encoding → encoding.j < maxLen → kept (encoding.put byte))
include below

theorem kept_putPadding {encoding : Encoding} (before : kept encoding) :
    kept (putPadding maxLen encoding) := by
  fun_induction putPadding maxLen encoding with
  | case1 encoding more ih => exact ih (below _ _ before more.1)
  | case2 encoding done => exact before

/-- What the padding and the terminator keep holds in the end. -/
theorem kept_base64EncodeWrites {input : List UInt8}
    (grouped : kept (putGroups maxLen input ⟨[], 0⟩)) :
    kept (base64EncodeWrites input maxLen) := by
  have padded := kept_putPadding below grouped
  simp only [base64EncodeWrites]
  split_ifs with terminated
  · exact below _ _ padded terminated
  · exact padded

end Ending

end Kept

/-- The output is as large as the buffer at most. -/
structure Fits (maxLen : UInt16) (encoding : Encoding) : Prop extends Placed encoding where
  count : encoding.writes.length ≤ maxLen.toNat

theorem Fits.put {maxLen : UInt16} {encoding : Encoding} (fits : Fits maxLen encoding)
    (byte : UInt8) (room : encoding.writes.length < maxLen.toNat) :
    Fits maxLen (encoding.put byte) := by
  refine ⟨fits.toPlaced.put byte, ?_⟩
  rw [Encoding.put, List.length_append, List.length_singleton]
  exact room

theorem Fits.toNat_index {maxLen : UInt16} {encoding : Encoding} (fits : Fits maxLen encoding) :
    encoding.j.toNat = encoding.writes.length := by
  have small := maxLen.toNat_lt
  have count := fits.count
  rw [fits.index, UInt16.toNat_ofNat']
  exact Nat.mod_eq_of_lt (by omega)

theorem Fits.below {maxLen : UInt16} {encoding : Encoding} (fits : Fits maxLen encoding)
    (byte : UInt8) (room : encoding.j < maxLen) : Fits maxLen (encoding.put byte) := by
  apply fits.put byte
  rwa [← fits.toNat_index, ← UInt16.lt_iff_toNat_lt]

/-- The next index does not wrap in a buffer that ends before the last position. -/
theorem Fits.room {maxLen : UInt16} (small : maxLen ≠ 65535) {encoding : Encoding}
    (fits : Fits maxLen encoding) (byte : UInt8) (room : encoding.j + 1 ≤ maxLen) :
    Fits maxLen (encoding.put byte) := by
  have numbers : maxLen.toNat ≠ 65535 := fun same => small (UInt16.toNat_inj.mp same)
  have most := maxLen.toNat_lt
  have count := fits.count
  rw [UInt16.le_iff_toNat_le, UInt16.toNat_add, fits.toNat_index, UInt16.toNat_one] at room
  exact fits.put byte (by omega)

theorem le_last (index : UInt16) : index ≤ 65535 := by
  have most := index.toNat_lt
  rw [UInt16.le_iff_toNat_le]
  change index.toNat ≤ 65535
  omega

theorem length_put (encoding : Encoding) (byte : UInt8) :
    (encoding.put byte).writes.length = encoding.writes.length + 1 := by
  rw [Encoding.put, List.length_append, List.length_singleton]

theorem length_putSextets (chunk : UInt32) (bits : Nat) (encoding : Encoding) :
    (putSextets 65535 chunk bits encoding).1 = bits % 6 ∧
      (putSextets 65535 chunk bits encoding).2.writes.length =
        encoding.writes.length + bits / 6 := by
  fun_induction putSextets 65535 chunk bits encoding with
  | case1 bits encoding more ih =>
      rw [length_put] at ih
      omega
  | case2 bits encoding done =>
      have few : ¬6 ≤ bits := fun enough => done ⟨enough, le_last _⟩
      exact ⟨by omega, by simp only; omega⟩

theorem length_putGroup (group : List UInt8) (encoding : Encoding) :
    (putGroup 65535 group encoding).writes.length =
      encoding.writes.length + (8 * group.length + 5) / 6 := by
  obtain ⟨left, written⟩ := length_putSextets (chunkOf group) (8 * group.length) encoding
  simp only [putGroup, left, le_last, and_true]
  split_ifs with rest
  · rw [length_put, written]
    omega
  · rw [written]
    omega

theorem length_putGroups (input : List UInt8) (encoding : Encoding) :
    (putGroups 65535 input encoding).writes.length =
      encoding.writes.length + (8 * input.length + 5) / 6 := by
  fun_induction putGroups 65535 input encoding with
  | case1 input encoding more ih =>
      have nonempty := List.length_pos_iff.mpr more.1
      rw [ih, length_putGroup, List.length_take, List.length_drop]
      omega
  | case2 input encoding done =>
      have nothing : input = [] := by
        by_contra more
        exact done ⟨more, le_last _⟩
      rw [nothing]
      rfl

/-- The decoder stays inside of its output. -/
def DecoderInside (str : List UInt8) (maxLen : UInt16) : Prop :=
  ∀ write ∈ base64DecodeWrites str maxLen, write.1 < maxLen.toNat

/-- The encoder stays inside of its output, and writes `maxLen` bytes at most. -/
def EncoderInside (input : List UInt8) (maxLen : UInt16) : Prop :=
  (∀ write ∈ (base64EncodeWrites input maxLen).writes, write.1 < maxLen.toNat) ∧
    (base64EncodeWrites input maxLen).writes.length ≤ maxLen.toNat

/-- `base64_str_decode` stays inside of `decoded`. -/
def StrDecodeInside (str : List UInt8) : Prop :=
  ∀ write ∈ base64StrDecodeWrites str, write.1 < 256

theorem decoderInside_iff (str : List UInt8) (maxLen : UInt16) :
    DecoderInside str maxLen ↔ maxLen = 0 ∨ significantBytes (measured str) < maxLen.toNat := by
  by_cases empty : maxLen = 0
  · simp [DecoderInside, base64DecodeWrites, empty]
  · have below : DecoderInside str maxLen ↔
        ∀ position ∈ (base64DecodeWrites str maxLen).map Prod.fst, position < maxLen.toNat := by
      simp [DecoderInside]
    rw [below, base64DecodeWrites_positions empty str]
    simp only [List.mem_range, empty, false_or]
    constructor
    · intro inside
      have last := inside (min (significantBytes (measured str)) maxLen.toNat) (by omega)
      omega
    · intro short position before
      omega

theorem Fits.inside {maxLen : UInt16} {encoding : Encoding} (fits : Fits maxLen encoding) :
    ∀ write ∈ encoding.writes, write.1 < maxLen.toNat := by
  intro write member
  have position : write.1 ∈ encoding.writes.map Prod.fst := List.mem_map_of_mem member
  rw [fits.positions] at position
  obtain ⟨index, before, same⟩ := List.mem_map.mp position
  have count := fits.count
  have inRange := List.mem_range.mp before
  omega

theorem encoderInside_of_fits {input : List UInt8} {maxLen : UInt16}
    (grouped : Fits maxLen (putGroups maxLen input ⟨[], 0⟩)) : EncoderInside input maxLen := by
  have fits := kept_base64EncodeWrites (fun _ byte fits => Fits.below fits byte) grouped
  exact ⟨fits.inside, fits.count⟩

theorem encoderInside_iff (input : List UInt8) (maxLen : UInt16) :
    EncoderInside input maxLen ↔ ¬(maxLen = 65535 ∧ 49152 ≤ input.length) := by
  by_cases most : maxLen = 65535
  · subst most
    have groups : (putGroups 65535 input ⟨[], 0⟩).writes.length = (8 * input.length + 5) / 6 := by
      rw [length_putGroups, List.length_nil, Nat.zero_add]
    simp only [true_and, Nat.not_le]
    constructor
    · rintro ⟨-, count⟩
      change _ ≤ 65535 at count
      have kept := @kept_base64EncodeWrites 65535
        (fun encoding => (8 * input.length + 5) / 6 ≤ encoding.writes.length)
        (fun encoding byte before _ => by rw [length_put]; omega) input (Nat.le_of_eq groups.symm)
      omega
    · intro short
      have placed : Placed (putGroups 65535 input ⟨[], 0⟩) :=
        @kept_putGroups 65535 Placed (fun _ byte placed _ => placed.put byte) input _ placed_nil
      apply encoderInside_of_fits
      refine ⟨placed, ?_⟩
      change _ ≤ 65535
      omega
  · simp only [most, false_and, not_false_eq_true, iff_true]
    apply encoderInside_of_fits
    exact kept_putGroups (fun _ byte fits => Fits.room most fits byte) input
      ⟨placed_nil, Nat.zero_le _⟩

/-- Exactly when the output stays inside of its buffer. -/
theorem base64_inside_iff (str input : List UInt8) (maxLen : UInt16) :
    (DecoderInside str maxLen ↔ maxLen = 0 ∨ significantBytes (measured str) < maxLen.toNat) ∧
      (EncoderInside input maxLen ↔ ¬(maxLen = 65535 ∧ 49152 ≤ input.length)) ∧
      (StrDecodeInside str ↔ significantBytes (measured str) < 256) := by
  refine ⟨decoderInside_iff str maxLen, encoderInside_iff input maxLen, ?_⟩
  have decoded := decoderInside_iff str 256
  simp only [show ¬(256 : UInt16) = 0 by decide, false_or] at decoded
  exact decoded

/-- The credentials of a header that stand for 258 bytes: the terminator is written behind
`decoded`. -/
theorem terminator_behind_decoded :
    (256, 0) ∈ base64StrDecodeWrites (List.replicate 344 65) ∧
      ¬StrDecodeInside (List.replicate 344 65) := by
  have terminated : (256, 0) ∈ base64StrDecodeWrites (List.replicate 344 65) := by
    decide +kernel
  exact ⟨terminated, fun inside => absurd (inside _ terminated) (by decide)⟩

end Ethersex.Base64

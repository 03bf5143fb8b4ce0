import Ethersex.MqttTermination

/-!
# The codec of the length field

`mqtt_buffer_write_length_field` and `mqtt_parse_length_field` of `protocols/mqtt/mqtt.c` with the
integers of the target, where an `int` has 16 bits and a shift drops what does not fit.
-/

namespace Ethersex.Mqtt

open ByteMemory

/-- The loop of `mqtt_buffer_write_length_field`. -/
def writeLengthLoop (buffer : Memory) (length : UInt16) (llen pos : UInt8) : UInt8 × Memory :=
  let digit := (length % 128).toUInt8
  let length' := length / 128
  let digit := if 0 < length' then digit ||| 0x80 else digit
  let buffer := Function.update buffer pos.toNat digit
  if more : 0 < length' then writeLengthLoop buffer length' (llen + 1) (pos + 1)
  else (llen + 1, buffer)
termination_by length.toNat
decreasing_by
  have positive : 0 < (length / 128).toNat := UInt16.lt_iff_toNat_lt.mp more
  have quotient : (length / 128).toNat = length.toNat / 128 := UInt16.toNat_div ..
  omega

/-- `mqtt_buffer_write_length_field`: the number of bytes written, and the buffer. -/
def writeLengthField (buffer : Memory) (length : UInt16) : UInt8 × Memory :=
  writeLengthLoop buffer length 0 0

/-- `l += (byte & (~0x80)) << (i * 7)`. -/
def addDigit (l : UInt16) (byte i : UInt8) : UInt16 :=
  l + ⟨(byte.toUInt16 &&& ~~~0x80).toBitVec <<< (i.toNat * 7)⟩

/-- The loop of `mqtt_parse_length_field`.  The length is stored when the field is complete. -/
def parseLengthLoop (buffer : Memory) (maxRead length : UInt16) :
    Nat → UInt8 → UInt16 → Option (UInt8 × UInt16)
  | 0, _, _ => none
  | fuel + 1, i, l =>
      if i.toNat < maxRead.toNat then
        let l := addDigit l (buffer i.toNat) i
        if buffer i.toNat &&& 0x80 = 0 then some (i + 1, l)
        else parseLengthLoop buffer maxRead length fuel (i + 1) l
      else
        some (0, length)

/-- `mqtt_parse_length_field`: the number of bytes read, and the length.  When the counter starts
again after 256 continued digits the loop does not end. -/
def parseLengthField (length : UInt16) (buffer : Memory) (maxRead : UInt16) :
    Option (UInt8 × UInt16) :=
  parseLengthLoop buffer maxRead length 256 0 0

section Digits

variable {buffer : Memory} {length maxRead : UInt16}

theorem continued_digit {digit : Nat} (small : digit < 128) :
    UInt8.ofNat digit ||| 0x80 = UInt8.ofNat (digit + 128) := by
  have every : ∀ digit : Fin 128,
      UInt8.ofNat digit ||| 0x80 = UInt8.ofNat (digit + 128) := by decide +kernel
  exact every ⟨digit, small⟩

theorem isLast_iff (byte : UInt8) : byte &&& 0x80 = 0 ↔ byte.toNat < 128 := by
  have every : ∀ value : Fin 256, UInt8.ofNat value &&& 0x80 = 0 ↔ value.val < 128 := by
    decide +kernel
  have this := every ⟨byte.toNat, byte.toNat_lt⟩
  rwa [UInt8.ofNat_toNat] at this

theorem toNat_addDigit (l : UInt16) (byte i : UInt8) :
    (addDigit l byte i).toNat = (l.toNat + byte.toNat % 128 * 2 ^ (i.toNat * 7)) % 65536 := by
  have every : ∀ value : Fin 256,
      ((UInt8.ofNat value).toUInt16 &&& ~~~0x80).toNat = value.val % 128 := by decide +kernel
  have digit := every ⟨byte.toNat, byte.toNat_lt⟩
  rw [UInt8.ofNat_toNat] at digit
  have shifted : UInt16.toNat ⟨(byte.toUInt16 &&& ~~~0x80).toBitVec <<< (i.toNat * 7)⟩ =
      byte.toNat % 128 * 2 ^ (i.toNat * 7) % 2 ^ 16 := by
    rw [← Nat.shiftLeft_eq, ← digit]
    exact BitVec.toNat_shiftLeft
  rw [addDigit, UInt16.toNat_add, shifted, Nat.add_mod_mod]
  rfl

/-- Both models of the parser are the same. -/
theorem parseLengthLoop_eq {fuel i : Nat} (inside : i + fuel = 256) (l : UInt16) :
    parseLengthLoop buffer maxRead 0 fuel (UInt8.ofNat i) l =
      parseDigits buffer maxRead.toNat fuel i l.toNat := by
  induction fuel generalizing i l with
  | zero => rfl
  | succ fuel ih =>
      have index : (UInt8.ofNat i).toNat = i := by
        rw [UInt8.toNat_ofNat']
        omega
      have next : UInt8.ofNat i + 1 = UInt8.ofNat (i + 1) := (UInt8.ofNat_add i 1).symm
      rw [parseLengthLoop, parseDigits, index]
      by_cases readable : i < maxRead.toNat
      · rw [if_pos readable, if_pos readable]
        have sum := toNat_addDigit l (buffer i) (UInt8.ofNat i)
        rw [index] at sum
        simp only [isLast_iff]
        rw [← sum, UInt16.ofNat_toNat, next, ih (by omega)]
      · rw [if_neg readable, if_neg readable]

theorem parseLengthField_eq (buffer : Memory) (maxRead : UInt16) :
    parseLengthField 0 buffer maxRead = mqttParseLengthField buffer maxRead.toNat :=
  parseLengthLoop_eq rfl 0

theorem writeLengthLoop_step (buffer : Memory) (length : UInt16) (llen pos : UInt8) :
    writeLengthLoop buffer length llen pos =
      if 0 < length.toNat / 128 then
        writeLengthLoop
          (Function.update buffer pos.toNat (UInt8.ofNat (length.toNat % 128 + 128)))
          (length / 128) (llen + 1) (pos + 1)
      else (llen + 1, Function.update buffer pos.toNat (UInt8.ofNat (length.toNat % 128))) := by
  have digit : (length % 128).toUInt8 = UInt8.ofNat (length.toNat % 128) := by
    apply UInt8.toNat_inj.mp
    rw [UInt16.toNat_toUInt8, UInt16.toNat_mod, UInt8.toNat_ofNat']
    rfl
  have positive : 0 < length / 128 ↔ 0 < length.toNat / 128 := by
    rw [UInt16.lt_iff_toNat_lt, UInt16.toNat_div]
    exact Iff.rfl
  rw [writeLengthLoop]
  by_cases more : 0 < length.toNat / 128
  · simp only [positive, more, if_true, dif_pos, digit,
      continued_digit (Nat.mod_lt length.toNat (by decide : 0 < 128))]
  · simp only [positive, more, if_false, dif_neg, not_false_eq_true, digit]

/-- The loop writes the digits of the length. -/
theorem writeLengthLoop_eq (digits : Nat) {llen pos : UInt8}
    (small : length.toNat < 128 ^ (digits + 1)) (room : pos.toNat + digits < 255) :
    writeLengthLoop buffer length llen pos =
      (llen + UInt8.ofNat (lengthDigits digits length.toNat).length,
        writeBlock buffer pos.toNat (lengthDigits digits length.toNat)) := by
  induction digits generalizing buffer length llen pos with
  | zero =>
      rw [writeLengthLoop_step, if_neg (by omega), lengthDigits, writeBlock_singleton]
      rfl
  | succ digits ih =>
      rw [writeLengthLoop_step, lengthDigits]
      by_cases more : 0 < length.toNat / 128
      · have rest : (length / 128).toNat = length.toNat / 128 := UInt16.toNat_div ..
        have restSmall : (length / 128).toNat < 128 ^ (digits + 1) := by
          rw [rest]
          apply Nat.div_lt_of_lt_mul
          rw [← Nat.pow_succ']
          exact small
        have next : (pos + 1).toNat = pos.toNat + 1 := by
          rw [UInt8.toNat_add, show (1 : UInt8).toNat = 1 from rfl]
          omega
        have count (n : Nat) : llen + 1 + UInt8.ofNat n = llen + UInt8.ofNat (n + 1) := by
          rw [UInt8.ofNat_add, UInt8.add_assoc, UInt8.add_comm 1]
          rfl
        rw [if_pos more, if_pos more, ih restSmall (by omega), rest, next, writeBlock_cons,
          List.length_cons, count]
      · rw [if_neg more, if_neg more, writeBlock_singleton]
        rfl

/-- All digits but the last are continued. -/
theorem continued_of_mem_take {fuel value count : Nat}
    (cut : count < (lengthDigits fuel value).length) :
    ∀ byte ∈ (lengthDigits fuel value).take count, 128 ≤ byte.toNat := by
  induction fuel generalizing value count with
  | zero =>
      intro byte member
      rw [lengthDigits, List.length_singleton, Nat.lt_one_iff] at cut
      rw [cut] at member
      cases member
  | succ fuel ih =>
      intro byte member
      cases count with
      | zero => cases member
      | succ count =>
          rw [lengthDigits] at cut member
          split_ifs at cut member with more
          · rw [List.take_succ_cons, List.mem_cons] at member
            rw [List.length_cons] at cut
            rcases member with rfl | member
            · rw [UInt8.toNat_ofNat']
              omega
            · exact ih (Nat.lt_of_succ_lt_succ cut) byte member
          · rw [List.length_singleton] at cut
            omega

/-- What is stored does not depend on the length before. -/
theorem parseLengthLoop_complete {old value l : UInt16} {fuel : Nat} {i llen : UInt8}
    (positive : llen ≠ 0)
    (complete : parseLengthLoop buffer maxRead old fuel i l = some (llen, value))
    (length : UInt16) : parseLengthLoop buffer maxRead length fuel i l = some (llen, value) := by
  induction fuel generalizing i l with
  | zero => exact complete
  | succ fuel ih =>
      rw [parseLengthLoop] at complete ⊢
      split_ifs at complete ⊢ with readable last
      · exact complete
      · exact ih complete
      · rw [Option.some.injEq, Prod.mk.injEq] at complete
        exact absurd complete.1.symm positive

/-- When only continued digits may be read the field is not complete. -/
theorem parseLengthLoop_incomplete {fuel i : Nat} (before : i ≤ maxRead.toNat)
    (enough : maxRead.toNat < i + fuel) (inside : i + fuel ≤ 256)
    (continued : ∀ j, i ≤ j → j < maxRead.toNat → 128 ≤ (buffer j).toNat) (l : UInt16) :
    parseLengthLoop buffer maxRead length fuel (UInt8.ofNat i) l = some (0, length) := by
  induction fuel generalizing i l with
  | zero => omega
  | succ fuel ih =>
      have index : (UInt8.ofNat i).toNat = i := by
        rw [UInt8.toNat_ofNat']
        omega
      have next : UInt8.ofNat i + 1 = UInt8.ofNat (i + 1) := (UInt8.ofNat_add i 1).symm
      rw [parseLengthLoop, index]
      by_cases readable : i < maxRead.toNat
      · have digit := continued i (Nat.le_refl i) readable
        rw [if_pos readable, next]
        simp only [isLast_iff, Nat.not_lt.mpr digit, if_false]
        exact ih readable (by omega) (by omega) (fun j after => continued j (by omega)) _
      · rw [if_neg readable]

end Digits

/-- What `mqtt_buffer_write_length_field` stores. -/
theorem writeLengthField_eq (buffer : Memory) (length : UInt16) :
    writeLengthField buffer length =
      (UInt8.ofNat (lengthField length).length, writeBlock buffer 0 (lengthField length)) := by
  have small := length.toNat_lt
  rw [writeLengthField, writeLengthLoop_eq 2 (by omega) (by decide), UInt8.zero_add]
  rfl

/-- The parser returns the length, and how many bytes the writer has stored for it, as soon as it
may read as many bytes, and nothing before. -/
theorem parseLengthField_writeLengthField (buffer : Memory) (length : UInt16) :
    (0 < (writeLengthField buffer length).1 ∧ (writeLengthField buffer length).1 ≤ 3) ∧
    (∀ index, (writeLengthField buffer length).1.toNat ≤ index →
      (writeLengthField buffer length).2 index = buffer index) ∧
    ∀ old maxRead : UInt16,
      parseLengthField old (writeLengthField buffer length).2 maxRead =
        if (writeLengthField buffer length).1.toNat ≤ maxRead.toNat then
          some ((writeLengthField buffer length).1, length)
        else
          some (0, old) := by
  have atMost : (lengthField length).length ≤ 3 := length_lengthDigits_le 2 length.toNat
  have positive : 0 < (lengthField length).length := length_lengthDigits_pos 2 length.toNat
  have count : (UInt8.ofNat (lengthField length).length).toNat = (lengthField length).length := by
    rw [UInt8.toNat_ofNat']
    omega
  rw [writeLengthField_eq]
  dsimp only
  rw [UInt8.lt_iff_toNat_lt, UInt8.le_iff_toNat_le, count]
  refine ⟨⟨positive, atMost⟩, fun index behind => writeBlock_outside (Or.inr (by omega)),
    fun old maxRead => ?_⟩
  by_cases readable : (lengthField length).length ≤ maxRead.toNat
  · have small := length.toNat_lt
    have notZero : UInt8.ofNat (lengthField length).length ≠ 0 := by
      intro zero
      rw [zero] at count
      exact absurd count (Nat.ne_of_lt positive)
    have whole : parseLengthField 0 (writeBlock buffer 0 (lengthField length)) maxRead =
        some (UInt8.ofNat (lengthField length).length, length) := by
      have stored : readBlock (writeBlock buffer 0 (lengthField length)) 0
          (lengthField length).length = lengthField length := readBlock_writeBlock_same ..
      rw [lengthField] at stored readable atMost ⊢
      rw [parseLengthField_eq, mqttParseLengthField, parseDigits_lengthDigits
        (by omega : length.toNat < 128 ^ 3) stored ((Nat.zero_add _).trans_le readable)
        (atMost.trans (by decide)), Nat.zero_add, Nat.zero_add, Nat.zero_mul, Nat.pow_zero,
        Nat.mul_one, UInt16.ofNat_toNat]
    rw [if_pos readable]
    exact parseLengthLoop_complete notZero whole old
  · rw [if_neg readable]
    have cut : maxRead.toNat < (lengthField length).length := Nat.not_le.mp readable
    apply parseLengthLoop_incomplete (Nat.zero_le _) (by omega) (Nat.le_refl 256)
    intro j _ below
    apply continued_of_mem_take cut
    rw [writeBlock_inside (Nat.zero_le j) (by omega), Nat.sub_zero, List.mem_take_iff_getElem]
    have inside : j < (lengthField length).length := below.trans cut
    exact ⟨j, lt_min below inside, (List.getD_eq_getElem _ 0 inside).symm⟩

end Ethersex.Mqtt

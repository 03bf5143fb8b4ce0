import Ethersex.ByteMemory
import Mathlib.Tactic.Ring

/-!
# Numbers with a decimal point

`itoa_fixedpoint` of `core/util/fixedpoint.c` and `next_int16_fp` of `core/util/string_parsing.c`
with the 16-bit integers of the target.  A loop that does not end has no result.
-/

namespace Ethersex.FixedPoint

open ByteMemory

/-- The characters in front of `len` have been written. -/
structure Output where
  len : UInt8
  s : Memory

/-- `s[len++] = ch`. -/
def Output.put (output : Output) (ch : UInt8) : Output :=
  ⟨output.len + 1, Function.update output.s output.len.toNat ch⟩

def minusSign : UInt8 := 45
def decimalPoint : UInt8 := 46
def zeroDigit : UInt8 := 48
def space : UInt8 := 32

/-- The number of digits to output, and the power of ten of the first one. -/
def digitsLoop (n : Int16) (fixeddigits : UInt8) : Nat → Int16 → UInt8 → Option (Int16 × UInt8)
  | 0, _, _ => none
  | fuel + 1, m, digits =>
      if m ≤ n / 10 ∨ digits.toNat < fixeddigits.toNat + 1 then
        digitsLoop n fixeddigits fuel (m * 10) (digits + 1)
      else
        some (m, digits)

/-- `for (i = '0'; n >= m; n -= m, i++);` -/
def subtractLoop (m : Int16) : Nat → Int16 → UInt8 → Option (Int16 × UInt8)
  | 0, _, _ => none
  | fuel + 1, n, i =>
      if m ≤ n then subtractLoop m fuel (n - m) (i + 1)
      else some (n, i)

def printLoop (fixeddigits size : UInt8) :
    Nat → Int16 → Int16 → UInt8 → Output → Option Output
  | 0, _, _, _, _ => none
  | fuel + 1, n, m, digits, output =>
      if 0 < digits ∧ output.len < size then
        let output := if digits = fixeddigits then output.put decimalPoint else output
        (subtractLoop m 65536 n zeroDigit).bind fun (n, i) =>
          let output := if output.len < size then output.put i else output
          printLoop fixeddigits size fuel n (m / 10) (digits - 1) output
      else
        some output

/-- `itoa_fixedpoint`: the length, and the buffer. -/
def itoaFixedpoint (n : Int16) (fixeddigits : UInt8) (s : Memory) (size : UInt8) :
    Option (UInt8 × Memory) :=
  if size ≤ 1 then some (0, s)
  else
    let output : Output := ⟨0, s⟩
    let (n, output) := if n < 0 then (-n, output.put minusSign) else (n, output)
    (digitsLoop n fixeddigits 256 1 1).bind fun (m, digits) =>
      (printLoop fixeddigits (size - 1) 256 n m digits output).map fun output =>
        (output.len, Function.update output.s output.len.toNat 0)

def IsDigit (ch : UInt8) : Prop := 48 ≤ ch ∧ ch ≤ 57

instance (ch : UInt8) : Decidable (IsDigit ch) := inferInstanceAs (Decidable (_ ∧ _))

/-- The variables of the loop over the characters of a number, and how many it has read. -/
structure Parsed where
  value : Int16
  fixeddigits : Int8
  foundNumber : Bool
  foundDecimal : Bool
  count : Nat

/-- The loop over the characters of a number.  A string is the list of the characters in front of
its end. -/
def numberLoop : List UInt8 → Parsed → Parsed
  | [], parsed => parsed
  | ch :: cmd, parsed =>
      if IsDigit ch ∨ (ch = decimalPoint ∧ !parsed.foundDecimal) then
        if ch = decimalPoint then
          numberLoop cmd
            { parsed with foundDecimal := true, foundNumber := true, count := parsed.count + 1 }
        else
          let parsed :=
            if 0 < parsed.fixeddigits ∨ !parsed.foundDecimal then
              { parsed with value := parsed.value * 10 + ch.toUInt16.toInt16 - 48 }
            else parsed
          let parsed :=
            if parsed.foundDecimal then { parsed with fixeddigits := parsed.fixeddigits - 1 }
            else parsed
          numberLoop cmd { parsed with foundNumber := true, count := parsed.count + 1 }
      else
        parsed

/-- `while (fixeddigits-- > 0) *value = (*value) * 10;` -/
def fillUp (value : Int16) (fixeddigits : Int8) : Int16 :=
  (fun value => value * 10)^[fixeddigits.toInt.toNat] value

/-- `next_int16_fp`: the number of characters, and the value. -/
def nextInt16Fp (cmd : List UInt8) (fixeddigits : Int8) : UInt8 × Int16 :=
  let number := cmd.dropWhile (· = space)
  let spaces := cmd.length - number.length
  let foundNegative := number.head? = some minusSign
  let digits := if foundNegative then number.tail else number
  let signs := if foundNegative then 1 else 0
  let parsed := numberLoop digits ⟨0, fixeddigits, false, false, 0⟩
  let value := fillUp parsed.value parsed.fixeddigits
  let value := if parsed.foundNumber ∧ foundNegative then value * -1 else value
  (if parsed.foundNumber then UInt8.ofNat (spaces + signs + parsed.count) else 0, value)

/-- So many digits, with the point in front of the last `d`. -/
def digitText (d : Nat) : Nat → Nat → List UInt8
  | 0, _ => []
  | k + 1, a =>
      (if k + 1 = d then [decimalPoint] else []) ++
        UInt8.ofNat (48 + a / 10 ^ k) :: digitText d k (a % 10 ^ k)

/-- The characters of a list are written one after the other. -/
def Output.append (output : Output) (text : List UInt8) : Output :=
  text.foldl Output.put output

section Printing

theorem length_digitText (d k a : Nat) :
    (digitText d k a).length = k + if 0 < d ∧ d ≤ k then 1 else 0 := by
  induction k generalizing a with
  | zero =>
      rw [digitText, if_neg (by omega)]
      rfl
  | succ k ih =>
      rw [digitText, List.length_append, List.length_cons, ih]
      split_ifs <;> simp only [List.length_cons, List.length_nil] <;> omega

theorem Output.append_eq {output : Output} {text : List UInt8}
    (room : output.len.toNat + text.length < 256) :
    output.append text =
      ⟨output.len + UInt8.ofNat text.length, writeBlock output.s output.len.toNat text⟩ := by
  induction text generalizing output with
  | nil =>
      rw [writeBlock_nil, List.length_nil]
      exact congrArg (Output.mk · output.s) (UInt8.add_zero _).symm
  | cons ch text ih =>
      rw [List.length_cons] at room
      have next : (output.put ch).len.toNat = output.len.toNat + 1 := by
        rw [Output.put, UInt8.toNat_add, show (1 : UInt8).toNat = 1 from rfl]
        omega
      have count : output.len + 1 + UInt8.ofNat text.length =
          output.len + UInt8.ofNat (text.length + 1) := by
        rw [UInt8.ofNat_add, UInt8.add_assoc, UInt8.add_comm 1]
        rfl
      rw [Output.append, List.foldl_cons, ← Output.append, ih (by omega), next, writeBlock_cons,
        List.length_cons, ← count]
      rfl

/-- The digit is the quotient, and the remainder is left. -/
theorem subtractLoop_eq {m : Int16} (positive : 0 < m.toInt) {fuel : Nat} {n : Int16}
    (enough : n.toInt.toNat / m.toInt.toNat < fuel) (i : UInt8) :
    ∃ rest, subtractLoop m fuel n i =
        some (rest, i + UInt8.ofNat (n.toInt.toNat / m.toInt.toNat)) ∧
      rest.toInt.toNat = n.toInt.toNat % m.toInt.toNat := by
  induction fuel generalizing n i with
  | zero => exact absurd enough (Nat.not_lt_zero _)
  | succ fuel ih =>
      rw [subtractLoop]
      by_cases above : m ≤ n
      · have order := Int16.le_iff_toInt_le.mp above
        have upper := n.toInt_lt
        have less : (n - m).toInt = n.toInt - m.toInt := by
          rw [Int16.toInt_sub]
          exact Int.bmod_eq_of_le (by omega) (by omega)
        have left : (n - m).toInt.toNat = n.toInt.toNat - m.toInt.toNat := by
          rw [less]
          omega
        have quotient : n.toInt.toNat / m.toInt.toNat =
            (n - m).toInt.toNat / m.toInt.toNat + 1 := by
          rw [left]
          exact Nat.div_eq_sub_div (by omega) (by omega)
        have remainder : (n - m).toInt.toNat % m.toInt.toNat =
            n.toInt.toNat % m.toInt.toNat := by
          rw [left]
          exact (Nat.mod_eq_sub_mod (by omega)).symm
        obtain ⟨rest, loops, same⟩ := ih (n := n - m) (by omega) (i + 1)
        refine ⟨rest, ?_, same.trans remainder⟩
        rw [if_pos above, loops, quotient, UInt8.ofNat_add, UInt8.add_assoc, UInt8.add_comm 1]
        rfl
      · have order := mt Int16.le_iff_toInt_le.mpr above
        have small : n.toInt.toNat < m.toInt.toNat := by omega
        refine ⟨n, ?_, (Nat.mod_eq_of_lt small).symm⟩
        rw [if_neg above, Nat.div_eq_of_lt small]
        exact congrArg (fun i => some (n, i)) (UInt8.add_zero i).symm

/-- A character is put where the buffer has room for it. -/
def Output.putInside (output : Output) (size ch : UInt8) : Output :=
  if output.len < size then output.put ch else output

theorem Output.len_putInside {output : Output} {size : UInt8} (fits : output.len ≤ size)
    (ch : UInt8) : (output.putInside size ch).len ≤ size := by
  rw [putInside]
  split_ifs with room
  · have below := UInt8.lt_iff_toNat_lt.mp room
    have small := size.toNat_lt
    rw [put, UInt8.le_iff_toNat_le, UInt8.toNat_add, show (1 : UInt8).toNat = 1 from rfl]
    omega
  · exact fits

theorem Output.append_take_cons (output : Output) (size ch : UInt8) (text : List UInt8) :
    (output.putInside size ch).append
        (text.take (size.toNat - (output.putInside size ch).len.toNat)) =
      output.append ((ch :: text).take (size.toNat - output.len.toNat)) := by
  rw [putInside]
  split_ifs with room
  · have below := UInt8.lt_iff_toNat_lt.mp room
    have small := size.toNat_lt
    have next : (output.put ch).len.toNat = output.len.toNat + 1 := by
      rw [put, UInt8.toNat_add, show (1 : UInt8).toNat = 1 from rfl]
      omega
    obtain ⟨rest, left⟩ : ∃ rest, size.toNat - output.len.toNat = rest + 1 :=
      ⟨size.toNat - output.len.toNat - 1, by omega⟩
    rw [left, List.take_succ_cons, next, show size.toNat - (output.len.toNat + 1) = rest by omega]
    rfl
  · have full := mt UInt8.lt_iff_toNat_lt.mpr room
    rw [Nat.sub_eq_zero_of_le (Nat.not_lt.mp full), List.take_zero, List.take_zero]

/-- The text is cut where the buffer ends. -/
theorem printLoop_eq {d k fuel : Nat} {size : UInt8} {n m : Int16} {output : Output}
    (few : k ≤ 5) (power : 0 < k → m.toInt = 10 ^ (k - 1)) (small : n.toInt.toNat < 10 ^ k)
    (enough : k < fuel) (fits : output.len ≤ size) (dSmall : d < 256) :
    printLoop (UInt8.ofNat d) size fuel n m (UInt8.ofNat k) output =
      some (output.append
        ((digitText d k n.toInt.toNat).take (size.toNat - output.len.toNat))) := by
  induction k generalizing fuel n m output with
  | zero =>
      obtain ⟨fuel, rfl⟩ := Nat.exists_eq_add_of_le' enough
      have ended : ¬(0 < UInt8.ofNat 0 ∧ output.len < size) := fun both => absurd both.1 (by decide)
      rw [printLoop, if_neg ended, digitText, List.take_nil]
      rfl
  | succ k ih =>
      cases fuel with
      | zero => exact absurd enough (Nat.not_lt_zero _)
      | succ fuel =>
          have more : 0 < UInt8.ofNat (k + 1) := by
            rw [UInt8.lt_iff_toNat_lt, UInt8.toNat_ofNat', Nat.mod_eq_of_lt (by omega)]
            exact Nat.succ_pos k
          have isPoint : UInt8.ofNat (k + 1) = UInt8.ofNat d ↔ k + 1 = d := by
            rw [← UInt8.toNat_inj, UInt8.toNat_ofNat', UInt8.toNat_ofNat',
              Nat.mod_eq_of_lt (by omega), Nat.mod_eq_of_lt dSmall]
          have previous : UInt8.ofNat (k + 1) - 1 = UInt8.ofNat k := by
            rw [UInt8.ofNat_add]
            exact UInt8.add_sub_cancel _ _
          rw [printLoop]
          by_cases room : output.len < size
          · have first : m.toInt = 10 ^ k := power (Nat.succ_pos k)
            have value : m.toInt.toNat = 10 ^ k := by
              rw [first]
              exact Int.toNat_natCast (10 ^ k)
            have bound : n.toInt.toNat / m.toInt.toNat < 65536 := by
              have upper := n.toInt_lt
              exact Nat.lt_of_le_of_lt (Nat.div_le_self _ _) (by omega)
            obtain ⟨rest, loops, left⟩ := subtractLoop_eq
              (by rw [first]; exact Int.pow_pos (by decide)) bound zeroDigit
            rw [value] at loops left
            have digit : zeroDigit + UInt8.ofNat (n.toInt.toNat / 10 ^ k) =
                UInt8.ofNat (48 + n.toInt.toNat / 10 ^ k) := (UInt8.ofNat_add ..).symm
            have nextPower : 0 < k → (m / 10).toInt = 10 ^ (k - 1) := by
              intro positive
              obtain ⟨j, rfl⟩ := Nat.exists_eq_add_of_le' positive
              rw [Int16.toInt_div_of_ne_right _ _ (by decide), first, Int.pow_succ,
                show (10 : Int16).toInt = 10 from rfl, Int.mul_tdiv_cancel _ (by decide)]
              rfl
            have nextSmall : rest.toInt.toNat < 10 ^ k := by
              rw [left]
              exact Nat.mod_lt _ (Nat.pow_pos (by decide))
            rw [if_pos ⟨more, room⟩, loops, Option.bind_some, digit, previous]
            simp only [isPoint]
            rw [digitText, ← left]
            by_cases point : k + 1 = d
            · rw [if_pos point, if_pos point]
              -- the point is put where there is room, like a digit
              have pointed : output.put decimalPoint = output.putInside size decimalPoint :=
                (if_pos room).symm
              have inside := Output.len_putInside fits decimalPoint
              rw [pointed]
              refine (ih (by omega) nextPower nextSmall (by omega)
                (Output.len_putInside inside _)).trans ?_
              rw [Output.append_take_cons, Output.append_take_cons]
              rfl
            · rw [if_neg point, if_neg point]
              refine (ih (by omega) nextPower nextSmall (by omega)
                (Output.len_putInside fits _)).trans ?_
              rw [Output.append_take_cons]
              rfl
          · have full := mt UInt8.lt_iff_toNat_lt.mpr room
            rw [if_neg fun both => room both.2, Nat.sub_eq_zero_of_le (Nat.not_lt.mp full),
              List.take_zero]
            rfl

/-- The loop ends with the power of ten of the first digit. -/
theorem digitsLoop_eq {n : Int16} {d fuel k : Nat} (few : d ≤ 4) (positive : 1 ≤ k) (five : k ≤ 5)
    (enough : 5 - k < fuel) :
    ∃ k', k ≤ k' ∧ k' ≤ 5 ∧ d + 1 ≤ k' ∧ n.toInt.toNat < 10 ^ k' ∧
      digitsLoop n (UInt8.ofNat d) fuel (Int16.ofNat (10 ^ (k - 1))) (UInt8.ofNat k) =
        some (Int16.ofNat (10 ^ (k' - 1)), UInt8.ofNat k') := by
  have tenth : (n / 10).toInt = n.toInt.tdiv 10 := Int16.toInt_div_of_ne_right _ _ (by decide)
  have upper := n.toInt_lt
  have quotient : (0 ≤ n.toInt ∧ n.toInt.tdiv 10 = n.toInt / 10) ∨
      (n.toInt < 0 ∧ n.toInt.tdiv 10 ≤ 0) := by
    by_cases negative : n.toInt < 0
    · right
      have opposite := Int.tdiv_nonneg (by omega : 0 ≤ -n.toInt) (by decide : (0 : Int) ≤ 10)
      rw [Int.neg_tdiv] at opposite
      omega
    · exact Or.inl ⟨by omega, Int.tdiv_eq_ediv_of_nonneg (by omega)⟩
  have dValue : (UInt8.ofNat d).toNat = d := by
    rw [UInt8.toNat_ofNat']
    omega
  induction fuel generalizing k with
  | zero => exact absurd enough (Nat.not_lt_zero _)
  | succ fuel ih =>
      have powerPos : 0 < 10 ^ (k - 1) := Nat.pow_pos (by decide)
      have power : 10 ^ (k - 1) ≤ 10 ^ 4 := Nat.pow_le_pow_right (by decide) (by omega)
      have mValue : (Int16.ofNat (10 ^ (k - 1))).toInt = ((10 ^ (k - 1) : Nat) : Int) :=
        Int16.toInt_ofNat_of_lt (by omega)
      have kValue : (UInt8.ofNat k).toNat = k := by
        rw [UInt8.toNat_ofNat']
        omega
      rw [digitsLoop]
      simp only [Int16.le_iff_toInt_le, mValue, tenth, dValue, kValue]
      have ten : 10 ^ (k + 1 - 1) = 10 ^ (k - 1) * 10 := by
        rw [← Nat.pow_succ]
        congr 1
        omega
      by_cases more : ((10 ^ (k - 1) : Nat) : Int) ≤ n.toInt.tdiv 10 ∨ k < d + 1
      · have four : k ≤ 4 := by
          rcases more with large | small
          · by_contra five
            obtain rfl : k = 5 := by omega
            omega
          · omega
        obtain ⟨k', next, rest⟩ := ih (Nat.le_add_left 1 k) (by omega) (by omega)
        refine ⟨k', by omega, ?_⟩
        rw [if_pos more]
        rw [ten, Int16.ofNat_mul, UInt8.ofNat_add] at rest
        exact rest
      · rw [not_or] at more
        refine ⟨k, Nat.le_refl k, five, by omega, ?_, if_neg (not_or.mpr more)⟩
        have split : 10 ^ k = 10 ^ (k - 1) * 10 := ten
        omega

/-- The end of a string is written behind it. -/
def Output.finish (output : Output) : UInt8 × Memory :=
  (output.len, Function.update output.s output.len.toNat 0)

theorem Output.finish_append {s : Memory} {text : List UInt8} (room : text.length < 256) :
    (Output.append ⟨0, s⟩ text).finish =
      (UInt8.ofNat text.length, writeBlock s 0 (text ++ [0])) := by
  have small : (UInt8.ofNat text.length).toNat = text.length := by
    rw [UInt8.toNat_ofNat', Nat.mod_eq_of_lt room]
  have start : (0 : UInt8).toNat + text.length < 256 := (Nat.zero_add _).symm ▸ room
  rw [Output.append_eq start, finish, writeBlock_append, writeBlock_singleton]
  simp only [UInt8.zero_add, small, Nat.zero_add]
  rfl

/-- The characters of a number. -/
def text (n : Int16) (d k : Nat) : List UInt8 :=
  if n < 0 then minusSign :: digitText d k (-n).toInt.toNat else digitText d k n.toInt.toNat

/-- What is written is the front of the text that fits into the buffer, and its end. -/
theorem itoaFixedpoint_eq (n : Int16) {d : Nat} (few : d ≤ 4) (s : Memory) {size : UInt8}
    (room : 1 < size) :
    ∃ k, d + 1 ≤ k ∧ k ≤ 5 ∧ (if n < 0 then -n else n).toInt.toNat < 10 ^ k ∧
      itoaFixedpoint n (UInt8.ofNat d) s size =
        some (UInt8.ofNat ((text n d k).take (size.toNat - 1)).length,
          writeBlock s 0 ((text n d k).take (size.toNat - 1) ++ [0])) := by
  have above := UInt8.lt_iff_toNat_lt.mp room
  have below := size.toNat_lt
  have one : (1 : UInt8).toNat = 1 := rfl
  have last : (size - 1).toNat = size.toNat - 1 :=
    UInt8.toNat_sub_of_le _ _ (UInt8.le_of_lt room)
  obtain ⟨k, -, five, more, small, digits⟩ :=
    digitsLoop_eq (n := if n < 0 then -n else n) few (Nat.le_refl 1) (by decide)
      (by decide : _ < 256)
  refine ⟨k, more, five, small, ?_⟩
  have digits : digitsLoop (if n < 0 then -n else n) (UInt8.ofNat d) 256 1 1 =
      some (Int16.ofNat (10 ^ (k - 1)), UInt8.ofNat k) := digits
  have short : ((text n d k).take (size.toNat - 1)).length < 256 := by
    rw [List.length_take]
    omega
  have power : 0 < k → (Int16.ofNat (10 ^ (k - 1))).toInt = 10 ^ (k - 1) := by
    intro _
    have bound : 10 ^ (k - 1) ≤ 10 ^ 4 := Nat.pow_le_pow_right (by decide) (by omega)
    rw [Int16.toInt_ofNat_of_lt (by omega)]
    exact Int.natCast_pow 10 (k - 1)
  rw [← Output.finish_append short, itoaFixedpoint, if_neg (UInt8.not_le.mpr room)]
  by_cases negative : n < 0
  · rw [if_pos negative] at small digits
    have fits : (Output.put ⟨0, s⟩ minusSign).len ≤ size - 1 := by
      rw [UInt8.le_iff_toNat_le, last]
      exact Nat.le_sub_of_add_le above
    have printed := printLoop_eq (d := d) five power small (by omega : k < 256) fits (by omega)
    have cut : size.toNat - 1 = size.toNat - 1 - 1 + 1 := by omega
    rw [last] at printed
    simp only [if_pos negative, digits, Option.bind_some, printed, text]
    rw [cut, List.take_succ_cons]
    rfl
  · rw [if_neg negative] at small digits
    have fits : (Output.mk 0 s).len ≤ size - 1 := UInt8.zero_le
    have printed := printLoop_eq (d := d) five power small (by omega : k < 256) fits (by omega)
    rw [last] at printed
    simp only [if_neg negative, digits, Option.bind_some, printed, text]
    rfl

end Printing

/-- The text does not go on with a digit, nor with a point and a digit. -/
def NonNumeric (rest : List UInt8) : Prop :=
  (∀ ch ∈ rest.head?, ¬IsDigit ch) ∧
    (rest.head? = some decimalPoint → ∀ ch ∈ rest.tail.head?, ¬IsDigit ch)

section Reading

variable {rest : List UInt8}

theorem numberLoop_digit {q : Nat} (small : q < 10) (rest : List UInt8) (parsed : Parsed) :
    numberLoop (UInt8.ofNat (48 + q) :: rest) parsed =
      numberLoop rest
        { value := if 0 < parsed.fixeddigits ∨ !parsed.foundDecimal then
            parsed.value * 10 + Int16.ofNat q else parsed.value
          fixeddigits :=
            if parsed.foundDecimal then parsed.fixeddigits - 1 else parsed.fixeddigits
          foundNumber := true
          foundDecimal := parsed.foundDecimal
          count := parsed.count + 1 } := by
  have every : ∀ q : Fin 10, IsDigit (UInt8.ofNat (48 + q)) ∧
      UInt8.ofNat (48 + q) ≠ decimalPoint ∧
        (UInt8.ofNat (48 + q)).toUInt16.toInt16 = Int16.ofNat q + 48 := by decide
  obtain ⟨isDigit, notPoint, value⟩ := every ⟨q, small⟩
  have digit : parsed.value * 10 + (UInt8.ofNat (48 + q)).toUInt16.toInt16 - 48 =
      parsed.value * 10 + Int16.ofNat q := by
    rw [value, ← Int16.add_assoc, Int16.add_sub_cancel]
  rw [numberLoop, if_pos (Or.inl isDigit), if_neg notPoint, digit]
  cases found : parsed.foundDecimal with
  | false => simp only [Bool.not_false, or_true, if_true, Bool.false_eq_true, if_false]
  | true =>
      by_cases added : 0 < parsed.fixeddigits
      · simp only [added, true_or, if_true]
      · simp only [found, added, Bool.not_true, Bool.false_eq_true, or_self, if_false, if_true]

theorem numberLoop_point {parsed : Parsed} (rest : List UInt8)
    (first : parsed.foundDecimal = false) :
    numberLoop (decimalPoint :: rest) parsed =
      numberLoop rest
        { parsed with foundDecimal := true, foundNumber := true, count := parsed.count + 1 } := by
  rw [numberLoop, if_pos (Or.inr ⟨rfl, by rw [first]; rfl⟩), if_pos rfl]

/-- Behind a number at most a point is read. -/
theorem numberLoop_stop (parsed : Parsed) (ends : NonNumeric rest)
    (found : parsed.foundNumber = true) :
    (numberLoop rest parsed).value = parsed.value ∧
      (numberLoop rest parsed).fixeddigits = parsed.fixeddigits ∧
      (numberLoop rest parsed).foundNumber = true ∧
      (rest.head? ≠ some decimalPoint → (numberLoop rest parsed).count = parsed.count) := by
  have stops (ch : UInt8) (more : List UInt8) (notDigit : ¬IsDigit ch) (parsed : Parsed)
      (other : ¬(ch = decimalPoint ∧ (!parsed.foundDecimal) = true)) :
      numberLoop (ch :: more) parsed = parsed := by
    rw [numberLoop, if_neg (not_or.mpr ⟨notDigit, other⟩)]
  cases rest with
  | nil => exact ⟨rfl, rfl, found, fun _ => rfl⟩
  | cons ch more =>
      have notDigit : ¬IsDigit ch := ends.1 ch rfl
      by_cases point : ch = decimalPoint ∧ (!parsed.foundDecimal) = true
      · obtain ⟨rfl, first⟩ := point
        have stopped (pointed : Parsed) (second : pointed.foundDecimal = true) :
            numberLoop more pointed = pointed := by
          cases more with
          | nil => rfl
          | cons ch more =>
              apply stops ch more (ends.2 rfl ch rfl)
              rw [second]
              exact fun both => Bool.false_ne_true both.2
        rw [numberLoop_point more (Bool.not_eq_true' _ ▸ first), stopped _ rfl]
        exact ⟨rfl, rfl, rfl, fun other => absurd rfl other⟩
      · rw [stops ch more notDigit parsed point]
        exact ⟨rfl, rfl, found, fun _ => rfl⟩

theorem fixeddigits_facts {j : Nat} (few : j ≤ 4) :
    (0 < Int8.ofNat j ↔ 0 < j) ∧ Int8.ofNat (j + 1) - 1 = Int8.ofNat j := by
  have every : ∀ j : Fin 5, (0 < Int8.ofNat j ↔ 0 < j.val) ∧
      Int8.ofNat (j + 1) - 1 = Int8.ofNat j := by decide
  exact every ⟨j, Nat.lt_succ_of_le few⟩

/-- Reading the digits that have been printed appends them to the value. -/
theorem numberLoop_digitText (parsed : Parsed) {d k a v : Nat} (few : d ≤ 4) (small : a < 10 ^ k)
    (value : parsed.value = Int16.ofNat v) (fixeddigits : parsed.fixeddigits = Int8.ofNat (min d k))
    (foundDecimal : parsed.foundDecimal = decide (k < d)) (rest : List UInt8) :
    numberLoop (digitText d k a ++ rest) parsed =
      numberLoop rest
        { value := Int16.ofNat (v * 10 ^ k + a)
          fixeddigits := 0
          foundNumber := parsed.foundNumber || decide (0 < k)
          foundDecimal := decide (0 < d)
          count := parsed.count + (digitText d k a).length } := by
  induction k generalizing a v parsed with
  | zero =>
      obtain rfl : a = 0 := Nat.lt_one_iff.mp small
      obtain ⟨parsedValue, parsedDigits, foundNumber, parsedDecimal, count⟩ := parsed
      simp only at value fixeddigits foundDecimal
      rw [value, fixeddigits, foundDecimal, Nat.min_zero, Nat.pow_zero, Nat.mul_one]
      simp only [digitText, List.nil_append, Nat.lt_irrefl, decide_false, Bool.or_false,
        List.length_nil, Nat.add_zero]
      rfl
  | succ k ih =>
      have digit : a / 10 ^ k < 10 := by
        apply Nat.div_lt_of_lt_mul
        rw [← Nat.pow_succ]
        exact small
      have remainder : a % 10 ^ k < 10 ^ k := Nat.mod_lt _ (Nat.pow_pos (by decide))
      have next : Int16.ofNat v * 10 + Int16.ofNat (a / 10 ^ k) =
          Int16.ofNat (v * 10 + a / 10 ^ k) := by
        rw [Int16.ofNat_add, Int16.ofNat_mul]
        rfl
      have total : (v * 10 + a / 10 ^ k) * 10 ^ k + a % 10 ^ k = v * 10 ^ (k + 1) + a := by
        calc
          (v * 10 + a / 10 ^ k) * 10 ^ k + a % 10 ^ k =
              v * 10 ^ (k + 1) + (10 ^ k * (a / 10 ^ k) + a % 10 ^ k) := by ring
          _ = v * 10 ^ (k + 1) + a := by rw [Nat.div_add_mod]
      -- one digit, of which the value and the digits behind the point are counted
      have step (before : Parsed) (value : before.value = Int16.ofNat v)
          (added : 0 < before.fixeddigits ∨ (!before.foundDecimal) = true)
          (left : (if before.foundDecimal then before.fixeddigits - 1 else before.fixeddigits) =
            Int8.ofNat (min d k)) (found : before.foundDecimal = decide (k < d)) :
          numberLoop (UInt8.ofNat (48 + a / 10 ^ k) :: (digitText d k (a % 10 ^ k) ++ rest))
              before =
            numberLoop rest
              { value := Int16.ofNat (v * 10 ^ (k + 1) + a), fixeddigits := 0
                foundNumber := true, foundDecimal := decide (0 < d)
                count := before.count + ((digitText d k (a % 10 ^ k)).length + 1) } := by
        rw [numberLoop_digit digit, if_pos added, left, value, next]
        refine (@ih ⟨Int16.ofNat (v * 10 + a / 10 ^ k), Int8.ofNat (min d k), true,
          before.foundDecimal, before.count + 1⟩ _ _ remainder rfl rfl found).trans ?_
        rw [total, Bool.true_or, Nat.add_assoc, Nat.add_comm 1]
      have some : decide (0 < k + 1) = true := decide_eq_true (Nat.succ_pos k)
      rw [digitText, some, Bool.or_true]
      by_cases point : k + 1 = d
      · have first : parsed.foundDecimal = false := by
          rw [foundDecimal]
          exact decide_eq_false (by omega)
        have digits : parsed.fixeddigits = Int8.ofNat (k + 1) := by
          rw [fixeddigits, point, Nat.min_self]
        have positive : 0 < parsed.fixeddigits := by
          rw [digits]
          exact (fixeddigits_facts (by omega)).1.mpr (Nat.succ_pos k)
        have left : parsed.fixeddigits - 1 = Int8.ofNat (min d k) := by
          rw [digits, (fixeddigits_facts (by omega : k ≤ 4)).2, Nat.min_eq_right (by omega)]
        rw [if_pos point, List.append_assoc, List.singleton_append, numberLoop_point _ first,
          List.cons_append]
        refine (step
          { parsed with foundDecimal := true, foundNumber := true, count := parsed.count + 1 }
          value (Or.inl positive) left (decide_eq_true (by omega)).symm).trans ?_
        rw [List.singleton_append, List.length_cons, List.length_cons]
        dsimp only
        rw [Nat.add_assoc parsed.count, Nat.add_comm 1]
      · rw [if_neg point, List.nil_append, List.cons_append]
        by_cases behind : k + 1 < d
        · have found : parsed.foundDecimal = true := by
            rw [foundDecimal]
            exact decide_eq_true behind
          have digits : parsed.fixeddigits = Int8.ofNat (k + 1) := by
            rw [fixeddigits, Nat.min_eq_right (by omega)]
          have positive : 0 < parsed.fixeddigits := by
            rw [digits]
            exact (fixeddigits_facts (by omega)).1.mpr (Nat.succ_pos k)
          apply step parsed value (Or.inl positive)
          · rw [if_pos found, digits, (fixeddigits_facts (by omega : k ≤ 4)).2,
              Nat.min_eq_right (by omega)]
          · rw [found]
            exact (decide_eq_true (by omega)).symm
        · have found : parsed.foundDecimal = false := by
            rw [foundDecimal]
            exact decide_eq_false behind
          apply step parsed value (Or.inr (by rw [found]; rfl))
          · rw [found, if_neg Bool.false_ne_true, fixeddigits, Nat.min_eq_left (by omega),
              Nat.min_eq_left (by omega)]
          · rw [found]
            exact (decide_eq_false (by omega)).symm

/-- The spaces in front are stripped. -/
theorem dropWhile_spaces (spaces : Nat) (cmd : List UInt8) (other : cmd.head? ≠ some space) :
    (List.replicate spaces space ++ cmd).dropWhile (· = space) = cmd := by
  rw [List.dropWhile_append_of_pos fun ch isSpace =>
    decide_eq_true (List.eq_of_mem_replicate isSpace)]
  cases cmd with
  | nil => rfl
  | cons ch cmd =>
      apply List.dropWhile_cons_of_neg
      intro same
      rw [of_decide_eq_true same] at other
      exact other rfl

/-- The number in front of its point is not empty. -/
theorem head_digitText {d k a : Nat} (more : d + 1 ≤ k) (small : a < 10 ^ k) :
    ∃ q < 10, ∃ digits, digitText d k a = UInt8.ofNat (48 + q) :: digits := by
  cases k with
  | zero => exact absurd more (Nat.not_succ_le_zero d)
  | succ k =>
      have digit : a / 10 ^ k < 10 := by
        apply Nat.div_lt_of_lt_mul
        rw [← Nat.pow_succ]
        exact small
      refine ⟨a / 10 ^ k, digit, digitText d k (a % 10 ^ k), ?_⟩
      rw [digitText, if_neg (by omega)]
      rfl

/-- The loop over the characters of a number that has been printed. -/
theorem numberLoop_text {d k a : Nat} (few : d ≤ 4) (more : d + 1 ≤ k) (small : a < 10 ^ k)
    (ends : NonNumeric rest) :
    ∃ parsed, numberLoop (digitText d k a ++ rest) ⟨0, Int8.ofNat d, false, false, 0⟩ = parsed ∧
      parsed.value = Int16.ofNat a ∧ parsed.fixeddigits = 0 ∧ parsed.foundNumber = true ∧
      (rest.head? ≠ some decimalPoint → parsed.count = (digitText d k a).length) := by
  have digits : Int8.ofNat d = Int8.ofNat (min d k) := by
    rw [Nat.min_eq_left (by omega)]
  have printed := numberLoop_digitText ⟨0, Int8.ofNat d, false, false, 0⟩ (v := 0) few small
    rfl digits (decide_eq_false (by omega)).symm rest
  have some : 0 < k := by omega
  simp only [Bool.false_or, decide_eq_true some] at printed
  obtain ⟨value, left, found, count⟩ := numberLoop_stop ⟨Int16.ofNat (0 * 10 ^ k + a), 0, true,
    decide (0 < d), 0 + (digitText d k a).length⟩ ends rfl
  refine ⟨_, printed, value.trans ?_, left, found, fun other => (count other).trans ?_⟩
  · rw [Nat.zero_mul, Nat.zero_add]
  · rw [Nat.zero_add]

/-- The number that the text of another stands for. -/
def decoded (n : Int16) : Int16 :=
  if n < 0 then Int16.ofNat (-n).toInt.toNat * -1 else Int16.ofNat n.toInt.toNat

/-- Where the most negative number is lost. -/
theorem decoded_eq_iff (n : Int16) : decoded n = n ↔ n ≠ -32768 := by
  constructor
  · rintro same rfl
    exact absurd same (by decide)
  · intro other
    rw [decoded]
    split_ifs with negative
    · have below := Int16.lt_iff_toInt_lt.mp negative
      have lower := n.le_toInt
      have notLeast : n.toInt ≠ (-32768 : Int16).toInt := mt Int16.toInt_inj.mp other
      have least : (-32768 : Int16).toInt = -32768 := rfl
      have zero : (0 : Int16).toInt = 0 := rfl
      have opposite : (-n).toInt = -n.toInt := by
        rw [Int16.toInt_neg]
        exact Int.bmod_eq_of_le (by omega) (by omega)
      have positive : 0 ≤ -n := by
        rw [Int16.le_iff_toInt_le, opposite]
        omega
      rw [Int16.toNat_toInt, Int16.ofNat_toNatClampNeg _ positive, Int16.mul_neg, Int16.mul_one,
        Int16.neg_neg]
    · exact Int16.ofNat_toNatClampNeg n (Int16.not_lt.mp negative)

/-- What is printed is read, with spaces in front and other text behind. -/
theorem nextInt16Fp_text {n : Int16} {d k : Nat} (few : d ≤ 4) (more : d + 1 ≤ k)
    (small : (if n < 0 then -n else n).toInt.toNat < 10 ^ k) (spaces : Nat)
    (ends : NonNumeric rest) :
    (nextInt16Fp (List.replicate spaces space ++ (text n d k ++ rest)) (Int8.ofNat d)).2 =
        decoded n ∧
      (rest.head? ≠ some decimalPoint →
        (nextInt16Fp (List.replicate spaces space ++ (text n d k ++ rest)) (Int8.ofNat d)).1 =
          UInt8.ofNat (spaces + (text n d k).length)) := by
  have skipped (number : List UInt8) :
      (List.replicate spaces space ++ number).length - number.length = spaces := by
    rw [List.length_append, List.length_replicate, Nat.add_sub_cancel]
  by_cases negative : n < 0
  · rw [if_pos negative] at small
    obtain ⟨parsed, loops, value, left, found, length⟩ := numberLoop_text few more small ends
    have stripped := dropWhile_spaces spaces
      (minusSign :: (digitText d k (-n).toInt.toNat ++ rest))
      (fun same => absurd (Option.some.inj same) (by decide))
    have started : nextInt16Fp (List.replicate spaces space ++ (text n d k ++ rest))
        (Int8.ofNat d) = (UInt8.ofNat (spaces + 1 + parsed.count), decoded n) := by
      rw [text, if_pos negative, decoded, if_pos negative, List.cons_append, nextInt16Fp, stripped,
        skipped]
      simp only [List.head?_cons, if_true, List.tail_cons, loops, value, left, found, true_and]
      rfl
    refine ⟨congrArg Prod.snd started, fun other => (congrArg Prod.fst started).trans ?_⟩
    rw [length other, text, if_pos negative, List.length_cons, Nat.add_assoc, Nat.add_comm 1]
  · rw [if_neg negative] at small
    obtain ⟨parsed, loops, value, left, found, length⟩ := numberLoop_text few more small ends
    obtain ⟨q, digit, digits, starts⟩ := head_digitText more small
    have every : ∀ q : Fin 10, UInt8.ofNat (48 + q) ≠ space ∧ UInt8.ofNat (48 + q) ≠ minusSign := by
      decide
    obtain ⟨notSpace, notMinus⟩ := every ⟨q, digit⟩
    have head : (digitText d k n.toInt.toNat ++ rest).head? = some (UInt8.ofNat (48 + q)) := by
      rw [starts]
      rfl
    have stripped := dropWhile_spaces spaces (digitText d k n.toInt.toNat ++ rest)
      (by rw [head]; exact fun same => notSpace (Option.some.inj same))
    have unsigned : ¬some (UInt8.ofNat (48 + q)) = some minusSign :=
      fun same => notMinus (Option.some.inj same)
    have started : nextInt16Fp (List.replicate spaces space ++ (text n d k ++ rest))
        (Int8.ofNat d) = (UInt8.ofNat (spaces + parsed.count), decoded n) := by
      rw [text, if_neg negative, decoded, if_neg negative, nextInt16Fp, stripped, skipped, head]
      simp only [unsigned, if_false, and_false, loops, value, left, found, if_true]
      rfl
    refine ⟨congrArg Prod.snd started, fun other => (congrArg Prod.fst started).trans ?_⟩
    rw [length other, text, if_neg negative]

example : nextInt16Fp [32, 45, 51, 46, 53, 48] 2 = (6, -350) := by decide

end Reading

/-- A number is written inside of the buffer, whatever its size. -/
def WritesInside (n : Int16) (d : Nat) : Prop :=
  ∀ (s : Memory) (size : UInt8), ∃ len s',
    itoaFixedpoint n (UInt8.ofNat d) s size = some (len, s') ∧
    ∀ index, size.toNat ≤ index → s' index = s index

/-- With room for every number, and with spaces in front and other text behind, a number that has
been written is read. -/
def RoundTrips (n : Int16) (d : Nat) : Prop :=
  ∀ (s : Memory) (size : UInt8) (spaces : Nat) (rest : List UInt8), 8 ≤ size → NonNumeric rest →
    ∃ len s', itoaFixedpoint n (UInt8.ofNat d) s size = some (len, s') ∧ s' len.toNat = 0 ∧
      (nextInt16Fp (List.replicate spaces space ++ (readBlock s' 0 len.toNat ++ rest))
        (Int8.ofNat d)).2 = n ∧
      (rest.head? ≠ some decimalPoint →
        (nextInt16Fp (List.replicate spaces space ++ (readBlock s' 0 len.toNat ++ rest))
          (Int8.ofNat d)).1 = UInt8.ofNat (spaces + len.toNat))

section RoundTrips

theorem writesInside (n : Int16) {d : Nat} (few : d ≤ 4) : WritesInside n d := by
  intro s size
  by_cases room : size ≤ 1
  · refine ⟨0, s, ?_, fun _ _ => rfl⟩
    rw [itoaFixedpoint, if_pos room]
  · obtain ⟨k, -, -, -, written⟩ := itoaFixedpoint_eq n few s (UInt8.not_le.mp room)
    refine ⟨_, _, written, fun index above => writeBlock_outside (Or.inr ?_)⟩
    have large := UInt8.lt_iff_toNat_lt.mp (UInt8.not_le.mp room)
    rw [List.length_append, List.length_take, List.length_singleton]
    omega

theorem length_text {n : Int16} {d k : Nat} (five : k ≤ 5) : (text n d k).length ≤ 7 := by
  rw [text]
  split_ifs
  · rw [List.length_cons, length_digitText]
    split_ifs <;> omega
  · rw [length_digitText]
    split_ifs <;> omega

/-- The whole text fits into a buffer that is large enough. -/
theorem itoaFixedpoint_whole (n : Int16) {d : Nat} (few : d ≤ 4) (s : Memory) {size : UInt8}
    (room : 8 ≤ size) :
    ∃ k, d + 1 ≤ k ∧ (if n < 0 then -n else n).toInt.toNat < 10 ^ k ∧ (text n d k).length ≤ 7 ∧
      itoaFixedpoint n (UInt8.ofNat d) s size =
        some (UInt8.ofNat (text n d k).length, writeBlock s 0 (text n d k ++ [0])) := by
  have above : 8 ≤ size.toNat := UInt8.le_iff_toNat_le.mp room
  have large : 1 < size := UInt8.lt_iff_toNat_lt.mpr (Nat.lt_of_lt_of_le (by decide) above)
  obtain ⟨k, more, five, small, written⟩ := itoaFixedpoint_eq n few s large
  have short := length_text (n := n) (d := d) five
  rw [List.take_of_length_le (by omega)] at written
  exact ⟨k, more, small, short, written⟩

theorem survives_iff (n : Int16) {d : Nat} (few : d ≤ 4) : RoundTrips n d ↔ n ≠ -32768 := by
  -- what is read stands for the number, whatever is around it
  have reads (s : Memory) (size : UInt8) (spaces : Nat) (rest : List UInt8) (room : 8 ≤ size)
      (ends : NonNumeric rest) :
      ∃ len s', itoaFixedpoint n (UInt8.ofNat d) s size = some (len, s') ∧ s' len.toNat = 0 ∧
        (nextInt16Fp (List.replicate spaces space ++ (readBlock s' 0 len.toNat ++ rest))
          (Int8.ofNat d)).2 = decoded n ∧
        (rest.head? ≠ some decimalPoint →
          (nextInt16Fp (List.replicate spaces space ++ (readBlock s' 0 len.toNat ++ rest))
            (Int8.ofNat d)).1 = UInt8.ofNat (spaces + len.toNat)) := by
    obtain ⟨k, more, small, short, written⟩ := itoaFixedpoint_whole n few s room
    refine ⟨_, _, written, ?_⟩
    have length : (UInt8.ofNat (text n d k).length).toNat = (text n d k).length := by
      rw [UInt8.toNat_ofNat']
      omega
    have ended : writeBlock s 0 (text n d k ++ [0]) (text n d k).length = 0 := by
      rw [writeBlock_append, writeBlock_singleton, Nat.zero_add, Function.update_self]
    have stored : readBlock (writeBlock s 0 (text n d k ++ [0])) 0 (text n d k).length =
        text n d k := by
      rw [writeBlock_append, readBlock_writeBlock_disjoint (by omega), readBlock_writeBlock_same]
    obtain ⟨value, count⟩ := nextInt16Fp_text few more small spaces ends
    rw [length, stored]
    exact ⟨ended, value, count⟩
  constructor
  · intro trips
    have nothing : NonNumeric [] :=
      ⟨fun _ none => absurd none (by simp), fun none => absurd none (by simp)⟩
    obtain ⟨len, s', written, -, value, -⟩ := trips (fun _ => 0) 8 0 [] (by decide) nothing
    obtain ⟨len', s'', written', -, value', -⟩ := reads (fun _ => 0) 8 0 [] (by decide) nothing
    obtain ⟨rfl, rfl⟩ := Prod.mk.inj (Option.some.inj (written.symm.trans written'))
    exact (decoded_eq_iff n).mp (value'.symm.trans value)
  · intro other s size spaces rest room ends
    obtain ⟨len, s', written, ended, value, count⟩ := reads s size spaces rest room ends
    exact ⟨len, s', written, ended, value.trans ((decoded_eq_iff n).mpr other), count⟩

/-- A number survives unless its sign cannot be dropped. -/
theorem fixedpoint_roundTrips_iff (n : Int16) (d : Nat) (few : d ≤ 4) :
    (WritesInside n d ∧ RoundTrips n d ↔ n ≠ -32768) ∧ WritesInside n d :=
  ⟨⟨fun both => (survives_iff n few).mp both.2,
    fun other => ⟨writesInside n few, (survives_iff n few).mpr other⟩⟩, writesInside n few⟩

theorem fixedpoint_roundTrips_iff_tenths :
    (WritesInside (-125) 1 ∧ RoundTrips (-125) 1 ↔ (-125 : Int16) ≠ -32768) ∧
      WritesInside (-125) 1 :=
  fixedpoint_roundTrips_iff (-125) 1 (by decide)

/-- The sign of the most negative number is all that is left of it. -/
theorem fixedpoint_loses_least :
    ¬∀ (n : Int16) (d : Nat), d ≤ 4 → WritesInside n d ∧ RoundTrips n d :=
  fun survives => (survives_iff (-32768) (by decide : 2 ≤ 4)).mp
    (survives (-32768) 2 (by decide)).2 rfl

end RoundTrips

end Ethersex.FixedPoint

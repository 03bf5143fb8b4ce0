import Ethersex.EcmdLineEditing
import Ethersex.HttpdServer

/-!
# The decoding of an ECMD command in a URL

`httpd_handle_ecmd_setup` decodes the part of a request behind `ecmd?` into the input buffer of the
connection.  This file follows which addresses of the request it accesses and what it leaves in the
buffer; the decoded command is the one of `ecmdDecode`.
-/

namespace Ethersex.Httpd

open ByteMemory CStrings
open Ecmd (Stores inputbufLength)

/-- The input buffer with the memory behind it, the addresses of the request that were read or
written, and the handler. -/
structure EcmdSetup where
  input : Memory
  accessed : List Nat
  handler : Handler

def EcmdSetup.access (positions : List Nat) (setup : EcmdSetup) : EcmdSetup :=
  { setup with accessed := positions ++ setup.accessed }

/-- The loop of `httpd_handle_ecmd_setup` and what comes behind it.  The third byte behind a `%` is
zero while `strtoul` reads the two bytes before it; then it is restored. -/
def ecmdSetupLoop (memory : Memory) : Nat → Nat → Nat → Memory → EcmdSetup
  | 0, _, position, input => ⟨input, [position], .handle400⟩
  | maxlen + 1, ptr, position, input =>
      if memory position = 0 then ⟨Function.update input ptr 0, [position], .handleEcmd⟩
      else if memory position = 43 then
        (ecmdSetupLoop memory maxlen (ptr + 1) (position + 1)
          (Function.update input ptr space)).access [position]
      else if memory position = 37 then
        let byte := strtoul ([memory (position + 1), memory (position + 2)].takeWhile (· != 0))
        (ecmdSetupLoop memory maxlen (ptr + 1) (position + 3)
          (Function.update input ptr byte)).access
            [position, position + 3, position + 1, position + 2]
      else
        (ecmdSetupLoop memory maxlen (ptr + 1) (position + 1)
          (Function.update input ptr (memory position))).access [position]

def ecmdSetup (memory : Memory) (encodedCmd : Nat) (input : Memory) : EcmdSetup :=
  ecmdSetupLoop memory inputbufLength 0 encodedCmd input

/-- The byte that an escape with two hexadecimal digits stands for. -/
def hexPair (first second : UInt8) : Option UInt8 :=
  match hexValue first, hexValue second with
  | some high, some low => some (high * 16 + low)
  | _, _ => none

/-- A byte that does not begin an escape. -/
def plainByte (byte : UInt8) : UInt8 :=
  if byte = 43 then space else byte

/-- The text that a string in percent encoding stands for. -/
def percentDecode : List UInt8 → List UInt8
  | 37 :: first :: second :: rest =>
      match hexPair first second with
      | some byte => byte :: percentDecode rest
      | none => 37 :: percentDecode (first :: second :: rest)
  | byte :: rest => plainByte byte :: percentDecode rest
  | [] => []

/-- The request is read up to its end, nothing behind the input buffer changes, and the buffer
holds the decoded command, or the handler for bad requests is installed for one that is too
long. -/
structure DecodesRight (start : Nat) (text : List UInt8) (before : Memory) (setup : EcmdSetup) :
    Prop where
  inside : ∀ position ∈ setup.accessed, start ≤ position ∧ position ≤ start + text.length
  bounded : ∀ index, inputbufLength ≤ index → setup.input index = before index
  stored : (percentDecode text).length < inputbufLength → setup.handler = .handleEcmd ∧
    readBlock setup.input 0 ((percentDecode text).length + 1) = percentDecode text ++ [0]
  tooLong : inputbufLength ≤ (percentDecode text).length → setup.handler = .handle400

/-- Every escape has two characters of the given kind behind the percent sign, as far as the loop
gets with room for the given number of characters. -/
inductive Escapes (good : UInt8 → UInt8 → Prop) : Nat → List UInt8 → Prop
  | limit (text : List UInt8) : Escapes good 0 text
  | nil (room : Nat) : Escapes good (room + 1) []
  | plain {room : Nat} {byte : UInt8} {text : List UInt8} (other : byte ≠ 37)
      (rest : Escapes good room text) : Escapes good (room + 1) (byte :: text)
  | escape {room : Nat} {first second : UInt8} {text : List UInt8} (isGood : good first second)
      (rest : Escapes good room text) : Escapes good (room + 1) (37 :: first :: second :: text)

/-- Every escape has two characters behind it, and the string fills the given room when each
escape counts for one character. -/
inductive Fills : Nat → List UInt8 → Prop
  | limit (text : List UInt8) : Fills 0 text
  | plain {room : Nat} {byte : UInt8} {text : List UInt8} (other : byte ≠ 37)
      (rest : Fills room text) : Fills (room + 1) (byte :: text)
  | escape {room : Nat} {first second : UInt8} {text : List UInt8} (rest : Fills room text) :
      Fills (room + 1) (37 :: first :: second :: text)

def IsHexPair (first second : UInt8) : Prop :=
  (hexPair first second).isSome

def AnyPair (_first _second : UInt8) : Prop :=
  True

/-- The strings that are decoded right. -/
def Decodable (text : List UInt8) : Prop :=
  Escapes IsHexPair inputbufLength text ∨ Fills inputbufLength text

theorem Escapes.complete {good : UInt8 → UInt8 → Prop} {room : Nat} {text : List UInt8}
    (escapes : Escapes good room text) : Escapes AnyPair room text := by
  induction escapes with
  | limit text => exact .limit text
  | nil room => exact .nil room
  | plain other _ ih => exact .plain other ih
  | escape _ _ ih => exact .escape trivial ih

theorem Fills.complete {room : Nat} {text : List UInt8} (fills : Fills room text) :
    Escapes AnyPair room text := by
  induction fills with
  | limit text => exact .limit text
  | plain other _ ih => exact .plain other ih
  | escape _ ih => exact .escape trivial ih

section Decoding

variable {first second byte : UInt8} {text : List UInt8}

theorem percentDecode_plain (other : byte ≠ 37) :
    percentDecode (byte :: text) = plainByte byte :: percentDecode text := by
  rw [percentDecode]
  exact fun _ _ _ same => absurd same other

theorem percentDecode_hex {value : UInt8} (hex : hexPair first second = some value) :
    percentDecode (37 :: first :: second :: text) = value :: percentDecode text := by
  rw [percentDecode, hex]

theorem percentDecode_notHex (notHex : hexPair first second = none) :
    percentDecode (37 :: first :: second :: text) =
      37 :: percentDecode (first :: second :: text) := by
  rw [percentDecode, notHex]

theorem hexValue_all : ∀ index : Fin 256, ((hexValue (UInt8.ofNat index)).all fun value =>
    decide (value.toNat < 16) && !isSpace (UInt8.ofNat index) &&
      UInt8.ofNat index != 45 && UInt8.ofNat index != 43) = true := by
  decide +kernel

/-- A hexadecimal digit is small, and no byte that `strtoul` skips. -/
theorem hexValue_facts {value : UInt8} (hex : hexValue byte = some value) :
    value.toNat < 16 ∧ isSpace byte = false ∧ byte ≠ 45 ∧ byte ≠ 43 := by
  have all := hexValue_all ⟨byte.toNat, byte.toNat_lt⟩
  dsimp only at all
  rw [UInt8.ofNat_toNat, hex] at all
  simpa [and_assoc] using all

theorem strtoul_digit {value : UInt8} (hex : hexValue first = some value) :
    strtoul (first :: text) = hexDigits (first :: text) := by
  obtain ⟨-, notSpace, notMinus, notPlus⟩ := hexValue_facts hex
  rw [strtoul, List.dropWhile_cons_of_neg (by simp [notSpace])]
  split
  next rest same => exact absurd (List.cons.inj same).1 notMinus
  next rest same => exact absurd (List.cons.inj same).1 notPlus
  next => rfl

theorem strtoul_hex {value : UInt8} (hex : hexPair first second = some value) :
    strtoul [first, second] = value := by
  unfold hexPair at hex
  split at hex
  next high low highHex lowHex =>
    cases hex
    rw [strtoul_digit highHex]
    simp [hexDigits, highHex, lowHex]
  · cases hex

/-- One digit has a small value. -/
theorem hexDigits_singleton_lt (byte : UInt8) : (hexDigits [byte]).toNat < 16 := by
  cases hex : hexValue byte with
  | none => simp [hexDigits, hex]
  | some value =>
      simp only [hexDigits, List.map_cons, hex, List.map_nil, List.takeWhile_cons,
        Option.isSome_some,
        if_true, List.takeWhile_nil, List.foldl_cons, List.foldl_nil, Option.getD_some]
      rw [UInt8.zero_mul, UInt8.zero_add]
      exact (hexValue_facts hex).1

theorem hexDigits_none (notHex : hexValue first = none) : hexDigits (first :: text) = 0 := by
  simp [hexDigits, notHex]

theorem ne_percent_of_lt {value : UInt8} (small : value.toNat < 16) : value ≠ 37 := by
  rintro rfl
  exact absurd small (by decide)

theorem neg_ne_percent_of_lt {value : UInt8} (small : value.toNat < 16) : 0 - value ≠ 37 := by
  intro same
  have number := congrArg UInt8.toNat same
  rw [UInt8.toNat_sub] at number
  simp at number
  omega

theorem strtoul_singleton_ne (byte : UInt8) : strtoul [byte] ≠ 37 := by
  by_cases isBlank : isSpace byte
  · simp [strtoul, isBlank, hexDigits]
  · rw [strtoul, List.dropWhile_cons_of_neg isBlank]
    split
    next rest same =>
      rw [← (List.cons.inj same).2]
      decide
    next rest same =>
      rw [← (List.cons.inj same).2]
      decide
    next => exact ne_percent_of_lt (hexDigits_singleton_lt byte)

/-- An escape without two hexadecimal digits is not decoded to a percent sign. -/
theorem strtoul_ne (notHex : hexPair first second = none) : strtoul [first, second] ≠ 37 := by
  cases high : hexValue first with
  | some value =>
      have low : hexValue second = none := by
        cases low : hexValue second with
        | none => rfl
        | some other => simp [hexPair, high, low] at notHex
      have same : hexDigits [first, second] = hexDigits [first] := by
        simp [hexDigits, high, low]
      rw [strtoul_digit high, same]
      exact ne_percent_of_lt (hexDigits_singleton_lt first)
  | none =>
      by_cases isBlank : isSpace first
      · have skipped : strtoul [first, second] = strtoul [second] := by
          rw [strtoul, strtoul, List.dropWhile_cons_of_pos isBlank]
        rw [skipped]
        exact strtoul_singleton_ne second
      · rw [strtoul, List.dropWhile_cons_of_neg isBlank]
        split
        next rest same =>
          rw [← (List.cons.inj same).2]
          exact neg_ne_percent_of_lt (hexDigits_singleton_lt second)
        next rest same =>
          rw [← (List.cons.inj same).2]
          exact ne_percent_of_lt (hexDigits_singleton_lt second)
        next =>
          rw [hexDigits_none high]
          decide

end Decoding

section Command

variable {memory : Memory} {position room : Nat} {text : List UInt8}

theorem ecmdDecode_nil (stores : Stores memory position []) (room : Nat) :
    ecmdDecode memory (room + 1) position = some [] :=
  if_pos stores.terminated

theorem ecmdDecode_plain {byte : UInt8} (stores : Stores memory position (byte :: text))
    (nonzero : byte ≠ 0) (other : byte ≠ 37) (room : Nat) :
    ecmdDecode memory (room + 1) position =
      (ecmdDecode memory room (position + 1)).map (plainByte byte :: ·) := by
  rw [ecmdDecode, stores.head.1, if_neg nonzero, if_neg other]
  unfold plainByte
  split <;> rfl

theorem ecmdDecode_escape {first second : UInt8}
    (stores : Stores memory position (37 :: first :: second :: text)) (notZero : first ≠ 0)
    (nonzero : second ≠ 0) (room : Nat) :
    ecmdDecode memory (room + 1) position =
      (ecmdDecode memory room (position + 3)).map (strtoul [first, second] :: ·) := by
  have digits : [first, second].takeWhile (· != 0) = [first, second] := by
    simp [notZero, nonzero]
  rw [ecmdDecode, stores.head.1, stores.head.2.head.1, stores.head.2.head.2.head.1, digits]
  rfl

/-- The rest of the string behind a complete escape. -/
theorem stores_behind_escape {first second : UInt8}
    (stores : Stores memory position (37 :: first :: second :: text)) :
    Stores memory (position + 3) text :=
  stores.head.2.head.2.head.2

/-- Complete escapes with two hexadecimal digits are decoded right. -/
theorem ecmdDecode_of_hex (escapes : Escapes IsHexPair room text)
    (stores : Stores memory position text) (nonzero : 0 ∉ text) :
    ecmdDecode memory room position =
      if (percentDecode text).length < room then some (percentDecode text) else none := by
  induction escapes generalizing position with
  | limit text => rfl
  | nil room => exact ecmdDecode_nil stores room
  | @plain room byte text other _ ih =>
      rw [List.mem_cons, not_or] at nonzero
      rw [ecmdDecode_plain stores (Ne.symm nonzero.1) other, ih stores.head.2 nonzero.2,
        percentDecode_plain other]
      simp only [List.length_cons, Nat.add_lt_add_iff_right]
      split <;> rfl
  | @escape room first second text isHex _ ih =>
      simp only [List.mem_cons, not_or] at nonzero
      obtain ⟨-, firstNonzero, secondNonzero, restNonzero⟩ := nonzero
      obtain ⟨value, hex⟩ := Option.isSome_iff_exists.mp isHex
      rw [ecmdDecode_escape stores (Ne.symm firstNonzero) (Ne.symm secondNonzero),
        ih (stores_behind_escape stores) restNonzero, percentDecode_hex hex, strtoul_hex hex]
      simp only [List.length_cons, Nat.add_lt_add_iff_right]
      split <;> rfl

theorem ecmdDecode_of_fills (fills : Fills room text) (stores : Stores memory position text)
    (nonzero : 0 ∉ text) : ecmdDecode memory room position = none := by
  induction fills generalizing position with
  | limit text => rfl
  | plain other _ ih =>
      rw [List.mem_cons, not_or] at nonzero
      rw [ecmdDecode_plain stores (Ne.symm nonzero.1) other, ih stores.head.2 nonzero.2]
      rfl
  | escape _ ih =>
      simp only [List.mem_cons, not_or] at nonzero
      obtain ⟨-, firstNonzero, secondNonzero, restNonzero⟩ := nonzero
      rw [ecmdDecode_escape stores (Ne.symm firstNonzero) (Ne.symm secondNonzero),
        ih (stores_behind_escape stores) restNonzero]
      rfl

/-- With complete escapes the string fills the room if there is no command. -/
theorem fills_of_none (escapes : Escapes AnyPair room text) (stores : Stores memory position text)
    (nonzero : 0 ∉ text) (none : ecmdDecode memory room position = none) : Fills room text := by
  induction escapes generalizing position with
  | limit text => exact .limit text
  | nil room =>
      rw [ecmdDecode_nil stores] at none
      cases none
  | plain other _ ih =>
      rw [List.mem_cons, not_or] at nonzero
      rw [ecmdDecode_plain stores (Ne.symm nonzero.1) other, Option.map_eq_none_iff] at none
      exact .plain other (ih stores.head.2 nonzero.2 none)
  | escape _ _ ih =>
      simp only [List.mem_cons, not_or] at nonzero
      obtain ⟨-, firstNonzero, secondNonzero, restNonzero⟩ := nonzero
      rw [ecmdDecode_escape stores (Ne.symm firstNonzero) (Ne.symm secondNonzero),
        Option.map_eq_none_iff] at none
      exact .escape (ih (stores_behind_escape stores) restNonzero none)

/-- When the command stands where the decoded text should stand, all escapes have two
hexadecimal digits. -/
theorem hex_of_some {command whole : List UInt8} (escapes : Escapes AnyPair room text)
    (stores : Stores memory position text) (nonzero : 0 ∉ text)
    (decoded : ecmdDecode memory room position = some command) (stands : command <+: whole)
    (expected : percentDecode text ++ [0] <+: whole) : Escapes IsHexPair room text := by
  induction escapes generalizing position command whole with
  | limit text => exact .limit text
  | nil room => exact .nil room
  | plain other _ ih =>
      rw [List.mem_cons, not_or] at nonzero
      rw [ecmdDecode_plain stores (Ne.symm nonzero.1) other, Option.map_eq_some_iff] at decoded
      obtain ⟨rest, decodedRest, rfl⟩ := decoded
      obtain ⟨whole, rfl, standsRest⟩ := List.cons_prefix_iff.mp stands
      rw [percentDecode_plain other, List.cons_append, List.cons_prefix_cons] at expected
      exact .plain other (ih stores.head.2 nonzero.2 decodedRest standsRest expected.2)
  | @escape room first second text _ _ ih =>
      simp only [List.mem_cons, not_or] at nonzero
      obtain ⟨-, firstNonzero, secondNonzero, restNonzero⟩ := nonzero
      rw [ecmdDecode_escape stores (Ne.symm firstNonzero) (Ne.symm secondNonzero),
        Option.map_eq_some_iff] at decoded
      obtain ⟨rest, decodedRest, rfl⟩ := decoded
      obtain ⟨whole, rfl, standsRest⟩ := List.cons_prefix_iff.mp stands
      cases pair : hexPair first second with
      | none =>
          rw [percentDecode_notHex pair, List.cons_append, List.cons_prefix_cons] at expected
          exact absurd expected.1.symm (strtoul_ne pair)
      | some value =>
          rw [percentDecode_hex pair, List.cons_append, List.cons_prefix_cons] at expected
          have isHex : IsHexPair first second := by
            rw [IsHexPair, pair]
            rfl
          exact .escape isHex
            (ih (stores_behind_escape stores) restNonzero decodedRest standsRest expected.2)

end Command

section Length

variable {first second byte : UInt8} {text : List UInt8}

theorem ne_percent_of_hexPair {value : UInt8} (hex : hexPair first second = some value) :
    first ≠ 37 ∧ second ≠ 37 := by
  constructor <;> rintro rfl
  · cases hex
  · unfold hexPair at hex
    split at hex
    next _ _ _ low => cases low
    · cases hex

/-- A byte in front of a text makes its decoded length at most one shorter. -/
theorem length_percentDecode_cons (byte : UInt8) (text : List UInt8) :
    (percentDecode text).length ≤ (percentDecode (byte :: text)).length + 1 := by
  by_cases other : byte = 37
  · subst other
    rcases text with _ | ⟨first, _ | ⟨second, text⟩⟩
    · exact Nat.zero_le _
    · simp [percentDecode]
    · cases pair : hexPair first second with
      | none =>
          rw [percentDecode_notHex pair, List.length_cons]
          omega
      | some value =>
          obtain ⟨firstOther, secondOther⟩ := ne_percent_of_hexPair pair
          rw [percentDecode_hex pair, percentDecode_plain firstOther,
            percentDecode_plain secondOther]
          simp
  · rw [percentDecode_plain other, List.length_cons]
    omega

/-- Two characters that are not decoded together with a percent sign in front of them. -/
theorem length_percentDecode_cons_cons (first second : UInt8) (text : List UInt8) :
    (percentDecode text).length ≤ (percentDecode (first :: second :: text)).length := by
  have one := length_percentDecode_cons second text
  by_cases other : first = 37
  · subst other
    cases text with
    | nil => exact Nat.zero_le _
    | cons third text =>
        cases pair : hexPair second third with
        | none =>
            rw [percentDecode_notHex pair, List.length_cons]
            exact one
        | some value =>
            rw [percentDecode_hex pair, percentDecode_plain (ne_percent_of_hexPair pair).2]
            simp
  · rw [percentDecode_plain other, List.length_cons]
    exact one

/-- A string that fills the room decodes to as many characters at least. -/
theorem Fills.le_length {room : Nat} (fills : Fills room text) :
    room ≤ (percentDecode text).length := by
  induction fills with
  | limit text => exact Nat.zero_le _
  | plain other _ ih =>
      rw [percentDecode_plain other]
      exact Nat.succ_le_succ ih
  | @escape room first second text _ ih =>
      cases pair : hexPair first second with
      | none =>
          rw [percentDecode_notHex pair]
          exact Nat.succ_le_succ
            (Nat.le_trans ih (length_percentDecode_cons_cons first second text))
      | some value =>
          rw [percentDecode_hex pair]
          exact Nat.succ_le_succ ih

end Length

section Loop

variable {memory : Memory} {position room : Nat} {text : List UInt8}

@[simp]
theorem access_input (positions : List Nat) (setup : EcmdSetup) :
    (setup.access positions).input = setup.input :=
  rfl

@[simp]
theorem access_handler (positions : List Nat) (setup : EcmdSetup) :
    (setup.access positions).handler = setup.handler :=
  rfl

@[simp]
theorem access_accessed (positions : List Nat) (setup : EcmdSetup) :
    (setup.access positions).accessed = positions ++ setup.accessed :=
  rfl

/-- A round of the loop stores the next byte of the command. -/
theorem ecmdSetupLoop_step (nonzero : memory position ≠ 0) (room : Nat) :
    ∃ byte next positions,
      ecmdDecode memory (room + 1) position =
        (ecmdDecode memory room next).map (byte :: ·) ∧
      ∀ ptr input, ecmdSetupLoop memory (room + 1) ptr position input =
        (ecmdSetupLoop memory room (ptr + 1) next
          (Function.update input ptr byte)).access positions := by
  simp only [ecmdDecode, ecmdSetupLoop, if_neg nonzero]
  split_ifs
  · exact ⟨_, _, _, rfl, fun _ _ => rfl⟩
  · exact ⟨_, _, _, rfl, fun _ _ => rfl⟩
  · exact ⟨_, _, _, rfl, fun _ _ => rfl⟩

/-- A command that fits is stored with a zero behind it. -/
theorem ecmdSetupLoop_some {command : List UInt8}
    (decoded : ecmdDecode memory room position = some command) (ptr : Nat) (input : Memory) :
    command.length < room ∧
      (ecmdSetupLoop memory room ptr position input).handler = .handleEcmd ∧
      (ecmdSetupLoop memory room ptr position input).input =
        writeBlock input ptr (command ++ [0]) := by
  induction room generalizing position command ptr input with
  | zero => cases decoded
  | succ room ih =>
      by_cases ended : memory position = 0
      · rw [ecmdDecode, if_pos ended] at decoded
        cases decoded
        rw [ecmdSetupLoop, if_pos ended, List.nil_append, writeBlock_singleton]
        exact ⟨Nat.succ_pos room, rfl, rfl⟩
      · obtain ⟨byte, next, positions, decodes, loops⟩ := ecmdSetupLoop_step ended room
        rw [decodes, Option.map_eq_some_iff] at decoded
        obtain ⟨rest, decodedRest, rfl⟩ := decoded
        obtain ⟨fits, handler, stored⟩ := ih decodedRest (ptr + 1) (Function.update input ptr byte)
        rw [loops, access_handler, access_input, List.cons_append, writeBlock_cons]
        exact ⟨Nat.succ_lt_succ fits, handler, stored⟩

/-- For a command that does not fit nothing behind the room is written. -/
theorem ecmdSetupLoop_none (decoded : ecmdDecode memory room position = none) (ptr : Nat)
    (input : Memory) :
    (ecmdSetupLoop memory room ptr position input).handler = .handle400 ∧
      ∀ index, ptr + room ≤ index →
        (ecmdSetupLoop memory room ptr position input).input index = input index := by
  induction room generalizing position ptr input with
  | zero => exact ⟨rfl, fun _ _ => rfl⟩
  | succ room ih =>
      by_cases ended : memory position = 0
      · rw [ecmdDecode, if_pos ended] at decoded
        cases decoded
      · obtain ⟨byte, next, positions, decodes, loops⟩ := ecmdSetupLoop_step ended room
        rw [decodes, Option.map_eq_none_iff] at decoded
        obtain ⟨handler, kept⟩ := ih decoded (ptr + 1) (Function.update input ptr byte)
        rw [loops, access_handler, access_input]
        refine ⟨handler, ?_⟩
        intro index behind
        rw [kept index (by omega), Function.update_of_ne (by omega)]

theorem ecmdSetupLoop_nil (stores : Stores memory position []) (room ptr : Nat) (input : Memory) :
    ecmdSetupLoop memory (room + 1) ptr position input =
      ⟨Function.update input ptr 0, [position], .handleEcmd⟩ :=
  if_pos stores.terminated

theorem ecmdSetupLoop_plain {byte : UInt8} (stores : Stores memory position (byte :: text))
    (nonzero : byte ≠ 0) (other : byte ≠ 37) (room ptr : Nat) (input : Memory) :
    ecmdSetupLoop memory (room + 1) ptr position input =
      (ecmdSetupLoop memory room (ptr + 1) (position + 1)
        (Function.update input ptr (plainByte byte))).access [position] := by
  rw [ecmdSetupLoop, stores.head.1, if_neg nonzero, if_neg other]
  unfold plainByte
  split <;> rfl

theorem ecmdSetupLoop_percent (percent : memory position = 37) (room ptr : Nat) (input : Memory) :
    ecmdSetupLoop memory (room + 1) ptr position input =
      (ecmdSetupLoop memory room (ptr + 1) (position + 3) (Function.update input ptr
        (strtoul ([memory (position + 1), memory (position + 2)].takeWhile (· != 0))))).access
          [position, position + 3, position + 1, position + 2] := by
  rw [ecmdSetupLoop, percent]
  rfl

/-- With complete escapes the loop does not read behind the string. -/
theorem accessed_of_complete (escapes : Escapes AnyPair room text)
    (stores : Stores memory position text) (nonzero : 0 ∉ text) (ptr : Nat) (input : Memory) :
    ∀ index ∈ (ecmdSetupLoop memory room ptr position input).accessed,
      position ≤ index ∧ index ≤ position + text.length := by
  intro index member
  induction escapes generalizing position ptr input with
  | limit text =>
      rw [List.mem_singleton.mp member]
      exact ⟨Nat.le_refl _, Nat.le_add_right _ _⟩
  | nil room =>
      rw [ecmdSetupLoop_nil stores] at member
      rw [List.mem_singleton.mp member]
      exact ⟨Nat.le_refl _, Nat.le_add_right _ _⟩
  | plain other _ ih =>
      rw [List.mem_cons, not_or] at nonzero
      rw [ecmdSetupLoop_plain stores (Ne.symm nonzero.1) other, access_accessed,
        List.mem_append] at member
      rw [List.length_cons]
      rcases member with first | later
      · rw [List.mem_singleton.mp first]
        omega
      · have bounds := ih stores.head.2 nonzero.2 _ _ later
        omega
  | escape _ _ ih =>
      simp only [List.mem_cons, not_or] at nonzero
      rw [ecmdSetupLoop_percent stores.head.1, access_accessed, List.mem_append] at member
      simp only [List.length_cons]
      rcases member with first | later
      · simp only [List.mem_cons, List.not_mem_nil, or_false] at first
        omega
      · have bounds := ih (stores_behind_escape stores) nonzero.2.2.2 _ _ later
        omega

/-- If the loop does not read behind the string, the escapes are complete. -/
theorem complete_of_accessed (stores : Stores memory position text) (nonzero : 0 ∉ text)
    (ptr : Nat) (input : Memory)
    (inside : ∀ index ∈ (ecmdSetupLoop memory room ptr position input).accessed,
      index ≤ position + text.length) : Escapes AnyPair room text := by
  induction room generalizing position text ptr input with
  | zero => exact .limit text
  | succ room ih =>
      cases text with
      | nil => exact .nil room
      | cons byte text =>
          rw [List.mem_cons, not_or] at nonzero
          by_cases percent : byte = 37
          · subst percent
            rw [ecmdSetupLoop_percent stores.head.1, access_accessed] at inside
            have third := inside (position + 3) (by simp)
            rcases text with _ | ⟨first, _ | ⟨second, text⟩⟩
            · simp at third
            · simp at third
            · simp only [List.mem_cons, not_or] at nonzero
              refine .escape trivial (ih (stores_behind_escape stores) nonzero.2.2.2 (ptr + 1)
                (Function.update input ptr (strtoul
                  ([memory (position + 1), memory (position + 2)].takeWhile (· != 0)))) ?_)
              intro index member
              have bound := inside index (List.mem_append_right _ member)
              simp only [List.length_cons] at bound
              omega
          · rw [ecmdSetupLoop_plain stores (Ne.symm nonzero.1) percent, access_accessed] at inside
            refine .plain percent (ih stores.head.2 nonzero.2 (ptr + 1)
              (Function.update input ptr (plainByte byte)) ?_)
            intro index member
            have bound := inside index (List.mem_append_right _ member)
            rw [List.length_cons] at bound
            omega

end Loop

/-- A block at the start of the input buffer. -/
theorem readBlock_prefix (memory : Memory) {count limit : Nat} (bound : count ≤ limit) :
    readBlock memory 0 count <+: readBlock memory 0 limit := by
  rw [← take_readBlock bound]
  exact List.take_prefix _ _

section Setup

variable {memory : Memory} {encodedCmd : Nat} {text : List UInt8}

theorem decodable_of_right (stores : Stores memory encodedCmd text) (nonzero : 0 ∉ text)
    (input : Memory)
    (right : DecodesRight encodedCmd text input (ecmdSetup memory encodedCmd input)) :
    Decodable text := by
  have complete := complete_of_accessed stores nonzero 0 input
    fun index member => (right.inside index member).2
  cases decoded : ecmdDecode memory inputbufLength encodedCmd with
  | none => exact Or.inr (fills_of_none complete stores nonzero decoded)
  | some command =>
      obtain ⟨fits, handler, stored⟩ := ecmdSetupLoop_some decoded 0 input
      have short : (percentDecode text).length < inputbufLength := by
        by_contra long
        have refused := right.tooLong (Nat.not_lt.mp long)
        rw [ecmdSetup, handler] at refused
        cases refused
      have stands : command ++ [0] <+: readBlock (ecmdSetup memory encodedCmd input).input 0
          inputbufLength := by
        have same := readBlock_writeBlock_same input 0 (command ++ [0])
        rw [← stored] at same
        rw [← same]
        exact readBlock_prefix _ (by rw [List.length_append]; exact fits)
      have expected : percentDecode text ++ [0] <+:
          readBlock (ecmdSetup memory encodedCmd input).input 0 inputbufLength := by
        rw [← (right.stored short).2]
        exact readBlock_prefix _ short
      exact Or.inl (hex_of_some complete stores nonzero decoded
        ((List.prefix_append command [0]).trans stands) expected)

theorem right_of_hex (escapes : Escapes IsHexPair inputbufLength text)
    (stores : Stores memory encodedCmd text) (nonzero : 0 ∉ text) (input : Memory) :
    DecodesRight encodedCmd text input (ecmdSetup memory encodedCmd input) := by
  have decoded := ecmdDecode_of_hex escapes stores nonzero
  have inside := accessed_of_complete escapes.complete stores nonzero 0 input
  by_cases short : (percentDecode text).length < inputbufLength
  · rw [if_pos short] at decoded
    obtain ⟨fits, handler, stored⟩ := ecmdSetupLoop_some decoded 0 input
    refine ⟨inside, ?_, fun _ => ⟨handler, ?_⟩, fun long => absurd short (Nat.not_lt.mpr long)⟩
    · intro index behind
      rw [ecmdSetup, stored]
      apply writeBlock_outside
      rw [List.length_append, List.length_singleton]
      omega
    · have same := readBlock_writeBlock_same input 0 (percentDecode text ++ [0])
      rw [← stored] at same
      rw [List.length_append] at same
      exact same
  · rw [if_neg short] at decoded
    obtain ⟨handler, kept⟩ := ecmdSetupLoop_none decoded 0 input
    exact ⟨inside, fun index behind => kept index (by omega), fun fits => absurd fits short,
      fun _ => handler⟩

theorem right_of_fills (fills : Fills inputbufLength text)
    (stores : Stores memory encodedCmd text) (nonzero : 0 ∉ text) (input : Memory) :
    DecodesRight encodedCmd text input (ecmdSetup memory encodedCmd input) := by
  obtain ⟨handler, kept⟩ :=
    ecmdSetupLoop_none (ecmdDecode_of_fills fills stores nonzero) 0 input
  exact ⟨accessed_of_complete fills.complete stores nonzero 0 input,
    fun index behind => kept index (by omega),
    fun short => absurd fills.le_length (Nat.not_le.mpr short), fun _ => handler⟩

/-- A string is decoded right exactly if the escapes that are decoded have two hexadecimal
digits, or if they are complete and the string is too long even with one character for each of
them. -/
theorem decodesRight_iff (stores : Stores memory encodedCmd text) (nonzero : 0 ∉ text)
    (input : Memory) :
    DecodesRight encodedCmd text input (ecmdSetup memory encodedCmd input) ↔ Decodable text := by
  constructor
  · exact decodable_of_right stores nonzero input
  · rintro (escapes | fills)
    · exact right_of_hex escapes stores nonzero input
    · exact right_of_fills fills stores nonzero input

end Setup

/-- The command `ver` with an escape for its first letter. -/
theorem decodesRight_version :
    DecodesRight 100 [37, 55, 54, 101, 114] (fun _ => 0)
        (ecmdSetup (writeBlock (fun _ => 0) 100 [37, 55, 54, 101, 114, 0]) 100 fun _ => 0) ↔
      Decodable [37, 55, 54, 101, 114] :=
  decodesRight_iff (by decide) (by decide) fun _ => 0

/-- A string that ends in the middle of an escape is read behind its end. -/
theorem truncated_escape :
    ¬ ∀ (memory : Memory) (encodedCmd : Nat) (text : List UInt8) (input : Memory),
        Stores memory encodedCmd text → 0 ∉ text →
          DecodesRight encodedCmd text input (ecmdSetup memory encodedCmd input) := by
  intro claimed
  have right := claimed (writeBlock (fun _ => 0) 100 [105, 112, 37, 0]) 100 [105, 112, 37]
    (fun _ => 0) (by decide) (by decide)
  exact absurd (right.inside 105 (by decide)).2 (by decide)

end Ethersex.Httpd

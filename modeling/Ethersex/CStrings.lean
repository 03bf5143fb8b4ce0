import Ethersex.ByteMemory

/-!
# Strings in a memory

A string is what stands in a memory from an address up to the first zero byte.  The
functions of `string.h` are defined on the strings as lists; the lemmas say what the string at an
address is when a text is stored there.
-/

namespace CStrings

open ByteMemory

/-- Pointers have 16 bits, so no string is longer. -/
def addressSpace : Nat := 65536

def textFrom (memory : Memory) : Nat → Nat → List UInt8
  | 0, _ => []
  | fuel + 1, start =>
      if memory start = 0 then [] else memory start :: textFrom memory fuel (start + 1)

/-- The string at an address. -/
def cString (memory : Memory) (start : Nat) : List UInt8 :=
  textFrom memory addressSpace start

/-- The first position of a pattern in a text. -/
def findInfix (pattern : List UInt8) : List UInt8 → Option Nat
  | [] => if pattern = [] then some 0 else none
  | byte :: rest =>
      if pattern <+: byte :: rest then some 0 else (findInfix pattern rest).map (· + 1)

def strchr (memory : Memory) (start : Nat) (byte : UInt8) : Option Nat :=
  ((cString memory start).findIdx? (· == byte)).map (start + ·)

def strstr (memory : Memory) (start : Nat) (pattern : List UInt8) : Option Nat :=
  (findInfix pattern (cString memory start)).map (start + ·)

/-- `strncmp` finds no difference from a constant text. -/
def sameStart (memory : Memory) (start : Nat) (text : List UInt8) (count : Nat) : Bool :=
  (cString memory start).take count == text.take count

/-- `strcpy` of a constant text. -/
def strcpy (memory : Memory) (start : Nat) (text : List UInt8) : Memory :=
  writeBlock memory start (text ++ [0])

variable {memory : Memory} {start : Nat} {text : List UInt8}

theorem textFrom_of_stored (fuel : Nat) (nonzero : 0 ∉ text)
    (stored : readBlock memory start text.length = text) :
    textFrom memory (text.length + fuel) start =
      text ++ textFrom memory fuel (start + text.length) := by
  induction text generalizing start with
  | nil => simp
  | cons byte text ih =>
      rw [List.length_cons, readBlock_succ, List.cons.injEq] at stored
      rw [List.mem_cons, not_or] at nonzero
      have first : memory start ≠ 0 := by
        rw [stored.1]
        exact fun zero => nonzero.1 zero.symm
      rw [List.length_cons, show text.length + 1 + fuel = text.length + fuel + 1 by omega, textFrom,
        if_neg first, ih nonzero.2 stored.2, stored.1, List.cons_append,
        show start + 1 + text.length = start + (text.length + 1) by omega]

/-- A stored text begins the string, whatever follows. -/
theorem prefix_cString (nonzero : 0 ∉ text)
    (stored : readBlock memory start text.length = text) (fits : text.length ≤ addressSpace) :
    text <+: cString memory start := by
  have whole := textFrom_of_stored (addressSpace - text.length) nonzero stored
  rw [Nat.add_sub_cancel' fits] at whole
  exact ⟨_, whole.symm⟩

/-- A stored text with a zero byte behind it is the string. -/
theorem cString_eq (nonzero : 0 ∉ text) (stored : readBlock memory start text.length = text)
    (terminated : memory (start + text.length) = 0) (fits : text.length < addressSpace) :
    cString memory start = text := by
  have whole := textFrom_of_stored (addressSpace - text.length) nonzero stored
  rw [Nat.add_sub_cancel' (Nat.le_of_lt fits)] at whole
  have rest : textFrom memory (addressSpace - text.length) (start + text.length) = [] := by
    obtain ⟨fuel, positive⟩ : ∃ fuel, addressSpace - text.length = fuel + 1 :=
      ⟨addressSpace - text.length - 1, by omega⟩
    rw [positive, textFrom, if_pos terminated]
  rw [cString, whole, rest, List.append_nil]

theorem cString_strcpy (nonzero : 0 ∉ text) (fits : text.length < addressSpace) :
    cString (strcpy memory start text) start = text := by
  have stored := readBlock_writeBlock_same memory start (text ++ [0])
  rw [List.length_append, readBlock_append] at stored
  obtain ⟨front, last⟩ := List.append_inj stored (length_readBlock _ _ _)
  rw [List.length_singleton, readBlock_succ, List.cons.injEq] at last
  exact cString_eq nonzero front last.1 fits

theorem readBlock_textFrom (memory : Memory) (fuel start : Nat) :
    readBlock memory start (textFrom memory fuel start).length = textFrom memory fuel start := by
  induction fuel generalizing start with
  | zero => rfl
  | succ fuel ih =>
      rw [textFrom]
      split_ifs with zero
      · rfl
      · rw [List.length_cons, readBlock_succ, ih]

theorem readBlock_cString (memory : Memory) (start : Nat) :
    readBlock memory start (cString memory start).length = cString memory start :=
  readBlock_textFrom memory addressSpace start

theorem sameStart_iff : sameStart memory start text text.length = true ↔
    text <+: cString memory start := by
  rw [sameStart, List.take_length, beq_iff_eq, List.prefix_iff_eq_take, eq_comm]

theorem findIdx?_append_cons {before rest : List UInt8} {byte : UInt8} (absent : byte ∉ before) :
    (before ++ byte :: rest).findIdx? (· == byte) = some before.length := by
  induction before with
  | nil => simp [List.findIdx?_cons]
  | cons head before ih =>
      rw [List.mem_cons, not_or] at absent
      have different : (head == byte) = false := by
        simpa using fun same => absent.1 same.symm
      rw [List.cons_append, List.findIdx?_cons, different, ih absent.2]
      simp

theorem strchr_of_leading {before rest : List UInt8} {byte : UInt8} (absent : byte ∉ before)
    (starts : before ++ byte :: rest <+: cString memory start) :
    strchr memory start byte = some (start + before.length) := by
  obtain ⟨more, whole⟩ := starts
  rw [strchr, ← whole, List.append_assoc, List.cons_append, findIdx?_append_cons absent]
  rfl

theorem findInfix_eq_none {pattern : List UInt8} (nonempty : pattern ≠ [])
    (absent : ¬ pattern <:+: text) : findInfix pattern text = none := by
  induction text with
  | nil => rw [findInfix, if_neg nonempty]
  | cons byte text ih =>
      have notHere : ¬ pattern <+: byte :: text := fun starts => absent starts.isInfix
      rw [findInfix, if_neg notHere, ih fun inside => absent (List.infix_cons inside)]
      rfl

/-- A pattern without the last byte of a text cannot begin in the text and end behind it. -/
theorem findInfix_append {pattern before rest : List UInt8} {last : UInt8}
    (absent : ¬ pattern <:+: before) (free : last ∉ pattern) (nonempty : pattern ≠ [])
    (ends : before = [] ∨ before.getLast? = some last) :
    findInfix pattern (before ++ (pattern ++ rest)) = some before.length := by
  induction before with
  | nil =>
      obtain ⟨head, tail, whole⟩ := List.exists_cons_of_ne_nil nonempty
      rw [List.nil_append, whole, List.cons_append, findInfix, ← List.cons_append, ← whole,
        if_pos (List.prefix_append pattern rest)]
      rfl
  | cons byte before ih =>
      have lastByte : (byte :: before).getLast? = some last :=
        ends.resolve_left (List.cons_ne_nil _ _)
      have notHere : ¬ pattern <+: byte :: (before ++ (pattern ++ rest)) := by
        intro starts
        rw [← List.cons_append] at starts
        rcases List.prefix_or_prefix_of_prefix starts (List.prefix_append _ _) with inside | covers
        · exact absent inside.isInfix
        · exact free (covers.subset (List.mem_of_getLast? lastByte))
      rw [List.cons_append, findInfix, if_neg notHere, ih]
      · rfl
      · exact fun inside => absent (List.infix_cons inside)
      · cases before with
        | nil => exact Or.inl rfl
        | cons next before =>
            right
            rwa [List.getLast?_cons_cons] at lastByte

theorem findInfix_isSome {pattern : List UInt8} (inside : pattern <:+: text) :
    (findInfix pattern text).isSome := by
  induction text with
  | nil =>
      rw [List.infix_nil] at inside
      rw [findInfix, if_pos inside]
      rfl
  | cons byte text ih =>
      rw [findInfix]
      split_ifs with here
      · rfl
      · rw [Option.isSome_map]
        exact ih ((List.infix_cons_iff.1 inside).resolve_left here)

/-- The text around the first position of the pattern. -/
theorem findInfix_split {pattern : List UInt8} {position : Nat}
    (found : findInfix pattern text = some position) :
    ∃ before rest, text = before ++ (pattern ++ rest) ∧ before.length = position := by
  induction text generalizing position with
  | nil =>
      rw [findInfix] at found
      split_ifs at found with empty
      exact ⟨[], [], by rw [empty]; rfl, Option.some.inj found⟩
  | cons byte text ih =>
      rw [findInfix] at found
      split_ifs at found with here
      · obtain ⟨rest, whole⟩ := here
        exact ⟨[], rest, whole.symm, Option.some.inj found⟩
      · rw [Option.map_eq_some_iff] at found
        obtain ⟨later, foundLater, rfl⟩ := found
        obtain ⟨before, rest, rfl, rfl⟩ := ih foundLater
        exact ⟨byte :: before, rest, rfl, rfl⟩

/-- What follows a text does not change where the pattern is found in it. -/
theorem findInfix_append_right {pattern : List UInt8} {position : Nat} (nonempty : pattern ≠ [])
    (found : findInfix pattern text = some position) (more : List UInt8) :
    findInfix pattern (text ++ more) = some position := by
  induction text generalizing position with
  | nil =>
      rw [findInfix, if_neg nonempty] at found
      cases found
  | cons byte text ih =>
      rw [List.cons_append, findInfix]
      rw [findInfix] at found
      split_ifs at found with here
      · have starts : pattern <+: byte :: (text ++ more) :=
          here.trans (List.prefix_append (byte :: text) more)
        rw [if_pos starts]
        exact found
      · rw [Option.map_eq_some_iff] at found
        obtain ⟨later, foundLater, rfl⟩ := found
        have notHere : ¬ pattern <+: byte :: (text ++ more) := by
          intro starts
          rw [← List.cons_append] at starts
          obtain ⟨before, rest, whole, -⟩ := findInfix_split foundLater
          have fits := congrArg List.length whole
          rw [List.length_append, List.length_append] at fits
          refine here (List.prefix_of_prefix_length_le starts (List.prefix_append _ _) ?_)
          rw [List.length_cons]
          omega
        rw [if_neg notHere, ih foundLater]
        rfl

/-- A pattern that shares no byte with the end of a text does not reach into it. -/
theorem infix_of_infix_append {pattern before rest : List UInt8} (nonempty : pattern ≠ [])
    (free : ∀ byte ∈ rest, byte ∉ pattern) (inside : pattern <:+: before ++ rest) :
    pattern <:+: before := by
  induction before with
  | nil =>
      rw [List.nil_append] at inside
      obtain ⟨byte, member⟩ := List.exists_mem_of_ne_nil pattern nonempty
      exact absurd member (free byte (inside.subset member))
  | cons head before ih =>
      rw [List.cons_append, List.infix_cons_iff] at inside
      rcases inside with starts | later
      · rw [← List.cons_append] at starts
        rcases List.prefix_or_prefix_of_prefix starts (List.prefix_append _ _) with whole | covers
        · exact whole.isInfix
        · obtain ⟨more, rfl⟩ := covers
          cases more with
          | nil => simp
          | cons byte more =>
              rw [List.prefix_append_right_inj] at starts
              have member : byte ∈ rest := starts.subset (List.mem_cons_self ..)
              exact absurd (by simp) (free byte member)
      · exact List.infix_cons (ih later)

/-- The memories have the same bytes below an address. -/
def Agree (bound : Nat) (first second : Memory) : Prop :=
  ∀ index < bound, first index = second index

theorem Agree.mono {low high : Nat} {first second : Memory} (agree : Agree high first second)
    (lower : low ≤ high) : Agree low first second :=
  fun index below => agree index (Nat.lt_of_lt_of_le below lower)

theorem textFrom_congr {first second : Memory} {fuel start : Nat}
    (same : ∀ index, start ≤ index → index ≤ start + (textFrom first fuel start).length →
      first index = second index) : textFrom second fuel start = textFrom first fuel start := by
  induction fuel generalizing start with
  | zero => rfl
  | succ fuel ih =>
      have here := same start (Nat.le_refl _) (Nat.le_add_right _ _)
      rw [textFrom, ← here]
      by_cases zero : first start = 0
      · rw [if_pos zero, textFrom, if_pos zero]
      · rw [textFrom, if_neg zero, List.length_cons] at same
        rw [if_neg zero, ih fun index above below => same index (by omega) (by omega)]
        conv_rhs => rw [textFrom, if_neg zero]

theorem Agree.cString_eq {first second : Memory} {bound : Nat} (agree : Agree bound first second)
    {start : Nat} (ends : start + (cString first start).length < bound) :
    cString second start = cString first start :=
  textFrom_congr fun index _ below => agree index (Nat.lt_of_le_of_lt below ends)

theorem textFrom_length_le {fuel last : Nat} (terminated : memory last = 0) (above : start ≤ last) :
    (textFrom memory fuel start).length ≤ last - start := by
  induction fuel generalizing start with
  | zero => simp [textFrom]
  | succ fuel ih =>
      rw [textFrom]
      split_ifs with zero
      · simp
      · have different : start ≠ last := by
          rintro rfl
          exact zero terminated
        have rest := ih (show start + 1 ≤ last by omega)
        rw [List.length_cons]
        omega

/-- A string ends at the first zero byte at the latest. -/
theorem cString_length_le {last : Nat} (terminated : memory last = 0) (above : start ≤ last) :
    (cString memory start).length ≤ last - start :=
  textFrom_length_le terminated above

/-- What is found stands in the memory, inside of the string. -/
theorem strstr_some {pattern : List UInt8} {found : Nat}
    (search : strstr memory start pattern = some found) :
    start ≤ found ∧ found + pattern.length ≤ start + (cString memory start).length ∧
      readBlock memory found pattern.length = pattern := by
  obtain ⟨position, inside, rfl⟩ := Option.map_eq_some_iff.mp search
  obtain ⟨before, rest, whole, length⟩ := findInfix_split inside
  have total := congrArg List.length whole
  rw [List.length_append, List.length_append] at total
  have stored := readBlock_cString memory start
  rw [total, whole, readBlock_append] at stored
  have middle := (List.append_inj stored (length_readBlock ..)).2
  rw [readBlock_append] at middle
  refine ⟨Nat.le_add_right .., by omega, ?_⟩
  rw [← length]
  exact (List.append_inj middle (length_readBlock ..)).1

theorem strchr_some {byte : UInt8} {found : Nat} (search : strchr memory start byte = some found) :
    start ≤ found ∧ found < start + (cString memory start).length := by
  obtain ⟨position, inside, rfl⟩ := Option.map_eq_some_iff.mp search
  obtain ⟨below, -⟩ := List.findIdx?_eq_some_iff_getElem.mp inside
  omega

/-- The string does not reach behind a zero byte below the bound. -/
theorem Agree.cString_eq_of_terminated {first second : Memory} {bound last : Nat}
    (agree : Agree bound first second) (terminated : first last = 0) (above : start ≤ last)
    (inside : last < bound) : cString second start = cString first start := by
  have length := cString_length_le terminated above
  exact agree.cString_eq (by omega)

theorem Agree.update {first second : Memory} {bound : Nat} (agree : Agree bound first second)
    (position : Nat) (byte : UInt8) :
    Agree bound (Function.update first position byte) (Function.update second position byte) := by
  intro index below
  by_cases same : index = position
  · rw [same, Function.update_self, Function.update_self]
  · rw [Function.update_of_ne same, Function.update_of_ne same, agree index below]

theorem Agree.strcpy {first second : Memory} {bound : Nat} (agree : Agree bound first second)
    {start : Nat} (inside : start ≤ bound) (text : List UInt8) :
    Agree (max bound (start + text.length + 1)) (strcpy first start text)
      (strcpy second start text) := by
  intro index below
  unfold CStrings.strcpy
  by_cases written : start ≤ index ∧ index < start + (text ++ [0]).length
  · rw [writeBlock_inside written.1 written.2, writeBlock_inside written.1 written.2]
  · rw [writeBlock_outside (by omega), writeBlock_outside (by omega)]
    rw [List.length_append, List.length_singleton] at written
    exact agree index (by omega)

theorem strcpy_terminated (memory : Memory) (start : Nat) (text : List UInt8) :
    strcpy memory start text (start + text.length) = 0 := by
  rw [strcpy, writeBlock_inside (by omega) (by simp)]
  simp

end CStrings

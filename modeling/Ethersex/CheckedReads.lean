import Mathlib.Data.Option.Basic
import Ethersex.ByteMemory

/-!
# Checked reads

A parser over a buffer of known length, written so that every read is checked against the end of
the buffer and the number of bytes that it believes to be left against the place of its read
pointer.  `Refines` compares such a parser with one that rejects inputs but reads unchecked: they
agree as soon as no check fails.  The rules follow the parser statement by statement.
-/

namespace CheckedReads

open ByteMemory

/-- Why a parser stops without a result. -/
inductive Stop where
  /-- The parser has rejected its input. -/
  | rejected
  /-- A byte outside the buffer was read. -/
  | outside
  /-- The bytes left are not those from the read pointer to the end. -/
  | inconsistent
  /-- A loop has not come to its end. -/
  | running
deriving DecidableEq

abbrev Checked := Except Stop

def require (condition : Prop) [Decidable condition] : Checked Unit :=
  if condition then .ok () else .error .rejected

/-- A read of the byte at a position of a buffer with the given length. -/
def readAt (memory : Memory) (limit position : Nat) : Checked UInt8 :=
  if position < limit then .ok (memory position) else .error .outside

/-- A read of some bytes. -/
def readRange (limit position count : Nat) : Checked Unit :=
  if position + count ≤ limit then .ok () else .error .outside

/-- Compare the bytes from a position on with other ones, up to the first difference. -/
def expectBytes (memory : Memory) (limit : Nat) : Nat → List UInt8 → Checked Unit
  | _, [] => .ok ()
  | position, byte :: bytes => do
      let found ← readAt memory limit position
      require (found = byte)
      expectBytes memory limit (position + 1) bytes

/-- The bytes that are left begin at the read pointer. -/
def consistent (position : Nat) (left : Int) (limit : Nat) : Checked Unit :=
  if position + left = limit then .ok () else .error .inconsistent

/-- The checked parser agrees with the unchecked one. -/
def Refines {α : Type} (checked : Checked α) (parsed : Option α) : Prop :=
  checked = parsed.elim (.error .rejected) .ok

section Rules

variable {α β : Type} {checked : Checked α} {parsed : Option α}

theorem Refines.pure (value : α) : Refines (Pure.pure value) (Pure.pure value) :=
  rfl

theorem Refines.bind {next : α → Checked β} {parsedNext : α → Option β}
    (first : Refines checked parsed)
    (rest : ∀ value, parsed = some value → Refines (next value) (parsedNext value)) :
    Refines (checked >>= next) (parsed >>= parsedNext) := by
  unfold Refines at first
  subst first
  cases parsed with
  | none => rfl
  | some value => exact rest value rfl

theorem Refines.require {condition : Prop} [Decidable condition]
    (rest : condition → Refines checked parsed) :
    Refines (CheckedReads.require condition >>= fun _ => checked)
      (guard condition >>= fun _ => parsed) := by
  unfold CheckedReads.require
  by_cases holds : condition
  · rw [if_pos holds, guard, if_pos holds]
    exact rest holds
  · rw [if_neg holds, guard, if_neg holds]
    rfl

theorem Refines.readAt {memory : Memory} {limit position : Nat} {next : UInt8 → Checked α}
    (inside : position < limit) (rest : Refines (next (memory position)) parsed) :
    Refines (CheckedReads.readAt memory limit position >>= next) parsed := by
  rw [CheckedReads.readAt, if_pos inside]
  exact rest

theorem Refines.readRange {limit position count : Nat} (inside : position + count ≤ limit)
    (rest : Refines checked parsed) :
    Refines (CheckedReads.readRange limit position count >>= fun _ => checked) parsed := by
  rw [CheckedReads.readRange, if_pos inside]
  exact rest

theorem Refines.consistent {position limit : Nat} {left : Int} (same : position + left = limit)
    (rest : Refines checked parsed) :
    Refines (CheckedReads.consistent position left limit >>= fun _ => checked) parsed := by
  rw [CheckedReads.consistent, if_pos same]
  exact rest

/-- Inside the buffer the comparison is one of blocks. -/
theorem expectBytes_eq {memory : Memory} {limit position : Nat} {bytes : List UInt8}
    (inside : position + bytes.length ≤ limit) :
    expectBytes memory limit position bytes =
      CheckedReads.require (readBlock memory position bytes.length = bytes) := by
  induction bytes generalizing position with
  | nil => rfl
  | cons byte bytes ih =>
      rw [List.length_cons] at inside
      rw [expectBytes, CheckedReads.readAt, if_pos (by omega), List.length_cons, readBlock_succ]
      change (CheckedReads.require (memory position = byte) >>= fun _ => _) = _
      rw [ih (by omega)]
      unfold CheckedReads.require
      by_cases same : memory position = byte
      · by_cases rest : readBlock memory (position + 1) bytes.length = bytes
        · simp [same, rest, bind, Except.bind]
        · simp [same, rest, bind, Except.bind]
      · simp [same, bind, Except.bind]

/-- Comparison with a block of another memory. -/
theorem Refines.expectBlock {memory other : Memory} {limit position start count : Nat}
    (inside : position + count ≤ limit)
    (rest : readBlock other start count = readBlock memory position count →
      Refines checked parsed) :
    Refines (CheckedReads.expectBytes memory limit position (readBlock other start count) >>=
        fun _ => checked)
      (guard (readBlock other start count = readBlock memory position count) >>=
        fun _ => parsed) := by
  rw [expectBytes_eq (by rw [length_readBlock]; exact inside), length_readBlock]
  simp only [eq_comm (a := readBlock memory position count)]
  exact Refines.require rest

/-- A condition of the unchecked parser may be checked in two parts. -/
theorem Refines.guard_and {first second : Prop} [Decidable first] [Decidable second]
    (split : Refines checked (guard first >>= fun _ => guard second >>= fun _ => parsed)) :
    Refines checked (guard (first ∧ second) >>= fun _ => parsed) := by
  by_cases holdsFirst : first
  · by_cases holdsSecond : second
    · simpa [guard, holdsFirst, holdsSecond] using split
    · simpa [guard, holdsFirst, holdsSecond] using split
  · simpa [guard, holdsFirst] using split

/-- A parser that agrees with an unchecked one only rejects its input. -/
theorem Refines.stop {stop : Stop} (refines : Refines checked parsed)
    (stopped : checked = .error stop) : stop = .rejected := by
  cases parsed with
  | none => exact (Except.error.inj (refines.symm.trans stopped)).symm
  | some value => cases refines.symm.trans stopped

theorem Refines.ok_iff {value : α} (refines : Refines checked parsed) :
    checked = .ok value ↔ parsed = some value := by
  unfold Refines at refines
  cases parsed with
  | none => simp [refines]
  | some found => simp [refines]

end Rules

end CheckedReads

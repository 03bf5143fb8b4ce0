import Mathlib.Data.List.Basic
import Mathlib.Tactic.Common

/-!
# Files of bytes

An open file is its content and a position.  Writing replaces the bytes at the position
and extends the file; reading stops at its end.
-/

/-- An open file. -/
structure ByteFile where
  content : List UInt8
  position : Nat

namespace ByteFile

def write (file : ByteFile) (data : List UInt8) : ByteFile where
  content := file.content.take file.position ++ data ++
    file.content.drop (file.position + data.length)
  position := file.position + data.length

/-- The bytes that are read, and the file behind them. -/
def read (file : ByteFile) (length : Nat) : List UInt8 × ByteFile :=
  let data := (file.content.drop file.position).take length
  (data, { file with position := file.position + data.length })

def seek (file : ByteFile) (position : Nat) : ByteFile :=
  { file with position := position }

def truncate (file : ByteFile) (length : Nat) : ByteFile :=
  { file with content := file.content.take length }

/-- At the end of the file a write appends. -/
theorem write_at_end (content data : List UInt8) :
    write ⟨content, content.length⟩ data = ⟨content ++ data, (content ++ data).length⟩ := by
  simp [write]

/-- The data behind the position is read. -/
theorem read_split (front data rest : List UInt8) :
    read ⟨front ++ (data ++ rest), front.length⟩ data.length =
      (data, ⟨front ++ (data ++ rest), front.length + data.length⟩) := by
  simp [read]

/-- A read that asks for more than there is left. -/
theorem read_short {front data : List UInt8} {length : Nat} (short : data.length ≤ length) :
    read ⟨front ++ data, front.length⟩ length =
      (data, ⟨front ++ data, front.length + data.length⟩) := by
  simp [read, List.take_of_length_le short]

theorem truncate_all (content : List UInt8) (position : Nat) :
    truncate ⟨content, position⟩ content.length = ⟨content, position⟩ := by
  simp [truncate]

end ByteFile

import Mathlib.Data.UInt
import Mathlib.Tactic.Common

/-!
# Sums in one's complement

Addition of 16-bit words with the carry added at the end.  A sum stands for a residue modulo 65535;
of the two words for zero it is `0x0000` only when every summand is.
-/

namespace OnesComplement

/-- The sum of two words with its carry. -/
def addWord (sum word : UInt16) : UInt16 :=
  if sum + word < word then sum + word + 1 else sum + word

def addWords (sum : UInt16) (words : List UInt16) : UInt16 :=
  words.foldl addWord sum

/-- The sum of the words as numbers. -/
def total (words : List UInt16) : Nat :=
  (words.map UInt16.toNat).sum

@[simp]
theorem total_nil : total [] = 0 :=
  rfl

@[simp]
theorem total_cons (word : UInt16) (words : List UInt16) :
    total (word :: words) = word.toNat + total words :=
  rfl

theorem toNat_addWord (sum word : UInt16) :
    (addWord sum word).toNat =
      if 65536 ≤ sum.toNat + word.toNat then sum.toNat + word.toNat - 65535
      else sum.toNat + word.toNat := by
  have smallSum := sum.toNat_lt
  have smallWord := word.toNat_lt
  have added : (sum + word).toNat = (sum.toNat + word.toNat) % 65536 := UInt16.toNat_add _ _
  by_cases carry : 65536 ≤ sum.toNat + word.toNat
  · have wrapped : sum + word < word := by
      rw [UInt16.lt_iff_toNat_lt]
      omega
    rw [addWord, if_pos wrapped, if_pos carry, UInt16.toNat_add, added, UInt16.toNat_one]
    omega
  · have exact : ¬sum + word < word := by
      rw [UInt16.lt_iff_toNat_lt]
      omega
    rw [addWord, if_neg exact, if_neg carry, added]
    omega

/-- A sum is the residue of its summands, and zero only when all of them are. -/
theorem addWords_spec (sum : UInt16) (words : List UInt16) :
    (addWords sum words).toNat % 65535 = (sum.toNat + total words) % 65535 ∧
      ((addWords sum words).toNat = 0 ↔ sum.toNat + total words = 0) := by
  induction words generalizing sum with
  | nil => simp [addWords]
  | cons word words ih =>
      have smallSum := sum.toNat_lt
      have smallWord := word.toNat_lt
      have added := toNat_addWord sum word
      obtain ⟨residue, zero⟩ := ih (addWord sum word)
      rw [addWords, List.foldl_cons, ← addWords, residue, zero, total_cons, added]
      split_ifs with carry
      · omega
      · omega

/-- The sum of a checked block: a multiple of 65535 that is not zero. -/
theorem addWords_eq_ones_iff (words : List UInt16) :
    addWords 0 words = 0xffff ↔ total words % 65535 = 0 ∧ total words ≠ 0 := by
  have small := (addWords 0 words).toNat_lt
  have spec := addWords_spec 0 words
  have value : addWords 0 words = 0xffff ↔ (addWords 0 words).toNat = 65535 :=
    UInt16.toNat_inj.symm
  rw [UInt16.toNat_zero, Nat.zero_add] at spec
  rw [value]
  omega

end OnesComplement

import Ethersex.CStrings
import Ethersex.EcmdTcpConnection

/-!
# Backspaces in an ECMD command

With `ECMD_REMOVE_BACKSPACE_SUPPORT` the command is edited in place at the start of
`ecmd_parse_command`: an 8-bit index runs over it, and at a backspace the rest of the command
is moved down over the backspace and the character in front of it.
-/

namespace Ethersex.Ecmd

open ByteMemory CStrings

def backspace : UInt8 := 8

/-- `ECMD_STATE_MAGIC` -/
def stateMagic : UInt8 := 23

/-- The variables of the loop, and whether a byte before the command was accessed. -/
structure Editing where
  memory : Memory
  i : UInt8
  early : Bool

/-- The condition of the loop. -/
def Editing.Goes (cmd : Nat) (editing : Editing) : Prop :=
  editing.memory (cmd + editing.i.toNat) ≠ 0 ∧
    editing.memory (cmd + editing.i.toNat) ≠ stateMagic ∧ editing.i.toNat < outputbufLength

instance (cmd : Nat) (editing : Editing) : Decidable (editing.Goes cmd) :=
  inferInstanceAs (Decidable (_ ∧ _))

/-- The body of the loop.  At index zero the rest is moved to the byte before the command. -/
def Editing.step (cmd : Nat) (editing : Editing) : Editing :=
  let position := cmd + editing.i.toNat
  if editing.memory position = backspace then
    let cmdlen := (cString editing.memory position).length
    { memory := writeBlock editing.memory (position - 1)
        (readBlock editing.memory (position + 1) cmdlen)
      i := editing.i - 1
      early := editing.early || editing.i == 0 }
  else { editing with i := editing.i + 1 }

theorem Editing.step_of_ne {cmd : Nat} {editing : Editing}
    (other : editing.memory (cmd + editing.i.toNat) ≠ backspace) :
    editing.step cmd = { editing with i := editing.i + 1 } :=
  if_neg other

theorem Editing.step_of_eq {cmd : Nat} {editing : Editing}
    (same : editing.memory (cmd + editing.i.toNat) = backspace) :
    editing.step cmd =
      { memory := writeBlock editing.memory (cmd + editing.i.toNat - 1)
          (readBlock editing.memory (cmd + editing.i.toNat + 1)
            (cString editing.memory (cmd + editing.i.toNat)).length)
        i := editing.i - 1
        early := editing.early || editing.i == 0 } :=
  if_pos same

/-- The loop; without fuel there is no result. -/
def removeBackspaces (cmd : Nat) : Nat → Editing → Option Editing
  | 0, _ => none
  | fuel + 1, editing =>
      if editing.Goes cmd then removeBackspaces cmd fuel (editing.step cmd) else some editing

/-- A character is typed at the end of a line. -/
def typeCharacter (line : List UInt8) (character : UInt8) : List UInt8 :=
  if character = backspace then line.dropLast else line ++ [character]

/-- What is left of some characters that are typed behind a line. -/
def typed (line text : List UInt8) : List UInt8 :=
  text.foldl typeCharacter line

theorem mem_of_mem_typed {line text : List UInt8} {character : UInt8}
    (member : character ∈ typed line text) : character ∈ line ++ text := by
  induction text generalizing line with
  | nil => simpa [typed] using member
  | cons first text ih =>
      have later := ih member
      rw [List.mem_append, typeCharacter] at later
      split at later
      · rcases later with inLine | inText
        · exact List.mem_append_left _ (List.dropLast_subset line inLine)
        · exact List.mem_append_right _ (List.mem_cons_of_mem first inText)
      · simpa [or_assoc] using later

theorem backspace_not_mem_typed {line : List UInt8} (clean : backspace ∉ line) (text : List UInt8) :
    backspace ∉ typed line text := by
  induction text generalizing line with
  | nil => exact clean
  | cons character text ih =>
      apply ih
      unfold typeCharacter
      split
      · exact fun member => clean (List.dropLast_subset line member)
      next different =>
        rw [List.mem_append, List.mem_singleton]
        rintro (member | same)
        · exact clean member
        · exact different same.symm

/-- Without backspaces the characters stay as they are. -/
theorem typed_of_not_mem {text : List UInt8} (plain : backspace ∉ text) (line : List UInt8) :
    typed line text = line ++ text := by
  induction text generalizing line with
  | nil => simp [typed]
  | cons character text ih =>
      rw [List.mem_cons, not_or] at plain
      have first : typeCharacter line character = line ++ [character] := if_neg (Ne.symm plain.1)
      have rest := ih plain.2 (line ++ [character])
      rw [typed, List.foldl_cons, first]
      rw [typed, List.append_assoc, List.singleton_append] at rest
      exact rest

/-- Every backspace deletes a character of the line, no state byte stands before it, and until
then the line was always shorter than the limit of the loop. -/
def Deletes (line text : List UInt8) : Prop :=
  ∀ before after, text = before ++ backspace :: after →
    typed line before ≠ [] ∧ stateMagic ∉ before ∧
      ∀ start, start <+: before → (typed line start).length < outputbufLength

theorem deletes_of_not_mem {line text : List UInt8} (plain : backspace ∉ text) :
    Deletes line text := by
  rintro before after rfl
  exact absurd (List.mem_append_right before List.mem_cons_self) plain

theorem deletes_nil (line : List UInt8) : Deletes line [] :=
  deletes_of_not_mem List.not_mem_nil

/-- Where the loop stops, no backspace may come any more. -/
theorem deletes_stop {line text : List UInt8} {character : UInt8}
    (stops : character = stateMagic ∨ outputbufLength ≤ line.length) :
    Deletes line (character :: text) ↔ backspace ∉ character :: text := by
  refine ⟨?_, deletes_of_not_mem⟩
  intro deletes member
  obtain ⟨before, after, split⟩ := List.append_of_mem member
  obtain ⟨-, noMagic, short⟩ := deletes before after split
  rcases stops with rfl | long
  · cases before with
    | nil =>
        rw [List.nil_append] at split
        exact absurd (List.cons.inj split).1 (by decide)
    | cons first before =>
        rw [List.cons_append] at split
        exact noMagic (by rw [(List.cons.inj split).1]; exact List.mem_cons_self)
  · exact absurd (short [] (List.nil_prefix)) (Nat.not_lt.mpr long)

/-- The next character that the loop takes. -/
theorem deletes_cons {line text : List UInt8} {character : UInt8} (goes : character ≠ stateMagic)
    (short : line.length < outputbufLength) :
    Deletes line (character :: text) ↔
      (character = backspace → line ≠ []) ∧ Deletes (typeCharacter line character) text := by
  constructor
  · intro deletes
    constructor
    · rintro rfl
      exact (deletes [] text rfl).1
    · rintro before after rfl
      obtain ⟨nonempty, noMagic, limits⟩ := deletes (character :: before) after rfl
      refine ⟨nonempty, fun member => noMagic (List.mem_cons_of_mem character member), ?_⟩
      intro start starts
      exact limits (character :: start) (List.cons_prefix_cons.mpr ⟨rfl, starts⟩)
  · rintro ⟨first, rest⟩ before after split
    cases before with
    | nil =>
        rw [List.nil_append] at split
        refine ⟨first (List.cons.inj split).1, List.not_mem_nil, ?_⟩
        intro start starts
        rw [List.prefix_nil.mp starts]
        exact short
    | cons head before =>
        rw [List.cons_append] at split
        obtain ⟨rfl, rfl⟩ := List.cons.inj split
        obtain ⟨nonempty, noMagic, limits⟩ := rest before after rfl
        refine ⟨nonempty, ?_, ?_⟩
        · rw [List.mem_cons, not_or]
          exact ⟨Ne.symm goes, noMagic⟩
        · intro start starts
          cases start with
          | nil => exact short
          | cons other start =>
              obtain ⟨rfl, startsRest⟩ := List.cons_prefix_cons.mp starts
              exact limits start startsRest

/-- The command with its terminating zero. -/
def Stores (memory : Memory) (cmd : Nat) (text : List UInt8) : Prop :=
  readBlock memory cmd (text ++ [0]).length = text ++ [0]

instance (memory : Memory) (cmd : Nat) (text : List UInt8) : Decidable (Stores memory cmd text) :=
  inferInstanceAs (Decidable (_ = _))

section Memory

variable {memory : Memory} {cmd : Nat} {line text : List UInt8}

theorem Stores.rest (stores : Stores memory cmd (line ++ text)) :
    Stores memory (cmd + line.length) text := by
  unfold Stores at stores
  rw [List.append_assoc] at stores
  exact (readBlock_append_iff.mp stores).2

theorem Stores.head {character : UInt8} (stores : Stores memory cmd (character :: text)) :
    memory cmd = character ∧ Stores memory (cmd + 1) text := by
  unfold Stores at stores
  rw [List.cons_append, List.length_cons, readBlock_succ] at stores
  exact List.cons.inj stores

theorem Stores.terminated (stores : Stores memory cmd text) : memory (cmd + text.length) = 0 := by
  have last := (readBlock_append_iff.mp stores).2
  rw [List.length_singleton, readBlock_succ] at last
  exact (List.cons.inj last).1

theorem Stores.cString_eq (stores : Stores memory cmd text) (nonzero : 0 ∉ text)
    (fits : text.length < addressSpace) : cString memory cmd = text :=
  CStrings.cString_eq nonzero (readBlock_append_iff.mp stores).1 stores.terminated fits

theorem Stores.unique {other : List UInt8} (stores : Stores memory cmd text)
    (storesOther : Stores memory cmd other) (nonzero : 0 ∉ text) (nonzeroOther : 0 ∉ other) :
    text = other := by
  induction text generalizing cmd other with
  | nil =>
      cases other with
      | nil => rfl
      | cons character other =>
          rw [← storesOther.head.1, show memory cmd = 0 from stores.terminated] at nonzeroOther
          exact absurd List.mem_cons_self nonzeroOther
  | cons character text ih =>
      rw [List.mem_cons, not_or] at nonzero
      cases other with
      | nil => exact absurd (storesOther.terminated.symm.trans stores.head.1) nonzero.1
      | cons otherCharacter other =>
          rw [List.mem_cons, not_or] at nonzeroOther
          rw [← stores.head.1, ← storesOther.head.1,
            ih stores.head.2 storesOther.head.2 nonzero.2 nonzeroOther.2]

/-- The rest of the command is moved down over the last character of the line. -/
theorem Stores.moved {last : UInt8}
    (stores : Stores memory cmd (line ++ last :: backspace :: text)) :
    Stores (writeBlock memory (cmd + line.length)
      (readBlock memory (cmd + line.length + 2) (text.length + 1))) cmd (line ++ text) := by
  have tail := stores.rest.head.2.head.2
  unfold Stores at stores tail ⊢
  rw [List.append_assoc] at stores ⊢
  rw [List.length_append, List.length_singleton] at tail
  obtain ⟨front, -⟩ := readBlock_append_iff.mp stores
  rw [show cmd + line.length + 2 = cmd + line.length + 1 + 1 from rfl, tail]
  apply readBlock_append_iff.mpr
  constructor
  · rw [readBlock_writeBlock_disjoint (Or.inl (Nat.le_refl _)), front]
  · exact readBlock_writeBlock_same memory (cmd + line.length) (text ++ [0])

end Memory

/-- The loop ends without an access before the command, and leaves what was typed. -/
def Edits (cmd : Nat) (editing : Editing) (text : List UInt8) : Prop :=
  ∃ fuel result, removeBackspaces cmd fuel editing = some result ∧ result.early = false ∧
    Stores result.memory cmd text

section Loop

variable {cmd : Nat} {editing : Editing} {text : List UInt8}

theorem removeBackspaces_stop (stops : ¬ editing.Goes cmd) (fuel : Nat) :
    removeBackspaces cmd (fuel + 1) editing = some editing := by
  rw [removeBackspaces, if_neg stops]

theorem edits_stop (stops : ¬ editing.Goes cmd) :
    Edits cmd editing text ↔ editing.early = false ∧ Stores editing.memory cmd text := by
  constructor
  · rintro ⟨fuel, result, loop, edited⟩
    cases fuel with
    | zero => cases loop
    | succ fuel =>
        rw [removeBackspaces_stop stops] at loop
        cases loop
        exact edited
  · intro edited
    exact ⟨1, editing, removeBackspaces_stop stops 0, edited⟩

theorem edits_step (goes : editing.Goes cmd) :
    Edits cmd editing text ↔ Edits cmd (editing.step cmd) text := by
  constructor
  · rintro ⟨fuel, result, loop, edited⟩
    cases fuel with
    | zero => cases loop
    | succ fuel =>
        rw [removeBackspaces, if_pos goes] at loop
        exact ⟨fuel, result, loop, edited⟩
  · rintro ⟨fuel, result, loop, edited⟩
    refine ⟨fuel + 1, result, ?_, edited⟩
    rw [removeBackspaces, if_pos goes]
    exact loop

end Loop

/-- An access before the command is never taken back. -/
theorem not_edits_of_early {cmd : Nat} {editing : Editing} (early : editing.early = true)
    (text : List UInt8) : ¬ Edits cmd editing text := by
  rintro ⟨fuel, result, loop, clean, -⟩
  induction fuel generalizing editing with
  | zero => cases loop
  | succ fuel ih =>
      rw [removeBackspaces] at loop
      split at loop
      · apply ih _ loop
        unfold Editing.step
        dsimp only
        split
        · simp [early]
        · exact early
      · cases loop
        exact absurd (early.symm.trans clean) (by decide)

/-- The loop in the middle of a command: the line before the index has been edited. -/
def editingAt (memory : Memory) (line : List UInt8) : Editing :=
  ⟨memory, UInt8.ofNat line.length, false⟩

section Steps

variable {memory : Memory} {cmd : Nat} {line text : List UInt8} {character : UInt8}

@[simp]
theorem editingAt_memory (memory : Memory) (line : List UInt8) :
    (editingAt memory line).memory = memory :=
  rfl

@[simp]
theorem editingAt_early (memory : Memory) (line : List UInt8) :
    (editingAt memory line).early = false :=
  rfl

theorem toNat_editingAt (short : line.length ≤ outputbufLength) :
    (editingAt memory line).i.toNat = line.length := by
  unfold outputbufLength at short
  rw [editingAt, UInt8.toNat_ofNat']
  omega

theorem goes_editingAt_iff (here : memory (cmd + line.length) = character)
    (short : line.length ≤ outputbufLength) :
    (editingAt memory line).Goes cmd ↔
      character ≠ 0 ∧ character ≠ stateMagic ∧ line.length < outputbufLength := by
  rw [Editing.Goes, toNat_editingAt short, ← here]
  rfl

theorem step_character (here : memory (cmd + line.length) = character)
    (short : line.length ≤ outputbufLength) (other : character ≠ backspace) :
    (editingAt memory line).step cmd = editingAt memory (line ++ [character]) := by
  have plain : memory (cmd + (editingAt memory line).i.toNat) ≠ backspace := by
    rw [toNat_editingAt short, here]
    exact other
  rw [Editing.step_of_ne plain]
  simp only [editingAt, List.length_append, List.length_singleton, UInt8.ofNat_add]
  rfl

theorem step_backspace {last : UInt8}
    (stores : Stores memory cmd (line ++ last :: backspace :: text))
    (nonzero : 0 ∉ line ++ last :: backspace :: text)
    (fits : (line ++ last :: backspace :: text).length < addressSpace)
    (short : line.length < outputbufLength) :
    (editingAt memory (line ++ [last])).step cmd =
      editingAt (writeBlock memory (cmd + line.length)
        (readBlock memory (cmd + line.length + 2) (text.length + 1))) line := by
  have index : (editingAt memory (line ++ [last])).i.toNat = line.length + 1 := by
    rw [toNat_editingAt (by simp; omega), List.length_append, List.length_singleton]
  have tail := stores.rest.head.2
  have string : cString memory (cmd + line.length + 1) = backspace :: text := by
    apply tail.cString_eq
    · intro member
      exact nonzero (by simp [member])
    · simp only [List.length_append, List.length_cons] at fits ⊢
      omega
  have decremented : (editingAt memory (line ++ [last])).i - 1 = UInt8.ofNat line.length := by
    simp [editingAt, UInt8.ofNat_add]
  have notFirst : ((editingAt memory (line ++ [last])).i == 0) = false := by
    rw [beq_eq_false_iff_ne]
    intro zero
    rw [zero] at index
    exact Nat.noConfusion index
  have here : memory (cmd + (editingAt memory (line ++ [last])).i.toNat) = backspace := by
    rw [index]
    exact tail.head.1
  rw [Editing.step_of_eq here, decremented, notFirst, index, editingAt_memory, editingAt_early,
    ← Nat.add_assoc, string]
  rfl

/-- A backspace on an empty line moves the rest of the command in front of its beginning. -/
theorem step_early (here : memory cmd = backspace) :
    ((editingAt memory []).step cmd).early = true := by
  have same : (editingAt memory []).memory (cmd + (editingAt memory []).i.toNat) = backspace :=
    here
  rw [Editing.step_of_eq same]
  rfl

end Steps

theorem edits_iff_deletes {memory : Memory} {cmd : Nat} {line text : List UInt8}
    (stores : Stores memory cmd (line ++ text)) (nonzero : 0 ∉ line ++ text)
    (fits : (line ++ text).length < addressSpace) (clean : backspace ∉ line)
    (short : line.length ≤ outputbufLength) :
    Edits cmd (editingAt memory line) (typed line text) ↔ Deletes line text := by
  induction text generalizing memory line with
  | nil =>
      rw [List.append_nil] at stores
      have ended : ¬ (editingAt memory line).Goes cmd := by
        rw [goes_editingAt_iff stores.terminated short]
        exact fun goes => goes.1 rfl
      rw [edits_stop ended]
      exact iff_of_true ⟨rfl, stores⟩ (deletes_nil line)
  | cons character text ih =>
      have here := stores.rest.head.1
      have goes := goes_editingAt_iff here short
      have notZero : character ≠ 0 := by
        rintro rfl
        exact nonzero (by simp)
      by_cases stops : character = stateMagic ∨ outputbufLength ≤ line.length
      · have ended : ¬ (editingAt memory line).Goes cmd := by
          rw [goes, ← Nat.not_le]
          exact fun both => stops.elim both.2.1 both.2.2
        rw [edits_stop ended, deletes_stop stops]
        constructor
        · rintro ⟨-, edited⟩ member
          have same := stores.unique edited nonzero fun zero => nonzero (mem_of_mem_typed zero)
          apply backspace_not_mem_typed clean (character :: text)
          rw [← same]
          exact List.mem_append_right line member
        · intro plain
          rw [typed_of_not_mem plain]
          exact ⟨rfl, stores⟩
      · rw [not_or, Nat.not_le] at stops
        rw [edits_step (goes.mpr ⟨notZero, stops⟩), deletes_cons stops.1 stops.2]
        by_cases isBackspace : character = backspace
        · subst isBackspace
          rcases List.eq_nil_or_concat line with rfl | ⟨front, last, isConcat⟩
          · refine iff_of_false (not_edits_of_early (step_early here) _) ?_
            exact fun both => both.1 rfl rfl
          · rw [List.concat_eq_append] at isConcat
            subst isConcat
            have shorter : typeCharacter (front ++ [last]) backspace = front := by
              rw [typeCharacter, if_pos rfl, List.dropLast_concat]
            have whole : front ++ [last] ++ backspace :: text =
                front ++ last :: backspace :: text := by
              simp
            rw [whole] at stores nonzero fits
            have next := @ih _ front stores.moved
              (fun member => nonzero (by simp at member ⊢; tauto))
              (by simp at fits ⊢; omega) (fun member => clean (List.mem_append_left _ member))
              (by simp at short; omega)
            rw [step_backspace stores nonzero fits (by simp at stops; omega), shorter]
            rw [typed, List.foldl_cons, shorter]
            rw [typed] at next
            rw [next]
            exact (and_iff_right fun _ => by simp).symm
        · have longer : typeCharacter line character = line ++ [character] := if_neg isBackspace
          have next := @ih memory (line ++ [character]) (by simpa using stores)
            (by simpa using nonzero) (by simpa using fits)
            (by simpa [clean] using Ne.symm isBackspace) (by simp; omega)
          rw [step_character here short isBackspace, longer]
          rw [typed, List.foldl_cons, longer]
          rw [typed] at next
          rw [next]
          exact (and_iff_right fun same => absurd same isBackspace).symm

/-- The handling of backspaces at the start of `ecmd_parse_command` terminates without an
access before the command and leaves the line that was typed exactly when every backspace
deletes a character, while the loop still runs. -/
theorem removes_backspaces_iff {memory : Memory} {cmd : Nat} {text : List UInt8}
    (stores : Stores memory cmd text) (nonzero : 0 ∉ text) (fits : text.length < addressSpace) :
    Edits cmd ⟨memory, 0, false⟩ (typed [] text) ↔ Deletes [] text :=
  @edits_iff_deletes memory cmd [] text stores nonzero fits List.not_mem_nil (Nat.zero_le _)

/-- A command with two wrong characters, which are deleted again. -/
theorem removes_backspaces_help :
    Edits 100 ⟨writeBlock (fun _ => 0) 100 [104, 120, 121, 8, 8, 105, 0], 0, false⟩
        (typed [] [104, 120, 121, 8, 8, 105]) ↔
      Deletes [] [104, 120, 121, 8, 8, 105] :=
  removes_backspaces_iff (by decide) (by decide) (by decide)

/-- A command that begins with a backspace is not edited right. -/
theorem leading_backspace :
    ¬ ∀ (memory : Memory) (cmd : Nat) (text : List UInt8), Stores memory cmd text →
        0 ∉ text → text.length < addressSpace → Edits cmd ⟨memory, 0, false⟩ (typed [] text) := by
  intro claimed
  have edited := claimed (writeBlock (fun _ => 0) 100 [8, 104, 105, 0]) 100 [8, 104, 105]
    (by decide) (by decide) (by decide)
  rw [edits_step (by decide)] at edited
  exact not_edits_of_early (step_early (by decide)) _ edited

end Ethersex.Ecmd

import Ethersex.HttpdServer

/-!
# What a request is resolved to

The part of `httpd_handle_input` behind `after_auth` looks at nothing but the file name: two
buffers with the same terminated name at the same place give the same handler and the same calls
of the file system, and at most one of these opens a file.
-/

namespace Ethersex.Httpd

open ByteMemory CStrings

/-- The buffers have the same file name, with a zero byte at `last`, and every `%` in it is followed
by two more bytes. -/
structure SameName (first second : Memory) (filename last : Nat) : Prop where
  agree : Agree (last + 1) first second
  terminated : first last = 0
  above : filename ≤ last
  escapes : ∀ index, filename ≤ index → index < last → first index = 37 → index + 2 < last

variable {first second : Memory} {filename last : Nat}

theorem SameName.at_eq (name : SameName first second filename last) {index : Nat}
    (inside : index ≤ last) : second index = first index :=
  (name.agree index (Nat.lt_succ_of_le inside)).symm

theorem SameName.cString_eq (name : SameName first second filename last) {start : Nat}
    (above : start ≤ last) : cString second start = cString first start :=
  name.agree.cString_eq_of_terminated name.terminated above (Nat.lt_succ_self last)

/-- A constant name without escapes in the place of the other one. -/
theorem SameName.strcpy (name : SameName first second filename last) {text : List UInt8}
    (free : 37 ∉ text) :
    SameName (strcpy first filename text) (strcpy second filename text) filename
      (filename + text.length) := by
  refine ⟨?_, strcpy_terminated _ _ _, Nat.le_add_right _ _, ?_⟩
  · exact (name.agree.strcpy (Nat.le_succ_of_le name.above) text).mono (Nat.le_max_right _ _)
  · intro index above below percent
    rw [CStrings.strcpy, writeBlock_inside above (by simp; omega),
      List.getD_append _ _ _ _ (by omega), List.getD_eq_getElem _ _ (by omega)] at percent
    exact absurd (percent ▸ List.getElem_mem _) free

theorem replaceName_same (config : Config) (name : SameName first second filename last) :
    ∃ last', SameName (replaceName config first filename) (replaceName config second filename)
      filename last' := by
  have index : ∃ last', SameName
      (if !config.sdDirSupport ∧ first filename = 0 then strcpy first filename indexText else first)
      (if !config.sdDirSupport ∧ second filename = 0 then strcpy second filename indexText
        else second) filename last' := by
    rw [name.at_eq name.above]
    split_ifs
    · exact ⟨_, name.strcpy (by decide)⟩
    · exact ⟨last, name⟩
  unfold replaceName
  dsimp only
  generalize (if !config.sdDirSupport ∧ first filename = 0 then strcpy first filename indexText
    else first) = firstIndex at index ⊢
  generalize (if !config.sdDirSupport ∧ second filename = 0 then strcpy second filename indexText
    else second) = secondIndex at index ⊢
  obtain ⟨last', renamed⟩ := index
  rw [renamed.cString_eq renamed.above]
  split_ifs
  · exact ⟨_, renamed.strcpy (by decide)⟩
  · exact ⟨last', renamed⟩

/-- The command is decoded from the name alone. -/
theorem ecmdDecode_same (name : SameName first second filename last) (maxlen : Nat) {position : Nat}
    (above : filename ≤ position) (inside : position ≤ last) :
    ecmdDecode second maxlen position = ecmdDecode first maxlen position := by
  induction maxlen generalizing position with
  | zero => rfl
  | succ maxlen ih =>
      rw [ecmdDecode, ecmdDecode, name.at_eq inside]
      by_cases ended : first position = 0
      · rw [if_pos ended, if_pos ended]
      · have before : position < last := by
          refine Nat.lt_of_le_of_ne inside ?_
          rintro rfl
          exact ended name.terminated
        have next := ih (show filename ≤ position + 1 by omega) before
        rw [if_neg ended, if_neg ended, next]
        split_ifs with plus percent
        · rfl
        · have complete := name.escapes position above before percent
          rw [ih (show filename ≤ position + 3 by omega) complete,
            name.at_eq (show position + 1 ≤ last by omega),
            name.at_eq (show position + 2 ≤ last by omega)]
        · rfl

/-- Both buffers give the directory the same name. -/
theorem resolveDirectory_same (config : Config) (environment : Environment) {bound : Nat}
    (agree : Agree bound first second) (terminated : first last = 0) (above : filename ≤ last)
    (inside : last < bound) (lastchar : UInt8) :
    resolveDirectory config environment second filename lastchar =
      resolveDirectory config environment first filename lastchar := by
  have name : cString second (filename - 1) = cString first (filename - 1) :=
    agree.cString_eq_of_terminated terminated (by omega) inside
  rw [resolveDirectory, resolveDirectory, name]

theorem resolveFile_same (config : Config) (environment : Environment)
    (name : SameName first second filename last) :
    resolveFile config environment second filename =
      resolveFile config environment first filename := by
  have length := cString_length_le name.terminated name.above
  unfold resolveFile
  dsimp only
  rw [name.cString_eq name.above, name.at_eq (show _ ≤ last by have := name.above; omega)]
  generalize lastByte : first (filename + (cString first filename).length - 1) = lastchar
  generalize pointer : (if lastchar ≠ slash then filename + (cString first filename).length + 1
    else filename + (cString first filename).length) = ptr
  have bound : ptr ≤ last + 1 ∧ filename ≤ ptr := by
    have := name.above
    rw [← pointer]
    split_ifs <;> omega
  have directory : Agree (last + 1)
      (if lastchar ≠ slash then
        Function.update first (filename + (cString first filename).length) slash else first)
      (if lastchar ≠ slash then
        Function.update second (filename + (cString first filename).length) slash else second) := by
    split_ifs
    · exact name.agree.update _ _
    · exact name.agree
  have index := (directory.strcpy bound.1 indexText).mono (Nat.le_max_right _ _)
  have terminated := strcpy_terminated (if lastchar ≠ slash then
    Function.update first (filename + (cString first filename).length) slash
    else first) ptr indexText
  generalize strcpy (if lastchar ≠ slash then
    Function.update first (filename + (cString first filename).length) slash else first) ptr
      indexText = firstIndex at index terminated ⊢
  generalize strcpy (if lastchar ≠ slash then
    Function.update second (filename + (cString first filename).length) slash else second) ptr
      indexText = secondIndex at index ⊢
  -- Stripping the name of the index document leaves the zero byte behind it.
  have stripped (position : Nat) :
      Function.update firstIndex position 0 (ptr + indexText.length) = 0 := by
    by_cases same : ptr + indexText.length = position
    · rw [same, Function.update_self]
    · rw [Function.update_of_ne same, terminated]
  rw [index.cString_eq_of_terminated terminated (by omega) (Nat.lt_succ_self _),
    resolveDirectory_same config environment (index.update _ _) (stripped _) (by omega)
      (Nat.lt_succ_self _)]

/-- The name decides what the request is resolved to. -/
theorem resolve_same (config : Config) (environment : Environment)
    (name : SameName first second filename last) :
    resolve config environment second filename = resolve config environment first filename := by
  obtain ⟨last', renamed⟩ := replaceName_same config name
  unfold resolve
  dsimp only
  generalize replaceName config first filename = first at renamed ⊢
  generalize replaceName config second filename = second at renamed ⊢
  rw [sameStart, sameStart, renamed.cString_eq renamed.above,
    resolveFile_same config environment renamed]
  by_cases command : config.ecmdParserSupport ∧
      ((cString first filename).take 5 == ecmdText.take 5) = true
  · have fits : filename + 5 ≤ last' := by
      have length := cString_length_le renamed.terminated renamed.above
      have five := congrArg List.length (beq_iff_eq.1 command.2)
      rw [List.length_take, show (ecmdText.take 5).length = 5 from rfl] at five
      omega
    rw [if_pos command, if_pos command, httpdHandleEcmdSetup, httpdHandleEcmdSetup,
      ecmdDecode_same renamed _ (Nat.le_add_right _ _) fits]
  · rw [if_neg command, if_neg command]

/-- A call of the file system or of the command interpreter. -/
def Effect.ofFile : Effect → Bool
  | .vfsOpen .. | .vfsClose | .sdChdir .. | .closeDir | .ecmdInput .. => true
  | _ => false

theorem resolveDirectory_ofFile (config : Config) (environment : Environment) (memory : Memory)
    (filename : Nat) (lastchar : UInt8) :
    ∀ effect ∈ (resolveDirectory config environment memory filename lastchar).2,
      effect.ofFile = true := by
  unfold resolveDirectory
  dsimp only
  split_ifs <;> simp [Effect.ofFile]

theorem resolveFile_ofFile (config : Config) (environment : Environment) (memory : Memory)
    (filename : Nat) :
    ∀ effect ∈ (resolveFile config environment memory filename).2, effect.ofFile = true := by
  unfold resolveFile
  dsimp only
  generalize strcpy _ _ indexText = index
  by_cases file : environment.vfsOpen (cString memory filename)
  · simp [file, Effect.ofFile]
  · rw [if_neg file]
    by_cases document : environment.vfsOpen (cString index filename)
    · simp [document, Effect.ofFile]
    · rw [if_neg document]
      intro effect member
      rcases List.mem_append.1 member with opened | found
      · simp only [List.mem_cons, List.not_mem_nil, or_false] at opened
        rcases opened with rfl | rfl
        · rfl
        · rfl
      · exact resolveDirectory_ofFile _ _ _ _ _ effect found

theorem resolve_ofFile (config : Config) (environment : Environment) (memory : Memory)
    (filename : Nat) :
    ∀ effect ∈ (resolve config environment memory filename).2, effect.ofFile = true := by
  unfold resolve
  dsimp only
  split_ifs
  · unfold httpdHandleEcmdSetup
    split <;> simp [Effect.ofFile]
  · exact resolveFile_ofFile _ _ _ _
  · simp

/-- The call has opened a file. -/
def Effect.opensFile : Effect → Bool
  | .vfsOpen _ found => found
  | _ => false

theorem resolveDirectory_opens (config : Config) (environment : Environment) (memory : Memory)
    (filename : Nat) (lastchar : UInt8) :
    (resolveDirectory config environment memory filename lastchar).2.countP
      Effect.opensFile = 0 := by
  unfold resolveDirectory
  dsimp only
  split_ifs <;> rfl

theorem resolveFile_opens (config : Config) (environment : Environment) (memory : Memory)
    (filename : Nat) :
    (resolveFile config environment memory filename).2.countP Effect.opensFile ≤ 1 := by
  unfold resolveFile
  dsimp only
  generalize strcpy _ _ indexText = index
  split_ifs
  · exact Nat.le_refl 1
  · exact Nat.le_refl 1
  all_goals
    rw [List.countP_append, resolveDirectory_opens]
    exact Nat.zero_le 1

theorem resolve_opens (config : Config) (environment : Environment) (memory : Memory)
    (filename : Nat) :
    (resolve config environment memory filename).2.countP Effect.opensFile ≤ 1 := by
  unfold resolve
  dsimp only
  split_ifs
  · unfold httpdHandleEcmdSetup
    split
    · exact Nat.zero_le 1
    · exact Nat.zero_le 1
  · exact resolveFile_opens _ _ _ _
  · exact Nat.zero_le 1

end Ethersex.Httpd

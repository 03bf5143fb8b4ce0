import Ethersex.EcmdTcpPlain

/-!
# A stream of commands in segments

The parser gets the commands of a byte stream one by one when every line feed ends its segment.
What stands behind a line feed in the same segment is thrown away; only when it is the carriage
return of an empty command, nobody notices.
-/

namespace Ethersex.EcmdPlain

open ByteMemory
open Ecmd (inputbufLength lineFeed carriageReturn exclamationMark UipEvent isEcmdAgain)

/-- A command with its line end, with or without a carriage return. -/
structure Command where
  text : List UInt8
  withReturn : Bool
  plain : ∀ byte ∈ text, byte ≠ 0 ∧ byte ≠ carriageReturn ∧ byte ≠ lineFeed
  short : text.length < inputbufLength

/-- The bytes in front of the line feed. -/
def Command.body (command : Command) : List UInt8 :=
  command.text ++ if command.withReturn then [carriageReturn] else []

def Command.line (command : Command) : List UInt8 := command.body ++ [lineFeed]

def stream (commands : List Command) : List UInt8 := (commands.map Command.line).flatten

/-- Every run of callbacks that delivers the segments calls the parser once for every command, in
order and with its text. -/
def StreamParsed (commands : List Command) (segments : List (List UInt8)) : Prop :=
  ∀ (memory : Memory) (events : List UipEvent), (∀ event ∈ events, Plain event) →
    segmentsOf events = segments → parserCalls (connect memory) events = commands.map Command.text

/-- What stands behind the first line feed of a segment. -/
def leftover (data : List UInt8) : List UInt8 := (data.dropWhile (· != lineFeed)).tail

/-- Nothing but a carriage return stands behind a line feed. -/
def Harmless (data : List UInt8) : Prop := leftover data = [] ∨ leftover data = [carriageReturn]

variable {command : Command}

theorem Command.lineFeed_not_mem_body (command : Command) : lineFeed ∉ command.body := by
  intro member
  rcases List.mem_append.1 member with text | ending
  · exact (command.plain _ text).2.2 rfl
  · split_ifs at ending
    · exact absurd (List.mem_singleton.1 ending) (by decide)
    · cases ending

theorem Command.length_body (command : Command) : command.body.length ≤ inputbufLength := by
  have short := command.short
  rw [body, List.length_append]
  split_ifs
  · rw [List.length_singleton]
    omega
  · rw [List.length_nil]
    omega

/-- The text in front of the line end, when the first bytes of the command are missing. -/
theorem takeWhile_isText_of_body {lost rest : List UInt8} (split : command.body = lost ++ rest) :
    (rest.take (inputbufLength - 1)).takeWhile isText = command.text.drop lost.length := by
  have restEq : rest = command.body.drop lost.length := by rw [split, List.drop_left]
  have ends : ∀ count start : Nat, (((if command.withReturn then [carriageReturn] else []).drop
      start).take count).takeWhile isText = [] := by
    intro count start
    rw [List.takeWhile_eq_nil_iff]
    intro nonempty text
    have member := List.mem_of_mem_drop (List.mem_of_mem_take (List.get_mem _ ⟨0, nonempty⟩))
    split_ifs at member
    · rw [List.mem_singleton.1 member] at text
      cases text
    · cases member
  have short : (command.text.drop lost.length).length ≤ inputbufLength - 1 := by
    have := command.short
    rw [List.length_drop]
    omega
  have textual : ∀ byte ∈ command.text.drop lost.length, isText byte = true := by
    intro byte member
    have plain := command.plain byte (List.mem_of_mem_drop member)
    exact isText_iff.2 ⟨plain.1, plain.2.1⟩
  rw [restEq, Command.body, List.drop_append, List.take_append, List.take_of_length_le short,
    List.takeWhile_append_of_pos textual, ends, List.append_nil]

/-- The parser gets the whole text when at most the carriage return of an empty command is missing
and there is no mark. -/
theorem commandText_eq_iff {lost rest : List UInt8} (split : command.body = lost ++ rest) :
    commandText rest = command.text ↔
      (lost = [] ∨ lost = [carriageReturn]) ∧ command.text.head? ≠ some exclamationMark := by
  rw [commandText, takeWhile_isText_of_body split]
  cases textEq : command.text with
  | nil =>
      have starts : lost <+: if command.withReturn then [carriageReturn] else [] := by
        rw [Command.body, textEq, List.nil_append] at split
        exact ⟨rest, split.symm⟩
      have cases : lost = [] ∨ lost = [carriageReturn] := by
        split_ifs at starts
        · rcases List.prefix_cons_iff.1 starts with empty | ⟨more, whole, rest⟩
          · exact Or.inl empty
          · rw [List.prefix_nil.1 rest] at whole
            exact Or.inr whole
        · exact Or.inl (List.prefix_nil.1 starts)
      simp [cases]
  | cons byte text =>
      have noReturn : lost ≠ [carriageReturn] := by
        rintro rfl
        rw [Command.body, textEq, List.cons_append, List.singleton_append, List.cons.injEq] at split
        exact (command.plain byte (by rw [textEq]; simp)).2.1 split.1
      constructor
      · intro same
        have shorter : (byte :: text).length ≤ ((byte :: text).drop lost.length).length := by
          conv_lhs => rw [← same]
          split_ifs
          · rw [List.length_tail]
            omega
          · exact Nat.le_refl _
        have empty : lost = [] := by
          rw [List.length_drop, List.length_cons] at shorter
          exact List.eq_nil_of_length_eq_zero (by omega)
        refine ⟨Or.inl empty, fun mark => ?_⟩
        rw [empty, List.length_nil, List.drop_zero, if_pos mark] at same
        have length := congrArg List.length same
        simp at length
      · rintro ⟨empty, unmarked⟩
        rw [empty.resolve_right noReturn, List.length_nil, List.drop_zero, if_neg unmarked]

/-- Such a line does not begin with the mark. -/
theorem line_unmarked {lost rest : List UInt8} (split : command.body = lost ++ rest)
    (whole : lost = [] ∨ lost = [carriageReturn])
    (unmarked : command.text.head? ≠ some exclamationMark) : rest.head? ≠ some exclamationMark := by
  intro mark
  have text := takeWhile_isText_of_body split
  obtain ⟨more, rfl⟩ := List.singleton_prefix_iff_head?_eq_some.2 mark
  have first : ((([exclamationMark] ++ more).take (inputbufLength - 1)).takeWhile isText).head? =
      some exclamationMark := rfl
  rw [text] at first
  rcases whole with rfl | rfl
  · exact unmarked first
  · have empty : command.text = [] := by
      cases textEq : command.text with
      | nil => rfl
      | cons byte text =>
          rw [Command.body, textEq, List.cons_append, List.singleton_append,
            List.cons.injEq] at split
          exact absurd split.1 (command.plain byte (by rw [textEq]; simp)).2.1
    rw [empty] at first
    cases first

theorem length_linesOf_le (buffer : List UInt8) (segments : List (List UInt8)) :
    (linesOf buffer segments).length ≤ segments.flatten.count lineFeed := by
  induction segments generalizing buffer with
  | nil => exact Nat.zero_le _
  | cons data segments ih =>
      rw [linesOf, List.flatten_cons, List.count_append]
      split_ifs with line
      · have positive := List.count_pos_iff.2 line
        have rest := ih []
        rw [List.length_cons]
        omega
      · have rest := ih (received buffer data)
        omega

theorem count_stream (commands : List Command) :
    (stream commands).count lineFeed = commands.length := by
  induction commands with
  | nil => rfl
  | cons command commands ih =>
      have body : command.body.count lineFeed = 0 :=
        List.count_eq_zero.2 command.lineFeed_not_mem_body
      rw [stream, List.map_cons, List.flatten_cons, List.count_append, Command.line,
        List.count_append, body, ← stream, ih, List.length_cons]
      simp only [List.count_singleton_self]
      omega

theorem stream_cons (command : Command) (commands : List Command) :
    stream (command :: commands) = command.body ++ lineFeed :: stream commands := by
  simp [stream, Command.line]

/-- Bytes without a line feed at the front of a stream belong to its first command. -/
theorem length_le_of_stream {commands : List Command} {front rest : List UInt8}
    (content : front ++ rest = stream commands) (noLine : lineFeed ∉ front) :
    front.length ≤ inputbufLength := by
  cases commands with
  | nil =>
      have empty := List.append_eq_nil_iff.1 content
      rw [empty.1]
      exact Nat.zero_le _
  | cons command commands =>
      rw [stream_cons] at content
      have bound := command.length_body
      rcases List.append_eq_append_iff.1 content with ⟨more, body, -⟩ | ⟨more, front, rest⟩
      · rw [body, List.length_append] at bound
        omega
      · cases more with
        | nil =>
            rw [front, List.append_nil]
            exact bound
        | cons byte more =>
            rw [List.cons_append, List.cons.injEq] at rest
            rw [front, ← rest.1] at noLine
            exact absurd (by simp) noLine

theorem bne_lineFeed {front : List UInt8} (noLine : lineFeed ∉ front) :
    ∀ byte ∈ front, (byte != lineFeed) = true := by
  intro byte member
  rw [bne_iff_ne]
  rintro rfl
  exact noLine member

theorem takeWhile_line {front : List UInt8} (noLine : lineFeed ∉ front) (rest : List UInt8) :
    (front ++ lineFeed :: rest).takeWhile (· != lineFeed) = front := by
  rw [List.takeWhile_append_of_pos (bne_lineFeed noLine), List.takeWhile_cons_of_neg (by simp),
    List.append_nil]

theorem leftover_line {front : List UInt8} (noLine : lineFeed ∉ front) (rest : List UInt8) :
    leftover (front ++ lineFeed :: rest) = rest := by
  rw [leftover, List.dropWhile_append_of_pos (bne_lineFeed noLine),
    List.dropWhile_cons_of_neg (by simp), List.tail_cons]

theorem leftover_of_noLine {data : List UInt8} (noLine : lineFeed ∉ data) : leftover data = [] := by
  rw [leftover, List.dropWhile_eq_nil_iff.2 (bne_lineFeed noLine), List.tail_nil]

/-- The first line feed of a stream ends its first command. -/
theorem stream_split {commands : List Command} {front rest : List UInt8}
    (content : front ++ lineFeed :: rest = stream commands) (noLine : lineFeed ∉ front) :
    ∃ command others, commands = command :: others ∧ command.body = front ∧
      rest = stream others := by
  cases commands with
  | nil => exact absurd content (by simp [stream])
  | cons command commands =>
      rw [stream_cons] at content
      have body : command.body = front := by
        rw [← takeWhile_line command.lineFeed_not_mem_body (stream commands), ← content,
          takeWhile_line noLine]
      rw [body, List.append_cancel_left_eq, List.cons.injEq] at content
      exact ⟨command, commands, rfl, body, content.2⟩

/-- The line in front of the first line feed of a segment. -/
theorem takeWhile_received {buffer front rest : List UInt8} (noLine : lineFeed ∉ buffer ++ front)
    (fits : (buffer ++ front).length ≤ inputbufLength) :
    (received buffer (front ++ lineFeed :: rest)).takeWhile (· != lineFeed) = buffer ++ front := by
  rw [received, ← List.append_assoc, List.take_append, List.take_of_length_le fits,
    List.takeWhile_append_of_pos (bne_lineFeed noLine)]
  cases inputbufLength - (buffer ++ front).length with
  | zero => simp
  | succ count => simp

/-- The texts from the middle of a command on, whose first bytes are lost or already in the input
buffer. -/
theorem texts_eq_iff {segments : List (List UInt8)} {commands : List Command}
    {lost buffer : List UInt8} (content : lost ++ buffer ++ segments.flatten = stream commands)
    (noLine : lineFeed ∉ lost ++ buffer) :
    ((linesOf buffer segments).map commandText = commands.map Command.text ↔
      (lost = [] ∨ lost = [carriageReturn]) ∧
        (∀ command ∈ commands, command.text.head? ≠ some exclamationMark) ∧
          ∀ data ∈ segments, Harmless data) ∧
    ((lost = [] ∨ lost = [carriageReturn]) →
      (∀ command ∈ commands, command.text.head? ≠ some exclamationMark) →
        (∀ data ∈ segments, Harmless data) →
          ∀ line ∈ linesOf buffer segments, line.head? ≠ some exclamationMark) := by
  induction segments generalizing commands lost buffer with
  | nil =>
      cases commands with
      | nil =>
          rw [List.flatten_nil, List.append_nil] at content
          simp [linesOf, (List.append_eq_nil_iff.1 content).1]
      | cons command commands =>
          rw [List.flatten_nil, List.append_nil, stream_cons] at content
          rw [content] at noLine
          exact absurd (by simp) noLine
  | cons data segments ih =>
      rw [List.flatten_cons] at content
      by_cases line : lineFeed ∈ data
      · obtain ⟨front, rest, rfl, free⟩ := List.eq_append_cons_of_mem line
        have noLineFront : lineFeed ∉ lost ++ buffer ++ front := by
          rw [List.mem_append, not_or]
          exact ⟨noLine, free⟩
        obtain ⟨command, others, rfl, body, tail⟩ :=
          stream_split (by simpa using content) noLineFront
        rw [List.append_assoc] at body noLineFront
        have fits : (buffer ++ front).length ≤ inputbufLength := by
          have bound := command.length_body
          rw [body, List.length_append] at bound
          omega
        have noLineLine : lineFeed ∉ buffer ++ front := fun member =>
          noLineFront (List.mem_append_right _ member)
        rw [linesOf, if_pos line, takeWhile_received noLineLine fits, List.map_cons, List.map_cons,
          List.cons.injEq, commandText_eq_iff body, List.forall_mem_cons, List.forall_mem_cons,
          Harmless, leftover_line free]
        by_cases again : lineFeed ∈ rest
        · -- The second line feed of the segment calls nobody, so a call is missing.
          have counted := length_linesOf_le [] segments
          have all := congrArg (List.count lineFeed) tail
          rw [List.count_append, count_stream] at all
          have positive := List.count_pos_iff.2 again
          have missing : (linesOf [] segments).map commandText ≠ others.map Command.text := by
            intro same
            have length := congrArg List.length same
            rw [List.length_map, List.length_map] at length
            omega
          have harmful : ¬ (rest = [] ∨ rest = [carriageReturn]) := by
            rintro (rfl | rfl)
            · cases again
            · exact absurd (List.mem_singleton.1 again) (by decide)
          exact ⟨⟨fun same => absurd same.2 missing, fun good => absurd good.2.2.1 harmful⟩,
            fun _ _ good => absurd good.1 harmful⟩
        · obtain ⟨later, laterUnmarked⟩ :=
            ih (show rest ++ [] ++ segments.flatten = stream others by
            simpa using tail) (show lineFeed ∉ rest ++ [] by simpa using again)
          rw [later]
          refine ⟨⟨?_, ?_⟩, ?_⟩
          · rintro ⟨⟨whole, unmarked⟩, harmless, marks, segments⟩
            exact ⟨whole, ⟨unmarked, marks⟩, harmless, segments⟩
          · rintro ⟨whole, ⟨unmarked, marks⟩, harmless, segments⟩
            exact ⟨⟨whole, unmarked⟩, harmless, marks, segments⟩
          · rintro whole ⟨unmarked, marks⟩ ⟨harmless, segments⟩
            rw [List.forall_mem_cons]
            exact ⟨line_unmarked body whole unmarked, laterUnmarked harmless marks segments⟩
      · have noLineData : lineFeed ∉ lost ++ (buffer ++ data) := by
          rw [← List.append_assoc, List.mem_append, not_or]
          exact ⟨noLine, line⟩
        have contentData : lost ++ (buffer ++ data) ++ segments.flatten = stream commands := by
          rw [← content]
          simp
        have fits := length_le_of_stream contentData noLineData
        rw [List.length_append] at fits
        have whole : received buffer data = buffer ++ data := List.take_of_length_le (by omega)
        have harmless : Harmless data := Or.inl (leftover_of_noLine line)
        rw [linesOf, if_neg line, whole, List.forall_mem_cons]
        obtain ⟨later, laterUnmarked⟩ := ih contentData noLineData
        refine ⟨later.trans ?_, fun whole marks good => laterUnmarked whole marks good.2⟩
        simp only [harmless, true_and]

/-- One callback for every segment. -/
def deliveryOf (data : List UInt8) : UipEvent :=
  { Ecmd.quietEvent with newdata := true, data := data }

theorem segmentsOf_deliveries (segments : List (List UInt8)) :
    segmentsOf (segments.map deliveryOf) = segments := by
  induction segments with
  | nil => rfl
  | cons data segments ih =>
      rw [List.map_cons, segmentsOf_cons, ih]
      rfl

/-- The stream is parsed command by command, in every run that delivers its segments, if and only if
no command begins with the mark and no segment goes on behind a line feed. -/
theorem streamParsed_iff (commands : List Command) (segments : List (List UInt8))
    (cut : segments.flatten = stream commands) :
    StreamParsed commands segments ↔
      (∀ command ∈ commands, command.text.head? ≠ some exclamationMark) ∧
        ∀ data ∈ segments, Harmless data := by
  obtain ⟨texts, unmarkedLines⟩ := texts_eq_iff
    (show [] ++ [] ++ segments.flatten = stream commands from cut)
    (show lineFeed ∉ [] ++ [] from List.not_mem_nil)
  constructor
  · intro parsed
    have plain : ∀ event ∈ segments.map deliveryOf, Plain event := by
      intro event member
      obtain ⟨data, -, rfl⟩ := List.mem_map.1 member
      exact ⟨rfl, rfl⟩
    have delivered := segmentsOf_deliveries segments
    have calls := parsed (fun _ => 0) (segments.map deliveryOf) plain delivered
    have begins := (connect_holds fun _ => 0).1.parserCalls_begin plain
    rw [calls, delivered] at begins
    have bound := length_linesOf_le [] segments
    rw [cut, count_stream] at bound
    have same := begins.eq_of_length_le (by simpa using bound)
    exact (texts.1 same.symm).2
  · rintro ⟨unmarked, harmless⟩ memory events plain rfl
    obtain ⟨holds, notClosing⟩ := connect_holds memory
    rw [holds.parserCalls_eq notClosing plain (unmarkedLines (Or.inl rfl) unmarked harmless)]
    exact texts.2 ⟨Or.inl rfl, unmarked, harmless⟩

instance (data : List UInt8) : Decidable (Harmless data) := inferInstanceAs (Decidable (_ ∨ _))

/-- `"a\n"` -/
def commandA : Command := ⟨[97], false, by simp [carriageReturn, lineFeed], by decide⟩

/-- `"b\r\n"` -/
def commandB : Command := ⟨[98], true, by simp [carriageReturn, lineFeed], by decide⟩

theorem streamParsed_line_cuts :
    [[97], [10], [98, 13], [10]].flatten = stream [commandA, commandB] ∧
      StreamParsed [commandA, commandB] [[97], [10], [98, 13], [10]] :=
  ⟨by decide, (streamParsed_iff [commandA, commandB] [[97], [10], [98, 13], [10]] (by decide)).2
    ⟨by decide, by decide⟩⟩

/-- Two commands in one segment: the second one is thrown away. -/
theorem second_command_lost :
    [[97, 10, 98, 13, 10]].flatten = stream [commandA, commandB] ∧
      parserCalls (connect fun _ => 0) [deliveryOf [97, 10, 98, 13, 10]] = [[97]] ∧
      ¬ StreamParsed [commandA, commandB] [[97, 10, 98, 13, 10]] := by
  have lost : parserCalls (connect fun _ => 0) [deliveryOf [97, 10, 98, 13, 10]] = [[97]] := by
    decide +kernel
  refine ⟨by decide, lost, fun parsed => ?_⟩
  have calls := parsed (fun _ => 0) [deliveryOf [97, 10, 98, 13, 10]] (by
    intro event member
    rw [List.mem_singleton.1 member]
    exact ⟨rfl, rfl⟩) rfl
  rw [lost] at calls
  cases calls

end Ethersex.EcmdPlain

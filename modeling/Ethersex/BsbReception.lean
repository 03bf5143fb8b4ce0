import Ethersex.BsbMessages
import Ethersex.PrefixFrames
import Mathlib.Tactic.IntervalCases

/-!
# Reception on the boiler bus

`bsbport_rx_periodic` of `protocols/bsbport/bsbport_rx.c` reads messages out of a buffer that the
receive interrupt fills.  The main program goes on in steps between which bytes may arrive; each
tests one of the loop conditions.
-/

namespace Ethersex.Bsbport

open ByteMemory

/-- The counters, and the messages that have been passed to `bsbport_store_msg`. -/
structure Results where
  rxOk : UInt16
  rxCrcerror : UInt16
  rxLenghtunder : UInt16
  rxLenghtover : UInt16
  rxDropped : UInt16
  stored : List (List UInt8)
  deriving DecidableEq

def noResults : Results := ⟨0, 0, 0, 0, 0, []⟩

/-- Where the main program is: outside of a call, or at the condition of one of the loops.  The
array `buffer` is on the stack and keeps its contents within a call. -/
inductive Point
  | idle
  | outer (buffer : Memory)
  | inner (buffer : Memory) (i : Nat)

structure State where
  data : List UInt8
  read : Nat
  bufferfull : UInt16
  results : Results
  point : Point

/-- The receive interrupt. -/
def receive (config : Config) (state : State) (v : UInt8) : State :=
  if state.data.length < config.bufferLen then { state with data := state.data ++ [v ^^^ 0xFF] }
  else { state with bufferfull := state.bufferfull + 1 }

/-- A message seems to be completely received, or is at the maximal length. -/
def Ends (config : Config) (buffer : Memory) (i : Nat) : Prop :=
  config.messageMaxLen ≤ i ∨ posLen < i ∧ (buffer posLen).toNat ≤ i

instance (config : Config) (buffer : Memory) (i : Nat) : Decidable (Ends config buffer i) :=
  inferInstanceAs (Decidable (_ ∨ _))

/-- The message contains information, or is addressed to us. -/
def IsStored (config : Config) (buffer : Memory) : Prop :=
  buffer posType = typeAnswer ∨ buffer posType = typeInfo ∨
    (buffer posDest &&& 0x0F).toNat = config.ownAddress

instance (config : Config) (buffer : Memory) : Decidable (IsStored config buffer) :=
  inferInstanceAs (Decidable (_ ∨ _))

/-- The outcome of a message of which `i` bytes have been read, or none when bytes are missing. -/
def account (config : Config) (results : Results) (buffer : Memory) (i : Nat) : Option Results :=
  if posLen < i ∧ i = (buffer posLen).toNat then
    if bsbportCrc buffer i = 0 then
      let results := { results with rxOk := results.rxOk + 1 }
      if IsStored config buffer then
        some { results with stored := results.stored ++ [readBlock buffer 0 i] }
      else some results
    else some { results with rxCrcerror := results.rxCrcerror + 1 }
  else if i ≤ posLen ∨ i < (buffer posLen).toNat ∧ i < config.messageMaxLen then none
  else if posLen < i ∧ i < (buffer posLen).toNat then
    some { results with rxLenghtunder := results.rxLenghtunder + 1 }
  else if posLen < i ∧ (buffer posLen).toNat < i then
    some { results with rxLenghtover := results.rxLenghtover + 1 }
  else some results

/-- The end of a round of the outer loop: what has been read is cleared from the buffer. -/
def clearRead (state : State) (buffer : Memory) (results : Results) : State :=
  { state with
    data := state.data.drop state.read, read := 0, results := results, point := .outer buffer }

def finish (config : Config) (state : State) (buffer : Memory) (i : Nat) : State :=
  match account config state.results buffer i with
  | none => { state with read := 0, point := .idle }
  | some results => clearRead state buffer results

/-- A step of the main program.  A call begins with some contents of `buffer`. -/
def step (config : Config) (state : State) (contents : Memory) : State :=
  match state.point with
  | .idle => { state with point := .outer contents }
  | .outer buffer =>
      match state.data[state.read]? with
      | some byte =>
          let state := { state with read := state.read + 1 }
          if byte = sotByte then
            { state with point := .inner (Function.update buffer 0 sotByte) 1 }
          else
            clearRead state buffer { state.results with rxDropped := state.results.rxDropped + 1 }
      | none => { state with point := .idle }
  | .inner buffer i =>
      match state.data[state.read]? with
      | some byte =>
          let state := { state with read := state.read + 1 }
          let buffer := Function.update buffer i byte
          if Ends config buffer (i + 1) then finish config state buffer (i + 1)
          else { state with point := .inner buffer (i + 1) }
      | none => finish config state buffer i

/-- What happens: a byte arrives, or the main program goes on. -/
inductive Event
  | receive (v : UInt8)
  | step (contents : Memory)

def handle (config : Config) (state : State) : Event → State
  | .receive v => receive config state v
  | .step contents => step config state contents

def run (config : Config) (state : State) (events : List Event) : State :=
  events.foldl (handle config) state

/-- A state between two calls with some bytes in the receive buffer. -/
def available (data : List UInt8) : State :=
  ⟨data, 0, 0, noResults, .idle⟩

/-- The bytes of a list as a buffer. -/
def asBuffer (bytes : List UInt8) : Memory :=
  fun index => bytes.getD index 0

/-- What a round of the outer loop reads: a byte that is dropped, or a message up to its end. -/
def IsFrame (config : Config) (frame : List UInt8) : Prop :=
  (∃ byte, byte ≠ sotByte ∧ frame = [byte]) ∨
    (∃ rest, frame = sotByte :: rest) ∧ 2 ≤ frame.length ∧
      Ends config (asBuffer frame) frame.length ∧
      ∀ i, 2 ≤ i → i < frame.length → ¬Ends config (asBuffer frame) i

/-- The outcome of a frame. -/
def accountFrame (config : Config) (results : Results) (frame : List UInt8) : Results :=
  if frame.headD 0 ≠ sotByte then { results with rxDropped := results.rxDropped + 1 }
  else (account config results (asBuffer frame) frame.length).getD results

/-- A message that is accepted without a type is addressed to us. -/
def ShowsType (config : Config) (frame : List UInt8) : Prop :=
  frame.length = 4 → bsbportCrc (asBuffer frame) 4 = 0 →
    (asBuffer frame posDest &&& 0x0F).toNat = config.ownAddress

section Frames

theorem positions : posDest = 2 ∧ posLen = 3 ∧ posType = 4 :=
  ⟨rfl, rfl, rfl⟩

variable {config : Config} {buffer buffer' : Memory} {i : Nat}

theorem asBuffer_readBlock {j : Nat} (inside : j < i) :
    asBuffer (readBlock buffer 0 i) j = buffer j := by
  rw [asBuffer, getD_readBlock inside, Nat.zero_add]

theorem Ends.congr (same : ∀ j < i, buffer j = buffer' j) :
    Ends config buffer i ↔ Ends config buffer' i := by
  rw [Ends, Ends]
  by_cases long : posLen < i
  · rw [same posLen long]
  · simp only [long, false_and]

theorem bsbportCrc_congr (same : ∀ j < i, buffer j = buffer' j) :
    bsbportCrc buffer i = bsbportCrc buffer' i := by
  rw [bsbportCrc, bsbportCrc, readBlock_congr fun j _ below => same j (by omega)]

/-- The outcome depends on the bytes that have been read, unless the type is behind them. -/
theorem account_congr (results : Results) (same : ∀ j < i, buffer j = buffer' j)
    (shown : i = 4 → bsbportCrc buffer 4 = 0 →
      (buffer posDest &&& 0x0F).toNat = config.ownAddress) :
    account config results buffer i = account config results buffer' i := by
  have layout := positions
  by_cases long : posLen < i
  · have len := same posLen long
    have contents : readBlock buffer 0 i = readBlock buffer' 0 i :=
      readBlock_congr fun j _ below => same j (by omega)
    rw [account, account, ← len, ← bsbportCrc_congr same, ← contents]
    by_cases valid : bsbportCrc buffer i = 0
    · have storedIff : IsStored config buffer ↔ IsStored config buffer' := by
        have dest := same posDest (by omega)
        rw [IsStored, IsStored, ← dest]
        by_cases short : i = 4
        · have own := shown short (by rw [← short]; exact valid)
          simp only [own, or_true]
        · rw [same posType (by omega)]
      simp only [storedIff]
    · simp only [if_neg valid]
  · have short : i ≤ posLen := Nat.not_lt.mp long
    rw [account, account, if_neg (by omega), if_pos (Or.inl short), if_neg (by omega),
      if_pos (Or.inl short)]

/-- At its end a message has an outcome. -/
theorem account_of_ends (results : Results) (ends : Ends config buffer i) :
    ∃ results', account config results buffer i = some results' := by
  have room := config.dataFits
  have layout := positions
  have long : posLen < i := by
    rcases ends with full | ⟨long, -⟩
    · omega
    · exact long
  rw [account]
  split_ifs with complete valid stored missing
  · exact ⟨_, rfl⟩
  · exact ⟨_, rfl⟩
  · exact ⟨_, rfl⟩
  · exfalso
    rcases ends with full | ⟨-, enough⟩ <;> omega
  · exact ⟨_, rfl⟩
  · exact ⟨_, rfl⟩
  · exact ⟨_, rfl⟩

/-- Before its end bytes are missing. -/
theorem account_of_not_ends (results : Results) (more : 2 ≤ i → ¬Ends config buffer i) :
    account config results buffer i = none := by
  have layout := positions
  by_cases long : posLen < i
  · have notEnds := more (by omega)
    rw [Ends, not_or, not_and] at notEnds
    have missing := notEnds.2 long
    rw [account, if_neg (by omega), if_pos (Or.inr (by omega))]
  · rw [account, if_neg (by omega), if_pos (Or.inl (by omega))]

theorem isFrame_prefixFree (config : Config) : PrefixFrames.PrefixFree (IsFrame config) := by
  intro frame other isFrame isOther isPrefix
  apply isPrefix.eq_of_length
  obtain ⟨more, rfl⟩ := isPrefix
  rcases isFrame with ⟨byte, notSot, rfl⟩ | ⟨⟨rest, rfl⟩, two, ends, -⟩
  · rcases isOther with ⟨byte', -, same⟩ | ⟨⟨rest, same⟩, -⟩
    · rw [same]
      rfl
    · rw [List.singleton_append, List.cons.injEq] at same
      exact absurd same.1 notSot
  · rcases isOther with ⟨byte, notSot, same⟩ | ⟨-, -, -, before⟩
    · rw [List.cons_append, List.cons.injEq] at same
      exact absurd same.1.symm notSot
    · by_contra longer
      have less : (sotByte :: rest).length < (sotByte :: rest ++ more).length := by
        rw [List.length_append] at longer ⊢
        omega
      apply before _ two less
      refine (Ends.congr fun j inside => ?_).mp ends
      rw [asBuffer, asBuffer, List.getD_append _ _ _ _ inside]

end Frames

/-- The inner loop has taken `i` bytes of a message, which is not at its end. -/
structure Collecting (config : Config) (data : List UInt8) (read : Nat) (buffer : Memory)
    (i : Nat) : Prop where
  read_eq : read = i
  started : 1 ≤ i
  inside : i ≤ data.length
  bytes : data.take i = readBlock buffer 0 i
  first : buffer 0 = sotByte
  unfinished : ∀ n, 2 ≤ n → n ≤ i → ¬Ends config buffer n

section Collecting

variable {config : Config} {data : List UInt8} {read i : Nat} {buffer : Memory} {byte : UInt8}

/-- The inner loop begins behind the first byte of a message. -/
theorem Collecting.begin (first : data[0]? = some sotByte) (buffer : Memory) :
    Collecting config data 1 (Function.update buffer 0 sotByte) 1 where
  read_eq := rfl
  started := Nat.le_refl 1
  inside := (List.getElem?_eq_some_iff.mp first).1
  bytes := by
    rw [List.take_add_one, first, readBlock_succ, Function.update_self]
    rfl
  first := Function.update_self ..
  unfinished := by
    intro n two one
    omega

theorem Collecting.take_succ (collecting : Collecting config data read buffer i)
    (next : data[read]? = some byte) :
    data.take (i + 1) = readBlock (Function.update buffer i byte) 0 (i + 1) := by
  have before : readBlock (Function.update buffer i byte) 0 i = readBlock buffer 0 i := by
    apply readBlock_congr
    intro j _ below
    exact Function.update_of_ne (by omega) _ _
  rw [collecting.read_eq] at next
  rw [List.take_add_one, next, readBlock_append, before, collecting.bytes, readBlock_succ,
    readBlock_zero, Nat.zero_add, Function.update_self]
  rfl

theorem Collecting.unfinished_update (collecting : Collecting config data read buffer i)
    (byte : UInt8) : ∀ n, 2 ≤ n → n ≤ i → ¬Ends config (Function.update buffer i byte) n := by
  intro n two inside ends
  apply collecting.unfinished n two inside
  refine (Ends.congr fun j below => ?_).mp ends
  exact Function.update_of_ne (by omega) _ _

theorem Collecting.first_update (collecting : Collecting config data read buffer i)
    (byte : UInt8) : Function.update buffer i byte 0 = sotByte := by
  rw [Function.update_of_ne (Nat.ne_of_lt collecting.started)]
  exact collecting.first

theorem Collecting.next (collecting : Collecting config data read buffer i)
    (next : data[read]? = some byte)
    (more : ¬Ends config (Function.update buffer i byte) (i + 1)) :
    Collecting config data (read + 1) (Function.update buffer i byte) (i + 1) where
  read_eq := congrArg (· + 1) collecting.read_eq
  started := Nat.succ_pos i
  inside := by
    rw [collecting.read_eq] at next
    exact (List.getElem?_eq_some_iff.mp next).1
  bytes := collecting.take_succ next
  first := collecting.first_update byte
  unfinished := by
    intro n two inside
    rcases Nat.lt_or_eq_of_le inside with below | rfl
    · exact collecting.unfinished_update byte n two (by omega)
    · exact more

/-- The bytes up to the end of the message are a frame. -/
theorem Collecting.isFrame (collecting : Collecting config data read buffer i)
    (next : data[read]? = some byte)
    (ends : Ends config (Function.update buffer i byte) (i + 1)) :
    IsFrame config (data.take (i + 1)) := by
  have started := collecting.started
  rw [collecting.take_succ next]
  have length : (readBlock (Function.update buffer i byte) 0 (i + 1)).length = i + 1 :=
    length_readBlock ..
  refine Or.inr ⟨⟨readBlock (Function.update buffer i byte) 1 i, ?_⟩, ?_, ?_, ?_⟩
  · rw [readBlock_succ, collecting.first_update]
  · omega
  · rw [length]
    exact (Ends.congr fun j below => asBuffer_readBlock below).mpr ends
  · intro n two below
    rw [length] at below
    rw [Ends.congr fun j inside => asBuffer_readBlock (Nat.lt_trans inside below)]
    exact collecting.unfinished_update byte n two (by omega)

/-- An unfinished message at the end of the buffer is not a frame. -/
theorem Collecting.stuck (collecting : Collecting config data read buffer i)
    (none : data[read]? = none) : PrefixFrames.Stuck (IsFrame config) data := by
  rw [collecting.read_eq, List.getElem?_eq_none_iff] at none
  have all : data = readBlock buffer 0 i := by
    rw [← collecting.bytes, List.take_of_length_le none]
  have head : data = sotByte :: readBlock buffer 1 (i - 1) := by
    obtain ⟨more, rfl⟩ := Nat.exists_eq_add_of_le' collecting.started
    rw [all, readBlock_succ, collecting.first]
    rfl
  intro frame isFrame isPrefix
  rcases isFrame with ⟨byte, notSot, rfl⟩ | ⟨-, two, ends, -⟩
  · rw [head, List.cons_prefix_cons] at isPrefix
    exact notSot isPrefix.1
  · have length := isPrefix.length_le
    apply collecting.unfinished frame.length two (length.trans none)
    refine (Ends.congr fun j below => ?_).mp ends
    obtain ⟨more, whole⟩ := isPrefix
    rw [← @asBuffer_readBlock buffer i j (by omega), ← all, ← whole, asBuffer, asBuffer,
      List.getD_append _ _ _ _ below]

end Collecting

/-- What holds where the main program is. -/
def AtPoint (config : Config) (state : State) : Prop :=
  match state.point with
  | .idle => state.read = 0
  | .outer _ => state.read = 0
  | .inner buffer i => Collecting config state.data state.read buffer i

/-- The frames of a stream that have been read, and their outcome.  The bytes `toCome` have not
arrived yet. -/
structure Follows (config : Config) (stream toCome : List UInt8) (frames : List (List UInt8))
    (state : State) : Prop where
  stream_eq : stream = frames.flatten ++ (state.data ++ toCome)
  isFrame : ∀ frame ∈ frames, IsFrame config frame
  results : state.results = frames.foldl (accountFrame config) noResults
  atPoint : AtPoint config state

/-- Every message of the stream has a type where that matters. -/
def TypesShown (config : Config) (stream : List UInt8) : Prop :=
  ∀ (frames : List (List UInt8)) (rest : List UInt8),
    (∀ frame ∈ frames, IsFrame config frame) → stream = frames.flatten ++ rest →
      ∀ frame ∈ frames, ShowsType config frame

section Steps

variable {config : Config} {stream toCome : List UInt8} {frames : List (List UInt8)}
  {state : State}

/-- A round of the outer loop reads a further frame. -/
theorem Follows.clearRead (follows : Follows config stream toCome frames state) {read : Nat}
    (isFrame : IsFrame config (state.data.take read)) (buffer : Memory) {results : Results}
    (outcome : results = accountFrame config state.results (state.data.take read)) :
    Follows config stream toCome (frames ++ [state.data.take read])
      (clearRead { state with read := read } buffer results) where
  stream_eq := by
    rw [follows.stream_eq, List.flatten_append, List.flatten_singleton, List.append_assoc,
      Bsbport.clearRead, ← List.append_assoc (state.data.take read), List.take_append_drop]
  isFrame := by
    intro frame member
    rcases List.mem_append.mp member with before | last
    · exact follows.isFrame frame before
    · rwa [List.mem_singleton.mp last]
  results := by
    rw [List.foldl_concat, ← follows.results, ← outcome]
    rfl
  atPoint := rfl

/-- Where a message is at its end its outcome is that of its frame. -/
theorem Follows.finish (follows : Follows config stream toCome frames state)
    (shown : TypesShown config stream) {buffer : Memory} {i : Nat}
    (isFrame : IsFrame config (state.data.take i))
    (bytes : state.data.take i = readBlock buffer 0 i) (first : buffer 0 = sotByte)
    (started : 1 ≤ i) (ends : Ends config buffer i) :
    Follows config stream toCome (frames ++ [state.data.take i])
      (finish config { state with read := i } buffer i) := by
  have length : (state.data.take i).length = i := by
    rw [bytes, length_readBlock]
  have types : ShowsType config (state.data.take i) := by
    apply shown (frames ++ [state.data.take i]) (state.data.drop i ++ toCome)
    · intro frame member
      rcases List.mem_append.mp member with before | last
      · exact follows.isFrame frame before
      · rwa [List.mem_singleton.mp last]
    · rw [follows.stream_eq, List.flatten_append, List.flatten_singleton, List.append_assoc,
        ← List.append_assoc (state.data.take i), List.take_append_drop]
    · exact List.mem_append_right _ (List.mem_singleton_self _)
  have same : ∀ j < i, asBuffer (state.data.take i) j = buffer j := by
    intro j below
    rw [bytes, asBuffer_readBlock below]
  have outcome : account config state.results (asBuffer (state.data.take i)) i =
      account config state.results buffer i := by
    apply account_congr state.results same
    intro four
    rw [four] at length types ⊢
    exact types length
  have head : (state.data.take i).headD 0 = sotByte := by
    obtain ⟨more, rfl⟩ := Nat.exists_eq_add_of_le' started
    rw [bytes, readBlock_succ, List.headD_cons, first]
  obtain ⟨results, found⟩ := account_of_ends state.results ends
  rw [Bsbport.finish, found]
  apply follows.clearRead isFrame buffer
  rw [accountFrame, if_neg (not_not.mpr head), length, outcome, found, Option.getD_some]

/-- A step reads a further frame, or none. -/
theorem Follows.step (follows : Follows config stream toCome frames state)
    (shown : TypesShown config stream) (contents : Memory) :
    ∃ more, Follows config stream toCome (frames ++ more) (step config state contents) := by
  have nothing : ∀ state' : State, state'.data = state.data → state'.results = state.results →
      AtPoint config state' →
        ∃ more, Follows config stream toCome (frames ++ more) state' := by
    intro state' data results atPoint
    refine ⟨[], ?_, ?_, ?_, atPoint⟩
    · rw [List.append_nil, data]
      exact follows.stream_eq
    · rw [List.append_nil]
      exact follows.isFrame
    · rw [List.append_nil, results]
      exact follows.results
  have atPoint := follows.atPoint
  rw [AtPoint] at atPoint
  rw [Bsbport.step]
  match at_ : state.point with
  | .idle =>
      rw [at_] at atPoint
      exact nothing _ rfl rfl atPoint
  | .outer buffer =>
      rw [at_] at atPoint
      simp only at atPoint ⊢
      cases byte : state.data[state.read]? with
      | none => exact nothing _ rfl rfl atPoint
      | some byte' =>
          rw [atPoint] at byte ⊢
          simp only [Nat.zero_add]
          split_ifs with isSot
          · rw [isSot] at byte
            exact nothing _ rfl rfl (Collecting.begin byte buffer)
          · have single : state.data.take 1 = [byte'] := by
              rw [List.take_add_one, byte]
              rfl
            refine ⟨[state.data.take 1], follows.clearRead ?_ buffer ?_⟩
            · exact Or.inl ⟨byte', isSot, single⟩
            · rw [single, accountFrame, List.headD_cons, if_pos isSot]
  | .inner buffer i =>
      rw [at_] at atPoint
      simp only at atPoint ⊢
      cases byte : state.data[state.read]? with
      | none =>
          rw [Bsbport.finish, account_of_not_ends state.results fun two =>
            atPoint.unfinished i two (Nat.le_refl i)]
          exact nothing _ rfl rfl rfl
      | some byte' =>
          simp only
          split_ifs with ends
          · rw [atPoint.read_eq]
            exact ⟨_, follows.finish shown (atPoint.isFrame byte ends) (atPoint.take_succ byte)
              (atPoint.first_update byte') (Nat.succ_pos i) ends⟩
          · exact nothing _ rfl rfl (atPoint.next byte ends)

end Steps

/-- The bytes that arrive. -/
def arrivals (events : List Event) : List UInt8 :=
  events.filterMap fun
    | .receive v => some (v ^^^ 0xFF)
    | .step _ => none

/-- The steps of the main program. -/
def steps (events : List Event) : Nat :=
  events.countP fun
    | .receive _ => false
    | .step _ => true

/-- No byte arrives while the receive buffer is full. -/
def Fits (config : Config) (state : State) : List Event → Prop
  | [] => True
  | .receive v :: events =>
      state.data.length < config.bufferLen ∧ Fits config (receive config state v) events
  | .step contents :: events => Fits config (step config state contents) events

instance decidableFits (config : Config) :
    ∀ (state : State) (events : List Event), Decidable (Fits config state events)
  | _, [] => inferInstanceAs (Decidable True)
  | state, .receive v :: events =>
      have := decidableFits config (receive config state v) events
      inferInstanceAs (Decidable (_ ∧ _))
  | state, .step contents :: events => decidableFits config (step config state contents) events

/-- A bound for the steps until the call returns. -/
def potential (state : State) : Nat :=
  match state.point with
  | .idle => 2 * state.data.length + 2
  | .outer _ => 2 * (state.data.length - state.read) + 1
  | .inner _ _ => 2 * (state.data.length - state.read) + 2

section Runs

variable {config : Config} {stream toCome : List UInt8} {frames : List (List UInt8)}
  {state : State}

theorem AtPoint.receive (atPoint : AtPoint config state) (v : UInt8) :
    AtPoint config (receive config state v) := by
  rw [Bsbport.receive]
  split_ifs with room
  · rw [AtPoint] at atPoint ⊢
    match at_ : state.point with
    | .idle =>
        rw [at_] at atPoint
        exact atPoint
    | .outer buffer =>
        rw [at_] at atPoint
        exact atPoint
    | .inner buffer i =>
        rw [at_] at atPoint
        simp only at atPoint ⊢
        refine ⟨atPoint.read_eq, atPoint.started, ?_, ?_, atPoint.first, atPoint.unfinished⟩
        · exact atPoint.inside.trans (List.prefix_append _ _).length_le
        · rw [List.take_append_of_le_length atPoint.inside]
          exact atPoint.bytes
  · exact atPoint

theorem atPoint_finish (config : Config) (state : State) (buffer : Memory) (i : Nat) :
    AtPoint config (finish config state buffer i) := by
  rw [finish]
  split <;> rfl

theorem AtPoint.step (atPoint : AtPoint config state) (contents : Memory) :
    AtPoint config (step config state contents) := by
  rw [AtPoint] at atPoint
  rw [Bsbport.step]
  match at_ : state.point with
  | .idle =>
      rw [at_] at atPoint
      exact atPoint
  | .outer buffer =>
      rw [at_] at atPoint
      simp only at atPoint ⊢
      rw [atPoint]
      cases byte : state.data[0]? with
      | none => exact rfl
      | some byte' =>
          simp only
          split_ifs with isSot
          · rw [isSot] at byte
            exact Collecting.begin byte buffer
          · exact rfl
  | .inner buffer i =>
      rw [at_] at atPoint
      simp only at atPoint ⊢
      cases byte : state.data[state.read]? with
      | none => exact atPoint_finish config state buffer i
      | some byte' =>
          simp only
          split_ifs with ends
          · exact atPoint_finish config _ _ (i + 1)
          · exact atPoint.next byte ends

theorem Follows.receive {v : UInt8}
    (follows : Follows config stream ((v ^^^ 0xFF) :: toCome) frames state)
    (room : state.data.length < config.bufferLen) :
    Follows config stream toCome frames (receive config state v) where
  stream_eq := by
    rw [follows.stream_eq, Bsbport.receive, if_pos room, List.append_cons]
  isFrame := follows.isFrame
  results := by
    rw [Bsbport.receive, if_pos room]
    exact follows.results
  atPoint := follows.atPoint.receive v

/-- A run reads further frames. -/
theorem Follows.run (shown : TypesShown config stream) {events : List Event}
    (follows : Follows config stream (arrivals events ++ toCome) frames state)
    (fits : Fits config state events) :
    ∃ more, Follows config stream toCome (frames ++ more) (run config state events) := by
  induction events generalizing state frames with
  | nil =>
      refine ⟨[], ?_⟩
      rw [List.append_nil]
      exact follows
  | cons event events ih =>
      cases event with
      | receive v => exact ih (Follows.receive follows fits.1) fits.2
      | step contents =>
          obtain ⟨first, stepped⟩ := follows.step shown contents
          obtain ⟨more, followed⟩ := ih stepped fits
          rw [List.append_assoc] at followed
          exact ⟨first ++ more, followed⟩

theorem stuck_nil : PrefixFrames.Stuck (IsFrame config) [] := by
  intro frame isFrame isPrefix
  rw [List.prefix_nil] at isPrefix
  rcases isFrame with ⟨byte, -, rfl⟩ | ⟨⟨rest, rfl⟩, -⟩ <;> cases isPrefix

/-- A step ends the call, with no further frame in the buffer, or brings the end nearer. -/
theorem step_progress (atPoint : AtPoint config state) (contents : Memory) :
    ((step config state contents).point = .idle ∧
        PrefixFrames.Stuck (IsFrame config) (step config state contents).data) ∨
      potential (step config state contents) < potential state := by
  rw [AtPoint] at atPoint
  rw [step]
  match at_ : state.point with
  | .idle =>
      right
      rw [at_] at atPoint
      simp only [potential, at_, atPoint]
      omega
  | .outer buffer =>
      rw [at_] at atPoint
      simp only at atPoint ⊢
      rw [atPoint]
      cases byte : state.data[0]? with
      | none =>
          left
          refine ⟨rfl, ?_⟩
          rw [List.getElem?_eq_none_iff, Nat.le_zero, List.length_eq_zero_iff] at byte
          rw [byte]
          exact stuck_nil
      | some byte' =>
          have some_ := (List.getElem?_eq_some_iff.mp byte).1
          right
          simp only
          split_ifs with isSot
          · simp only [potential, at_, atPoint]
            omega
          · simp only [clearRead, potential, at_, atPoint, List.length_drop]
            omega
  | .inner buffer i =>
      rw [at_] at atPoint
      simp only at atPoint ⊢
      cases byte : state.data[state.read]? with
      | none =>
          left
          rw [finish, account_of_not_ends state.results fun two =>
            atPoint.unfinished i two (Nat.le_refl i)]
          exact ⟨rfl, atPoint.stuck byte⟩
      | some byte' =>
          have more := (List.getElem?_eq_some_iff.mp byte).1
          right
          simp only
          split_ifs with ends
          · obtain ⟨results, found⟩ := account_of_ends state.results ends
            rw [finish, found]
            simp only [clearRead, potential, at_, List.length_drop]
            omega
          · simp only [potential, at_]
            omega

theorem potential_pos (state : State) : 0 < potential state := by
  rw [potential]
  split <;> omega

theorem run_append (config : Config) (state : State) (front back : List Event) :
    run config state (front ++ back) = run config (run config state front) back :=
  List.foldl_append

/-- A call returns at one of the moments of a run. -/
def Returns (config : Config) (state : State) (events : List Event) : Prop :=
  ∃ front back, events = front ++ back ∧ (run config state front).point = .idle

theorem Returns.cons {event : Event} {events : List Event}
    (returns : Returns config (handle config state event) events) :
    Returns config state (event :: events) := by
  obtain ⟨front, back, rfl, idle⟩ := returns
  exact ⟨event :: front, back, rfl, idle⟩

theorem arrivals_quiet (quiet : List Memory) : arrivals (quiet.map Event.step) = [] := by
  induction quiet with
  | nil => rfl
  | cons contents quiet ih => exact ih

theorem fits_quiet (config : Config) (state : State) (quiet : List Memory) :
    Fits config state (quiet.map Event.step) := by
  induction quiet generalizing state with
  | nil => trivial
  | cons contents quiet ih => exact ih _

/-- Where no frame is left in the buffer, steps of the main program change nothing. -/
theorem Follows.results_of_stuck (shown : TypesShown config stream)
    (follows : Follows config stream [] frames state)
    (stuck : PrefixFrames.Stuck (IsFrame config) state.data) (quiet : List Memory) :
    (Bsbport.run config state (quiet.map Event.step)).results =
      frames.foldl (accountFrame config) noResults := by
  obtain ⟨more, followed⟩ := Follows.run shown
    (by rw [arrivals_quiet]; exact follows) (fits_quiet config state quiet)
  have whole := follows.stream_eq
  have stream_eq := followed.stream_eq
  rw [List.append_nil] at whole stream_eq
  have shorter := PrefixFrames.prefix_of_stuck (isFrame_prefixFree config) followed.isFrame
    follows.isFrame stuck (stream_eq.symm.trans whole)
  have same := (List.prefix_append frames more).eq_of_length_le shorter.length_le
  rw [followed.results, ← same]

/-- Without further arrivals the outcome is that of the frames of the whole stream. -/
theorem Follows.settles (shown : TypesShown config stream)
    (follows : Follows config stream [] frames state) {quiet : List Memory}
    (enough : potential state ≤ quiet.length) :
    ∃ (all : List (List UInt8)) (rest : List UInt8), (∀ frame ∈ all, IsFrame config frame) ∧
      stream = all.flatten ++ rest ∧ PrefixFrames.Stuck (IsFrame config) rest ∧
        (Bsbport.run config state (quiet.map Event.step)).results =
          all.foldl (accountFrame config) noResults := by
  induction quiet generalizing state frames with
  | nil =>
      have positive := potential_pos state
      rw [List.length_nil] at enough
      omega
  | cons contents quiet ih =>
      obtain ⟨more, stepped⟩ := follows.step shown contents
      rcases step_progress follows.atPoint contents with ⟨-, stuck⟩ | less
      · have whole := stepped.stream_eq
        rw [List.append_nil] at whole
        exact ⟨_, _, stepped.isFrame, whole, stuck, stepped.results_of_stuck shown stuck quiet⟩
      · rw [List.length_cons] at enough
        exact ih stepped (Nat.lt_succ_iff.mp (Nat.lt_of_lt_of_le less enough))

end Runs

/-- The default settings. -/
def defaultConfig : Config :=
  ⟨32, 10, 25, 7, by decide, by decide, by decide, by decide⟩

def zeros : Memory := fun _ => 0

/-- An answer with two bytes of data. -/
def answerMessage : List UInt8 :=
  [0xDC, 0x80, 0x42, 13, 7, 0x3D, 5, 5, 0x19, 1, 2, 0x69, 0x7D]

end Ethersex.Bsbport

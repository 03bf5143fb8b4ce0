import Ethersex.ModbusGateway

/-!
# The routing of answers by the Modbus/TCP gateway

The history of a run records what every connection asked, what was put on the bus for
which connection, what the bus answered to it, and what was sent on every
connection.  An answer is right when it belongs to a request of the connection it is
sent on.
-/

namespace Ethersex.Modbus

open GuardedRuns

/-- A request: its transaction id, the unit it is for, and the message for the bus. -/
structure Request where
  transactionId : Nat
  unit : UInt8
  message : List UInt8
  deriving DecidableEq

/-- The request in a received packet. -/
def packetRequest (appdata : Buffer) : Request where
  transactionId := (appdata 0).toNat + 256 * (appdata 1).toNat
  unit := appdata 6
  message := firstBytes (fun position => appdata (6 + position)) (appdata 5).toNat

/-- The request a connection holds in its buffer. -/
def heldRequest (conn : Connection) : Request where
  transactionId := conn.transactionId
  unit := conn.data 0
  message := firstBytes conn.data conn.len.toNat

structure History (n : Nat) where
  asked : List (Fin n × Request)
  /-- The last request put on the bus. -/
  onBus : Option (Fin n × Request)
  /-- The bytes the bus has answered to it. -/
  heard : List UInt8
  served : List (Fin n × Request × List UInt8)
  answers : List (Fin n × List UInt8)

inductive NetEvent (n : Nat) where
  | call (current : Fin n) (call : Call)
  | close (index : Fin n)
  | receive (byte : UInt8)
  | finish

section

variable {n : Nat}

def History.ask (history : History n) (current : Fin n) (call : Call) : History n :=
  if call.newdata then
    { history with asked := history.asked ++ [(current, packetRequest call.appdata)] }
  else history

/-- The request of a connection is put on the bus. -/
def History.transmit (history : History n) (after : Gateway n) : Option (Fin n) → History n
  | some index =>
      { history with onBus := some (index, heldRequest (after.conns index)), heard := [] }
  | none => history

def History.reply (history : History n) (current : Fin n) : Option (List UInt8) → History n
  | some bytes => { history with answers := history.answers ++ [(current, bytes)] }
  | none => history

/-- The history after a call of the application for a connection. -/
def History.afterCall (history : History n) (current : Fin n) (call : Call)
    (after : Gateway n) (effects : Effects n) : History n :=
  ((history.ask current call).transmit after effects.started).reply current effects.answer

/-- The history after the bus answer is complete. -/
def History.afterFinish (history : History n) (gateway : Gateway n) : History n :=
  match gateway.busy, history.onBus with
  | true, some (index, request) =>
      { history with served := history.served ++ [(index, request, history.heard)] }
  | _, _ => history

def netStep (world : Gateway n × History n) : NetEvent n → Option (Gateway n × History n)
  | .call current call =>
      (modbusNetMain world.1 current call).map fun result =>
        (result.1, world.2.afterCall current call result.1 result.2)
  | .close index =>
      some (world.1.setConn index { world.1.conns index with isOpen := false }, world.2)
  | .receive byte =>
      some (receiveAnswer world.1 byte,
        if world.1.busy then { world.2 with heard := world.2.heard ++ [byte] } else world.2)
  | .finish => some (finishReceive world.1, world.2.afterFinish world.1)

/-- An error answer. -/
def IsError (bytes : List UInt8) : Prop :=
  bytes.length = 9 ∧ ∃ code ∈ [(0x04 : UInt8), 0x05, 0x06, 0x0b], bytes[8]? = some code

/-- The answer sent on a connection belongs to a request of this connection: it carries the
request's transaction id and unit, and it is an error or the bus answer to that request. -/
def RightAnswer (history : History n) (answer : Fin n × List UInt8) : Prop :=
  ∃ request, (answer.1, request) ∈ history.asked ∧
    answer.2.take 2 = transactionBytes request.transactionId ∧
    answer.2[6]? = some request.unit ∧
    (IsError answer.2 ∨ ∃ frame, (answer.1, request, frame) ∈ history.served ∧
      answer.2.drop 6 = frame.take (frame.length - 2))

def AnswersRight (history : History n) : Prop :=
  ∀ answer ∈ history.answers, RightAnswer history answer

/-- No connection is open, the bus is idle and nothing has happened. -/
def initialWorld (n : Nat) : Gateway n × History n :=
  (⟨fun _ => ⟨false, .idle, 0, 0, fun _ => 0⟩, -2, false, none, 0, 0⟩, ⟨[], none, [], [], []⟩)

/-- The answer at `send_new_data` can be attributed.  After a timeout or a wrong checksum the
buffer holds the header of the request, over which the error is written; a bus answer
has a unit and has fitted into the buffer of the connection. -/
def Answerable (world : Gateway n × History n) (current : Fin n) (appdata : Buffer) : Prop :=
  ((world.1.recvLen = -1 ∨ 2 ≤ world.1.recvLen ∧
      ¬ crcMatches (world.1.conns current).data world.1.recvLen.toNat) ∧
    [appdata 0, appdata 1] = transactionBytes (world.1.conns current).transactionId ∧
    appdata 6 = world.1.lastAddress) ∨
  (3 ≤ world.1.recvLen ∧ crcMatches (world.1.conns current).data world.1.recvLen.toNat ∧
    world.2.heard.length ≤ modbusBufferLen)

/-- No connection but the current one waits for the answer. -/
def AloneWaiting (gateway : Gateway n) (current : Fin n) : Prop :=
  ∀ index, index ≠ current → (gateway.conns index).isOpen = true →
    (gateway.conns index).phase ≠ .waitAnswer

/-- The calls after which every answer is sent on the right connection.  An answer may only
be due to the connection uIP calls the application for, and to its own bus
transaction; and a request must not be stored in the buffer the bus still writes to. -/
def Attributable (world : Gateway n × History n) : NetEvent n → Prop
  | .call current call =>
      let gateway := prepare world.1 current call
      if resends gateway current call then
        gateway.owner = some current ∧ gateway.busy = false ∧ AloneWaiting gateway current ∧
          Answerable (gateway, world.2) current call.appdata
      else if call.newdata then
        (gateway.conns current).phase ≠ .idle ∨ (call.appdata 5).toNat > modbusBufferLen ∨
          (call.appdata 5 ≠ 0 ∧ ¬ (gateway.busy = true ∧ gateway.owner = some current) ∧
            (gateway.recvLen ≠ 0 → AloneWaiting gateway current))
      else
        gateway.recvLen ≠ 0 → AloneWaiting gateway current ∧
          ((gateway.conns current).isOpen = true → (gateway.conns current).phase = .waitAnswer →
            gateway.owner = some current ∧ Answerable (gateway, world.2) current call.appdata)
  | _ => True

instance (world : Gateway n × History n) (current : Fin n) (appdata : Buffer) :
    Decidable (Answerable world current appdata) :=
  inferInstanceAs (Decidable (((_ ∨ _ ∧ ¬ _) ∧ _ ∧ _) ∨ (_ ∧ _ ∧ _)))

instance (gateway : Gateway n) (current : Fin n) : Decidable (AloneWaiting gateway current) :=
  inferInstanceAs (Decidable (∀ index, index ≠ current → _ → _))

instance (world : Gateway n × History n) : ∀ event, Decidable (Attributable world event)
  | .call current call => inferInstanceAs (Decidable (
      if resends (prepare world.1 current call) current call = true then
        _ ∧ _ ∧ AloneWaiting (prepare world.1 current call) current ∧ Answerable _ _ _
      else if call.newdata = true then
        _ ∨ _ ∨ (_ ∧ ¬ (_ ∧ _) ∧ (_ → AloneWaiting (prepare world.1 current call) current))
      else
        (_ → AloneWaiting (prepare world.1 current call) current ∧
          (_ → _ → _ ∧ Answerable _ _ _))))
  | .close _ => inferInstanceAs (Decidable True)
  | .receive _ => inferInstanceAs (Decidable True)
  | .finish => inferInstanceAs (Decidable True)

/-- The bytes of the bus answer that have been stored in a connection's buffer. -/
def storedAnswer (history : History n) : List UInt8 :=
  history.heard.take modbusBufferLen

/-- The bus transaction of a connection, from its request to the answer in its buffer. -/
structure Transaction (gateway : Gateway n) (history : History n) (index : Fin n)
    (request : Request) : Prop where
  onBus : history.onBus = some (index, request)
  asked : (index, request) ∈ history.asked
  transactionId : (gateway.conns index).transactionId = request.transactionId
  unit : gateway.lastAddress = request.unit
  stored : StartsWith (gateway.conns index).data (storedAnswer history)
  underway : gateway.busy = true → (gateway.conns index).phase = .waitAnswer ∧
    gateway.received = (storedAnswer history).length
  complete : gateway.busy = false → gateway.recvLen = -1 ∨
    (2 ≤ gateway.recvLen ∧ gateway.recvLen = (storedAnswer history).length ∧
      history.heard.head? = some request.unit ∧ (index, request, history.heard) ∈ history.served)

/-- What holds of the gateway between two events. -/
structure Routed (gateway : Gateway n) (history : History n) : Prop where
  answersRight : AnswersRight history
  pending : gateway.busy = true → gateway.recvLen = 0
  answered : gateway.busy = false → gateway.recvLen ≠ 0
  queued : ∀ index, (gateway.conns index).phase = .mustSend →
    (index, heldRequest (gateway.conns index)) ∈ history.asked ∧
      ¬ (gateway.busy = true ∧ gateway.owner = some index)
  owned : ∀ index, gateway.owner = some index →
    (gateway.conns index).phase = .waitAnswer ∨ (gateway.conns index).phase = .mustAnswer →
      ∃ request, Transaction gateway history index request

theorem RightAnswer.mono {first second : History n} {answer : Fin n × List UInt8}
    (right : RightAnswer first answer) (asked : first.asked ⊆ second.asked)
    (served : first.served ⊆ second.served) : RightAnswer second answer := by
  obtain ⟨request, member, id, unit, kind⟩ := right
  refine ⟨request, asked member, id, unit, ?_⟩
  rcases kind with isError | ⟨frame, serving, payload⟩
  · exact Or.inl isError
  · exact Or.inr ⟨frame, served serving, payload⟩

theorem RightAnswer.transmit {history : History n} {answer : Fin n × List UInt8}
    (right : RightAnswer history answer) (after : Gateway n) (next : Option (Fin n)) :
    RightAnswer (history.transmit after next) answer := by
  cases next with
  | none => exact right
  | some index => exact right.mono (List.Subset.refl _) (List.Subset.refl _)

theorem RightAnswer.ask {history : History n} {answer : Fin n × List UInt8}
    (right : RightAnswer history answer) (current : Fin n) (call : Call) :
    RightAnswer (history.ask current call) answer := by
  unfold History.ask
  split
  · exact right.mono (List.subset_append_left _ _) (List.Subset.refl _)
  · exact right

theorem transactionBytes_packet (low high : UInt8) :
    transactionBytes (low.toNat + 256 * high.toNat) = [low, high] := by
  have lowBound := low.toNat_lt
  have highBound := high.toNat_lt
  simp only [transactionBytes]
  rw [show (low.toNat + 256 * high.toNat) % 256 = low.toNat by omega,
    show (low.toNat + 256 * high.toNat) / 256 = high.toNat by omega]
  simp

/-- An error written over the header of a request. -/
theorem rightAnswer_error {history : History n} {current : Fin n} {request : Request}
    (asked : (current, request) ∈ history.asked) {appdata : Buffer} {code : UInt8}
    (isCode : code ∈ [(0x04 : UInt8), 0x05, 0x06, 0x0b])
    (id : [appdata 0, appdata 1] = transactionBytes request.transactionId)
    (unit : appdata 6 = request.unit) :
    RightAnswer history (current, errorResponse appdata code) :=
  ⟨request, asked, id, by rw [← unit]; rfl, Or.inl ⟨rfl, code, isCode, rfl⟩⟩

theorem composeAnswer_error {conn : Connection} {recvLen : Int} {code : UInt8}
    (composed : composeAnswer conn recvLen = some (.error code)) :
    code ∈ [(0x04 : UInt8), 0x05, 0x06, 0x0b] := by
  unfold composeAnswer at composed
  split_ifs at composed <;> cases composed <;> decide

theorem composeAnswer_ok {conn : Connection} {recvLen : Int} {bytes : List UInt8}
    (composed : composeAnswer conn recvLen = some (.ok bytes)) :
    recvLen ≠ -1 ∧ bytes = transactionBytes conn.transactionId ++
      [0, 0, 0, UInt8.ofNat (recvLen.toNat - 2)] ++ firstBytes conn.data (recvLen.toNat - 2) := by
  unfold composeAnswer at composed
  split_ifs at composed with timeout
  all_goals cases composed
  exact ⟨timeout, rfl⟩

theorem Answerable.composes {world : Gateway n × History n} {current : Fin n} {appdata : Buffer}
    (answerable : Answerable world current appdata) :
    composeAnswer (world.1.conns current) world.1.recvLen ≠ none := by
  unfold composeAnswer
  rcases answerable with ⟨failed, -⟩ | ⟨long, -⟩
  · split_ifs <;> first | omega | simp
  · split_ifs <;> first | omega | simp

theorem Answerable.header {world : Gateway n × History n} {current : Fin n} {appdata : Buffer}
    (answerable : Answerable world current appdata) {code : UInt8}
    (composed : composeAnswer (world.1.conns current) world.1.recvLen = some (.error code)) :
    [appdata 0, appdata 1] = transactionBytes (world.1.conns current).transactionId ∧
      appdata 6 = world.1.lastAddress := by
  rcases answerable with ⟨-, header⟩ | ⟨long, matching, -⟩
  · exact header
  · have timely : world.1.recvLen ≠ -1 := by omega
    have complete : ¬ world.1.recvLen < 2 := by omega
    simp [composeAnswer, timely, complete, matching] at composed

theorem Answerable.fits {world : Gateway n × History n} {current : Fin n} {appdata : Buffer}
    (answerable : Answerable world current appdata) {bytes : List UInt8}
    (composed : composeAnswer (world.1.conns current) world.1.recvLen = some (.ok bytes)) :
    3 ≤ world.1.recvLen ∧ world.2.heard.length ≤ modbusBufferLen := by
  rcases answerable with ⟨timeout | ⟨complete, mismatch⟩, -⟩ | ⟨long, -, fits⟩
  · simp [composeAnswer, timeout] at composed
  · have timely : world.1.recvLen ≠ -1 := by omega
    have enough : ¬ world.1.recvLen < 2 := by omega
    simp [composeAnswer, timely, enough, mismatch] at composed
  · exact ⟨long, fits⟩

/-- The results of the search when only the current connection may wait for an answer. -/
inductive Outcome (gateway : Gateway n) (current : Fin n) (appdata : Buffer) :
    Gateway n → Effects n → Prop where
  | nothing : Outcome gateway current appdata gateway ⟨none, none⟩
  | start (index : Fin n) (queued : (gateway.conns index).phase = .mustSend) :
      Outcome gateway current appdata (startTransmission gateway index) ⟨none, some index⟩
  | error (code : UInt8) (waiting : (gateway.conns current).phase = .waitAnswer)
      (isOpen : (gateway.conns current).isOpen = true) (answered : gateway.recvLen ≠ 0)
      (composed : composeAnswer (gateway.conns current) gateway.recvLen = some (.error code)) :
      Outcome gateway current appdata (gateway.setPhase current .mustAnswer)
        ⟨some (errorResponse appdata code), none⟩
  | answer (bytes : List UInt8) (waiting : (gateway.conns current).phase = .waitAnswer)
      (isOpen : (gateway.conns current).isOpen = true) (answered : gateway.recvLen ≠ 0)
      (composed : composeAnswer (gateway.conns current) gateway.recvLen = some (.ok bytes))
      (next : Option (Fin n)) (after : Gateway n)
      (continues : next = none ∧ after = gateway.setPhase current .mustAnswer ∨
        ∃ index, ((gateway.setPhase current .mustAnswer).conns index).phase = .mustSend ∧
          next = some index ∧
            after = startTransmission (gateway.setPhase current .mustAnswer) index) :
      Outcome gateway current appdata after ⟨some bytes, next⟩

/-- Without an answer to send, the search at most starts a transmission. -/
theorem scan_quiet (gateway : Gateway n) (appdata : Buffer) (answer : Option (List UInt8))
    (indices : List (Fin n))
    (quiet : gateway.recvLen ≠ 0 → ∀ index ∈ indices, (gateway.conns index).isOpen = true →
      (gateway.conns index).phase ≠ .waitAnswer) :
    ∃ after next, scan gateway appdata answer indices = some (after, ⟨answer, next⟩) ∧
      (next = none ∧ after = gateway ∨
        ∃ index, (gateway.conns index).phase = .mustSend ∧ next = some index ∧
          after = startTransmission gateway index) := by
  induction indices with
  | nil => exact ⟨gateway, none, rfl, Or.inl ⟨rfl, rfl⟩⟩
  | cons index indices ih =>
      have rest := ih fun answered other member => quiet answered other (by simp [member])
      by_cases closed : (gateway.conns index).isOpen = false
      · simpa [scan, closed] using rest
      · by_cases queued : (gateway.conns index).phase = .mustSend
        · exact ⟨startTransmission gateway index, some index, by simp [scan, closed, queued],
            Or.inr ⟨index, queued, rfl, rfl⟩⟩
        · have skipped : ¬ ((gateway.conns index).phase = .waitAnswer ∧ gateway.recvLen ≠ 0) :=
            fun due => quiet due.2 index (by simp) (by simpa using closed) due.1
          simp only [scan]
          rw [if_neg closed, if_neg queued, if_neg skipped]
          exact rest

theorem setPhase_conns_of_ne (gateway : Gateway n) {index other : Fin n} (ne : other ≠ index)
    (phase : Phase) : (gateway.setPhase index phase).conns other = gateway.conns other := by
  simp [Gateway.setPhase, Gateway.setConn, ne]

theorem quiet_after_answer {gateway : Gateway n} {current : Fin n} {indices : List (Fin n)}
    (alone : gateway.recvLen ≠ 0 → AloneWaiting gateway current) (fresh : current ∉ indices) :
    (gateway.setPhase current .mustAnswer).recvLen ≠ 0 → ∀ index ∈ indices,
      ((gateway.setPhase current .mustAnswer).conns index).isOpen = true →
        ((gateway.setPhase current .mustAnswer).conns index).phase ≠ .waitAnswer := by
  intro answered index member isOpen
  have other : index ≠ current := fun same => fresh (same ▸ member)
  rw [setPhase_conns_of_ne gateway other] at isOpen ⊢
  exact alone answered index other isOpen

theorem scan_outcome (gateway : Gateway n) (current : Fin n) (appdata : Buffer)
    (indices : List (Fin n)) (nodup : indices.Nodup)
    (alone : gateway.recvLen ≠ 0 → AloneWaiting gateway current)
    (composable : gateway.recvLen ≠ 0 → (gateway.conns current).isOpen = true →
      (gateway.conns current).phase = .waitAnswer →
        composeAnswer (gateway.conns current) gateway.recvLen ≠ none) :
    ∃ after effects, scan gateway appdata none indices = some (after, effects) ∧
      Outcome gateway current appdata after effects := by
  induction indices with
  | nil => exact ⟨gateway, ⟨none, none⟩, rfl, .nothing⟩
  | cons index indices ih =>
      rw [List.nodup_cons] at nodup
      have rest := ih nodup.2
      simp only [scan]
      by_cases closed : (gateway.conns index).isOpen = false
      · rw [if_pos closed]
        exact rest
      · rw [if_neg closed]
        by_cases queued : (gateway.conns index).phase = .mustSend
        · rw [if_pos queued]
          exact ⟨_, _, rfl, .start index queued⟩
        · rw [if_neg queued]
          by_cases due : (gateway.conns index).phase = .waitAnswer ∧ gateway.recvLen ≠ 0
          · have isOpen : (gateway.conns index).isOpen = true := by simpa using closed
            have same : index = current := by
              by_contra other
              exact alone due.2 index other isOpen due.1
            subst same
            rw [if_pos due, show (gateway.setPhase index .mustAnswer).recvLen = gateway.recvLen
              from rfl]
            cases composed : composeAnswer (gateway.conns index) gateway.recvLen with
            | none => exact absurd composed (composable due.2 isOpen due.1)
            | some result =>
                cases result with
                | error code => exact ⟨_, _, rfl, .error code due.1 isOpen due.2 composed⟩
                | ok bytes =>
                    obtain ⟨after, next, scanned, continues⟩ :=
                      scan_quiet (gateway.setPhase index .mustAnswer)
                        (fun position => bytes.getD position (appdata position)) (some bytes)
                        indices (quiet_after_answer alone nodup.1)
                    exact ⟨after, _, scanned,
                      .answer bytes due.1 isOpen due.2 composed next after continues⟩
          · rw [if_neg due]
            exact rest

namespace Routed

variable {gateway : Gateway n} {history : History n}

/-- Connections may become idle, and be opened and closed. -/
theorem changeConns (routed : Routed gateway history) {conns : Fin n → Connection}
    (changed : ∀ index, (conns index).phase = .idle ∨
      conns index = { gateway.conns index with isOpen := (conns index).isOpen }) :
    Routed { gateway with conns := conns } history where
  answersRight := routed.answersRight
  pending := routed.pending
  answered := routed.answered
  queued index mustSend := by
    rcases changed index with idle | kept
    · simp [idle] at mustSend
    · simp only at mustSend ⊢
      rw [kept] at mustSend ⊢
      exact routed.queued index mustSend
  owned index owner phase := by
    rcases changed index with idle | kept
    · simp [idle] at phase
    · simp only at phase
      rw [kept] at phase
      obtain ⟨request, transaction⟩ := routed.owned index owner phase
      exact ⟨request, transaction.onBus, transaction.asked,
        by simp only; rw [kept]; exact transaction.transactionId, transaction.unit,
        by simp only; rw [kept]; exact transaction.stored,
        by simp only; rw [kept]; exact transaction.underway, transaction.complete⟩

theorem setConn (routed : Routed gateway history) (index : Fin n) {conn : Connection}
    (changed : conn.phase = .idle ∨
      conn = { gateway.conns index with isOpen := conn.isOpen }) :
    Routed (gateway.setConn index conn) history := by
  refine routed.changeConns fun other => ?_
  by_cases same : other = index
  · subst same
    simpa using changed
  · simp [same]

theorem prepare (routed : Routed gateway history) (current : Fin n) (call : Call) :
    Routed (prepare gateway current call) history := by
  unfold Modbus.prepare
  split
  · exact routed.setConn current (Or.inl rfl)
  · split
    · exact routed.setConn current (Or.inl rfl)
    · exact routed

theorem close (routed : Routed gateway history) (index : Fin n) :
    Routed (gateway.setConn index { gateway.conns index with isOpen := false }) history :=
  routed.setConn index (Or.inr rfl)

/-- More requests do not change the rest. -/
theorem ask (routed : Routed gateway history) (current : Fin n) (call : Call) :
    Routed gateway (history.ask current call) := by
  unfold History.ask
  split
  · refine ⟨fun answer member => (routed.answersRight answer member).mono
      (List.subset_append_left _ _) (List.Subset.refl _), routed.pending, routed.answered,
      fun index mustSend => ?_, fun index owner phase => ?_⟩
    · obtain ⟨asked, free⟩ := routed.queued index mustSend
      exact ⟨List.mem_append_left _ asked, free⟩
    · obtain ⟨request, transaction⟩ := routed.owned index owner phase
      exact ⟨request, { transaction with asked := List.mem_append_left _ transaction.asked }⟩
  · exact routed

theorem reply (routed : Routed gateway history) (current : Fin n) {answer : Option (List UInt8)}
    (right : ∀ bytes, answer = some bytes → RightAnswer history (current, bytes)) :
    Routed gateway (history.reply current answer) := by
  cases answer with
  | none => exact routed
  | some bytes =>
      refine ⟨fun sent member => ?_, routed.pending, routed.answered, routed.queued,
        fun index owner phase => ?_⟩
      · rcases List.mem_append.1 member with old | new
        · exact (routed.answersRight sent old).mono (List.Subset.refl _) (List.Subset.refl _)
        · rw [List.mem_singleton.1 new]
          exact (right bytes rfl).mono (List.Subset.refl _) (List.Subset.refl _)
      · obtain ⟨request, transaction⟩ := routed.owned index owner phase
        exact ⟨request, { transaction with }⟩

theorem storedAnswer_full (history : History n)
    (full : modbusBufferLen ≤ (storedAnswer history).length) (byte : UInt8) :
    storedAnswer { history with heard := history.heard ++ [byte] } = storedAnswer history := by
  have long : modbusBufferLen ≤ history.heard.length := by
    simp only [storedAnswer, List.length_take] at full
    omega
  exact List.take_append_of_le_length long

theorem storedAnswer_snoc (history : History n)
    (room : (storedAnswer history).length < modbusBufferLen) (byte : UInt8) :
    storedAnswer { history with heard := history.heard ++ [byte] } =
      storedAnswer history ++ [byte] := by
  have short : history.heard.length < modbusBufferLen := by
    simp only [storedAnswer, List.length_take] at room
    omega
  simp only [storedAnswer]
  rw [List.take_of_length_le (by simp only [List.length_append, List.length_singleton]; omega),
    List.take_of_length_le short.le]

/-- A byte of the bus answer is stored behind those before it. -/
theorem receiveOwned (routed : Routed gateway history) (busy : gateway.busy = true)
    {target : Fin n} (owner : gateway.owner = some target) (byte : UInt8) :
    Routed (receiveAnswer gateway byte) { history with heard := history.heard ++ [byte] } := by
  have right : AnswersRight { history with heard := history.heard ++ [byte] } :=
    fun answer member => (routed.answersRight answer member).mono
      (List.Subset.refl _) (List.Subset.refl _)
  by_cases full : modbusBufferLen ≤ gateway.received
  · have same : receiveAnswer gateway byte = gateway := by
      simp [receiveAnswer, busy, owner, full]
    rw [same]
    refine ⟨right, routed.pending, routed.answered, routed.queued, fun index owned phase => ?_⟩
    obtain ⟨request, transaction⟩ := routed.owned index owned phase
    have received := (transaction.underway busy).2
    have stored := storedAnswer_full history (received ▸ full) byte
    exact ⟨request, transaction.onBus, transaction.asked, transaction.transactionId,
      transaction.unit, stored ▸ transaction.stored, stored ▸ transaction.underway,
      fun idle => absurd (busy.symm.trans idle) (by simp)⟩
  · have self : (receiveAnswer gateway byte).conns target =
        { gateway.conns target with
          data := Function.update (gateway.conns target).data gateway.received byte } := by
      simp [receiveAnswer, busy, owner, full, Gateway.setConn]
    have others : ∀ other, other ≠ target →
        (receiveAnswer gateway byte).conns other = gateway.conns other := by
      intro other ne
      simp [receiveAnswer, busy, owner, full, Gateway.setConn, ne]
    have bus : (receiveAnswer gateway byte).busy = true ∧
        (receiveAnswer gateway byte).owner = some target ∧
        (receiveAnswer gateway byte).recvLen = gateway.recvLen ∧
        (receiveAnswer gateway byte).lastAddress = gateway.lastAddress ∧
        (receiveAnswer gateway byte).received = gateway.received + 1 := by
      simp [receiveAnswer, busy, owner, full, Gateway.setConn]
    refine ⟨right, fun _ => bus.2.2.1.trans (routed.pending busy), fun idle => ?_,
      fun other mustSend => ?_, fun other owned phase => ?_⟩
    · exact absurd (bus.1.symm.trans idle) (by simp)
    · have ne : other ≠ target := by
        rintro rfl
        rw [self] at mustSend
        exact (routed.queued other mustSend).2 ⟨busy, owner⟩
      rw [others other ne] at mustSend ⊢
      refine ⟨(routed.queued other mustSend).1, fun owns => ne ?_⟩
      exact Option.some.inj (owns.2.symm.trans bus.2.1)
    · obtain rfl : target = other := Option.some.inj (bus.2.1.symm.trans owned)
      rw [self] at phase
      obtain ⟨request, transaction⟩ := routed.owned target owner phase
      obtain ⟨waiting, received⟩ := transaction.underway busy
      have stored := storedAnswer_snoc history (by omega) byte
      refine ⟨request, transaction.onBus, transaction.asked, ?_,
        bus.2.2.2.1.trans transaction.unit, ?_, fun _ => ⟨?_, ?_⟩,
        fun idle => absurd (bus.1.symm.trans idle) (by simp)⟩
      · rw [self]
        exact transaction.transactionId
      · rw [self, stored, received]
        exact transaction.stored.snoc byte
      · rw [self]
        exact waiting
      · rw [stored, bus.2.2.2.2, received, List.length_append, List.length_singleton]

theorem receive (routed : Routed gateway history) (byte : UInt8) :
    Routed (receiveAnswer gateway byte)
      (if gateway.busy then { history with heard := history.heard ++ [byte] } else history) := by
  cases busy : gateway.busy with
  | false => simpa [receiveAnswer, busy] using routed
  | true =>
      cases owner : gateway.owner with
      | none =>
          simp only [receiveAnswer, busy, owner, if_true]
          exact ⟨fun answer member => (routed.answersRight answer member).mono
            (List.Subset.refl _) (List.Subset.refl _), routed.pending, routed.answered,
            routed.queued, fun index owned => by rw [owner] at owned; cases owned⟩
      | some target =>
          rw [if_pos rfl]
          exact routed.receiveOwned busy owner byte

theorem afterFinish_fields (history : History n) (gateway : Gateway n) :
    (history.afterFinish gateway).asked = history.asked ∧
      (history.afterFinish gateway).onBus = history.onBus ∧
      (history.afterFinish gateway).heard = history.heard ∧
      (history.afterFinish gateway).answers = history.answers ∧
      history.served ⊆ (history.afterFinish gateway).served := by
  unfold History.afterFinish
  split
  · exact ⟨rfl, rfl, rfl, rfl, List.subset_append_left _ _⟩
  · exact ⟨rfl, rfl, rfl, rfl, List.Subset.refl _⟩

/-- The first byte of the bus answer is the first one in the buffer. -/
theorem heard_head {data : Buffer} (stored : StartsWith data (storedAnswer history))
    (nonempty : 0 < (storedAnswer history).length) : history.heard.head? = some (data 0) := by
  have first := stored.get 0 nonempty
  have member : history.heard ≠ [] := by
    intro empty
    simp [storedAnswer, empty] at nonempty
  rw [first]
  simp [storedAnswer, List.head?_eq_getElem?, List.length_pos_iff.2 member]

/-- The bus answer is complete. -/
theorem finish (routed : Routed gateway history) :
    Routed (finishReceive gateway) (history.afterFinish gateway) := by
  obtain ⟨asked, onBus, heard, answers, served⟩ := afterFinish_fields history gateway
  have right : AnswersRight (history.afterFinish gateway) := by
    intro answer member
    rw [answers] at member
    exact (routed.answersRight answer member).mono (by rw [asked]; exact List.Subset.refl _) served
  have stored : storedAnswer (history.afterFinish gateway) = storedAnswer history := by
    rw [storedAnswer, heard, storedAnswer]
  cases busy : gateway.busy with
  | false =>
      have unchanged : history.afterFinish gateway = history := by
        simp [History.afterFinish, busy]
      rw [unchanged]
      simpa [finishReceive, busy] using routed
  | true =>
      cases owner : gateway.owner with
      | none =>
          have unchanged : finishReceive gateway = gateway := by
            simp [finishReceive, owner]
          rw [unchanged]
          refine ⟨right, routed.pending, routed.answered, fun index mustSend => ?_,
            fun index owned => by rw [owner] at owned; cases owned⟩
          rw [asked]
          exact routed.queued index mustSend
      | some target =>
          have conns : (finishReceive gateway).conns = gateway.conns := by
            simp [finishReceive, busy, owner]
          have bus : (finishReceive gateway).busy = false ∧
              (finishReceive gateway).owner = some target ∧
              (finishReceive gateway).lastAddress = gateway.lastAddress ∧
              (finishReceive gateway).recvLen =
                if gateway.received < 2 ∨ (gateway.conns target).data 0 ≠ gateway.lastAddress
                then (-1 : Int) else gateway.received := by
            simp [finishReceive, busy, owner]
          obtain ⟨idle, sameOwner, address, length⟩ := bus
          refine ⟨right, fun stillBusy => ?_, fun _ => ?_, fun index mustSend => ?_,
            fun index owned phase => ?_⟩
          · exact absurd (idle.symm.trans stillBusy) (by simp)
          · rw [length]
            split <;> omega
          · rw [conns] at mustSend ⊢
            rw [asked, idle]
            exact ⟨(routed.queued index mustSend).1, by simp⟩
          · obtain rfl : target = index := Option.some.inj (sameOwner.symm.trans owned)
            rw [conns] at phase
            obtain ⟨request, transaction⟩ := routed.owned target owner phase
            have received := (transaction.underway busy).2
            refine ⟨request, onBus.trans transaction.onBus, asked ▸ transaction.asked, ?_,
              address.trans transaction.unit, ?_, fun stillBusy => ?_, fun _ => ?_⟩
            · rw [conns]
              exact transaction.transactionId
            · rw [conns, stored]
              exact transaction.stored
            · exact absurd (idle.symm.trans stillBusy) (by simp)
            · rw [length, stored]
              split
              · exact Or.inl rfl
              · rename_i good
                simp only [not_or, not_lt, not_not] at good
                refine Or.inr ⟨by omega, by omega, ?_, ?_⟩
                · rw [heard, ← transaction.unit, ← good.2]
                  exact heard_head transaction.stored (by omega)
                · rw [heard]
                  simp [History.afterFinish, busy, transaction.onBus]

/-- A request is stored in a buffer the bus does not write to. -/
theorem store (routed : Routed gateway history) (current : Fin n) {appdata : Buffer}
    (asked : (current, packetRequest appdata) ∈ history.asked) (nonempty : appdata 5 ≠ 0)
    (free : ¬ (gateway.busy = true ∧ gateway.owner = some current)) :
    Routed (storeRequest gateway current appdata) history := by
  have positive : 0 < (appdata 5).toNat :=
    Nat.pos_of_ne_zero fun zero => nonempty (UInt8.toNat_inj.1 zero)
  have held : heldRequest ((storeRequest gateway current appdata).conns current) =
      packetRequest appdata := by
    have copied : ∀ count ≤ (appdata 5).toNat,
        firstBytes ((storeRequest gateway current appdata).conns current).data count =
          firstBytes (fun position => appdata (6 + position)) count := by
      intro count within
      apply List.map_congr_left
      intro position member
      have inside : position < (appdata 5).toNat := by
        have := List.mem_range.1 member
        omega
      simp [storeRequest, Gateway.setConn, inside]
    simp only [heldRequest, packetRequest, Request.mk.injEq]
    refine ⟨by simp [storeRequest, Gateway.setConn],
      by simp [storeRequest, Gateway.setConn, positive],
      ?_⟩
    rw [show ((storeRequest gateway current appdata).conns current).len = appdata 5 by
      simp [storeRequest, Gateway.setConn]]
    exact copied _ le_rfl
  have others : ∀ other, other ≠ current →
      (storeRequest gateway current appdata).conns other = gateway.conns other := by
    intro other ne
    simp [storeRequest, Gateway.setConn, ne]
  refine ⟨routed.answersRight, routed.pending, routed.answered, fun other mustSend => ?_,
    fun other owner phase => ?_⟩
  · by_cases same : other = current
    · subst same
      rw [held]
      exact ⟨asked, free⟩
    · rw [others other same] at mustSend ⊢
      exact routed.queued other mustSend
  · have ne : other ≠ current := by
      rintro rfl
      simp [storeRequest, Gateway.setConn] at phase
    rw [others other ne] at phase
    obtain ⟨request, transaction⟩ := routed.owned other owner phase
    refine ⟨request, transaction.onBus, transaction.asked, ?_, transaction.unit, ?_, ?_,
      transaction.complete⟩
    · rw [others other ne]
      exact transaction.transactionId
    · rw [others other ne]
      exact transaction.stored
    · rw [others other ne]
      exact transaction.underway

/-- The current connection is about to be answered. -/
theorem mustAnswer (routed : Routed gateway history) {current : Fin n}
    (owner : gateway.owner = some current)
    (waiting : (gateway.conns current).phase = .waitAnswer) (answered : gateway.recvLen ≠ 0) :
    Routed (gateway.setPhase current .mustAnswer) history := by
  have self : (gateway.setPhase current .mustAnswer).conns current =
      { gateway.conns current with phase := .mustAnswer } := by
    simp [Gateway.setPhase, Gateway.setConn]
  refine ⟨routed.answersRight, routed.pending, routed.answered, fun other mustSend => ?_,
    fun other owned phase => ?_⟩
  · have ne : other ≠ current := by
      rintro rfl
      simp [self] at mustSend
    rw [setPhase_conns_of_ne gateway ne] at mustSend ⊢
    exact routed.queued other mustSend
  · obtain rfl : current = other := Option.some.inj (owner.symm.trans owned)
    obtain ⟨request, transaction⟩ := routed.owned current owner (Or.inl waiting)
    refine ⟨request, transaction.onBus, transaction.asked, ?_, transaction.unit, ?_,
      fun busy => absurd (routed.pending busy) answered, transaction.complete⟩
    · rw [self]
      exact transaction.transactionId
    · rw [self]
      exact transaction.stored

/-- A queued request is put on the idle bus. -/
theorem start (routed : Routed gateway history) {index : Fin n}
    (queued : (gateway.conns index).phase = .mustSend) :
    Routed (startTransmission gateway index)
      (history.transmit (startTransmission gateway index) (some index)) := by
  have self : (startTransmission gateway index).conns index =
      { gateway.conns index with phase := .waitAnswer } := by
    simp [startTransmission, modbusRxstart, Gateway.setPhase, Gateway.setConn]
  have others : ∀ other, other ≠ index →
      (startTransmission gateway index).conns other = gateway.conns other := by
    intro other ne
    simp [startTransmission, modbusRxstart, Gateway.setPhase, Gateway.setConn, ne]
  refine ⟨fun answer member => (routed.answersRight answer member).mono
    (List.Subset.refl _) (List.Subset.refl _), fun _ => rfl, fun idle => (by cases idle),
    fun other mustSend => ?_, fun other owner phase => ?_⟩
  · have ne : other ≠ index := by
      rintro rfl
      simp [self] at mustSend
    rw [others other ne] at mustSend ⊢
    refine ⟨(routed.queued other mustSend).1, fun busy => ne ?_⟩
    exact (Option.some.inj busy.2).symm
  · obtain rfl : index = other := Option.some.inj owner
    refine ⟨heldRequest ((startTransmission gateway index).conns index), rfl, ?_, rfl, ?_,
      startsWith_nil _, fun _ => ⟨by rw [self], rfl⟩, fun idle => by cases idle⟩
    · rw [self]
      exact (routed.queued index queued).1
    · rw [self]
      rfl

theorem transmit (routed : Routed gateway history) {next : Option (Fin n)} {after : Gateway n}
    (continues : next = none ∧ after = gateway ∨
      ∃ index, (gateway.conns index).phase = .mustSend ∧ next = some index ∧
        after = startTransmission gateway index) :
    Routed after (history.transmit after next) := by
  rcases continues with ⟨rfl, rfl⟩ | ⟨index, queued, rfl, rfl⟩
  · exact routed
  · exact routed.start queued

/-- The answer composed for the connection whose transaction was on the bus is right. -/
theorem composed (routed : Routed gateway history) {current : Fin n}
    (owner : gateway.owner = some current)
    (phase : (gateway.conns current).phase = .waitAnswer ∨
      (gateway.conns current).phase = .mustAnswer)
    (idle : gateway.busy = false) {appdata : Buffer}
    (answerable : Answerable (gateway, history) current appdata) :
    (∀ code, composeAnswer (gateway.conns current) gateway.recvLen = some (.error code) →
      RightAnswer history (current, errorResponse appdata code)) ∧
    (∀ bytes, composeAnswer (gateway.conns current) gateway.recvLen = some (.ok bytes) →
      RightAnswer history (current, bytes)) := by
  obtain ⟨request, transaction⟩ := routed.owned current owner phase
  constructor
  · intro code composed
    obtain ⟨id, unit⟩ := answerable.header composed
    exact rightAnswer_error transaction.asked (composeAnswer_error composed)
      (id.trans (congrArg transactionBytes transaction.transactionId))
      (unit.trans transaction.unit)
  · intro bytes composed
    obtain ⟨unit, fits⟩ : 3 ≤ gateway.recvLen ∧ history.heard.length ≤ modbusBufferLen :=
      answerable.fits composed
    obtain ⟨answered, rfl⟩ := composeAnswer_ok composed
    obtain timeout | ⟨-, length, head, served⟩ := transaction.complete idle
    · exact absurd timeout answered
    have whole : storedAnswer history = history.heard := List.take_of_length_le fits
    have stored := transaction.stored
    rw [whole] at stored length
    have count : gateway.recvLen.toNat = history.heard.length := by omega
    have first := stored.get 0 (by omega)
    have payload : firstBytes (gateway.conns current).data (gateway.recvLen.toNat - 2) =
        history.heard.take (history.heard.length - 2) := by
      rw [count]
      exact stored.firstBytes_eq (by omega)
    rw [payload, transaction.transactionId]
    refine ⟨request, transaction.asked, rfl, ?_, Or.inr ⟨history.heard, served, rfl⟩⟩
    have payloadHead : (history.heard.take (history.heard.length - 2))[0]? = some request.unit := by
      rw [← head, List.head?_eq_getElem?, List.getElem?_take_of_lt (by omega)]
    exact payloadHead

theorem search_outcome (routed : Routed gateway history) {current : Fin n} {appdata : Buffer}
    (alone : gateway.recvLen ≠ 0 → AloneWaiting gateway current)
    (answerable : gateway.recvLen ≠ 0 → (gateway.conns current).isOpen = true →
      (gateway.conns current).phase = .waitAnswer →
        gateway.owner = some current ∧ Answerable (gateway, history) current appdata) :
    ∃ after effects, search gateway appdata = some (after, effects) ∧
      Routed after ((history.transmit after effects.started).reply current effects.answer) := by
  cases busy : gateway.busy with
  | true =>
      refine ⟨gateway, ⟨none, none⟩, ?_, routed⟩
      simp [search, busy, routed.pending busy]
  | false =>
      have answered := routed.answered busy
      obtain ⟨after, effects, scanned, outcome⟩ := scan_outcome gateway current appdata
        (List.finRange n) (List.nodup_finRange n) alone fun answered isOpen waiting =>
          (answerable answered isOpen waiting).2.composes
      refine ⟨after, effects, by simpa [search, answered] using scanned, ?_⟩
      cases outcome with
      | nothing => exact routed
      | start index queued => exact routed.start queued
      | error code waiting isOpen answered composed =>
          obtain ⟨owner, header⟩ := answerable answered isOpen waiting
          refine (routed.mustAnswer owner waiting answered).reply current fun bytes same => ?_
          cases same
          exact (routed.composed owner (Or.inl waiting) busy header).1 code composed
      | answer bytes waiting isOpen answered composed next _ continues =>
          obtain ⟨owner, header⟩ := answerable answered isOpen waiting
          refine ((routed.mustAnswer owner waiting answered).transmit continues).reply current
            fun sent same => ?_
          cases same
          exact ((routed.composed owner (Or.inl waiting) busy header).2 bytes composed).transmit _ _

/-- A rejected request is answered with an error. -/
theorem reject (routed : Routed gateway history) (current : Fin n) {call : Call}
    (newdata : call.newdata = true) {code : UInt8}
    (isCode : code ∈ [(0x04 : UInt8), 0x05, 0x06, 0x0b]) :
    Routed gateway ((history.ask current call).reply current
      (some (errorResponse call.appdata code))) := by
  refine (routed.ask current call).reply current fun bytes same => ?_
  cases same
  have asked : (current, packetRequest call.appdata) ∈ (history.ask current call).asked := by
    simp [History.ask, newdata]
  exact rightAnswer_error asked isCode (transactionBytes_packet _ _).symm rfl

/-- The answer of a connection that alone can be answered is sent once more. -/
theorem resent (routed : Routed gateway history) {current : Fin n} {call : Call}
    (resends : resends gateway current call = true) (owner : gateway.owner = some current)
    (idle : gateway.busy = false) (alone : AloneWaiting gateway current)
    (answerable : Answerable (gateway, history) current call.appdata) :
    (∃ code, composeAnswer (gateway.conns current) gateway.recvLen = some (.error code) ∧
      Routed gateway (history.afterCall current call gateway
        ⟨some (errorResponse call.appdata code), none⟩)) ∨
    ∃ bytes, composeAnswer (gateway.conns current) gateway.recvLen = some (.ok bytes) ∧
      ∀ appdata indices, ∃ after effects,
        scan gateway appdata (some bytes) indices = some (after, effects) ∧
          Routed after (history.afterCall current call after effects) := by
  have phase : (gateway.conns current).phase = .mustAnswer := by
    simp only [Modbus.resends, Bool.and_eq_true, decide_eq_true_eq] at resends
    exact resends.2
  have right := routed.composed owner (Or.inr phase) idle answerable
  rcases composed : composeAnswer (gateway.conns current) gateway.recvLen with _ | code | bytes
  · exact absurd composed answerable.composes
  · refine Or.inl ⟨code, rfl, (routed.ask current call).reply current fun sent same => ?_⟩
    cases same
    exact (right.1 code composed).ask current call
  · refine Or.inr ⟨bytes, rfl, fun appdata indices => ?_⟩
    obtain ⟨after, next, scanned, continues⟩ := scan_quiet gateway appdata (some bytes) indices
      fun _ index _ isOpen waiting => by
        by_cases same : index = current
        · rw [same, phase] at waiting
          cases waiting
        · exact alone index same isOpen waiting
    refine ⟨after, _, scanned,
      ((routed.ask current call).transmit continues).reply current fun sent same => ?_⟩
    cases same
    exact ((right.2 bytes composed).ask current call).transmit after next

/-- An accepted request is stored and the search begins. -/
theorem accept (routed : Routed gateway history) {current : Fin n} {call : Call}
    (newdata : call.newdata = true) (nonempty : call.appdata 5 ≠ 0)
    (free : ¬ (gateway.busy = true ∧ gateway.owner = some current))
    (alone : gateway.recvLen ≠ 0 → AloneWaiting gateway current) :
    ∃ after effects,
      search (storeRequest gateway current call.appdata) call.appdata = some (after, effects) ∧
        Routed after (history.afterCall current call after effects) := by
  have asked : (current, packetRequest call.appdata) ∈ (history.ask current call).asked := by
    simp [History.ask, newdata]
  apply ((routed.ask current call).store current asked nonempty free).search_outcome
  · intro answered index other isOpen
    have unchanged : (storeRequest gateway current call.appdata).conns index =
        gateway.conns index := by
      simp [storeRequest, Gateway.setConn, other]
    rw [unchanged] at isOpen ⊢
    exact alone answered index other isOpen
  · intro _ _ waiting
    simp [storeRequest, Gateway.setConn] at waiting

end Routed

/-- Every attributable call keeps the answers right. -/
theorem Routed.call {world : Gateway n × History n} (routed : Routed world.1 world.2)
    {current : Fin n} {call : Call} (attributable : Attributable world (.call current call)) :
    ∃ next, netStep world (.call current call) = some next ∧ Routed next.1 next.2 := by
  have prepared := routed.prepare current call
  simp only [Attributable] at attributable
  simp only [netStep, modbusNetMain]
  generalize Modbus.prepare world.1 current call = gateway at *
  split_ifs at * with resent newdata busy long
  · obtain ⟨owner, idle, alone, answerable⟩ := attributable
    rcases prepared.resent resent owner idle alone answerable with
      ⟨code, composed, kept⟩ | ⟨bytes, composed, scanned⟩
    · exact ⟨_, by rw [composed]; rfl, kept⟩
    · obtain ⟨after, effects, result, kept⟩ := scanned
        (fun position => bytes.getD position (call.appdata position)) ((List.finRange n).drop 1)
      exact ⟨_, by rw [composed]; simp only [result]; rfl, kept⟩
  · exact ⟨_, rfl, prepared.reject current newdata (by decide)⟩
  · exact ⟨_, rfl, prepared.reject current newdata (by decide)⟩
  · rcases attributable with waiting | tooLong | ⟨nonempty, free, alone⟩
    · exact absurd waiting busy
    · exact absurd tooLong long
    · obtain ⟨after, effects, searched, kept⟩ := prepared.accept newdata nonempty free alone
      exact ⟨_, by rw [searched]; rfl, kept⟩
  · obtain ⟨after, effects, searched, kept⟩ := prepared.search_outcome
      (fun answered => (attributable answered).1) (fun answered => (attributable answered).2)
    refine ⟨_, by rw [searched]; rfl, ?_⟩
    simpa [History.afterCall, History.ask, newdata] using kept

/-- Every attributable event keeps the answers right. -/
theorem Routed.step {world : Gateway n × History n} (routed : Routed world.1 world.2)
    {event : NetEvent n} (attributable : Attributable world event) :
    ∃ next, netStep world event = some next ∧ Routed next.1 next.2 := by
  cases event with
  | call current call => exact routed.call attributable
  | close index => exact ⟨_, rfl, routed.close index⟩
  | receive byte => exact ⟨_, rfl, routed.receive byte⟩
  | finish => exact ⟨_, rfl, routed.finish⟩

theorem routed_initial : Routed (initialWorld n).1 (initialWorld n).2 where
  answersRight answer member := by simp [initialWorld] at member
  pending busy := by simp [initialWorld] at busy
  answered _ := by simp [initialWorld]
  queued index mustSend := by simp [initialWorld] at mustSend
  owned index owner := by simp [initialWorld] at owner

/-- In every run of attributable events every answer is the answer to a request of the
connection it is sent on. -/
theorem answersRight_of_guarded_run (n : Nat) (events : List (NetEvent n))
    (guarded : Guarded netStep Attributable (initialWorld n) events) :
    ∃ final, run netStep (initialWorld n) events = some final ∧ AnswersRight final.2 := by
  obtain ⟨final, reached, routed⟩ := guarded.exists_run
    (fun world event (routed : Routed world.1 world.2) attributable => routed.step attributable)
    routed_initial
  exact ⟨final, reached, routed.answersRight⟩

end

/-- The packet of a read request with a transaction id, as it stands in the buffer. -/
def readPacket (id unit : UInt8) : Buffer :=
  fun position => [id, 0, 0, 0, 0, 6, unit, 3, 0, 0, 0, 1].getD position 0

/-- A connection is opened, asks, and the bus answers. -/
def conversation {n : Nat} (index : Fin n) : List (NetEvent n) :=
  [.call index ⟨true, false, false, false, fun _ => 0⟩,
    .call index ⟨false, false, false, true, readPacket 7 1⟩] ++
  (frameOf [1, 3, 2, 0, 42]).map .receive ++ [.finish]

/-- A poll with an old packet in the buffer. -/
def poll : Call :=
  ⟨false, false, false, false, fun _ => 0⟩

/-- One connection after the other asks, is answered and acknowledges. -/
def inTurn : List (NetEvent 2) :=
  conversation 0 ++ [.call 0 poll, .call 0 ⟨false, true, false, false, fun _ => 0⟩] ++
    (conversation 1 ++ [.call 1 poll, .call 1 ⟨false, true, false, false, fun _ => 0⟩])

/-- A second connection that has asked nothing is polled before the one that waits. -/
def twoConnections : List (NetEvent 2) :=
  .call 0 ⟨true, false, false, false, fun _ => 0⟩ :: conversation 1 ++ [.call 0 poll]

theorem answersRight_in_turn :
    ∃ final, run netStep (initialWorld 2) inTurn = some final ∧ AnswersRight final.2 :=
  answersRight_of_guarded_run 2 inTurn (by decide +kernel)

/-- The answer is sent on the connection that has not asked. -/
theorem other_connection_not_answersRight :
    ¬ ∀ (n : Nat) (events : List (NetEvent n)),
      ∃ final, run netStep (initialWorld n) events = some final ∧ AnswersRight final.2 := by
  intro always
  obtain ⟨final, reached, right⟩ := always 2 twoConnections
  have strangers : ((run netStep (initialWorld 2) twoConnections).all fun final =>
      (final.2.asked.all fun question => question.1 = 1) &&
        (final.2.answers.any fun answer => answer.1 = 0)) = true := by
    decide +kernel
  rw [reached, Option.all_some, Bool.and_eq_true] at strangers
  obtain ⟨answer, member, zero⟩ := List.any_eq_true.1 strangers.2
  obtain ⟨request, question, -⟩ := right answer member
  have one := List.all_eq_true.1 strangers.1 _ question
  simp only [decide_eq_true_eq] at zero one
  rw [zero] at one
  cases one

end Ethersex.Modbus

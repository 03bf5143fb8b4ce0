import Ethersex.HttpdResolution

/-!
# The authentication gate of the HTTP server

A handler with content is installed before the credentials are known.  As long as the header is
not complete, `header_reparse` keeps it from being called; from then on the authentication
state is known and a pending or denied one turns the call away.
-/

namespace Ethersex.Httpd

open Ecmd (pamUnknown pamPending pamDenied pamSuccess PamAnswer)

variable {connection : Connection}

/-- The handler answers a GET request with more than an error of the request. -/
def Handler.servesContent : Handler → Bool
  | .handle400 | .handle401 | .handleSoap => false
  | _ => true

/-- A callback, or the answer of the PAM layer to a pending authentication. -/
inductive NetStep where
  | uip (event : UipEvent)
  | pam (accepted : Bool)

def pamUpdate (connection : Connection) (accepted : Bool) : Connection :=
  if connection.authState = pamPending then
    { connection with authState := if accepted then pamSuccess else pamDenied }
  else connection

def httpdStep (config : Config) (connection : Connection) : NetStep → Connection × List Effect
  | .uip event => httpdMain config connection event
  | .pam accepted => (pamUpdate connection accepted, [])

/-- The effects of a run. -/
def httpdRun (config : Config) : Connection → List NetStep → List Effect
  | _, [] => []
  | connection, step :: steps =>
      (httpdStep config connection step).2 ++
        httpdRun config (httpdStep config connection step).1 steps

/-- A handler with content is called only after a successful authentication. -/
def Effect.Allowed : Effect → Prop
  | .invoke handler authState => handler.servesContent = true → authState = pamSuccess
  | _ => True

/-- The authentication state has one of its four values, and is known once a handler with
content may be called. -/
structure Gated (connection : Connection) : Prop where
  state : connection.authState = pamUnknown ∨ connection.authState = pamPending ∨
    connection.authState = pamDenied ∨ connection.authState = pamSuccess
  known : connection.headerReparse = false →
    ∀ handler ∈ connection.handler, handler.servesContent = true → connection.authState ≠ pamUnknown

/-- The connection is gated and the effects are allowed. -/
def Outcome (result : Connection × List Effect) : Prop :=
  Gated result.1 ∧ ∀ effect ∈ result.2, effect.Allowed

theorem Effect.allowed_of_ofFile {effect : Effect} (file : effect.ofFile = true) :
    effect.Allowed := by
  cases effect with
  | invoke handler authState => cases file
  | _ => trivial

theorem resolve_allowed (config : Config) (environment : Environment) (memory : ByteMemory.Memory)
    (filename : Nat) : ∀ effect ∈ (resolve config environment memory filename).2, effect.Allowed :=
  fun effect member => Effect.allowed_of_ofFile (resolve_ofFile config environment memory filename
    effect member)

theorem PamAnswer.code_known (answer : PamAnswer) :
    answer.code ≠ pamUnknown ∧ (answer.code = pamPending ∨ answer.code = pamDenied ∨
      answer.code = pamSuccess) := by
  cases answer <;> decide

theorem httpdCleanup_outcome (gated : Gated connection) :
    Outcome (httpdCleanup connection) := by
  refine ⟨⟨gated.state, by simp [httpdCleanup]⟩, ?_⟩
  unfold httpdCleanup
  dsimp only
  split <;> simp [Effect.Allowed]

theorem authFailed_outcome (gated : Gated connection) :
    Outcome (authFailed connection) := by
  refine ⟨⟨gated.state, ?_⟩, (httpdCleanup_outcome gated).2⟩
  intro _ handler installed
  cases Option.some.inj installed
  simp [Handler.servesContent]

theorem authorize_outcome (config : Config) (environment : Environment)
    (gated : Gated connection) (memory : ByteMemory.Memory) (ptr filename : Nat) :
    Outcome (authorize config environment connection memory ptr filename) := by
  unfold authorize
  split
  case h_1 => exact authFailed_outcome gated
  case h_2 =>
    exact ⟨⟨gated.state, fun complete => by cases complete⟩, resolve_allowed _ _ _ _⟩
  case h_3 memory username password _ =>
    obtain ⟨known, values⟩ := PamAnswer.code_known (environment.pamAuth username password)
    dsimp only
    split_ifs
    · exact ⟨⟨Or.inr values, fun _ _ _ _ => known⟩, by simp [Effect.Allowed]⟩
    · refine ⟨⟨Or.inr values, fun _ _ _ _ => known⟩, ?_⟩
      intro effect member
      rcases List.mem_cons.1 member with rfl | found
      · trivial
      · exact resolve_allowed _ _ _ _ effect found

/-- A handler that serves no content may be installed at any time. -/
theorem Gated.install (gated : Gated connection) {handler : Handler}
    (noContent : handler.servesContent = false) :
    Outcome ({ connection with handler := some handler }, []) := by
  refine ⟨⟨gated.state, ?_⟩, by simp⟩
  intro _ installed same content
  cases Option.some.inj same
  rw [noContent] at content
  cases content

theorem httpdHandleInput_outcome (config : Config) (gated : Gated connection) (event : UipEvent) :
    Outcome (httpdHandleInput config connection event) := by
  unfold httpdHandleInput
  split_ifs
  · exact authorize_outcome _ _ gated _ _ _
  · exact gated.install rfl
  · exact gated.install rfl
  · exact gated.install rfl
  · split
    · exact gated.install rfl
    · exact authorize_outcome _ _ gated _ _ _

theorem readInput_outcome (config : Config) (gated : Gated connection)
    (event : UipEvent) : Outcome (readInput config connection event) := by
  unfold readInput
  split_ifs
  · exact httpdHandleInput_outcome config gated event
  · exact ⟨gated, by simp⟩

/-- After the check a denied authentication has only the handler for it. -/
theorem checkDenied_outcome (gated : Gated connection) :
    Outcome (checkDenied connection) ∧
      ((checkDenied connection).1.authState = pamDenied →
        (checkDenied connection).1.handler = some .handle401) := by
  unfold checkDenied
  split_ifs with denied
  · exact ⟨authFailed_outcome gated, fun _ => rfl⟩
  · refine ⟨⟨gated, by simp⟩, fun state => ?_⟩
    by_contra other
    exact denied ⟨state, other⟩

theorem ackHeader_gated (gated : Gated connection) (event : UipEvent) :
    Gated (ackHeader connection event) := by
  unfold ackHeader
  split_ifs
  · exact ⟨gated.state, gated.known⟩
  · exact gated

theorem httpdHandleVfs_outcome (gated : Gated connection)
    (event : UipEvent) : Outcome (httpdHandleVfs connection event) := by
  have acked := ackHeader_gated gated event
  unfold httpdHandleVfs
  dsimp only
  split_ifs
  · exact ⟨acked, by simp⟩
  · exact ⟨acked, by simp⟩
  · exact httpdCleanup_outcome acked
  · exact ⟨⟨acked.state, acked.known⟩, by simp⟩
  · exact ⟨acked, by simp⟩

theorem httpdHandleEcmd_gated (gated : Gated connection)
    (event : UipEvent) : Gated (httpdHandleEcmd connection event) := by
  have acked := ackHeader_gated gated event
  unfold httpdHandleEcmd
  dsimp only
  split_ifs <;> exact ⟨acked.state, acked.known⟩

theorem httpdHandleSdDir_gated (gated : Gated connection)
    (event : UipEvent) : Gated (httpdHandleSdDir connection event) := by
  unfold httpdHandleSdDir
  split_ifs <;> exact ⟨gated.state, gated.known⟩

theorem callHandler_outcome (gated : Gated connection) (event : UipEvent) {handler : Handler}
    (allowed : handler.servesContent = true → connection.authState = pamSuccess) :
    Outcome (callHandler connection event handler) := by
  unfold callHandler
  have vfs := httpdHandleVfs_outcome gated event
  have ecmd := httpdHandleEcmd_gated gated event
  have sdDir := httpdHandleSdDir_gated gated event
  cases handler with
  | handleVfs => exact ⟨vfs.1, List.forall_mem_cons.2 ⟨allowed, vfs.2⟩⟩
  | handleEcmd => exact ⟨ecmd, List.forall_mem_cons.2 ⟨allowed, by simp⟩⟩
  | handleSdDir => exact ⟨sdDir, List.forall_mem_cons.2 ⟨allowed, by simp⟩⟩
  | handle400 => exact ⟨gated, List.forall_mem_cons.2 ⟨allowed, by simp⟩⟩
  | handle401 => exact ⟨gated, List.forall_mem_cons.2 ⟨allowed, by simp⟩⟩
  | handle404 => exact ⟨gated, List.forall_mem_cons.2 ⟨allowed, by simp⟩⟩
  | handleSdDirRedirect => exact ⟨gated, List.forall_mem_cons.2 ⟨allowed, by simp⟩⟩
  | handleSoap => exact ⟨gated, List.forall_mem_cons.2 ⟨allowed, by simp⟩⟩

theorem runHandler_outcome (gated : Gated connection) (event : UipEvent)
    (notPending : connection.authState ≠ pamPending)
    (denied : connection.authState = pamDenied → connection.handler = some .handle401) :
    Outcome (runHandler connection event) := by
  have nothing : Outcome (connection, []) := ⟨gated, by simp⟩
  unfold runHandler
  by_cases flags : event.rexmit ∨ event.newdata ∨ event.acked ∨ event.poll ∨ event.connected
  · rw [if_pos flags]
    cases installed : connection.handler with
    | none => exact nothing
    | some handler =>
        dsimp only
        split_ifs with reparse
        · exact nothing
        · refine callHandler_outcome gated event fun content => ?_
          rcases gated.state with unknown | pending | refused | success
          · exact absurd unknown (gated.known (by simpa using reparse) handler installed content)
          · exact absurd pending notPending
          · rw [installed] at denied
            cases Option.some.inj (denied refused)
            cases content
          · exact success
  · rw [if_neg flags]
    exact nothing

theorem connect_gated (gated : Gated connection) (event : UipEvent) :
    Gated (connect connection event) := by
  unfold connect
  split_ifs
  · exact ⟨Or.inl rfl, by simp⟩
  · exact gated

/-- `httpd_main` behind the checks for the end of the connection. -/
theorem httpdMain_outcome_of_open (config : Config) {event : UipEvent}
    (opened : ¬ (event.aborted ∨ event.timedout ∨ event.closed))
    (gated : Gated (connect connection event)) : Outcome (httpdMain config connection event) := by
  rw [httpdMain, if_neg opened]
  have read := readInput_outcome config gated event
  obtain ⟨checked, denied⟩ := checkDenied_outcome read.1
  dsimp only
  split_ifs with pending
  · refine ⟨checked.1, fun effect member => ?_⟩
    rcases List.mem_append.1 member with first | second
    · exact read.2 effect first
    · exact checked.2 effect second
  · have run := runHandler_outcome checked.1 event pending denied
    refine ⟨run.1, fun effect member => ?_⟩
    rcases List.mem_append.1 member with before | last
    · rcases List.mem_append.1 before with first | second
      · exact read.2 effect first
      · exact checked.2 effect second
    · exact run.2 effect last

theorem httpdMain_outcome (config : Config) (gated : Gated connection)
    (event : UipEvent) : Outcome (httpdMain config connection event) := by
  by_cases ended : event.aborted ∨ event.timedout ∨ event.closed
  · rw [httpdMain, if_pos ended]
    exact httpdCleanup_outcome gated
  · exact httpdMain_outcome_of_open config ended (connect_gated gated event)

theorem pamUpdate_gated (gated : Gated connection) (accepted : Bool) :
    Gated (pamUpdate connection accepted) := by
  have success : pamSuccess ≠ pamUnknown := by decide
  have denied : pamDenied ≠ pamUnknown := by decide
  unfold pamUpdate
  by_cases pending : connection.authState = pamPending
  · rw [if_pos pending]
    cases accepted with
    | true => exact ⟨Or.inr (Or.inr (Or.inr rfl)), fun _ _ _ _ => success⟩
    | false => exact ⟨Or.inr (Or.inr (Or.inl rfl)), fun _ _ _ _ => denied⟩
  · rw [if_neg pending]
    exact gated

theorem httpdRun_allowed (config : Config) (gated : Gated connection)
    (steps : List NetStep) : ∀ effect ∈ httpdRun config connection steps, effect.Allowed := by
  induction steps generalizing connection with
  | nil => simp [httpdRun]
  | cons step steps ih =>
      have outcome : Outcome (httpdStep config connection step) := by
        cases step with
        | uip event => exact httpdMain_outcome config gated event
        | pam accepted => exact ⟨pamUpdate_gated gated accepted, by simp [httpdStep]⟩
      intro effect member
      rcases List.mem_append.1 member with now | later
      · exact outcome.2 effect now
      · exact ih outcome.1 effect later

/-- From the event that opens the connection on, a handler with content is called only with the
authentication state `PAM_SUCCESS`. -/
theorem handler_called_authenticated (config : Config) (before : Connection) (first : UipEvent)
    (steps : List NetStep) (connected : first.connected = true)
    (opened : ¬ (first.aborted ∨ first.timedout ∨ first.closed)) (handler : Handler)
    (authState : UInt8)
    (called : Effect.invoke handler authState ∈ httpdRun config before (.uip first :: steps)) :
    (handler.servesContent = true → authState = pamSuccess) ∧
      (authState ≠ pamSuccess →
        handler = .handle400 ∨ handler = .handle401 ∨ handler = .handleSoap) := by
  have gated : Gated (connect before first) := by
    rw [connect, if_pos connected]
    exact ⟨Or.inl rfl, by simp⟩
  have start := httpdMain_outcome_of_open config opened gated
  have allowed : Effect.Allowed (.invoke handler authState) := by
    rcases List.mem_append.1 called with now | later
    · exact start.2 _ now
    · exact httpdRun_allowed config start.1 steps _ later
  refine ⟨allowed, fun other => ?_⟩
  have noContent : handler.servesContent = false := by
    by_contra content
    exact other (allowed (by simpa using content))
  revert noContent
  cases handler <;> simp [Handler.servesContent]

/-- `"GET /a HTTP/1.1\r\n"` -/
def sampleLine : List UInt8 := getText ++ [97] ++ [32, 72, 84, 84, 80, 47, 49, 46, 49] ++ crlf

/-- `"Authorization: Basic YTpi\r\n"`, with the credentials `a:b`. -/
def sampleAuthorization : List UInt8 := authorizationText ++ basicText ++ [89, 84, 112, 105] ++ crlf

/-- A build with files and nothing else, where `strncmp` can read program memory. -/
def sampleConfig : Config := ⟨false, false, false, false, true, authorizationText⟩

/-- Every authentication is pending at first, and there is one file `a`. -/
def sampleEnvironment : Environment :=
  ⟨fun _ _ => .pending, fun name => name == [97], fun _ => false⟩

/-- A segment in an empty buffer. -/
def sampleSegment (text : List UInt8) : UipEvent where
  newdata := true
  uipLen := text.length
  buffer := fun position => text.getD position 0
  environment := sampleEnvironment

def sampleConnect : UipEvent where
  connected := true
  environment := sampleEnvironment

def samplePoll : UipEvent where
  poll := true
  environment := sampleEnvironment

/-- The request in two segments, the answer of the PAM layer and a poll. -/
def sampleSteps : List NetStep :=
  [.uip (sampleSegment (sampleLine ++ [88])),
    .uip (sampleSegment ([58, 32] ++ crlf ++ sampleAuthorization ++ crlf)), .pam true,
      .uip samplePoll]

theorem handler_called_after_success :
    Effect.invoke .handleVfs pamSuccess ∈
        httpdRun sampleConfig ⟨true, true, true, 0xff, none⟩ (.uip sampleConnect :: sampleSteps) ∧
      (Handler.handleVfs.servesContent = true → pamSuccess = pamSuccess) := by
  have called : Effect.invoke .handleVfs pamSuccess ∈
      httpdRun sampleConfig ⟨true, true, true, 0xff, none⟩ (.uip sampleConnect :: sampleSteps) := by
    decide +kernel
  exact ⟨called, (handler_called_authenticated sampleConfig
    ⟨true, true, true, 0xff, none⟩ sampleConnect
    sampleSteps rfl (by decide) .handleVfs pamSuccess called).1⟩

end Ethersex.Httpd

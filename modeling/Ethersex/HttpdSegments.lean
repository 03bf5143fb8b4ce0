import Ethersex.HttpdAuthGate
import Ethersex.HttpdCredentials

/-!
# Requests in several segments

A request is served from its first segment when that segment already decides about the
credentials.  Otherwise the search for them runs into the bytes that older packets have left behind
the segment, and `httpd_handle_input` fails, or takes credentials that were never sent.
-/

namespace Ethersex.Httpd

open ByteMemory CStrings
open Ecmd (pamUnknown pamPending pamDenied pamSuccess PamAnswer)

/-- The parts of a GET request with an authorization line. -/
structure RequestLines where
  path : List UInt8
  version : List UInt8
  before : List (List UInt8)
  token : List UInt8
  after : List (List UInt8)

namespace RequestLines

variable (request : RequestLines)

def headerLines (lines : List (List UInt8)) : List UInt8 :=
  (lines.map (· ++ crlf)).flatten

/-- `"GET /"`, the name and a space. -/
def start : List UInt8 := getText ++ request.path ++ [space]

def requestLine : List UInt8 := request.start ++ request.version ++ crlf

def authorizationLine : List UInt8 := authorizationText ++ basicText ++ request.token ++ crlf

/-- What follows the name. -/
def text : List UInt8 :=
  request.version ++ crlf ++ headerLines request.before ++ request.authorizationLine ++
    headerLines request.after ++ crlf

def bytes : List UInt8 := request.start ++ request.text

/-- The place of the authorization line. -/
def authorizationStart : Nat :=
  request.requestLine.length + (headerLines request.before).length

end RequestLines

/-- An IP packet has 65535 bytes, 40 of them in the headers. -/
def maxSegment : Nat := 65495

/-- A well-formed request. -/
structure Request extends RequestLines where
  nameEnds : 0 ∉ path ∧ space ∉ path
  escapes : ∀ index, path[index]? = some 37 → index + 2 < path.length
  nonzero : 0 ∉ toRequestLines.text
  /-- Wherever a line has Basic credentials, these are a user name and a password. -/
  basic : ∀ before token after,
    toRequestLines.text = before ++
      (authorizationText ++ (basicText ++ token ++ lineFeed :: after)) →
      lineFeed ∉ token → colon ∈ decoded token
  short : toRequestLines.bytes.length ≤ maxSegment

/-- A cut into two or more segments that splits neither the request line nor the authorization
line. -/
structure Cut (request : RequestLines) where
  first : List UInt8
  rest : List (List UInt8)
  several : rest ≠ []
  whole : (first :: rest).flatten = request.bytes
  requestLine : request.requestLine <+: first
  authorizationLine : ∃ before segment after, first :: rest = before ++ segment :: after ∧
    before.flatten.length ≤ request.authorizationStart ∧
    request.authorizationStart + request.authorizationLine.length ≤
      before.flatten.length + segment.length

/-- A segment, what the packet buffer has held before it, and the value of `filename` when it is not
initialised. -/
structure Delivery where
  data : List UInt8
  stale : Memory
  filename : Nat

def Delivery.event (environment : Environment) (delivery : Delivery) : UipEvent where
  newdata := true
  uipLen := delivery.data.length
  buffer := writeBlock delivery.stale 0 delivery.data
  filename := delivery.filename
  environment := environment

def receive (config : Config) (environment : Environment) :
    Connection → List Delivery → Connection × List Effect
  | connection, [] => (connection, [])
  | connection, delivery :: deliveries =>
      let now := httpdMain config connection (delivery.event environment)
      let later := receive config environment now.1 deliveries
      (later.1, now.2 ++ later.2)

def Effect.credentials : Effect → Option (List UInt8 × List UInt8)
  | .pamAuth username password => some (username, password)
  | _ => none

/-- The name of a file, of a directory or a command. -/
def Effect.resolves : Effect → Bool
  | .vfsOpen .. | .sdChdir .. | .ecmdInput .. => true
  | _ => false

/-- What a request has led to. -/
structure Served where
  credentials : List (List UInt8 × List UInt8)
  resolved : List Effect
  handler : Option Handler
deriving DecidableEq

def serve (config : Config) (environment : Environment) (deliveries : List Delivery) : Served :=
  let result := receive config environment freshConnection deliveries
  ⟨result.2.filterMap Effect.credentials, result.2.filter Effect.resolves, result.1.handler⟩

/-- Every delivery of the segments leads to the same as every delivery of the whole request, and the
file is opened only once. -/
def SegmentationInvariant (config : Config) (environment : Environment) {request : RequestLines}
    (cut : Cut request) : Prop :=
  ∀ (deliveries : List Delivery) (whole : Delivery),
    deliveries.map Delivery.data = cut.first :: cut.rest → whole.data = request.bytes →
      serve config environment deliveries = serve config environment [whole] ∧
        (serve config environment deliveries).resolved.countP Effect.opensFile ≤ 1

/-- The text holds `"Authorization: "`, followed by `"Basic "` and the rest of its line or by
something that differs from `"Basic "`. -/
def Settles (text : List UInt8) : Prop :=
  ∃ before rest, findInfix authorizationText text = some before.length ∧
    text = before ++ (authorizationText ++ rest) ∧
      (basicText <+: rest ∧ lineFeed ∈ rest ∨ ¬ basicText <+: rest ∧ ¬ rest <+: basicText)

variable {text before rest path : List UInt8}

/-- The connection has a handler, and further segments have nothing to tell. -/
structure Settled (connection : Connection) : Prop where
  installed : connection.handler ≠ none
  complete : connection.headerReparse = false
  unacked : connection.headerAcked = false
  denied : connection.authState = pamDenied → connection.handler = some .handle401

/-- The effect is the call of a handler or the end of what one has opened. -/
def Effect.quiet : Effect → Bool
  | .invoke .. | .vfsClose | .closeDir => true
  | _ => false

theorem callHandler_segment {connection : Connection} (unacked : connection.headerAcked = false)
    (environment : Environment) (delivery : Delivery) (handler : Handler) :
    callHandler connection (delivery.event environment) handler =
      (connection, [.invoke handler connection.authState]) := by
  have header : ackHeader connection (delivery.event environment) = connection :=
    if_neg Bool.false_ne_true
  cases handler with
  | handleVfs => simp [callHandler, httpdHandleVfs, header, unacked]
  | handleEcmd => simp [callHandler, httpdHandleEcmd, header, unacked]
  | handleSdDir => simp [callHandler, httpdHandleSdDir, Delivery.event]
  | _ => rfl

theorem runHandler_segment {connection : Connection} (unacked : connection.headerAcked = false)
    (environment : Environment) (delivery : Delivery) :
    (runHandler connection (delivery.event environment)).1 = connection ∧
      ∀ effect ∈ (runHandler connection (delivery.event environment)).2, effect.quiet = true := by
  have newdata : (delivery.event environment).newdata = true := rfl
  rw [runHandler, if_pos (Or.inr (Or.inl newdata))]
  cases connection.handler with
  | none => exact ⟨rfl, by simp⟩
  | some handler =>
      dsimp only
      rw [callHandler_segment unacked]
      split_ifs
      · exact ⟨rfl, by simp⟩
      · exact ⟨rfl, by simp [Effect.quiet]⟩

theorem httpdCleanup_quiet (connection : Connection) :
    ∀ effect ∈ (httpdCleanup connection).2, effect.quiet = true := by
  unfold httpdCleanup
  dsimp only
  split <;> simp [Effect.quiet]

theorem checkDenied_settled {connection : Connection} (installed : connection.handler ≠ none)
    (complete : connection.headerReparse = false) (unacked : connection.headerAcked = false) :
    Settled (checkDenied connection).1 ∧
      (checkDenied connection).1.handler =
        (if connection.authState = pamDenied then some .handle401 else connection.handler) ∧
      ∀ effect ∈ (checkDenied connection).2, effect.quiet = true := by
  by_cases denied : connection.authState = pamDenied
  · by_cases turned : connection.handler = some .handle401
    · rw [checkDenied, if_neg (fun both => both.2 turned), if_pos denied]
      exact ⟨⟨installed, complete, unacked, fun _ => turned⟩, turned, by simp⟩
    · rw [checkDenied, if_pos ⟨denied, turned⟩, if_pos denied]
      exact ⟨⟨by simp [authFailed], rfl, unacked, fun _ => rfl⟩, rfl, httpdCleanup_quiet connection⟩
  · rw [checkDenied, if_neg (fun both => denied both.1), if_neg denied]
    exact ⟨⟨installed, complete, unacked, fun state => absurd state denied⟩, rfl, by simp⟩

/-- A callback whose input leaves a connection with a handler. -/
theorem httpdMain_of_read (config : Config) {connection read : Connection} {effects : List Effect}
    {environment : Environment} {delivery : Delivery}
    (input : readInput config connection (delivery.event environment) = (read, effects))
    (installed : read.handler ≠ none) (complete : read.headerReparse = false)
    (unacked : read.headerAcked = false) :
    let result := httpdMain config connection (delivery.event environment)
    Settled result.1 ∧
      result.1.handler = (if read.authState = pamDenied then some .handle401 else read.handler) ∧
        ∃ quiet, result.2 = effects ++ quiet ∧ ∀ effect ∈ quiet, effect.quiet = true := by
  obtain ⟨settled, handler, quiet⟩ := checkDenied_settled installed complete unacked
  obtain ⟨same, quietRun⟩ := runHandler_segment settled.unacked environment delivery
  have opened : ¬ ((delivery.event environment).aborted = true ∨
      (delivery.event environment).timedout = true ∨
        (delivery.event environment).closed = true) := by
    simp [Delivery.event]
  have connected : connect connection (delivery.event environment) = connection :=
    if_neg Bool.false_ne_true
  rw [httpdMain, if_neg opened, connected, input]
  dsimp only
  by_cases pending : (checkDenied read).1.authState = pamPending
  · rw [if_pos pending]
    exact ⟨settled, handler, _, rfl, quiet⟩
  · rw [if_neg pending, same]
    refine ⟨settled, handler, _, List.append_assoc .., fun effect member => ?_⟩
    rcases List.mem_append.1 member with checked | run
    · exact quiet effect checked
    · exact quietRun effect run

theorem httpdMain_settled (config : Config) {connection : Connection} (settled : Settled connection)
    (environment : Environment) (delivery : Delivery) :
    let result := httpdMain config connection (delivery.event environment)
    Settled result.1 ∧ result.1.handler = connection.handler ∧
      ∀ effect ∈ result.2, effect.quiet = true := by
  have idle : readInput config connection (delivery.event environment) = (connection, []) := by
    rw [readInput, if_neg]
    rw [settled.complete]
    simp [settled.installed]
  obtain ⟨again, handler, quiet, whole, all⟩ := httpdMain_of_read config idle settled.installed
    settled.complete settled.unacked
  refine ⟨again, ?_, ?_⟩
  · rw [handler]
    split_ifs with denied
    · rw [settled.denied denied]
    · rfl
  · rw [whole]
    exact all

theorem receive_settled (config : Config) (environment : Environment) {connection : Connection}
    (settled : Settled connection) (deliveries : List Delivery) :
    (receive config environment connection deliveries).1.handler = connection.handler ∧
      ∀ effect ∈ (receive config environment connection deliveries).2, effect.quiet = true := by
  induction deliveries generalizing connection with
  | nil => exact ⟨rfl, by simp [receive]⟩
  | cons delivery deliveries ih =>
      obtain ⟨again, handler, quiet⟩ := httpdMain_settled config settled environment delivery
      obtain ⟨later, quietLater⟩ := ih again
      refine ⟨later.trans handler, fun effect member => ?_⟩
      rcases List.mem_append.1 member with now | after
      · exact quiet effect now
      · exact quietLater effect after

theorem Effect.credentials_of_quiet {effect : Effect} (quiet : effect.quiet = true) :
    effect.credentials = none ∧ effect.resolves = false := by
  cases effect with
  | pamAuth => cases quiet
  | vfsOpen => cases quiet
  | sdChdir => cases quiet
  | ecmdInput => cases quiet
  | _ => exact ⟨rfl, rfl⟩

theorem quiet_effects {effects : List Effect} (quiet : ∀ effect ∈ effects, effect.quiet = true) :
    effects.filterMap Effect.credentials = [] ∧ effects.filter Effect.resolves = [] := by
  constructor
  · rw [List.filterMap_eq_nil_iff]
    exact fun effect member => (Effect.credentials_of_quiet (quiet effect member)).1
  · rw [List.filter_eq_nil_iff]
    intro effect member
    rw [(Effect.credentials_of_quiet (quiet effect member)).2]
    exact Bool.false_ne_true

/-- When the first segment installs a handler for good, it decides about everything. -/
theorem serve_of_input (config : Config) {environment : Environment} {delivery : Delivery}
    {read : Connection} {effects : List Effect}
    (input : httpdHandleInput config freshConnection (delivery.event environment) = (read, effects))
    (installed : read.handler ≠ none) (complete : read.headerReparse = false)
    (unacked : read.headerAcked = false) (deliveries : List Delivery) :
    serve config environment (delivery :: deliveries) =
      ⟨effects.filterMap Effect.credentials, effects.filter Effect.resolves,
        if read.authState = pamDenied then some .handle401 else read.handler⟩ := by
  have reads : readInput config freshConnection (delivery.event environment) = (read, effects) := by
    rw [readInput, if_pos ⟨rfl, Or.inl rfl⟩, input]
  obtain ⟨settled, handler, quiet, whole, all⟩ := httpdMain_of_read config reads installed complete
    unacked
  obtain ⟨same, allLater⟩ := receive_settled config environment settled deliveries
  obtain ⟨noCredentials, noNames⟩ := quiet_effects all
  obtain ⟨noCredentialsLater, noNamesLater⟩ := quiet_effects allLater
  simp only [serve, receive, whole, same, handler, List.filterMap_append, List.filter_append,
    noCredentials, noNames, noCredentialsLater, noNamesLater, List.append_nil]

/-- What a request with the credentials leads to. -/
def servedAccepted (config : Config) (environment : Environment)
    (path token : List UInt8) : Served :=
  let found := target config environment path
  ⟨[(usernameOf token, passwordOf token)], found.2.filter Effect.resolves,
    if (environment.pamAuth (usernameOf token) (passwordOf token)).code = pamDenied then
      some .handle401 else some found.1⟩

def servedRefused : Served := ⟨[], [], some .handle401⟩

theorem serve_accepted (config : Config) {environment : Environment} {delivery : Delivery}
    {path token : List UInt8}
    (input : httpdHandleInput config freshConnection (delivery.event environment) =
      accepted config environment path token) (deliveries : List Delivery) :
    serve config environment (delivery :: deliveries) =
      servedAccepted config environment path token := by
  have files : (target config environment path).2.filterMap Effect.credentials = [] := by
    rw [List.filterMap_eq_nil_iff]
    intro effect member
    have file := resolve_ofFile _ _ _ _ effect member
    cases effect with
    | pamAuth => cases file
    | _ => rfl
  rw [serve_of_input config input (by simp) rfl rfl deliveries]
  simp only [servedAccepted, List.filterMap_cons, Effect.credentials, files,
    List.filter_cons, Effect.resolves, Bool.false_eq_true, if_false]

theorem serve_refused (config : Config) {environment : Environment} {delivery : Delivery}
    (input : httpdHandleInput config freshConnection (delivery.event environment) = refused)
    (deliveries : List Delivery) :
    serve config environment (delivery :: deliveries) = servedRefused := by
  rw [serve_of_input config input (by simp) rfl rfl deliveries]
  rfl

theorem servedAccepted_opens (config : Config) (environment : Environment)
    (path token : List UInt8) :
    (servedAccepted config environment path token).resolved.countP Effect.opensFile ≤ 1 := by
  have once := resolve_opens config environment (nameMemory path) 5
  exact Nat.le_trans List.filter_sublist.countP_le once

/-- The first authorization line is complete and has the token. -/
def HasToken (text token : List UInt8) : Prop :=
  ∃ before after, text = before ++
    (authorizationText ++ (basicText ++ (token ++ lineFeed :: after))) ∧
    findInfix authorizationText text = some before.length ∧ lineFeed ∉ token ∧ colon ∈ decoded token

/-- The first authorization line has another method. -/
def HasOther (text : List UInt8) : Prop :=
  ∃ before rest, text = before ++ (authorizationText ++ rest) ∧
    findInfix authorizationText text = some before.length ∧
      ¬ basicText <+: rest ∧ ¬ rest <+: basicText

theorem HasToken.append {token : List UInt8} (has : HasToken text token) (more : List UInt8) :
    HasToken (text ++ more) token := by
  obtain ⟨before, after, rfl, found, lineEnds, colonMem⟩ := has
  exact ⟨before, after ++ more, by simp, findInfix_append_right (by decide) found more, lineEnds,
    colonMem⟩

theorem HasOther.append (has : HasOther text) (more : List UInt8) : HasOther (text ++ more) := by
  obtain ⟨before, rest, rfl, found, other, differs⟩ := has
  refine ⟨before, rest ++ more, by simp, findInfix_append_right (by decide) found more, ?_, ?_⟩
  · intro basic
    rcases List.prefix_or_prefix_of_prefix basic (List.prefix_append rest more) with inside | covers
    · exact other inside
    · exact differs covers
  · exact fun covers => differs ((List.prefix_append rest more).trans covers)

/-- A text that begins the header of a well-formed request. -/
theorem Settles.cases {request : Request} {more : List UInt8} (begins : request.text = text ++ more)
    (settles : Settles text) : (∃ token, HasToken text token) ∨ HasOther text := by
  obtain ⟨before, rest, found, rfl, ⟨⟨line, rfl⟩, lineFeedMem⟩ | ⟨other, differs⟩⟩ := settles
  · left
    have member : lineFeed ∈ line := (List.mem_append.1 lineFeedMem).resolve_left (by decide)
    obtain ⟨token, after, rfl, lineEnds⟩ := List.eq_append_cons_of_mem member
    refine ⟨token, before, after, rfl, found, lineEnds, ?_⟩
    exact request.basic before token (after ++ more) (by rw [begins]; simp) lineEnds
  · exact Or.inr ⟨before, rest, rfl, found, other, differs⟩

theorem Request.text_settles (request : Request) : Settles request.text := by
  have inside : authorizationText <:+: request.text :=
    ⟨request.version ++ crlf ++ RequestLines.headerLines request.before,
      basicText ++ request.token ++ crlf ++ RequestLines.headerLines request.after ++ crlf, by
      simp [RequestLines.text, RequestLines.authorizationLine]⟩
  obtain ⟨position, found⟩ := Option.isSome_iff_exists.1 (findInfix_isSome inside)
  obtain ⟨before, rest, whole, rfl⟩ := findInfix_split found
  have last : request.text.getLast? = some lineFeed := by
    rw [RequestLines.text, List.getLast?_append]
    rfl
  have member : lineFeed ∈ rest := by
    rw [whole, List.getLast?_append, List.getLast?_append] at last
    cases ends : rest.getLast? with
    | none =>
        rw [ends] at last
        exact absurd (Option.some.inj last) (by decide)
    | some byte =>
        rw [ends] at last
        cases Option.some.inj last
        exact List.mem_of_getLast? ends
  refine ⟨before, rest, found, whole, ?_⟩
  by_cases basic : basicText <+: rest
  · exact Or.inl ⟨basic, member⟩
  · exact Or.inr ⟨basic, fun covers => absurd (covers.subset member) (by decide)⟩

theorem HasOther.not_basic (has : HasOther (before ++ (authorizationText ++ rest)))
    (found : findInfix authorizationText (before ++ (authorizationText ++ rest)) =
      some before.length) : ¬ basicText <+: rest := by
  obtain ⟨before', rest', whole, found', other, -⟩ := has
  rw [found] at found'
  obtain ⟨-, line⟩ := List.append_inj whole (Option.some.inj found')
  rw [List.append_cancel_left line]
  exact other

theorem serve_of_token (config : Config) {environment : Environment} {delivery : Delivery}
    {token : List UInt8} (request : StoredRequest (delivery.event environment) path text)
    (has : HasToken text token) (deliveries : List Delivery) :
    serve config environment (delivery :: deliveries) =
      servedAccepted config environment path token := by
  obtain ⟨before, after, rfl, found, lineEnds, colonMem⟩ := has
  exact serve_accepted config (request.input_accepted config found lineEnds colonMem) deliveries

theorem serve_of_other (config : Config) {environment : Environment} {delivery : Delivery}
    (request : StoredRequest (delivery.event environment) path text) (has : HasOther text)
    (deliveries : List Delivery) :
    serve config environment (delivery :: deliveries) = servedRefused := by
  obtain ⟨before, rest, rfl, found, other, differs⟩ := has
  have failed := findCredentials_other config (request.storedHeader found) other differs
  exact serve_refused config (request.input_refused config failed) deliveries

theorem storedRequest_of_delivery (request : Request) (environment : Environment)
    {delivery : Delivery} (tail : List UInt8)
    (content : request.start ++ text = delivery.data ++ tail)
    (stale : readBlock delivery.stale delivery.data.length tail.length = tail)
    (long : 10 ≤ delivery.data.length) (nonzero : 0 ∉ text)
    (fits : (delivery.data ++ tail).length < addressSpace) :
    StoredRequest (delivery.event environment) request.path text := by
  have shape : getText ++ (request.path ++ [space]) ++ text = delivery.data ++ tail := by
    rw [← content, RequestLines.start]
    simp only [List.append_assoc]
  refine ⟨request.nameEnds, request.escapes, long, nonzero, ?_, ?_⟩
  · rw [shape]
    exact fits
  · rw [shape]
    refine readBlock_append_iff.2 ⟨readBlock_writeBlock_same _ _ _, ?_⟩
    rw [Nat.zero_add]
    exact (readBlock_writeBlock_disjoint (Or.inr (by omega))).trans stale

theorem Request.authorization_long (request : Request) : 10 ≤ request.bytes.length := by
  have line : authorizationText.length ≤ request.bytes.length := by
    simp only [RequestLines.bytes, RequestLines.text, RequestLines.authorizationLine,
      List.length_append]
    omega
  exact Nat.le_trans (by decide) line

theorem Request.storedWhole (request : Request) (environment : Environment) {whole : Delivery}
    (data : whole.data = request.bytes) :
    StoredRequest (whole.event environment) request.path request.text := by
  have short := request.short
  unfold maxSegment at short
  refine storedRequest_of_delivery request environment [] ?_ rfl ?_ request.nonzero ?_
  · rw [data, List.append_nil]
    rfl
  · rw [data]
    exact request.authorization_long
  · rw [data, List.append_nil]
    unfold addressSpace
    omega

/-- What the first segment has of the header. -/
def Cut.firstText {request : RequestLines} (cut : Cut request) : List UInt8 :=
  cut.first.drop (request.path.length + 6)

theorem Cut.first_eq {request : RequestLines} (cut : Cut request) :
    cut.first = request.start ++ cut.firstText ∧
      request.text = cut.firstText ++ cut.rest.flatten := by
  obtain ⟨more, begins⟩ := cut.requestLine
  have length : request.start.length = request.path.length + 6 := by
    simp only [RequestLines.start, List.length_append, List.length_singleton,
      show getText.length = 5 from rfl]
    omega
  have first : cut.first = request.start ++ cut.firstText := by
    rw [firstText, ← begins, RequestLines.requestLine, List.append_assoc, List.append_assoc,
      ← length, List.drop_left]
  refine ⟨first, ?_⟩
  have whole := cut.whole
  rw [List.flatten_cons, first, RequestLines.bytes, List.append_assoc] at whole
  exact (List.append_cancel_left whole).symm

theorem Cut.first_short {request : Request} (cut : Cut request.toRequestLines) :
    cut.first.length ≤ maxSegment := by
  have short := request.short
  rw [← cut.whole, List.flatten_cons, List.length_append] at short
  omega

theorem Cut.firstText_nonzero {request : Request} (cut : Cut request.toRequestLines) :
    0 ∉ cut.firstText := by
  intro zero
  have nonzero := request.nonzero
  rw [cut.first_eq.2] at nonzero
  exact nonzero (List.mem_append_left _ zero)

/-- The first segment with a text left behind it. -/
def Cut.firstDelivery {request : RequestLines} (cut : Cut request) (tail : List UInt8) :
    Delivery where
  data := cut.first
  stale := writeBlock (fun _ => 0) cut.first.length tail
  filename := 0

theorem Cut.storedFirst {request : Request} (cut : Cut request.toRequestLines)
    (environment : Environment) (tail : List UInt8) (long : 10 ≤ cut.first.length)
    (nonzero : 0 ∉ tail) (short : tail.length ≤ 40) :
    StoredRequest ((cut.firstDelivery tail).event environment) request.path
      (cut.firstText ++ tail) := by
  have fits := cut.first_short
  unfold maxSegment at fits
  refine storedRequest_of_delivery request environment tail ?_ ?_ long ?_ ?_
  · rw [← List.append_assoc, ← cut.first_eq.1]
    rfl
  · exact readBlock_writeBlock_same _ _ _
  · rw [List.mem_append, not_or]
    exact ⟨cut.firstText_nonzero, nonzero⟩
  · rw [List.length_append]
    change cut.first.length + tail.length < addressSpace
    unfold addressSpace
    omega

theorem Cut.first_terminated {request : RequestLines} (cut : Cut request)
    (environment : Environment)
    (tail : List UInt8) :
    namedBuffer ((cut.firstDelivery tail).event environment) request.path
      (5 + request.path.length + 1 + (cut.firstText ++ tail).length) = 0 := by
  have length := congrArg List.length cut.first_eq.1
  simp only [RequestLines.start, List.length_append, List.length_singleton,
    show getText.length = 5 from rfl] at length
  rw [List.length_append, namedBuffer, Function.update_of_ne (by omega)]
  change writeBlock (writeBlock (fun _ => 0) cut.first.length tail) 0 cut.first _ = 0
  rw [writeBlock_outside (by omega), writeBlock_outside (by omega)]

theorem notMem_authorizationText {byte : UInt8} (ends : byte ∈ crlf) :
    byte ∉ authorizationText := by
  simp only [crlf, List.mem_cons, List.not_mem_nil, or_false] at ends
  rcases ends with rfl | rfl <;> decide

/-- An empty line left behind the first segment. -/
theorem Cut.serve_emptyLine {request : Request} (cut : Cut request.toRequestLines) (config : Config)
    (environment : Environment) (long : 10 ≤ cut.first.length)
    (absent : ¬ authorizationText <:+: cut.firstText) (deliveries : List Delivery) :
    serve config environment (cut.firstDelivery (crlf ++ crlf) :: deliveries) = servedRefused := by
  have stored := cut.storedFirst environment (crlf ++ crlf) long (by decide) (by decide)
  have text := cString_eq stored.nonzero stored.storedText (cut.first_terminated environment _)
    (by have := stored.fitsText; omega)
  have noLine : findInfix authorizationText (cut.firstText ++ (crlf ++ crlf)) = none :=
    findInfix_eq_none (by decide) fun inside =>
      absent (infix_of_infix_append (by decide) (fun byte member =>
        notMem_authorizationText ((List.mem_append.mp member).elim id id)) inside)
  have ended : (findInfix (crlf ++ crlf) (cut.firstText ++ (crlf ++ crlf))).isSome = true :=
    findInfix_isSome (List.infix_append' cut.firstText (crlf ++ crlf) [] |>.trans (by simp))
  refine serve_refused config (stored.input_refused config ?_) deliveries
  simp only [findCredentials, strstr, text, noLine, Option.map_none, Option.isSome_map,
    ended, if_true]

/-- Nothing left behind a first segment that ends in the line of the credentials. -/
theorem Cut.serve_unfinished {request : Request} (cut : Cut request.toRequestLines)
    (config : Config)
    (environment : Environment) (long : 10 ≤ cut.first.length)
    (line : cut.firstText = before ++ (authorizationText ++ rest))
    (found : findInfix authorizationText cut.firstText = some before.length)
    (unfinished : lineFeed ∉ rest) (deliveries : List Delivery) :
    serve config environment (cut.firstDelivery [] :: deliveries) = servedRefused := by
  have stored := cut.storedFirst environment [] long (by simp) (by simp)
  have terminated := cut.first_terminated environment []
  have fits := stored.fitsText
  rw [List.append_nil] at terminated
  rw [List.append_nil, line] at stored
  rw [line] at found terminated
  refine serve_refused config (stored.input_refused config ?_) deliveries
  refine findCredentials_unfinished config (stored.storedHeader found) unfinished terminated ?_
  rw [List.append_nil, line, List.length_append, List.length_append] at fits
  omega

/-- `"YTpi\n"`, with the credentials `a:b`. -/
def staleToken : List UInt8 := [89, 84, 112, 105]

theorem staleToken_ends : lineFeed ∉ staleToken ∧ colon ∈ decoded staleToken := by decide

/-- Credentials left behind the first segment. -/
theorem Cut.serve_stale {request : Request} (cut : Cut request.toRequestLines) (config : Config)
    (environment : Environment) (long : 10 ≤ cut.first.length) {tail : List UInt8}
    (nonzero : 0 ∉ tail) (short : tail.length ≤ 40)
    (has : HasToken (cut.firstText ++ tail) staleToken)
    (deliveries : List Delivery) :
    serve config environment (cut.firstDelivery tail :: deliveries) =
      servedAccepted config environment request.path staleToken :=
  serve_of_token config (cut.storedFirst environment tail long nonzero short) has deliveries

/-- A first segment that is too short for a request. -/
theorem Cut.serve_short {request : RequestLines} (cut : Cut request) (config : Config)
    (environment : Environment) (short : cut.first.length < 10) (deliveries : List Delivery) :
    serve config environment (cut.firstDelivery [] :: deliveries) = ⟨[], [], some .handle400⟩ := by
  have input : httpdHandleInput config freshConnection
      ((cut.firstDelivery []).event environment) =
        ({ freshConnection with handler := some .handle400 }, []) := by
    have tooShort : ((cut.firstDelivery []).event environment).uipLen < 10 := short
    rw [httpdHandleInput, if_neg (by decide), if_pos tooShort]
  rw [serve_of_input config input (by simp) rfl rfl deliveries]
  rfl

/-- A delivery of the segments with a text behind the first one, and one of the whole request. -/
theorem SegmentationInvariant.serve_eq {config : Config} {environment : Environment}
    {request : RequestLines} {cut : Cut request}
    (invariant : SegmentationInvariant config environment cut) (tail : List UInt8) :
    ∃ deliveries, serve config environment (cut.firstDelivery tail :: deliveries) =
      serve config environment [⟨request.bytes, fun _ => 0, 0⟩] := by
  refine ⟨cut.rest.map fun data => ⟨data, fun _ => 0, 0⟩, (invariant _ _ ?_ rfl).1⟩
  rw [List.map_cons, List.map_map]
  congr 1
  exact List.map_id cut.rest

theorem Cut.serve_of_settles {request : Request} (cut : Cut request.toRequestLines)
    (config : Config)
    (environment : Environment) (settles : Settles cut.firstText) :
    SegmentationInvariant config environment cut := by
  rintro deliveries whole segments data
  obtain ⟨first, later, rfl⟩ : ∃ first later, deliveries = first :: later := by
    cases deliveries with
    | nil => cases segments
    | cons first later => exact ⟨first, later, rfl⟩
  rw [List.map_cons, List.cons.injEq] at segments
  obtain ⟨firstEq, textEq⟩ := cut.first_eq
  have long : 10 ≤ first.data.length := by
    obtain ⟨before, rest, -, line, -⟩ := settles
    have length := congrArg List.length firstEq
    rw [line] at length
    simp only [List.length_append, show authorizationText.length = 15 from rfl] at length
    rw [segments.1]
    omega
  have short := cut.first_short
  unfold maxSegment at short
  have storedFirst : StoredRequest (first.event environment) request.path cut.firstText := by
    refine storedRequest_of_delivery request environment [] ?_ rfl long cut.firstText_nonzero ?_
    · rw [segments.1, List.append_nil, ← firstEq]
    · rw [segments.1, List.append_nil]
      unfold addressSpace
      omega
  have storedWhole := request.storedWhole environment data
  rcases settles.cases textEq with ⟨token, has⟩ | has
  · rw [serve_of_token config storedFirst has,
      serve_of_token config storedWhole (textEq ▸ has.append cut.rest.flatten)]
    exact ⟨rfl, servedAccepted_opens _ _ _ _⟩
  · rw [serve_of_other config storedFirst has,
      serve_of_other config storedWhole (textEq ▸ has.append cut.rest.flatten)]
    exact ⟨rfl, Nat.zero_le 1⟩

theorem servedAccepted_ne_refused (config : Config) (environment : Environment)
    (path token : List UInt8) : servedAccepted config environment path token ≠ servedRefused := by
  intro same
  have credentials := congrArg Served.credentials same
  cases credentials

/-- A text that does not decide ends before its first authorization line or inside of it. -/
theorem cases_of_not_settles (undecided : ¬ Settles text) :
    ¬ authorizationText <:+: text ∨
      ∃ before rest, findInfix authorizationText text = some before.length ∧
        text = before ++ (authorizationText ++ rest) ∧ lineFeed ∉ rest ∧
          (basicText <+: rest ∨ rest <+: basicText) := by
  cases found : findInfix authorizationText text with
  | none =>
      left
      intro inside
      have some := findInfix_isSome inside
      rw [found] at some
      cases some
  | some position =>
      right
      obtain ⟨before, rest, rfl, rfl⟩ := findInfix_split found
      refine ⟨before, rest, rfl, rfl, ?_, ?_⟩
      · intro member
        refine undecided ⟨before, rest, found, rfl, ?_⟩
        by_cases basic : basicText <+: rest
        · exact Or.inl ⟨basic, member⟩
        · exact Or.inr ⟨basic, fun covers => absurd (covers.subset member) (by decide)⟩
      · by_contra neither
        rw [not_or] at neither
        exact undecided ⟨before, rest, found, rfl, Or.inr neither⟩

/-- The buffer may hold something that turns the request away. -/
theorem Cut.exists_refused {request : Request} (cut : Cut request.toRequestLines) (config : Config)
    (environment : Environment) (long : 10 ≤ cut.first.length)
    (undecided : ¬ Settles cut.firstText) :
    ∃ tail, ∀ deliveries,
      serve config environment (cut.firstDelivery tail :: deliveries) = servedRefused := by
  rcases cases_of_not_settles undecided with absent | ⟨before, rest, found, line, unfinished, -⟩
  · exact ⟨crlf ++ crlf, cut.serve_emptyLine config environment long absent⟩
  · exact ⟨[], cut.serve_unfinished config environment long line found unfinished⟩

/-- When the request has another method, the buffer may hold credentials. -/
theorem Cut.exists_stale {request : Request} (cut : Cut request.toRequestLines) (config : Config)
    (environment : Environment) (long : 10 ≤ cut.first.length)
    (undecided : ¬ Settles cut.firstText) (has : HasOther request.text) :
    ∃ tail, ∀ deliveries, serve config environment (cut.firstDelivery tail :: deliveries) =
      servedAccepted config environment request.path staleToken := by
  obtain ⟨lineEnds, colonMem⟩ := staleToken_ends
  rcases cases_of_not_settles undecided with absent | ⟨before, rest, found, line, -, method⟩
  · refine ⟨crlf ++ (authorizationText ++ (basicText ++ (staleToken ++ [lineFeed]))),
      cut.serve_stale config environment long (by decide) (by decide) ?_⟩
    refine ⟨cut.firstText ++ crlf, [], by simp, ?_, lineEnds, colonMem⟩
    rw [← List.append_assoc]
    refine findInfix_append ?_ (show (10 : UInt8) ∉ authorizationText by decide) (by decide)
      (Or.inr (List.getLast?_append_of_ne_nil _ (by decide)))
    exact fun inside => absent (infix_of_infix_append (by decide) (fun byte member =>
      notMem_authorizationText member) inside)
  · have whole : request.text = before ++ (authorizationText ++ (rest ++ cut.rest.flatten)) := by
      rw [cut.first_eq.2, line]
      simp
    have foundWhole := findInfix_append_right (by decide) found cut.rest.flatten
    rw [← cut.first_eq.2, whole] at foundWhole
    rw [whole] at has
    have other := has.not_basic foundWhole
    obtain ⟨missing, basic⟩ := method.resolve_left fun basic =>
      other (basic.trans (List.prefix_append _ _))
    have free : 0 ∉ missing ∧ missing.length ≤ 6 := by
      refine ⟨fun zero => ?_, ?_⟩
      · exact absurd (basic ▸ List.mem_append_right rest zero) (show 0 ∉ basicText by decide)
      · have length := congrArg List.length basic
        rw [List.length_append, show basicText.length = 6 from rfl] at length
        omega
    refine ⟨missing ++ (staleToken ++ [lineFeed]), cut.serve_stale config environment long ?_ ?_ ?_⟩
    · rw [List.mem_append, not_or]
      exact ⟨free.1, by decide⟩
    · rw [List.length_append, show (staleToken ++ [lineFeed]).length = 5 from rfl]
      omega
    · refine ⟨before, [], ?_, findInfix_append_right (by decide) found _, lineEnds, colonMem⟩
      rw [line, ← basic]
      simp

/-- The cut changes nothing, whatever older packets have left in the buffer, if and only if the
first
segment decides about the credentials. -/
theorem segmentationInvariant_iff (config : Config) (environment : Environment) (request : Request)
    (cut : Cut request.toRequestLines) :
    SegmentationInvariant config environment cut ↔ Settles cut.firstText := by
  refine ⟨fun invariant => ?_, cut.serve_of_settles config environment⟩
  by_contra undecided
  have storedWhole : StoredRequest
      (Delivery.event environment ⟨request.bytes, fun _ => 0, 0⟩) request.path request.text :=
    request.storedWhole environment rfl
  have wholeCases := request.text_settles.cases (List.append_nil request.text).symm
  by_cases long : 10 ≤ cut.first.length
  · rcases wholeCases with ⟨token, has⟩ | has
    · obtain ⟨tail, refused⟩ := cut.exists_refused config environment long undecided
      obtain ⟨deliveries, same⟩ := invariant.serve_eq tail
      rw [refused, serve_of_token config storedWhole has] at same
      exact servedAccepted_ne_refused _ _ _ _ same.symm
    · obtain ⟨tail, stale⟩ := cut.exists_stale config environment long undecided has
      obtain ⟨deliveries, same⟩ := invariant.serve_eq tail
      rw [stale, serve_of_other config storedWhole has] at same
      exact servedAccepted_ne_refused _ _ _ _ same
  · obtain ⟨deliveries, same⟩ := invariant.serve_eq []
    rw [cut.serve_short config environment (by omega)] at same
    rcases wholeCases with ⟨token, has⟩ | has
    · rw [serve_of_token config storedWhole has] at same
      exact absurd (congrArg Served.credentials same) (by simp [servedAccepted])
    · rw [serve_of_other config storedWhole has] at same
      exact absurd (congrArg Served.handler same) (by simp [servedRefused])

/-- `"GET /a HTTP/1.1\r\nAuthorization: Basic YTpi\r\n\r\n"` -/
def sampleRequestLines : RequestLines :=
  ⟨[97], [72, 84, 84, 80, 47, 49, 46, 49], [], staleToken, []⟩

/-- The only credentials in the request. -/
theorem sampleRequestLines_basic {before token after : List UInt8}
    (whole : sampleRequestLines.text =
      before ++ (authorizationText ++ (basicText ++ token ++ lineFeed :: after)))
    (lineEnds : lineFeed ∉ token) : colon ∈ decoded token := by
  have inside : before.length < 60 := by
    have length := congrArg List.length whole
    rw [List.length_append, show sampleRequestLines.text.length = 39 from rfl] at length
    omega
  have starts : authorizationText ++ basicText <+: sampleRequestLines.text.drop before.length := by
    rw [whole, List.drop_left, List.append_assoc, ← List.append_assoc authorizationText]
    exact List.prefix_append _ _
  have place : ∀ position < 60,
      authorizationText ++ basicText <+: sampleRequestLines.text.drop position → position = 10 := by
    decide
  have rest : token ++ lineFeed :: after = staleToken ++ crlf ++ crlf := by
    have split : sampleRequestLines.text =
        before ++ (authorizationText ++ basicText) ++ (token ++ lineFeed :: after) := by
      rw [whole]
      simp
    have tail := congrArg (List.drop (before ++ (authorizationText ++ basicText)).length) split
    rw [List.drop_left, List.length_append, place _ inside starts] at tail
    exact tail.symm
  have other : ∀ byte ∈ token, (byte != lineFeed) = true := by
    intro byte member
    rw [bne_iff_ne]
    rintro rfl
    exact lineEnds member
  have line : token = staleToken ++ [13] := by
    have taken := congrArg (List.takeWhile (· != lineFeed)) rest
    rw [List.takeWhile_append_of_pos other, List.takeWhile_cons_of_neg (by simp),
      List.append_nil] at taken
    rw [taken]
    decide
  rw [line]
  decide

def sampleRequest : Request where
  toRequestLines := sampleRequestLines
  nameEnds := by decide
  escapes := by
    intro index percent
    cases index with
    | zero => exact absurd percent (by decide)
    | succ index => cases percent
  nonzero := by decide
  basic := fun _ _ _ whole lineEnds => sampleRequestLines_basic whole lineEnds
  short := by decide

/-- The segment boundary is the end of the request line. -/
def sampleCut : Cut sampleRequestLines where
  first := sampleLine
  rest := [sampleAuthorization ++ crlf]
  several := by decide
  whole := by decide
  requestLine := ⟨[], by decide⟩
  authorizationLine := ⟨[sampleLine], sampleAuthorization ++ crlf, [], rfl, by decide, by decide⟩

theorem line_boundary_cut_refused :
    serve sampleConfig sampleEnvironment
        [⟨sampleLine, fun _ => 0, 0⟩, ⟨sampleAuthorization ++ crlf, fun _ => 0, 0⟩] =
          ⟨[], [], some .handle401⟩ ∧
      serve sampleConfig sampleEnvironment [⟨sampleRequest.bytes, fun _ => 0, 0⟩] =
        ⟨[([97], [98])], [.vfsOpen [97] true], some .handleVfs⟩ ∧
      ¬ SegmentationInvariant sampleConfig sampleEnvironment sampleCut := by
  have refused : serve sampleConfig sampleEnvironment
      [⟨sampleLine, fun _ => 0, 0⟩, ⟨sampleAuthorization ++ crlf, fun _ => 0, 0⟩] =
        ⟨[], [], some .handle401⟩ := by decide +kernel
  have accepted : serve sampleConfig sampleEnvironment [⟨sampleRequest.bytes, fun _ => 0, 0⟩] =
      ⟨[([97], [98])], [.vfsOpen [97] true], some .handleVfs⟩ := by decide +kernel
  refine ⟨refused, accepted, fun invariant => ?_⟩
  have same := (invariant [⟨sampleLine, fun _ => 0, 0⟩,
    ⟨sampleAuthorization ++ crlf, fun _ => 0, 0⟩]
    ⟨sampleRequest.bytes, fun _ => 0, 0⟩ rfl rfl).1
  rw [refused, accepted] at same
  cases congrArg Served.credentials same

end Ethersex.Httpd

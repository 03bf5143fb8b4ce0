import Ethersex.CStrings
import Ethersex.EcmdTcpConnection

/-!
# The HTTP server with authentication

`services/httpd/httpd.c` with `HTTPD_AUTH_SUPPORT`: the request is parsed in the packet buffer, the
handler for the file is installed and later called on every event of the connection.  The buffer
is not terminated behind the segment, so the string functions go on into what older packets have
left there.  When the header goes on in a further segment, parsing starts again in
the middle of `httpd_handle_input`, where `filename` is not initialised.

What the handlers send is left out; the file handle, the directory handle and the command of the
union in the connection state belong to the installed handler.
-/

namespace Ethersex.Httpd

open ByteMemory CStrings
open Ecmd (pamUnknown pamPending pamDenied pamSuccess PamAnswer)

inductive Handler where
  | handle400
  | handle401
  | handle404
  | handleVfs
  | handleEcmd
  | handleSdDir
  | handleSdDirRedirect
  | handleSoap
deriving DecidableEq, Repr

/-- The options of the build. -/
structure Config where
  soapSupport : Bool
  sdDirSupport : Bool
  faviconSupport : Bool
  ecmdParserSupport : Bool
  vfsSupport : Bool
  /-- What `strncmp` reads at the address of `"Authorization: "` in program memory. -/
  splitText : List UInt8

/-- `struct httpd_connection_state_t`. -/
structure Connection where
  headerAcked : Bool
  headerReparse : Bool
  eof : Bool
  authState : UInt8
  handler : Option Handler
deriving DecidableEq, Repr

/-- The answers of the other parts of the firmware. -/
structure Environment where
  pamAuth : List UInt8 → List UInt8 → PamAnswer
  vfsOpen : List UInt8 → Bool
  sdChdir : List UInt8 → Bool

/-- What a callback does outside the connection state. -/
inductive Effect where
  | pamAuth (username password : List UInt8)
  | vfsOpen (name : List UInt8) (found : Bool)
  | vfsClose
  | sdChdir (name : List UInt8) (found : Bool)
  | closeDir
  | ecmdInput (command : List UInt8)
  | invoke (handler : Handler) (authState : UInt8)
deriving DecidableEq, Repr

/-- A uIP callback with the packet buffer from `uip_appdata` on, the value `filename` has when it
is not initialised, and what the handler gets to know. -/
structure UipEvent where
  aborted : Bool := false
  timedout : Bool := false
  closed : Bool := false
  connected : Bool := false
  newdata : Bool := false
  rexmit : Bool := false
  acked : Bool := false
  poll : Bool := false
  uipLen : Nat := 0
  buffer : Memory := fun _ => 0
  filename : Nat := 0
  environment : Environment
  readLength : Nat := 0
  mss : Nat := 0
  parserResult : Int := 0
  directoryEnds : Bool := false

def space : UInt8 := 32
def slash : UInt8 := 47
def colon : UInt8 := 58
def lineFeed : UInt8 := 10

/-- `"GET /"` -/
def getText : List UInt8 := [71, 69, 84, 32, 47]

/-- `"POST /soap"` -/
def postText : List UInt8 := [80, 79, 83, 84, 32, 47, 115, 111, 97, 112]

/-- `"Authorization: "` -/
def authorizationText : List UInt8 :=
  [65, 117, 116, 104, 111, 114, 105, 122, 97, 116, 105, 111, 110, 58, 32]

/-- `"Basic "` -/
def basicText : List UInt8 := [66, 97, 115, 105, 99, 32]

/-- `"\r\n"` -/
def crlf : List UInt8 := [13, 10]

/-- `HTTPD_INDEX`, `"idx.ht"` -/
def indexText : List UInt8 := [105, 100, 120, 46, 104, 116]

/-- `"favicon.ico"` -/
def faviconText : List UInt8 := [102, 97, 118, 105, 99, 111, 110, 46, 105, 99, 111]

/-- `"If.ico"` -/
def faviconFile : List UInt8 := [73, 102, 46, 105, 99, 111]

/-- `ECMD_INDEX "?"`, `"ecmd?"` -/
def ecmdText : List UInt8 := [101, 99, 109, 100, 63]

def toLower (byte : UInt8) : UInt8 :=
  if 65 ≤ byte ∧ byte ≤ 90 then byte + 32 else byte

/-- `strncasecmp_P` finds no difference. -/
def sameStartNoCase (memory : Memory) (start : Nat) (text : List UInt8) : Bool :=
  ((cString memory start).take text.length).map toLower == text.map toLower

/-- `cd64`. -/
def cd64 : List UInt8 :=
  [124, 36, 36, 36, 125, 114, 115, 116, 117, 118, 119, 120, 121, 122, 123,
    36, 36, 36, 36, 36, 36, 36,
    62, 63, 64, 65, 66, 67, 68, 69, 70, 71, 72, 73, 74, 75, 76, 77, 78, 79, 80,
    81, 82, 83, 84, 85, 86, 87, 36, 36, 36, 36, 36, 36,
    88, 89, 90, 91, 92, 93, 94, 95, 96, 97, 98, 99, 100, 101, 102, 103, 104,
    105, 106, 107, 108, 109, 110, 111, 112, 113]

/-- The six bits of a character, in `base64_decodeblock`. -/
def sextet (byte : UInt8) : UInt8 :=
  let value := if byte < 43 ∨ 122 < byte then 0 else cd64.getD (byte.toNat - 43) 0
  if value = 0 ∨ value = 36 then 0
  else if value - 61 = 0 then 0 else value - 62

def decodeblock (a b c d : UInt8) : List UInt8 :=
  [sextet a <<< 2 ||| sextet b >>> 4, sextet b <<< 4 ||| sextet c >>> 2,
    (sextet c <<< 6 &&& 0xc0) ||| sextet d]

def padding (c d : UInt8) : Nat :=
  (if d = 61 then 1 else 0) + (if c = 61 then 1 else 0)

/-- The loop of `base64_decode`: the characters as they stand afterwards, and the output for a
number of free bytes. -/
def base64Decode : List UInt8 → Nat → List UInt8 × List UInt8
  | a :: b :: c :: d :: rest, room =>
      if room = 0 then ([], [])
      else
        let output := ((decodeblock a b c d).take (3 - padding c d)).take room
        if padding c d ≠ 0 then ([a, b, c, d].map sextet, output)
        else
          let later := base64Decode rest (room - output.length)
          ([a, b, c, d].map sextet ++ later.1, output ++ later.2)
  | _, _ => ([], [])

/-- `base64_str_decode`, with 256 bytes for the output. -/
def base64StrDecode (memory : Memory) (str : Nat) : Memory :=
  let decoded := base64Decode (cString memory str) 256
  strcpy (writeBlock memory str decoded.1) str (decoded.2.takeWhile (· != 0))

def isSpace (byte : UInt8) : Bool :=
  byte == 32 || (9 ≤ byte && byte ≤ 13)

def hexValue (byte : UInt8) : Option UInt8 :=
  if 48 ≤ byte ∧ byte ≤ 57 then some (byte - 48)
  else if 65 ≤ byte ∧ byte ≤ 70 then some (byte - 55)
  else if 97 ≤ byte ∧ byte ≤ 102 then some (byte - 87)
  else none

def hexDigits (text : List UInt8) : UInt8 :=
  (text.map hexValue |>.takeWhile Option.isSome).foldl
    (fun value digit => value * 16 + digit.getD 0) 0

/-- The low byte of `strtoul` in base 16.  The digits behind `"0x"` do not fit into an escape. -/
def strtoul (text : List UInt8) : UInt8 :=
  match text.dropWhile isSpace with
  | 45 :: rest => 0 - hexDigits rest
  | 43 :: rest => hexDigits rest
  | rest => hexDigits rest

/-- The loop of `httpd_handle_ecmd_setup`, which skips two bytes behind a `%` without looking at
them.  There is no result when the command does not fit. -/
def ecmdDecode (memory : Memory) : Nat → Nat → Option (List UInt8)
  | 0, _ => none
  | maxlen + 1, position =>
      if memory position = 0 then some []
      else if memory position = 43 then
        (ecmdDecode memory maxlen (position + 1)).map (space :: ·)
      else if memory position = 37 then
        (ecmdDecode memory maxlen (position + 3)).map
          (strtoul ([memory (position + 1), memory (position + 2)].takeWhile (· != 0)) :: ·)
      else (ecmdDecode memory maxlen (position + 1)).map (memory position :: ·)

def httpdHandleEcmdSetup (memory : Memory) (encodedCmd : Nat) : Handler × List Effect :=
  match ecmdDecode memory Ecmd.inputbufLength encodedCmd with
  | none => (.handle400, [])
  | some command => (.handleEcmd, [.ecmdInput command])

/-- The directory with the name, with the slash in front of it. -/
def resolveDirectory (config : Config) (environment : Environment) (memory : Memory)
    (filename : Nat) (lastchar : UInt8) : Handler × List Effect :=
  let name := cString memory (filename - 1)
  if config.sdDirSupport then
    if environment.sdChdir name then
      if lastchar ≠ slash then (.handleSdDirRedirect, [.sdChdir name true, .closeDir])
      else (.handleSdDir, [.sdChdir name true])
    else (.handle404, [.sdChdir name false])
  else (.handle404, [])

/-- The file with the name, or the index document in the directory with the name. -/
def resolveFile (config : Config) (environment : Environment) (memory : Memory) (filename : Nat) :
    Handler × List Effect :=
  let name := cString memory filename
  if environment.vfsOpen name then (.handleVfs, [.vfsOpen name true])
  else
    let lastchar := memory (filename + name.length - 1)
    let directory := if lastchar ≠ slash then Function.update memory (filename + name.length) slash
      else memory
    let ptr := if lastchar ≠ slash then filename + name.length + 1 else filename + name.length
    let memory := strcpy directory ptr indexText
    let index := cString memory filename
    if environment.vfsOpen index then (.handleVfs, [.vfsOpen name false, .vfsOpen index true])
    else
      let memory := Function.update memory (if ptr = filename then ptr else ptr - 1) 0
      let found := resolveDirectory config environment memory filename lastchar
      (found.1, [.vfsOpen name false, .vfsOpen index false] ++ found.2)

/-- The names that stand for other ones. -/
def replaceName (config : Config) (memory : Memory) (filename : Nat) : Memory :=
  let memory := if !config.sdDirSupport ∧ memory filename = 0 then strcpy memory filename indexText
    else memory
  if config.faviconSupport ∧ cString memory filename = faviconText then
    strcpy memory filename faviconFile
  else memory

/-- The end of `httpd_handle_input`, from `after_auth` on. -/
def resolve (config : Config) (environment : Environment) (memory : Memory) (filename : Nat) :
    Handler × List Effect :=
  let memory := replaceName config memory filename
  if config.ecmdParserSupport ∧ sameStart memory filename ecmdText 5 then
    httpdHandleEcmdSetup memory (filename + 5)
  else if config.vfsSupport then resolveFile config environment memory filename
  else (.handle404, [])

def httpdCleanup (connection : Connection) : Connection × List Effect :=
  ({ connection with handler := none },
    match connection.handler with
    | some .handleVfs => [.vfsClose]
    | some .handleSdDir => [.closeDir]
    | _ => [])

/-- The text behind the last line end. -/
def lastLine : Nat → List UInt8 → List UInt8
  | 0, text => text
  | fuel + 1, text =>
      match findInfix crlf text with
      | none => text
      | some position => lastLine fuel (text.drop (position + 2))

/-- The three ways out of the search for the credentials. -/
inductive Authorization where
  | failed
  | later
  | credentials (memory : Memory) (username password : List UInt8)

/-- The credentials in the line, behind `"Authorization: "`. -/
def parseCredentials (memory : Memory) (ptr : Nat) : Authorization :=
  if !sameStart memory ptr basicText 6 then .failed
  else
    let ptr := ptr + 6
    match strchr memory ptr lineFeed with
    | none => .failed
    | some nl =>
        let memory := base64StrDecode (Function.update memory nl 0) ptr
        match strchr memory ptr colon with
        | none => .failed
        | some password =>
            let memory := Function.update memory password 0
            .credentials memory (cString memory ptr) (cString memory (password + 1))

/-- The part of `httpd_handle_input` from `start_auth` on. -/
def findCredentials (config : Config) (memory : Memory) (ptr : Nat) : Authorization :=
  match strstr memory ptr authorizationText with
  | some found => parseCredentials memory (found + 15)
  | none =>
      if (strstr memory ptr (crlf ++ crlf)).isSome then .failed
      else
        let text := cString memory ptr
        if lastLine text.length text <+: config.splitText then .failed else .later

def authFailed (connection : Connection) : Connection × List Effect :=
  let cleaned := httpdCleanup connection
  ({ cleaned.1 with handler := some .handle401, headerReparse := false }, cleaned.2)

/-- The parts from `start_auth` on, with the file name. -/
def authorize (config : Config) (environment : Environment) (connection : Connection)
    (memory : Memory) (ptr filename : Nat) : Connection × List Effect :=
  match findCredentials config memory ptr with
  | .failed => authFailed connection
  | .later =>
      let found := resolve config environment memory filename
      ({ connection with headerReparse := true, handler := some found.1 }, found.2)
  | .credentials memory username password =>
      let authState := (environment.pamAuth username password).code
      if connection.headerReparse then
        ({ connection with authState := authState, headerReparse := false },
          [.pamAuth username password])
      else
        let found := resolve config environment memory filename
        ({ connection with authState := authState, handler := some found.1 },
          .pamAuth username password :: found.2)

def httpdHandleInput (config : Config) (connection : Connection) (event : UipEvent) :
    Connection × List Effect :=
  if connection.headerReparse then
    authorize config event.environment connection event.buffer 0 event.filename
  else if event.uipLen < 10 then ({ connection with handler := some .handle400 }, [])
  else if config.soapSupport ∧ sameStartNoCase event.buffer 0 postText then
    ({ connection with handler := some .handleSoap }, [])
  else if !sameStartNoCase event.buffer 0 getText then
    ({ connection with handler := some .handle400 }, [])
  else
    match strchr event.buffer 5 space with
    | none => ({ connection with handler := some .handle400 }, [])
    | some ptr =>
        authorize config event.environment connection
          (Function.update event.buffer ptr 0) (ptr + 1) 5

/-- The header has arrived when anything was acknowledged. -/
def ackHeader (connection : Connection) (event : UipEvent) : Connection :=
  if event.acked then { connection with headerAcked := true } else connection

/-- What `httpd_handle_vfs` does to the connection state. -/
def httpdHandleVfs (connection : Connection) (event : UipEvent) : Connection × List Effect :=
  let connection := ackHeader connection event
  if !connection.headerAcked then (connection, [])
  else if connection.eof ∧ !event.rexmit then (connection, [])
  else if event.readLength = 0 then httpdCleanup connection
  else if event.readLength < event.mss then ({ connection with eof := true }, [])
  else (connection, [])

def httpdHandleEcmd (connection : Connection) (event : UipEvent) : Connection :=
  let connection := ackHeader connection event
  if !connection.headerAcked then connection
  else if event.rexmit ∨ connection.eof then connection
  else if event.parserResult < 0 then connection
  else { connection with eof := true }

def httpdHandleSdDir (connection : Connection) (event : UipEvent) : Connection :=
  if event.acked then
    if !connection.headerAcked then
      { connection with headerAcked := true, eof := connection.eof || event.directoryEnds }
    else if connection.eof then connection
    else { connection with eof := event.directoryEnds }
  else connection

/-- The call of the installed handler. -/
def callHandler (connection : Connection) (event : UipEvent) (handler : Handler) :
    Connection × List Effect :=
  let called :=
    match handler with
    | .handleVfs => httpdHandleVfs connection event
    | .handleEcmd => (httpdHandleEcmd connection event, [])
    | .handleSdDir => (httpdHandleSdDir connection event, [])
    | _ => (connection, [])
  (called.1, .invoke handler connection.authState :: called.2)

def connect (connection : Connection) (event : UipEvent) : Connection :=
  if event.connected then ⟨false, false, false, pamUnknown, none⟩ else connection

def readInput (config : Config) (connection : Connection) (event : UipEvent) :
    Connection × List Effect :=
  if event.newdata ∧ (connection.handler = none ∨ connection.headerReparse) then
    httpdHandleInput config connection event
  else (connection, [])

/-- The reaction to a denied authentication. -/
def checkDenied (connection : Connection) : Connection × List Effect :=
  if connection.authState = pamDenied ∧ connection.handler ≠ some .handle401 then
    authFailed connection
  else (connection, [])

/-- The call of the handler at the end of `httpd_main`. -/
def runHandler (connection : Connection) (event : UipEvent) : Connection × List Effect :=
  if event.rexmit ∨ event.newdata ∨ event.acked ∨ event.poll ∨ event.connected then
    match connection.handler with
    | none => (connection, [])
    | some handler =>
        if connection.headerReparse then (connection, []) else callHandler connection event handler
  else (connection, [])

def httpdMain (config : Config) (connection : Connection) (event : UipEvent) :
    Connection × List Effect :=
  if event.aborted ∨ event.timedout ∨ event.closed then httpdCleanup connection
  else
    let read := readInput config (connect connection event) event
    let checked := checkDenied read.1
    if checked.1.authState = pamPending then (checked.1, read.2 ++ checked.2)
    else
      let run := runHandler checked.1 event
      (run.1, read.2 ++ checked.2 ++ run.2)

end Ethersex.Httpd

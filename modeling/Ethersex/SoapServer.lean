import Ethersex.HttpdServer

/-!
# SOAP requests over HTTP

`protocols/soap/soap.c` reads an XML document byte by byte and keeps what it needs in
a context of the connection; `httpd_handle_soap` feeds it with the segments of
a request, calls the function that was asked for, and pastes the response.  The
table of the functions is generated by the build, the functions themselves belong
to other modules, and `malloc` is the one of the C library.
-/

namespace Ethersex.Soap

open ByteMemory CStrings

def soapMaxargs : Nat := 5

/-- The size of `buf`. -/
def bufSize : Nat := 69

inductive ParserState where
  | white
  | ignoreString
  | waitStringEnd
  | element
  | elementWhite
  | data
deriving DecidableEq, Repr

inductive SoapType where
  | int
  | string
  | uint32
deriving DecidableEq, Repr

/-- `soap_data_t`.  The members of the union stand side by side; each is read under its own
type only. -/
structure SoapData where
  type : SoapType
  dInt : UInt16
  dString : List UInt8
  dUint32 : UInt32
deriving DecidableEq, Repr

/-- `soap_context_t`; `rpc` is the index of the function in `soap_cmds`. -/
structure Context where
  foundEnvelope : Bool
  foundBody : Bool
  foundFuncname : Bool
  error : Bool
  parsing : Bool
  parsingComplete : Bool
  copyString : Bool
  evaluated : Bool
  parserState : ParserState
  buf : Memory
  buflen : Nat
  bufBacktrackPos : Nat
  args : Nat → SoapData
  argslen : Nat
  rpc : Option Nat

/-- What is outside of the two files: the names in `soap_cmds`, the functions (whether they
fail, and their result), and whether the heap has so many bytes. -/
structure SoapEnv where
  commands : List (List UInt8)
  handler : Option Nat → List SoapData → Bool × SoapData
  malloc : Nat → Bool

def zeroData : SoapData := ⟨.int, 0, [], 0⟩

def soapInitializeContext : Context where
  foundEnvelope := false
  foundBody := false
  foundFuncname := false
  error := false
  parsing := false
  parsingComplete := false
  copyString := false
  evaluated := false
  parserState := .white
  buf := fun _ => 0
  buflen := 0
  bufBacktrackPos := 0
  args := fun _ => zeroData
  argslen := 0
  rpc := none

/-- What `SOAP_STREAM_ERROR` does to the context. -/
def streamError (ctx : Context) : Context := { ctx with error := true, parsingComplete := true }

def quote : UInt8 := 34
def slash : UInt8 := 47
def colon : UInt8 := 58
def less : UInt8 := 60
def equals : UInt8 := 61
def greater : UInt8 := 62
def questionMark : UInt8 := 63

def isblank (byte : UInt8) : Bool := byte == 32 || byte == 9

/-- `"xmlns"` -/
def xmlnsText : List UInt8 := [120, 109, 108, 110, 115]

/-- `"Envelope"` -/
def envelopeText : List UInt8 := [69, 110, 118, 101, 108, 111, 112, 101]

/-- `"Body"` -/
def bodyText : List UInt8 := [66, 111, 100, 121]

/-- `"/Body"` -/
def bodyEndText : List UInt8 := [47, 66, 111, 100, 121]

/-- `"type="` -/
def typeText : List UInt8 := [116, 121, 112, 101, 61]

/-- `"int"` -/
def intText : List UInt8 := [105, 110, 116]

/-- `"string"` -/
def stringText : List UInt8 := [115, 116, 114, 105, 110, 103]

def digits (text : List UInt8) : UInt16 :=
  (text.takeWhile fun byte => 48 ≤ byte && byte ≤ 57).foldl
    (fun value byte => value * 10 + (byte - 48).toUInt16) 0

/-- `atoi`, with a number of 16 bits. -/
def atoi (text : List UInt8) : UInt16 :=
  match text.dropWhile Httpd.isSpace with
  | 45 :: rest => 0 - digits rest
  | 43 :: rest => digits rest
  | rest => digits rest

def soapBufPutchar (ctx : Context) (ch : UInt8) : Context :=
  if bufSize - 1 ≤ ctx.buflen then ctx
  else { ctx with buf := Function.update ctx.buf ctx.buflen ch, buflen := ctx.buflen + 1 }

def soapBufBacktrack (ctx : Context) : Context := { ctx with buflen := ctx.bufBacktrackPos }

def soapBufBacktrackSavepos (ctx : Context) : Context :=
  { ctx with bufBacktrackPos := ctx.buflen }

def soapBufClear (ctx : Context) : Context := { ctx with buflen := 0, bufBacktrackPos := 0 }

/-- The name stands behind the `<` and ends at a blank; the byte in front of the end of the
buffer, the `>`, is stripped. -/
def soapLookupFuncname (env : SoapEnv) (ctx : Context) : Context :=
  let buf := Function.update ctx.buf (ctx.buflen - 1) 0
  let text := cString buf 1
  let funcname := text.takeWhile fun byte => !isblank byte
  let ctx := { ctx with
    buf := if funcname.length < text.length then
      Function.update buf (1 + funcname.length) 0
    else
      buf }
  match env.commands.findIdx? (· == funcname) with
  | none => streamError ctx
  | some index => { ctx with rpc := some index }

def setType (ctx : Context) (type : SoapType) : Context :=
  { ctx with args := Function.update ctx.args ctx.argslen { ctx.args ctx.argslen with type } }

/-- The type of the next argument.  When `type=` ends the full buffer, the search for the quote
goes on in the counters behind it, which do not spell a type. -/
def soapParseType (ctx : Context) : Context :=
  match strstr ctx.buf 1 typeText with
  | none => streamError ctx
  | some found =>
      let ptr := found + 6
      if bufSize ≤ ptr then streamError ctx
      else
        match strchr ctx.buf ptr quote with
        | none => streamError ctx
        | some stop =>
            let ctx := { ctx with buf := Function.update ctx.buf stop 0 }
            let start :=
              match strchr ctx.buf ptr colon with
              | some position => position + 1
              | none => ptr
            if cString ctx.buf start = intText then setType ctx .int
            else if cString ctx.buf start = stringText then setType ctx .string
            else streamError ctx

/-- `soap_parse_element` behind its first checks, with the terminated buffer. -/
def soapParseTag (env : SoapEnv) (ctx : Context) : Context :=
  if !ctx.foundEnvelope then
    if sameStart ctx.buf 1 envelopeText 8 then { ctx with foundEnvelope := true }
    else streamError ctx
  else if !ctx.foundBody then
    if sameStart ctx.buf 1 bodyText 4 then { ctx with foundBody := true } else ctx
  else if !ctx.foundFuncname then
    { soapLookupFuncname env ctx with foundFuncname := true }
  else if sameStart ctx.buf 1 bodyEndText 5 then { ctx with parsingComplete := true }
  else if ctx.buf 1 ≠ slash ∧ ctx.argslen < soapMaxargs then soapParseType ctx
  else ctx

def soapParseElement (env : SoapEnv) (ctx : Context) : Context :=
  if ctx.buf 0 ≠ less then streamError ctx
  else if ctx.buf 1 = questionMark then ctx
  else if ctx.parsingComplete then ctx
  else soapParseTag env { ctx with buf := Function.update ctx.buf ctx.buflen 0 }

def setArgument (ctx : Context) (argument : SoapData) : Context :=
  { ctx with args := Function.update ctx.args ctx.argslen argument }

def soapParseData (env : SoapEnv) (ctx : Context) : Context :=
  if soapMaxargs ≤ ctx.argslen then ctx
  else
    let ctx := { ctx with buf := Function.update ctx.buf ctx.buflen 0 }
    let text := cString ctx.buf 0
    let argument := ctx.args ctx.argslen
    match argument.type with
    | .int =>
        { setArgument ctx { argument with dInt := atoi text } with argslen := ctx.argslen + 1 }
    | .string =>
        if env.malloc text.length then
          { setArgument ctx { argument with dString := text } with argslen := ctx.argslen + 1 }
        else
          setArgument ctx { argument with dString := [] }
    | .uint32 => { ctx with argslen := ctx.argslen + 1 }

/-- The blank in front of the `>` is removed. -/
def stripBlank (ctx : Context) : Context :=
  if ctx.buflen ≠ 0 ∧ isblank (ctx.buf (ctx.buflen - 1)) then { ctx with buflen := ctx.buflen - 1 }
  else ctx

/-- Behind an end tag there is no data. -/
def closeElement (ctx : Context) : Context :=
  soapBufClear { ctx with
    parserState := if 2 < ctx.buflen ∧ ctx.buf 1 = slash then .white else .data }

/-- The `>` of an element. -/
def endElement (env : SoapEnv) (ctx : Context) : Context :=
  closeElement (soapParseElement env (soapBufPutchar (stripBlank ctx) greater))

/-- The buffer ends in `xmlns`. -/
def behindXmlns (ctx : Context) : Bool :=
  decide (5 ≤ ctx.buflen) && readBlock ctx.buf (ctx.buflen - 5) 5 == xmlnsText

/-- The state `SOAP_PARSER_ELEMENT`. -/
def elementByte (env : SoapEnv) (ctx : Context) (byte : UInt8) : Context :=
  if byte = 32 then
    { soapBufBacktrackSavepos (soapBufPutchar ctx byte) with parserState := .elementWhite }
  else if (byte = equals ∨ byte = colon) ∧ behindXmlns ctx then
    { soapBufBacktrack ctx with parserState := .ignoreString }
  else if byte = colon then
    soapBufBacktrack ctx
  else if byte = greater then
    endElement env ctx
  else
    let ctx :=
      if byte = quote then { ctx with copyString := true, parserState := .waitStringEnd } else ctx
    let ctx := soapBufPutchar ctx byte
    if byte = slash then soapBufBacktrackSavepos ctx else ctx

/-- The state `SOAP_PARSER_DATA`. -/
def dataByte (env : SoapEnv) (ctx : Context) (byte : UInt8) : Context :=
  let ctx :=
    if byte = less then
      { soapBufClear (if ctx.buflen ≠ 0 then soapParseData env ctx else ctx) with
        parserState := .element }
    else
      ctx
  soapBufBacktrackSavepos (soapBufPutchar ctx byte)

/-- The byte can only stand inside of an element: `soap_parse` reports an error and returns. -/
def isStray (ctx : Context) (byte : UInt8) : Bool :=
  ctx.parserState == .white && !isblank byte && byte != less

/-- One turn of the loop, for a byte that is not stray. -/
def soapByte (env : SoapEnv) (ctx : Context) (byte : UInt8) : Context :=
  match ctx.parserState with
  | .white =>
      if isblank byte then ctx
      else
        { soapBufBacktrackSavepos (soapBufPutchar ctx byte) with parserState := .element }
  | .ignoreString =>
      if byte = quote then { ctx with copyString := false, parserState := .waitStringEnd } else ctx
  | .waitStringEnd =>
      let ctx := if ctx.copyString then soapBufPutchar ctx byte else ctx
      if byte = quote then { ctx with parserState := .elementWhite } else ctx
  | .elementWhite =>
      if isblank byte then ctx else elementByte env { ctx with parserState := .element } byte
  | .element => elementByte env ctx byte
  | .data => dataByte env ctx byte

/-- The loop of `soap_parse`. -/
def soapBytes (env : SoapEnv) : Context → List UInt8 → Context
  | ctx, [] => ctx
  | ctx, byte :: bytes =>
      if isStray ctx byte then streamError ctx else soapBytes env (soapByte env ctx byte) bytes

def soapParse (env : SoapEnv) (ctx : Context) (bytes : List UInt8) : Context :=
  if ctx.error then ctx else soapBytes env ctx bytes

/-- A call of an RPC handler. -/
structure RpcCall where
  rpc : Option Nat
  args : List SoapData
deriving DecidableEq, Repr

def rpcCall (ctx : Context) : RpcCall := ⟨ctx.rpc, (List.range ctx.argslen).map ctx.args⟩

def soapEvaluate (env : SoapEnv) (ctx : Context) : Context :=
  let answer := env.handler ctx.rpc (rpcCall ctx).args
  { ctx with
    error := ctx.error || answer.1
    evaluated := true
    args := Function.update ctx.args 0 answer.2 }

/-- The response that is pasted: `200` with the result, or `500` with the fault. -/
inductive Response where
  | result (rpc : Option Nat) (value : SoapData)
  | fault
deriving DecidableEq, Repr

def response (ctx : Context) : Response :=
  if ctx.error then .fault else .result ctx.rpc (ctx.args 0)

/-- Which handler `httpd_handle_input` has installed. -/
inductive Installed where
  | none
  | soap
  | other
deriving DecidableEq, Repr

/-- A connection of the server, with the calls and the responses so far. -/
structure Connection where
  installed : Installed
  soap : Context
  calls : List RpcCall
  responses : List Response
  closed : Bool

def newConnection : Connection := ⟨.none, soapInitializeContext, [], [], false⟩

/-- What makes uIP call the server: a segment with its data and whether it acknowledges what is
in flight.  A timer brings no data. -/
structure Arrival where
  data : List UInt8
  acks : Bool
deriving DecidableEq, Repr

def Arrival.newdata (arrival : Arrival) : Bool := !arrival.data.isEmpty

/-- Only the response is ever in flight. -/
def Arrival.acked (arrival : Arrival) (connection : Connection) : Bool :=
  arrival.acks && !connection.responses.isEmpty

/-- The text behind the first empty line, as `strstr` finds it in a segment. -/
def headerEnd (segment : List UInt8) : Option Nat :=
  (findInfix (Httpd.crlf ++ Httpd.crlf) (segment.takeWhile (· != 0))).map (· + 4)

/-- The part of `httpd_handle_soap` that reads new data; there is no result while the header has
not ended. -/
def readSegment (env : SoapEnv) (ctx : Context) (segment : List UInt8) : Option Context :=
  if ctx.parsing then
    some (soapParse env ctx segment)
  else
    (headerEnd segment).map fun start =>
      soapParse env { ctx with parsing := true } (segment.drop start)

/-- The part of `httpd_handle_soap` behind the new data. -/
def answerRequest (env : SoapEnv) (connection : Connection) (acked : Bool) : Connection :=
  if acked then { connection with closed := true }
  else if connection.soap.parsingComplete then
    if !connection.soap.error && !connection.soap.evaluated then
      let soap := soapEvaluate env connection.soap
      { connection with
        soap
        calls := connection.calls ++ [rpcCall connection.soap]
        responses := connection.responses ++ [response soap] }
    else
      { connection with responses := connection.responses ++ [response connection.soap] }
  else
    connection

def httpdHandleSoap (env : SoapEnv) (connection : Connection) (arrival : Arrival) : Connection :=
  if arrival.newdata then
    match readSegment env connection.soap arrival.data with
    | none => connection
    | some soap => answerRequest env { connection with soap } (arrival.acked connection)
  else
    answerRequest env connection (arrival.acked connection)

/-- The request is for `httpd_handle_soap`. -/
def isSoapRequest (segment : List UInt8) : Bool :=
  decide (10 ≤ segment.length) &&
    (segment.take 10).map Httpd.toLower == Httpd.postText.map Httpd.toLower

/-- `httpd_handle_input`, as far as it concerns SOAP. -/
def httpdHandleInput (connection : Connection) (segment : List UInt8) : Connection :=
  if isSoapRequest segment then
    { connection with installed := .soap, soap := soapInitializeContext }
  else
    { connection with installed := .other }

/-- `httpd_main` with the handler; behind `uip_close` the connection delivers nothing. -/
def httpdMain (env : SoapEnv) (connection : Connection) (arrival : Arrival) : Connection :=
  if connection.closed then connection
  else
    let connection :=
      if arrival.newdata ∧ connection.installed = .none then
        httpdHandleInput connection arrival.data
      else
        connection
    if connection.installed = .soap then httpdHandleSoap env connection arrival else connection

def serve (env : SoapEnv) (arrivals : List Arrival) : Connection :=
  arrivals.foldl (httpdMain env) newConnection

end Ethersex.Soap

import Ethersex.SoapBounds

/-!
# Requests for the SOAP parser

A request is a document with an `Envelope`, a `Body`, an element for the function, and
elements for its arguments.  Here are the documents as they are written, and what the parser has
of one when it is received: the number of arguments, their types and values, and every string in
the memory that was allocated for it.
-/

namespace Ethersex.Soap

open CStrings

/-- No byte of a name. -/
def delimiters : List UInt8 := [0, 9, 32, quote, slash, colon, less, equals, greater, questionMark]

structure Name where
  text : List UInt8
  nonempty : text ≠ []
  bytes : ∀ byte ∈ text, byte ∉ delimiters

structure Blanks where
  text : List UInt8
  blank : ∀ byte ∈ text, isblank byte = true

/-- The prefix of a namespace, with its colon. -/
def scopeText : Option Name → List UInt8
  | none => []
  | some scope => scope.text ++ [colon]

/-- Blanks in front of the end of a tag; inside of a tag the first one is a space. -/
def tailText : Option Blanks → List UInt8
  | none => []
  | some blanks => 32 :: blanks.text

structure Attribute where
  blanks : Blanks
  scope : Option Name
  name : Name
  value : List UInt8
  unquoted : quote ∉ value

def Attribute.text (entry : Attribute) : List UInt8 :=
  32 :: (entry.blanks.text ++ (scopeText entry.scope ++
    (entry.name.text ++ (equals :: quote :: (entry.value ++ [quote])))))

/-- The declaration of a namespace, `xmlns="..."` or `xmlns:name="..."`. -/
structure Declaration where
  blanks : Blanks
  declared : Option Name
  uri : List UInt8
  unquoted : quote ∉ uri

def declaredText : Option Name → List UInt8
  | none => []
  | some name => colon :: name.text

def Declaration.text (declaration : Declaration) : List UInt8 :=
  32 :: (declaration.blanks.text ++ (xmlnsText ++ (declaredText declaration.declared ++
    (equals :: quote :: (declaration.uri ++ [quote])))))

def startTag (scope : Option Name) (name attributes : List UInt8) (tail : Option Blanks) :
    List UInt8 :=
  less :: (scopeText scope ++ (name ++ (attributes ++ (tailText tail ++ [greater]))))

def endTag (scope : Option Name) (name : List UInt8) (tail : Option Blanks) : List UInt8 :=
  less :: slash :: (scopeText scope ++ (name ++ (tailText tail ++ [greater])))

/-- An element around other elements, with the blanks behind its two tags. -/
structure Element (name : List UInt8) where
  scope : Option Name
  attributes : List Attribute
  tail : Option Blanks
  blanks : Blanks
  endTail : Option Blanks
  endBlanks : Blanks
  startFits : (startTag scope name (attributes.flatMap Attribute.text) tail).length ≤ 68
  endFits : (endTag scope name endTail).length ≤ 68

variable {name : List UInt8}

def Element.startText (element : Element name) : List UInt8 :=
  startTag element.scope name (element.attributes.flatMap Attribute.text) element.tail

def Element.opening (element : Element name) : List UInt8 :=
  element.startText ++ element.blanks.text

def Element.endText (element : Element name) : List UInt8 :=
  endTag element.scope name element.endTail

def Element.closing (element : Element name) : List UInt8 :=
  element.endText ++ element.endBlanks.text

/-- `"xml"` -/
def xmlText : List UInt8 := [120, 109, 108]

def instructionTag (attributes : List UInt8) (tail : Option Blanks) : List UInt8 :=
  less :: questionMark :: (xmlText ++ (attributes ++ (tailText tail ++ [questionMark, greater])))

/-- `<?xml ...?>` -/
structure Instruction where
  attributes : List Attribute
  tail : Option Blanks
  blanks : Blanks
  fits : (instructionTag (attributes.flatMap Attribute.text) tail).length ≤ 68

def Instruction.text (instruction : Instruction) : List UInt8 :=
  instructionTag (instruction.attributes.flatMap Attribute.text) instruction.tail

def Instruction.opening (instruction : Instruction) : List UInt8 :=
  instruction.text ++ instruction.blanks.text

inductive Sign where
  | unsigned
  | plus
  | minus

def Sign.text : Sign → List UInt8
  | .unsigned => []
  | .plus => [43]
  | .minus => [45]

def Sign.apply : Sign → Nat → Int
  | .minus, number => -number
  | _, number => number

def digitText (digits : List (Fin 10)) : List UInt8 :=
  digits.map fun digit : Fin 10 => UInt8.ofNat (48 + digit.val)

def digitValue (digits : List (Fin 10)) : Nat :=
  digits.foldl (fun value (digit : Fin 10) => 10 * value + digit.val) 0

/-- A decimal number of 16 bits. -/
structure Number where
  lead : Blanks
  sign : Sign
  digits : List (Fin 10)
  trail : Blanks
  nonempty : digits ≠ []
  low : -32768 ≤ sign.apply (digitValue digits)
  high : sign.apply (digitValue digits) ≤ 32767

def Number.text (number : Number) : List UInt8 :=
  number.lead.text ++ (number.sign.text ++ (digitText number.digits ++ number.trail.text))

def Number.value (number : Number) : Int := number.sign.apply (digitValue number.digits)

inductive Value where
  | int (number : Number)
  | string (text : List UInt8) (nonzero : 0 ∉ text) (data : less ∉ text)

def Value.text : Value → List UInt8
  | .int number => number.text
  | .string text _ _ => text

def Value.typeName : Value → List UInt8
  | .int _ => intText
  | .string _ _ _ => stringText

/-- `type="..."`, with the prefixes of the name and of the type. -/
def typeAttribute (blanks : Blanks) (scope typeScope : Option Name) (value : Value) : List UInt8 :=
  32 :: (blanks.text ++ (scopeText scope ++ (typeText ++
    (quote :: (scopeText typeScope ++ (value.typeName ++ [quote]))))))

def argumentAttributes (before : List Declaration) (blanks : Blanks)
    (scope typeScope : Option Name) (value : Value) (after : List Declaration) : List UInt8 :=
  before.flatMap Declaration.text ++
    (typeAttribute blanks scope typeScope value ++ after.flatMap Declaration.text)

/-- An element for an argument; its start tag has the type and declarations of namespaces. -/
structure Argument where
  scope : Option Name
  name : Name
  before : List Declaration
  typeBlanks : Blanks
  attributeScope : Option Name
  typeScope : Option Name
  after : List Declaration
  tail : Option Blanks
  value : Value
  endTail : Option Blanks
  blanks : Blanks
  startFits : (startTag scope name.text
    (argumentAttributes before typeBlanks attributeScope typeScope value after) tail).length ≤ 68
  textFits : value.text.length ≤ 68
  endFits : (endTag scope name.text endTail).length ≤ 68

def Argument.startText (argument : Argument) : List UInt8 :=
  startTag argument.scope argument.name.text
    (argumentAttributes argument.before argument.typeBlanks argument.attributeScope
      argument.typeScope argument.value argument.after) argument.tail

def Argument.endText (argument : Argument) : List UInt8 :=
  endTag argument.scope argument.name.text argument.endTail

def Argument.text (argument : Argument) : List UInt8 :=
  argument.startText ++ (argument.value.text ++ (argument.endText ++ argument.blanks.text))

/-- A request for a function of the table. -/
structure Document (env : SoapEnv) where
  lead : Blanks
  instruction : Option Instruction
  envelope : Element envelopeText
  body : Element bodyText
  funcname : Name
  function : Element funcname.text
  arguments : List Argument
  known : funcname.text ∈ env.commands
  few : arguments.length ≤ 5

variable {env : SoapEnv}

def instructionText : Option Instruction → List UInt8
  | none => []
  | some instruction => instruction.opening

def Document.text (document : Document env) : List UInt8 :=
  document.lead.text ++ (instructionText document.instruction ++ (document.envelope.opening ++
    (document.body.opening ++ (document.function.opening ++
      (document.arguments.flatMap Argument.text ++ (document.function.closing ++
        (document.body.closing ++ document.envelope.closing)))))))

/-- The string that `soap_parse_data` copies into the heap. -/
def copiedString (env : SoapEnv) (ctx : Context) (byte : UInt8) : Option (List UInt8) :=
  if ctx.parserState = .data ∧ byte = less ∧ ctx.buflen ≠ 0 ∧ ctx.argslen < soapMaxargs ∧
      (ctx.args ctx.argslen).type = .string then
    let text := cString (Function.update ctx.buf ctx.buflen 0) 0
    if env.malloc text.length then some text else none
  else
    none

/-- `malloc(strlen(ctx->buf))` -/
def allocated (text : List UInt8) : Nat := text.length

/-- `strcpy` writes the string and its terminating zero. -/
def written (text : List UInt8) : Nat := (text ++ [0]).length

/-- What is copied stays inside of the memory allocated for it. -/
def CopyContained (env : SoapEnv) (ctx : Context) (byte : UInt8) : Prop :=
  ∀ text ∈ copiedString env ctx byte, written text ≤ allocated text

def Value.StoredIn : Value → SoapData → Prop
  | .int number, data => data.type = .int ∧ data.dInt.toBitVec.toInt = number.value
  | .string text _ _, data => data.type = .string ∧ data.dString = text

/-- The context behind some calls of `soap_parse`. -/
def parseCalls (env : SoapEnv) (calls : List (List UInt8)) : Context :=
  calls.foldl (soapParse env) soapInitializeContext

/-- The calls have received these arguments. -/
structure Received (env : SoapEnv) (calls : List (List UInt8)) (values : List Value) : Prop where
  error : (parseCalls env calls).error = false
  complete : (parseCalls env calls).parsingComplete = true
  argslen : (parseCalls env calls).argslen = values.length
  args : ∀ index (inside : index < values.length),
    (values.get ⟨index, inside⟩).StoredIn ((parseCalls env calls).args index)
  copies : EveryCall env (CopyContained env) soapInitializeContext calls

def Document.values (document : Document env) : List Value := document.arguments.map Argument.value

/-- The prefix does not end like the declaration of a namespace. -/
def PlainScope (scope : Option Name) : Prop := ∀ name ∈ scope, ¬xmlnsText <:+ name.text

/-- No prefix of a tag ends in `xmlns`. -/
structure PlainScopes (document : Document env) : Prop where
  envelope : PlainScope document.envelope.scope
  body : PlainScope document.body.scope
  function : PlainScope document.function.scope
  arguments : ∀ argument ∈ document.arguments, PlainScope argument.scope

/-- The type is still in the buffer at the end of the tag. -/
structure Argument.TypeKept (argument : Argument) : Prop where
  last : argument.after = []
  plain : PlainScope argument.attributeScope

/-- Its end tag is taken for the one of the body. -/
def Argument.EndsBody (argument : Argument) : Prop := bodyText <+: argument.name.text

def Value.IsNumber : Value → Prop
  | .int _ => True
  | .string _ _ _ => False

def Value.number : Value → Int
  | .int number => number.value
  | .string _ _ _ => 0

/-- The places behind the start tags in front of the arguments. -/
def Document.gaps (document : Document env) : List (List UInt8) :=
  document.instruction.toList.map (·.blanks.text) ++
    [document.envelope.blanks.text, document.body.blanks.text, document.function.blanks.text]

/-- Blanks behind a start tag are taken for an argument. -/
def Document.strays (document : Document env) : Nat :=
  (document.gaps.filter (!·.isEmpty)).length

/-- The documents that are received, as far as the prefixes of their tags are plain. -/
structure Readable (document : Document env) : Prop where
  plain : PlainScopes document
  numbers : ∀ argument ∈ document.arguments, argument.value.IsNumber
  strays : document.strays = 0 ∨
    document.arguments.length = 5 ∧ ∀ argument ∈ document.arguments, argument.value.number = 0
  types : ∀ before argument after, document.arguments = before ++ argument :: after →
    document.strays + before.length < 5 →
      (∃ earlier ∈ before, earlier.EndsBody) ∨ argument.TypeKept

end Ethersex.Soap

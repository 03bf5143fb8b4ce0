import Ethersex.SoapElements
import Ethersex.SoapStrings

/-!
# The arguments of a SOAP request

A request is received if and only if it holds no strings, no blanks stand behind the start tags
in front of its arguments, and the type of each argument is still in the buffer at the end of its
tag.  The memory of a string has no room for its terminating zero; blanks are stored as a number; a
declaration behind the type takes it back.
-/

namespace Ethersex.Soap

open ByteMemory CStrings

variable {env : SoapEnv} {argument : Argument} {arguments : List Argument}

/-- What is stored for an argument that is a number. -/
def Argument.stored (argument : Argument) : UInt16 := UInt16.ofInt argument.value.number

variable {document : Document env}

/-- The document up to the first argument. -/
def Document.front (document : Document env) : List UInt8 :=
  document.lead.text ++ (instructionText document.instruction ++ (document.envelope.opening ++
    (document.body.opening ++ document.function.opening)))

/-- The document behind the last argument. -/
def Document.back (document : Document env) : List UInt8 :=
  document.function.closing ++ (document.body.closing ++ document.envelope.closing)

theorem toInt_inj {first second : UInt16} (same : first.toBitVec.toInt = second.toBitVec.toInt) :
    first = second :=
  UInt16.toBitVec_inj.mp (BitVec.toInt_inj.mp same)

variable {calls : List (List UInt8)}

end Ethersex.Soap
